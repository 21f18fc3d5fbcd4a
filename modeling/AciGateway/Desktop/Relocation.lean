import AciGateway.Lib.Faults
import AciGateway.Lib.Octets

/-! The move of the settings files from the old directory to the new one, over a disk whose calls
may fail and whose process may die at any of them. -/
namespace AciGateway.Desktop.Relocation

open Faults Octets

/-! The disk. -/

/-- The directory a path is in. -/
inductive Side where
  | old
  | new
  deriving DecidableEq

inductive File where
  | config
  | credentials
  | schema
  deriving DecidableEq

def File.name : File → String
  | config => "config.toml"
  | credentials => "credentials.toml"
  | schema => "config.schema.json"

/-- Moved in this order. -/
def files : List File := [.config, .credentials]

structure Place where
  side : Side
  file : File
  deriving DecidableEq

/-- What a path may lead to. A modification time is absent where the system gives none since the
epoch. -/
inductive Kind where
  | file (content : Bytes) (modified : Option Nat)
  | directory (size : Nat) (modified : Option Nat)
  deriving DecidableEq

inductive Target where
  | outside (i : Nat)
  | place (p : Place)
  deriving DecidableEq

inductive Node where
  | here (k : Kind)
  | link (t : Target)
  deriving DecidableEq

/-- What is at a directory's own path: `linked` is a link to a directory, `blocked` anything that
is no directory. -/
inductive DirKind where
  | absent
  | plain
  | linked
  | blocked
  deriving DecidableEq

def DirKind.isDir : DirKind → Bool
  | plain | linked => true
  | _ => false

/-- The two directories, or one that both paths lead to. -/
inductive Dirs where
  | one (oldLinked : Bool)
  | two (old new : DirKind)
  deriving DecidableEq

def Dirs.kind : Dirs → Side → DirKind
  | one oldLinked, .old => if oldLinked then .linked else .plain
  | one oldLinked, .new => if oldLinked then .plain else .linked
  | two old _, .old => old
  | two _ new, .new => new

structure Stamp where
  file : String
  size : Nat
  modified : Nat
  deriving DecidableEq

def Stamp.legacyLine (s : Stamp) : String :=
  s.file ++ " " ++ toString s.size ++ " " ++ toString s.modified

/-- The record of reported files, as it is read back. -/
inductive Record where
  | stamps (l : List Stamp)
  | legacy (lines : List String)
  deriving DecidableEq

structure Disk where
  dirs : Dirs
  entries : Side → File → Option Node
  /-- What links out of both directories lead to. -/
  elsewhere : Nat → Option Kind
  /-- The old directory holds files of other names. -/
  others : Bool
  record : Option Record
  /-- The time a new file gets. -/
  clock : Option Nat

/-- Where a path leads, with its canonical form. -/
inductive Found where
  | missing
  | looping
  | found (loc : Target) (k : Kind)
  deriving DecidableEq

namespace Disk

variable (d : Disk)

/-- The directory a side's path leads to. -/
def home (s : Side) : Side :=
  match d.dirs with
  | .one _ => .old
  | .two .. => s

def lookup (p : Place) : Option Node :=
  if (d.dirs.kind p.side).isDir then d.entries (d.home p.side) p.file else none

/-- Follow links, as many as the system does. -/
def resolve : Nat → Place → Found
  | 0, _ => .looping
  | n + 1, p =>
    match d.lookup p with
    | none => .missing
    | some (.here k) => .found (.place ⟨d.home p.side, p.file⟩) k
    | some (.link (.outside i)) =>
      match d.elsewhere i with
      | some k => .found (.outside i) k
      | none => .missing
    | some (.link (.place q)) => resolve n q

def symlinkLimit : Nat := 40

def find (p : Place) : Found := d.resolve symlinkLimit p

def pathExists (p : Place) : Bool :=
  match d.find p with
  | .found .. => true
  | _ => false

def isPresent (p : Place) : Bool := (d.lookup p).isSome

def isSymlink (p : Place) : Bool :=
  match d.lookup p with
  | some (.link _) => true
  | _ => false

def sameDirs : Bool :=
  match d.dirs with
  | .one _ => true
  | .two .. => false

def samePath (f : File) : Bool :=
  match d.find ⟨.old, f⟩, d.find ⟨.new, f⟩ with
  | .found l _, .found l' _ => l = l'
  | _, _ => false

end Disk

inductive IoError where
  | notFound
  | alreadyExists
  | isADirectory
  | tooManyLinks
  | notADirectory
  | symlinkRefused
  | failed
  deriving DecidableEq

def IoError.display : IoError → String
  | notFound => "No such file or directory (os error 2)"
  | alreadyExists => "File exists (os error 17)"
  | isADirectory => "Is a directory (os error 21)"
  | tooManyLinks => "Too many levels of symbolic links (os error 40)"
  | notADirectory => "Not a directory (os error 20)"
  | symlinkRefused => "the path is a symlink; refusing to use it"
  | failed => "Input/output error (os error 5)"

namespace Disk

variable (d : Disk)

/-- What reading a path gives. -/
def fsRead (p : Place) : Except IoError Bytes :=
  match d.find p with
  | .found _ (.file content _) => .ok content
  | .found _ (.directory ..) => .error .isADirectory
  | .missing => .error .notFound
  | .looping => .error .tooManyLinks

def canonicalize (p : Place) : Except IoError Target :=
  match d.find p with
  | .found l _ => .ok l
  | .missing => .error .notFound
  | .looping => .error .tooManyLinks

def read (p : Place) : Except IoError (Option Bytes) :=
  if p.file = .credentials ∧ d.isSymlink p then .error .symlinkRefused
  else
    match d.fsRead p with
    | .ok content => .ok (some content)
    | .error .notFound => .ok none
    | .error e => .error e

/-- The content read at a path, whatever is there. -/
def content (p : Place) : Option Bytes := (d.fsRead p).toOption

def put (p : Place) (node : Option Node) : Disk :=
  { d with
    entries := fun s f => if s = d.home p.side ∧ f = p.file then node else d.entries s f }

/-- Make an entry that must not be there yet. -/
def create (p : Place) (node : Node) : Except IoError Unit × Disk :=
  if d.isPresent p then (.error .alreadyExists, d)
  else if (d.dirs.kind p.side).isDir then (.ok (), d.put p (some node))
  else (.error .notFound, d)

def erase (p : Place) : Disk := if d.isPresent p then d.put p none else d

/-- Make the new directory. -/
def createPrivateDir : Except IoError Unit × Disk :=
  match d.dirs with
  | .two old .absent =>
    (.ok (), { d with
      dirs := .two old .plain
      entries := fun s f => if s = .new then none else d.entries s f })
  | .two _ .blocked => (.error .notADirectory, d)
  | _ => (.ok (), d)

/-- Remove the old directory if it is empty. -/
def removeOldDir : Disk :=
  match d.dirs with
  | .two .plain new =>
    if d.others ∨ [File.config, .credentials, .schema].any (fun f => d.isPresent ⟨.old, f⟩) then d
    else { d with dirs := .two .absent new }
  | _ => d

def stamp (f : File) : Option Stamp :=
  match d.find ⟨.old, f⟩ with
  | .found _ (.file content modified) => modified.map (⟨f.name, content.length, ·⟩)
  | .found _ (.directory size modified) => modified.map (⟨f.name, size, ·⟩)
  | _ => none

/-- The old file was reported as it is now. -/
def reported (f : File) : Bool :=
  (d.stamp f).any fun s =>
    match d.record with
    | none => false
    | some (.stamps l) => l.contains s
    | some (.legacy lines) => lines.contains s.legacyLine

def hasLegacyRecord : Bool :=
  match d.record with
  | some (.legacy _) => true
  | _ => false

end Disk

/-! Which directory is current. -/

inductive Leftover where
  | none
  | pending
  | kept (names : List File)
  deriving DecidableEq

def leftoverOf (d : Disk) : List File → List File → Leftover
  | [], [] => .none
  | [], kept => .kept kept
  | f :: rest, kept =>
    if !d.pathExists ⟨.old, f⟩ then leftoverOf d rest kept
    else if !d.pathExists ⟨.new, f⟩ then
      if !d.reported f then .pending else leftoverOf d rest (kept ++ [f])
    else if !d.samePath f && (d.fsRead ⟨.old, f⟩).toOption != (d.fsRead ⟨.new, f⟩).toOption then
      leftoverOf d rest (kept ++ [f])
    else leftoverOf d rest kept

def leftover (d : Disk) : Leftover :=
  if !(d.dirs.kind .old).isDir || d.sameDirs then .none else leftoverOf d files []

def currentDir (d : Disk) : Side := if leftover d = .pending then .old else .new

/-! The move. -/

/-- The calls of one move. Each is made at most once. -/
inductive Call where
  | compareDirs
  | compare (f : File)
  | read (p : Place)
  | createDir (f : File)
  | canonicalize (f : File)
  | link (f : File)
  | publish (f : File)
  | syncDir (f : File)
  | undo (f : File)
  | removeOld (f : File)
  | removeSchema
  | removeDir
  | writeRecord
  deriving DecidableEq

/-- The names of the two directories, as they are shown. -/
structure Names where
  old : String
  new : String

abbrev Io := Prog Call Disk

open Prog

def readFile (p : Place) : Io (Except IoError (Option Bytes)) :=
  call (.read p) (.error .failed) fun d => (d.read p, d)

/-- A comparison of two paths that cannot be resolved finds them different. -/
def samePath (f : File) : Io Bool := call (.compare f) false fun d => (d.samePath f, d)

def syncDir (f : File) : Io (Except IoError Unit) :=
  call (.syncDir f) (.error .failed) fun d => (.ok (), d)

def copy (f : File) (content : Bytes) : Io (Except IoError Unit) := do
  match ← call (.publish f) (.error .failed)
      (fun d => d.create ⟨.new, f⟩ (.here (.file content d.clock))) with
  | .error e => pure (.error e)
  | .ok () => syncDir f

def linkTo (f : File) : Io (Except IoError Unit) := do
  match ← call (.canonicalize f) (.error .failed) (fun d => (d.canonicalize ⟨.old, f⟩, d)) with
  | .error e => pure (.error e)
  | .ok target =>
    match ← call (.link f) (.error .failed) (fun d => d.create ⟨.new, f⟩ (.link target)) with
    | .error e => pure (.error e)
    | .ok () => syncDir f

def hardLink (d : Disk) (f : File) : Except IoError Unit × Disk :=
  match d.lookup ⟨.old, f⟩ with
  | some node => d.create ⟨.new, f⟩ node
  | none => (.error .notFound, d)

def linkOrCopy (f : File) (content : Bytes) : Io (Except IoError Unit) := do
  if ← get (·.isSymlink ⟨.old, f⟩) then linkTo f
  else
    match ← call (.link f) (.error .failed) (hardLink · f) with
    | .ok () => syncDir f
    | .error .alreadyExists => pure (.error .alreadyExists)
    | .error _ => copy f content

/-- How a file came to be in place. -/
inductive Placement where
  | same
  | there
  | kept
  | created
  deriving DecidableEq

def create (f : File) (content : Bytes) : Io (Except IoError Placement) := do
  match ← call (.createDir f) (.error .failed) Disk.createPrivateDir with
  | .error e => pure (.error e)
  | .ok () =>
    match ← linkOrCopy f content with
    | .error e => pure (.error e)
    | .ok () => pure (.ok .created)

def place (f : File) (content : Bytes) : Io (Except IoError Placement) := do
  match ← readFile ⟨.new, f⟩ with
  | .error e => pure (.error e)
  | .ok (some existing) =>
    if ← samePath f then pure (.ok .same)
    else if existing = content then pure (.ok .there)
    else pure (.ok .kept)
  | .ok none =>
    if ← get (·.reported f) then pure (.ok .kept)
    else create f content

def undo (created : List File) : Io Unit :=
  each (fun f => call (.undo f) () fun d => ((), d.erase ⟨.new, f⟩)) created

/-- Put every file in place, or take back those placed so far. -/
def placeAll : List (File × Bytes) → List File → List File → List File →
    Io (Except String (List File × List File))
  | [], moved, _, kept => pure (.ok (moved, kept))
  | (f, content) :: rest, moved, created, kept => do
    match ← place f content with
    | .ok .same => placeAll rest moved created kept
    | .ok .kept => placeAll rest moved created (kept ++ [f])
    | .ok .there => placeAll rest (moved ++ [f]) created kept
    | .ok .created => placeAll rest (moved ++ [f]) (created ++ [f]) kept
    | .error e => do
      undo created
      pure (.error ("Cannot move " ++ f.name ++ ": " ++ e.display))

def removeAll (moved : List File) : Io Unit :=
  each (fun f => call (.removeOld f) () fun d => ((), d.erase ⟨.old, f⟩)) moved

def removeEmpty : Io Unit := do
  if ← get (fun d => files.any fun f => d.isPresent ⟨.old, f⟩) then pure ()
  else
    call .removeSchema () fun d => ((), d.erase ⟨.old, .schema⟩)
    call .removeDir () fun d => ((), d.removeOldDir)

/-- Both old files are read before anything is placed. -/
def readAll : List File → Io (Except String (List (File × Bytes)))
  | [] => pure (.ok [])
  | f :: rest => do
    match ← readFile ⟨.old, f⟩ with
    | .error e => pure (.error ("Cannot read " ++ f.name ++ ": " ++ e.display))
    | .ok none => readAll rest
    | .ok (some content) =>
      match ← readAll rest with
      | .error e => pure (.error e)
      | .ok old => pure (.ok ((f, content) :: old))

def moveRead : Io (Except String (List File)) := do
  match ← readAll files with
  | .error e => pure (.error e)
  | .ok old =>
    match ← placeAll old [] [] [] with
    | .error e => pure (.error e)
    | .ok (moved, kept) => do
      removeAll moved
      removeEmpty
      pure (.ok kept)

variable (N : Names)

def moveFiles : Io (Except String (List File)) := do
  if (← get (·.dirs.kind .old)) = .absent then pure (.ok [])
  else if ← call .compareDirs false (fun d => (d.sameDirs, d)) then pure (.ok [])
  else
    match ← get (·.dirs.kind .old) with
    | .linked =>
      if ← get (fun d => files.any fun f => d.pathExists ⟨.old, f⟩) then
        pure (.error (N.old ++ " is a symlink, so its files are left in place; move them to " ++
          N.new ++ " yourself"))
      else pure (.ok [])
    | .plain => moveRead
    | _ => pure (.ok [])

def keptNotice (kept : List File) : String :=
  N.old ++ " still has " ++ " and ".intercalate (kept.map (·.name)) ++
    " from an earlier version. The settings in " ++ N.new ++
    " are used; copy anything you still need from the old files, then delete them."

def report (kept : List File) : Io (List String) := do
  let known ← get fun d => kept.all fun f => d.reported f
  let legacy ← get (·.hasLegacyRecord)
  if known && !legacy then pure []
  else
    let stamps ← get fun d => kept.filterMap fun f => d.stamp f
    call .writeRecord () fun d => ((), { d with record := some (.stamps stamps) })
    pure (if known then [] else ["Settings: " ++ keptNotice N kept])

/-- The directory to use and the notices, after the move or its failure. -/
def conclude : Except String (List File) → Io (Side × List String)
  | .ok kept => do
    let notices ← report N kept
    pure (.new, notices)
  | .error e => do
    -- never the new directory while a file exists only in the old one
    let stay ← get fun d => files.any fun f =>
      d.pathExists ⟨.old, f⟩ && !d.pathExists ⟨.new, f⟩
    let dir := if stay then Side.old else .new
    let shown := if stay then N.old else N.new
    pure (dir, ["Settings: The settings files could not be moved from " ++ N.old ++ " to " ++
      N.new ++ ": " ++ e ++ ". Settings are used from " ++ shown ++
      " for now, and the move is retried on the next start."])

def relocate : Io (Side × List String) := do
  let moved ← moveFiles N
  conclude N moved

end AciGateway.Desktop.Relocation
