import AciGateway.Desktop.Relocation

/-! How far a move of the settings files comes, however its calls fare. -/
namespace AciGateway.Desktop.Relocation

open Faults Octets Disk

variable {d d₀ d' : Disk} {f g : File} {s : Side} {c : Bytes} {F : Call → Fate}
  {placed moved kept : List File} {p : Place} {rest : List (File × Bytes)}

/-! Where a path leads. -/

namespace Disk

/-- The entries of a name lead outside both directories or to entries of the same name. -/
def OwnName (d : Disk) (f : File) : Prop :=
  ∀ s p, d.lookup ⟨s, f⟩ = some (.link (.place p)) → p.file = f

variable {l : Target} {k : Kind}

theorem resolve_succ {n : Nat} (h : d.resolve n p = .found l k) : d.resolve (n + 1) p = .found l k := by
  induction n generalizing p with
  | zero => cases h
  | succ n ih =>
    rw [resolve] at h
    rw [resolve]
    split at h
    · cases h
    · next hl => simpa [hl] using h
    · next hl => simpa [hl] using h
    · exact ih h

theorem resolve_self (h : d.lookup p = some (.link (.place p))) (n : Nat) :
    d.resolve n p = .looping := by
  induction n with
  | zero => rfl
  | succ n ih => simpa [resolve, h] using ih

/-- Where the entries of a name stay, they lead where they led. -/
theorem resolve_stays (hown : d.OwnName f) (hhome : d'.home = d.home)
    (helse : d'.elsewhere = d.elsewhere)
    (hstays : ∀ s node, d.lookup ⟨s, f⟩ = some node → d'.lookup ⟨s, f⟩ = some node)
    {n : Nat} (h : d.resolve n ⟨s, f⟩ = .found l k) : d'.resolve n ⟨s, f⟩ = .found l k := by
  induction n generalizing s with
  | zero => cases h
  | succ n ih =>
    rw [resolve] at h ⊢
    split at h
    · cases h
    · next hl => simpa [hstays s _ hl, hhome] using h
    · next hl => simpa [hstays s _ hl, helse] using h
    · next q hl =>
      obtain ⟨s', f'⟩ := q
      obtain rfl : f' = f := hown s _ hl
      simp only [hstays s _ hl]
      exact ih h

theorem resolve_congr (hown : d.OwnName f) (hhome : d'.home = d.home)
    (helse : d'.elsewhere = d.elsewhere) (hsame : ∀ s, d'.lookup ⟨s, f⟩ = d.lookup ⟨s, f⟩)
    (n : Nat) (s : Side) : d'.resolve n ⟨s, f⟩ = d.resolve n ⟨s, f⟩ := by
  induction n generalizing s with
  | zero => rfl
  | succ n ih =>
    rw [resolve, resolve, hsame s, hhome, helse]
    split
    · rfl
    · rfl
    · rfl
    · next q hl =>
      obtain ⟨s', f'⟩ := q
      obtain rfl : f' = f := hown s _ hl
      exact ih s'

/-- What a canonical path names is at it. -/
theorem resolve_found (hown : d.OwnName f) {n : Nat} (h : d.resolve n ⟨s, f⟩ = .found l k) :
    (∃ s', l = .place ⟨d.home s', f⟩ ∧ d.lookup ⟨s', f⟩ = some (.here k)) ∨
      ∃ i, l = .outside i ∧ d.elsewhere i = some k := by
  induction n generalizing s with
  | zero => cases h
  | succ n ih =>
    rw [resolve] at h
    split at h
    · cases h
    · next hl =>
      cases h
      exact .inl ⟨s, rfl, hl⟩
    · next i hl =>
      split at h
      · next hi =>
        cases h
        exact .inr ⟨i, rfl, hi⟩
      · cases h
    · next q hl =>
      obtain ⟨s', f'⟩ := q
      obtain rfl : f' = f := hown s _ hl
      exact ih h

theorem fsRead_eq_ok_iff : d.fsRead p = .ok c ↔ ∃ l m, d.find p = .found l (.file c m) := by
  unfold fsRead
  split <;> simp_all

theorem content_eq_some_iff : d.content p = some c ↔ d.fsRead p = .ok c := by
  unfold content
  cases d.fsRead p <;> simp [Except.toOption]

theorem fsRead_of_read (h : d.read p = .ok (some c)) : d.fsRead p = .ok c := by
  unfold read at h
  split at h
  · cases h
  · split at h
    · next hr =>
      cases h
      exact hr
    · cases h
    · cases h

theorem content_of_read (h : d.read p = .ok (some c)) : d.content p = some c :=
  content_eq_some_iff.mpr (fsRead_of_read h)

theorem not_symlink_of_read {o : Option Bytes} (h : d.read p = .ok o)
    (hp : p.file = .credentials) : d.isSymlink p = false := by
  unfold read at h
  split at h
  · cases h
  · next hlink =>
    by_contra hne
    exact hlink ⟨hp, by simpa using hne⟩

theorem pathExists_of_content (h : d.content p = some c) : d.pathExists p = true := by
  obtain ⟨l, m, hf⟩ := fsRead_eq_ok_iff.mp (content_eq_some_iff.mp h)
  simp [pathExists, hf]

theorem not_exists_of_read (h : d.read p = .ok none) : d.pathExists p = false := by
  unfold read at h
  split at h
  · cases h
  · split at h
    · cases h
    · next hr =>
      unfold fsRead at hr
      unfold pathExists
      split at hr <;> simp_all
    · cases h

theorem samePath_iff : d.samePath f = true ↔
    ∃ l k k', d.find ⟨.old, f⟩ = .found l k ∧ d.find ⟨.new, f⟩ = .found l k' := by
  unfold samePath
  split
  · next l k l' k' ho hn => simp [ho, hn, eq_comm]
  · next hne =>
    constructor
    · intro h
      cases h
    · rintro ⟨l, k, k', ho, hn⟩
      exact absurd hn (hne l k l k' ho)

theorem content_of_samePath (hown : d.OwnName f) (h : d.samePath f = true)
    (hc : d.content ⟨.old, f⟩ = some c) : d.content ⟨.new, f⟩ = some c := by
  obtain ⟨l, k, k', ho, hn⟩ := samePath_iff.mp h
  obtain ⟨l', m, ho'⟩ := fsRead_eq_ok_iff.mp (content_eq_some_iff.mp hc)
  rw [ho] at ho'
  cases ho'
  -- one canonical path names one thing
  have hk : k' = .file c m := by
    rcases resolve_found hown ho with ⟨s, rfl, hs⟩ | ⟨i, rfl, hi⟩
    · rcases resolve_found hown hn with ⟨s', hl, hs'⟩ | ⟨i, hl, -⟩
      · have hhome : d.home s = d.home s' := by simpa using hl
        unfold home at hhome
        unfold lookup home at hs hs'
        split at hhome
        · next hd =>
          simp_all
        · subst hhome
          rw [hs] at hs'
          cases hs'
          rfl
      · cases hl
    · rcases resolve_found hown hn with ⟨s', hl, -⟩ | ⟨j, hl, hj⟩
      · cases hl
      · cases hl
        rw [hi] at hj
        cases hj
        rfl
  subst hk
  exact content_eq_some_iff.mpr (fsRead_eq_ok_iff.mpr ⟨l, m, hn⟩)

end Disk

/-! A file in place. -/

/-- The entry gives the content whatever becomes of the old directory. -/
inductive Holds (d : Disk) (f : File) (c : Bytes) : Node → Prop
  | here (m : Option Nat) : Holds d f c (.here (.file c m))
  | outside (hf : f ≠ .credentials) {i : Nat} {m : Option Nat}
      (hi : d.elsewhere i = some (.file c m)) : Holds d f c (.link (.outside i))

/-- The new directory has the file with the content. -/
def InPlace (d : Disk) (f : File) (c : Bytes) : Prop :=
  ∃ node, d.lookup ⟨.new, f⟩ = some node ∧ Holds d f c node

theorem InPlace.content (h : InPlace d f c) : d.content ⟨.new, f⟩ = some c := by
  obtain ⟨node, hl, hn⟩ := h
  rw [content_eq_some_iff, fsRead_eq_ok_iff]
  cases hn with
  | here m =>
    simp [find, symlinkLimit, resolve, hl]
  | @outside _ i m hi =>
    simp [find, symlinkLimit, resolve, hl, hi]

theorem InPlace.read (h : InPlace d f c) : d.read ⟨.new, f⟩ = .ok (some c) := by
  have hc := Disk.content_eq_some_iff.mp h.content
  obtain ⟨node, hl, hn⟩ := h
  unfold Disk.read
  rw [if_neg, hc]
  rintro ⟨hf, hlink⟩
  cases hn with
  | here m => simp [Disk.isSymlink, hl] at hlink
  | outside hne => exact hne hf

theorem InPlace.congr (h : InPlace d f c) (hl : d'.lookup ⟨.new, f⟩ = d.lookup ⟨.new, f⟩)
    (he : d'.elsewhere = d.elsewhere) : InPlace d' f c := by
  obtain ⟨node, hn, hh⟩ := h
  refine ⟨node, by rw [hl, hn], ?_⟩
  cases hh with
  | here m => exact .here m
  | outside hf hi => exact .outside hf (by rw [he, hi])

theorem InPlace.ownName (h : InPlace d f c) : d.lookup ⟨.new, f⟩ ≠ some (.link (.place p)) := by
  obtain ⟨node, hl, hn⟩ := h
  rw [hl]
  cases hn <;> simp

/-- A new file that is read and is not the old one is in place. -/
theorem inPlace_of_read (hown : d.OwnName f) (hc : d.read ⟨.new, f⟩ = .ok (some c))
    (hne : d.samePath f = false) : InPlace d f c := by
  obtain ⟨l, m, hfind⟩ := fsRead_eq_ok_iff.mp (fsRead_of_read hc)
  cases hl : d.lookup ⟨.new, f⟩ with
  | none => simp [find, symlinkLimit, resolve, hl] at hfind
  | some node =>
    refine ⟨node, hl, ?_⟩
    cases node with
    | here k =>
      have hk : k = .file c m := by
        have := hfind
        simp only [find, symlinkLimit, resolve, hl] at this
        cases this
        rfl
      rw [hk]
      exact .here m
    | link t =>
      cases t with
      | outside i =>
        refine .outside ?_ (m := m) ?_
        · rintro rfl
          have := not_symlink_of_read hc rfl
          simp [isSymlink, hl] at this
        · simp only [find, symlinkLimit, resolve, hl] at hfind
          split at hfind
          · next hi =>
            cases hfind
            exact hi
          · cases hfind
      | place q =>
        obtain ⟨s, f'⟩ := q
        obtain rfl : f' = f := hown _ _ hl
        cases s with
        | new =>
          have := resolve_self hl symlinkLimit
          rw [find, this] at hfind
          cases hfind
        | old =>
          have hold : d.find ⟨.old, f'⟩ = .found l (.file c m) := by
            have hstep : d.resolve 39 ⟨.old, f'⟩ = .found l (.file c m) := by
              have := hfind
              rw [find, symlinkLimit, resolve, hl] at this
              exact this
            exact resolve_succ hstep
          have hsame := samePath_iff.mpr ⟨l, _, _, hold, hfind⟩
          rw [hne] at hsame
          cases hsame

/-! Placing. -/

namespace Disk

variable {o n : DirKind}

theorem home_two (h : d.dirs = .two o n) : d.home = id := by
  funext s
  simp [home, h]

theorem lookup_two (h : d.dirs = .two o n) (p : Place) :
    d.lookup p = if (d.dirs.kind p.side).isDir then d.entries p.side p.file else none := by
  simp [lookup, home_two h]

theorem lookup_put (h : d.dirs = .two o n) (hp : (d.dirs.kind p.side).isDir)
    (node : Option Node) (q : Place) :
    (d.put p node).lookup q = if q = p then node else d.lookup q := by
  obtain ⟨s, f⟩ := p
  obtain ⟨t, g⟩ := q
  have hput : (d.put ⟨s, f⟩ node).dirs = .two o n := h
  rw [lookup_two hput, lookup_two h]
  simp only [put, home_two h, id, Place.mk.injEq]
  by_cases hq : t = s ∧ g = f
  · obtain ⟨rfl, rfl⟩ := hq
    simp [hp]
  · simp [hq]

theorem lookup_erase (h : d.dirs = .two o n) (p q : Place) :
    (d.erase p).lookup q = if q = p then none else d.lookup q := by
  unfold erase
  split
  · next hp =>
    have hdir : (d.dirs.kind p.side).isDir := by
      by_contra hne
      simp [isPresent, lookup, hne] at hp
    exact lookup_put h hdir none q
  · next hp =>
    split
    · next hq => simpa [isPresent, hq] using hp
    · rfl

@[simp] theorem erase_dirs (p : Place) : (d.erase p).dirs = d.dirs := by
  unfold erase put
  split <;> rfl

@[simp] theorem erase_elsewhere (p : Place) : (d.erase p).elsewhere = d.elsewhere := by
  unfold erase put
  split <;> rfl

@[simp] theorem erase_record (p : Place) : (d.erase p).record = d.record := by
  unfold erase put
  split <;> rfl

end Disk

/-- Files were placed in the new directory, which may have been made for them; nothing else
changed. -/
structure Grew (d₀ d : Disk) (placed : List File) : Prop where
  dirs : ∃ k k', d₀.dirs = .two .plain k ∧ d.dirs = .two .plain k' ∧
    (k' = k ∨ k = .absent ∧ k' = .plain)
  elsewhere : d.elsewhere = d₀.elsewhere
  record : d.record = d₀.record
  old : ∀ f, d.lookup ⟨.old, f⟩ = d₀.lookup ⟨.old, f⟩
  fresh : ∀ f ∈ placed, d₀.lookup ⟨.new, f⟩ = none ∧
    ∃ c, d₀.read ⟨.old, f⟩ = .ok (some c) ∧ InPlace d f c
  rest : ∀ f, f ∉ placed → d.lookup ⟨.new, f⟩ = d₀.lookup ⟨.new, f⟩

theorem Grew.refl {k : DirKind} (h : d₀.dirs = .two .plain k) : Grew d₀ d₀ [] :=
  ⟨⟨k, k, h, h, .inl rfl⟩, rfl, rfl, fun _ => rfl, by simp, fun _ _ => rfl⟩

theorem Grew.same (h : Grew d₀ d placed) (hf : f ∉ placed) (s : Side) :
    d.lookup ⟨s, f⟩ = d₀.lookup ⟨s, f⟩ := by
  cases s with
  | old => exact h.old f
  | new => exact h.rest f hf

theorem Grew.home (h : Grew d₀ d placed) : d.home = d₀.home := by
  obtain ⟨k, k', h₀, h₁, -⟩ := h.dirs
  rw [home_two h₀, home_two h₁]

theorem grew_createPrivateDir (h : Grew d₀ d placed) :
    Grew d₀ d.createPrivateDir.2 placed ∧
      (d.createPrivateDir.1 = .ok () → (d.createPrivateDir.2.dirs.kind .new).isDir) ∧
      (∀ e, d.createPrivateDir.1 = .error e → d₀.dirs.kind .new = .blocked) := by
  obtain ⟨k, k', h₀, h₁, hk⟩ := h.dirs
  unfold createPrivateDir
  rw [h₁]
  cases k' with
  | absent =>
    obtain rfl : DirKind.absent = k := by
      rcases hk with hk | ⟨-, hk⟩
      · exact hk
      · cases hk
    have hnone (f : File) : d.lookup ⟨.new, f⟩ = none := by
      simp [lookup_two h₁, h₁, Dirs.kind, DirKind.isDir]
    refine ⟨⟨⟨_, _, h₀, rfl, .inr ⟨rfl, rfl⟩⟩, h.elsewhere, h.record, ?_, ?_, ?_⟩, ?_, ?_⟩
    · intro f
      rw [← h.old f, lookup_two rfl, lookup_two h₁]
      simp [h₁, Dirs.kind]
    · intro f hf
      obtain ⟨-, c, -, node, hnode, -⟩ := h.fresh f hf
      rw [hnone f] at hnode
      cases hnode
    · intro f hf
      rw [← h.rest f hf, hnone f, lookup_two rfl]
      simp
    · simp [Dirs.kind, DirKind.isDir]
    · intro e he
      cases he
  | plain => exact ⟨h, fun _ => by simp [h₁, Dirs.kind, DirKind.isDir], fun e he => by cases he⟩
  | linked => exact ⟨h, fun _ => by simp [h₁, Dirs.kind, DirKind.isDir], fun e he => by cases he⟩
  | blocked =>
    refine ⟨h, ?_, ?_⟩
    · intro he
      cases he
    · rcases hk with hk | ⟨-, hk⟩
      · simp [h₀, Dirs.kind, hk]
      · cases hk

theorem grew_create (h : Grew d₀ d placed) (hf : f ∉ placed) {node : Node}
    (hc : d₀.read ⟨.old, f⟩ = .ok (some c)) (hn : Holds d f c node)
    (hdir : (d.dirs.kind .new).isDir) :
    ((d.create ⟨.new, f⟩ node).1 = .ok () ∧
      Grew d₀ (d.create ⟨.new, f⟩ node).2 (placed ++ [f])) ∨
    ((d.create ⟨.new, f⟩ node).1 = .error .alreadyExists ∧ (d.create ⟨.new, f⟩ node).2 = d ∧
      d₀.lookup ⟨.new, f⟩ ≠ none) := by
  unfold Disk.create
  by_cases hp : d.isPresent ⟨.new, f⟩
  · right
    rw [if_pos hp]
    rw [← h.rest f hf]
    simpa [Disk.isPresent, Option.isSome_iff_ne_none] using hp
  · left
    rw [if_neg hp, if_pos hdir]
    refine ⟨rfl, ?_⟩
    obtain ⟨k, k', h₀, h₁, hk⟩ := h.dirs
    have hlook := Disk.lookup_put h₁ (p := ⟨.new, f⟩) hdir (some node)
    have hnone : d.lookup ⟨.new, f⟩ = none := by simpa [Disk.isPresent] using hp
    refine ⟨⟨k, k', h₀, h₁, hk⟩, h.elsewhere, h.record, ?_, ?_, ?_⟩
    · intro g
      rw [hlook]
      simpa using h.old g
    · intro g hg
      rcases List.mem_append.mp hg with hg | hg
      · obtain ⟨hg₀, c', hc', hplace⟩ := h.fresh g hg
        have hne : g ≠ f := fun hgf => hf (hgf ▸ hg)
        refine ⟨hg₀, c', hc', hplace.congr ?_ rfl⟩
        rw [hlook]
        simp [hne]
      · obtain rfl : g = f := by simpa using hg
        refine ⟨by rw [← h.rest g hf, hnone], c, hc, node, by simp [hlook], ?_⟩
        cases hn with
        | here m => exact .here m
        | outside hne hi => exact .outside hne hi
    · intro g hg
      have hg' : g ∉ placed ∧ g ≠ f := by simpa using hg
      rw [hlook, ← h.rest g hg'.1]
      simp [hg'.2]

theorem grew_erase (h : Grew d₀ d placed) (hnone : d₀.lookup ⟨.new, f⟩ = none) :
    Grew d₀ (d.erase ⟨.new, f⟩) (placed.filter (· ≠ f)) := by
  obtain ⟨k, k', h₀, h₁, hk⟩ := h.dirs
  have hlook := lookup_erase h₁ ⟨.new, f⟩
  refine ⟨⟨k, k', h₀, by simp [h₁], hk⟩, by simp [h.elsewhere], by simp [h.record], ?_, ?_, ?_⟩
  · intro g
    rw [hlook]
    simpa using h.old g
  · intro g hg
    have hg' : g ∈ placed ∧ g ≠ f := by simpa using hg
    obtain ⟨hg₀, c', hc', hplace⟩ := h.fresh g hg'.1
    refine ⟨hg₀, c', hc', hplace.congr ?_ (by simp)⟩
    rw [hlook]
    simp [hg'.2]
  · intro g hg
    rw [hlook]
    by_cases hgf : g = f
    · subst hgf
      simp [hnone]
    · have hg' : g ∉ placed := by
        intro hmem
        exact hg (by simp [hmem, hgf])
      simp [hgf, h.rest g hg']

theorem Grew.find (h : Grew d₀ d placed) (hown : d₀.OwnName f) (hf : f ∉ placed) (s : Side) :
    d.find ⟨s, f⟩ = d₀.find ⟨s, f⟩ :=
  resolve_congr hown h.home h.elsewhere (h.same hf) _ s

namespace Disk

theorem read_congr (hf : d'.find p = d.find p) (hl : d'.lookup p = d.lookup p) :
    d'.read p = d.read p := by
  have hlink : d'.isSymlink p = d.isSymlink p := by simp only [isSymlink, hl]
  have hread : d'.fsRead p = d.fsRead p := by simp only [fsRead, hf]
  simp only [read, hlink, hread]

theorem reported_congr (hf : d'.find ⟨.old, f⟩ = d.find ⟨.old, f⟩) (hr : d'.record = d.record) :
    d'.reported f = d.reported f := by
  simp only [reported, stamp, hf, hr]

theorem samePath_congr (hf : ∀ s, d'.find ⟨s, f⟩ = d.find ⟨s, f⟩) :
    d'.samePath f = d.samePath f := by
  simp only [samePath, hf]

end Disk

/-- What keeps a move from going through though no call fails. -/
inductive Refused (d : Disk) : Prop
  | linked {f : File} (hk : d.dirs.kind .old = .linked) (hf : f ∈ files)
      (hx : d.pathExists ⟨.old, f⟩)
  | unreadOld {f : File} {e : IoError} (hf : f ∈ files) (he : d.read ⟨.old, f⟩ = .error e)
  | unreadNew {f : File} {c : Bytes} {e : IoError} (hf : f ∈ files)
      (hc : d.read ⟨.old, f⟩ = .ok (some c)) (he : d.read ⟨.new, f⟩ = .error e)
  | occupied {f : File} {c : Bytes} (hf : f ∈ files) (hc : d.read ⟨.old, f⟩ = .ok (some c))
      (hnone : d.read ⟨.new, f⟩ = .ok none)
      (h : d.lookup ⟨.new, f⟩ ≠ none ∨ d.dirs.kind .new = .blocked)

/-- Some call failed, or the move is refused. -/
def Hindered (F : Call → Fate) (d : Disk) : Prop := (∃ c, F c = .fails) ∨ Refused d

/-- The old file stays where it is: the new directory has its own, or had it once. -/
def Kept (d : Disk) (f : File) (c : Bytes) : Prop :=
  (∃ c', d.read ⟨.new, f⟩ = .ok (some c') ∧ c' ≠ c) ∨
    d.read ⟨.new, f⟩ = .ok none ∧ d.reported f = true

/-- The process died while files were placed. -/
def DiesPlacing (F : Call → Fate) (d₀ d : Disk) : Prop :=
  (∃ c, F c = .crashes) ∧ ∃ placed, Grew d₀ d placed

/-- The state after a file could not be placed. -/
def Failed (F : Call → Fate) (d₀ : Disk) (placed : List File) (f : File) (d : Disk) : Prop :=
  (Grew d₀ d placed ∧ Hindered F d₀) ∨ (Grew d₀ d (placed ++ [f]) ∧ F (.syncDir f) = .fails)

section Placing

variable (hf : f ∉ placed) (hmem : f ∈ files) (hc : d₀.read ⟨.old, f⟩ = .ok (some c))

/-- What putting one file in place comes to. -/
def Puts (F : Call → Fate) (d₀ : Disk) (placed : List File) (f : File)
    (r : Except IoError Unit) (d : Disk) : Prop :=
  match r with
  | .ok () => Grew d₀ d (placed ++ [f])
  | .error _ => Failed F d₀ placed f d

theorem wp_syncDir (h : Grew d₀ d (placed ++ [f])) :
    wp F (syncDir f) (Puts F d₀ placed f) (DiesPlacing F d₀) d :=
  wp_call (fun _ => h) (fun hfail => .inr ⟨h, hfail⟩) (fun hx => ⟨⟨_, hx⟩, _, h⟩)

/-- However the program goes, the file is put in place, or is not and nothing is lost. -/
def Safely (F : Call → Fate) (d₀ : Disk) (placed : List File) (f : File)
    (p : Io (Except IoError Unit)) (d : Disk) : Prop :=
  wp F p (Puts F d₀ placed f) (DiesPlacing F d₀) d

theorem safely_error (h : Grew d₀ d placed) (hh : Hindered F d₀) (e : IoError) :
    Safely F d₀ placed f (pure (.error e)) d :=
  .inl ⟨h, hh⟩

include hf hmem hc in
/-- A call that makes the entry, with what follows when it does not. -/
theorem safely_make {call : Call} {act : Disk → Except IoError Unit × Disk} {node : Node}
    {rest : Except IoError Unit → Io (Except IoError Unit)} (h : Grew d₀ d placed)
    (hact : act d = d.create ⟨.new, f⟩ node) (hnone : d₀.read ⟨.new, f⟩ = .ok none)
    (hdir : (d.dirs.kind .new).isDir) (hn : Holds d f c node) (hok : rest (.ok ()) = syncDir f)
    (hthere : Refused d₀ → Safely F d₀ placed f (rest (.error .alreadyExists)) d)
    (hfails : F call = .fails → Safely F d₀ placed f (rest (.error .failed)) d) :
    Safely F d₀ placed f (Prog.call call (.error .failed) act >>= rest) d := by
  rw [Safely, wp_bind]
  refine wp_call ?_ hfails (fun hx => ⟨⟨_, hx⟩, _, h⟩)
  intro _
  rw [hact]
  rcases grew_create h hf hc hn hdir with ⟨hr, hgrew⟩ | ⟨hr, hd, hpres⟩
  · rw [hr, hok]
    exact wp_syncDir hgrew
  · rw [hr, hd]
    exact hthere (.occupied hmem hc hnone (.inl hpres))

include hf hmem hc in
theorem safely_copy (h : Grew d₀ d placed) (hnone : d₀.read ⟨.new, f⟩ = .ok none)
    (hdir : (d.dirs.kind .new).isDir) : Safely F d₀ placed f (copy f c) d := by
  refine safely_make hf hmem hc h rfl hnone hdir (.here _) rfl ?_ ?_
  · exact fun hr => safely_error h (.inr hr) _
  · exact fun hfail => safely_error h (.inl ⟨_, hfail⟩) _

include hf hmem hc in
/-- A link is made to what the old one leads to, outside both directories. -/
theorem safely_linkTo (hown : d₀.OwnName f) (h : Grew d₀ d placed)
    (hnone : d₀.read ⟨.new, f⟩ = .ok none) (hdir : (d.dirs.kind .new).isDir)
    (hlink : d.isSymlink ⟨.old, f⟩ = true) : Safely F d₀ placed f (linkTo f) d := by
  rw [Safely, linkTo, wp_bind]
  refine wp_call ?_ (fun hfail => safely_error h (.inl ⟨_, hfail⟩) _) (fun hx => ⟨⟨_, hx⟩, _, h⟩)
  intro _
  obtain ⟨l, m, hfind₀⟩ := fsRead_eq_ok_iff.mp (fsRead_of_read hc)
  have hfind : d.find ⟨.old, f⟩ = .found l (.file c m) := by rw [h.find hown hf, hfind₀]
  have hcanon : d.canonicalize ⟨.old, f⟩ = .ok l := by simp [canonicalize, hfind]
  rw [hcanon]
  -- the old link does not lead to itself, nor to the new path, where there is nothing
  have hnode : Holds d f c (.link l) := by
    rcases resolve_found hown hfind₀ with ⟨s, rfl, hs⟩ | ⟨i, rfl, hi⟩
    · exfalso
      cases s with
      | old =>
        rw [← h.old f] at hs
        simp [isSymlink, hs] at hlink
      | new =>
        have hx : d₀.pathExists ⟨.new, f⟩ = true := by
          simp [pathExists, find, symlinkLimit, resolve, hs]
        rw [not_exists_of_read hnone] at hx
        cases hx
    · refine .outside ?_ (by rw [h.elsewhere, hi])
      rintro rfl
      have hno := not_symlink_of_read hc rfl
      have hsame : d.isSymlink ⟨.old, .credentials⟩ = d₀.isSymlink ⟨.old, .credentials⟩ := by
        simp only [isSymlink, h.old]
      rw [hsame, hno] at hlink
      cases hlink
  refine safely_make hf hmem hc h rfl hnone hdir hnode rfl ?_ ?_
  · exact fun hr => safely_error h (.inr hr) _
  · exact fun hfail => safely_error h (.inl ⟨_, hfail⟩) _

include hf hmem hc in
theorem safely_linkOrCopy (hown : d₀.OwnName f) (h : Grew d₀ d placed)
    (hnone : d₀.read ⟨.new, f⟩ = .ok none) (hdir : (d.dirs.kind .new).isDir) :
    Safely F d₀ placed f (linkOrCopy f c) d := by
  rw [Safely, linkOrCopy, wp_bind, wp_get]
  split
  · next hlink => exact safely_linkTo hf hmem hc hown h hnone hdir hlink
  · next hlink =>
    obtain ⟨l, m, hfind₀⟩ := fsRead_eq_ok_iff.mp (fsRead_of_read hc)
    have hfind : d.find ⟨.old, f⟩ = .found l (.file c m) := by rw [h.find hown hf, hfind₀]
    have hlook : d.lookup ⟨.old, f⟩ = some (.here (.file c m)) := by
      simp only [find, symlinkLimit, resolve] at hfind
      split at hfind
      · cases hfind
      · next hl =>
        cases hfind
        exact hl
      · next hl => simp [isSymlink, hl] at hlink
      · next hl => simp [isSymlink, hl] at hlink
    have hact : (hardLink · f) d = d.create ⟨.new, f⟩ (.here (.file c m)) := by
      simp [hardLink, hlook]
    refine safely_make hf hmem hc h hact hnone hdir (.here m) rfl ?_ ?_
    · exact fun hr => safely_error h (.inr hr) _
    · exact fun _ => safely_copy hf hmem hc h hnone hdir

/-- What placing a file comes to. -/
def Places (F : Call → Fate) (d₀ d : Disk) (placed : List File) (f : File) (c : Bytes)
    (r : Except IoError Placement) (d' : Disk) : Prop :=
  match r with
  | .ok .same => d' = d ∧ d₀.samePath f = true
  | .ok .there => d' = d ∧ d₀.read ⟨.new, f⟩ = .ok (some c) ∧ d₀.samePath f = false
  | .ok .kept => d' = d ∧ Kept d₀ f c
  | .ok .created =>
    Grew d₀ d' (placed ++ [f]) ∧ d₀.read ⟨.new, f⟩ = .ok none ∧ d₀.reported f = false
  | .error _ => Failed F d₀ placed f d'

include hf hmem hc in
theorem wp_create (hown : d₀.OwnName f) (h : Grew d₀ d placed)
    (hnone : d₀.read ⟨.new, f⟩ = .ok none) (hrep : d₀.reported f = false) :
    wp F (create f c) (Places F d₀ d placed f c) (DiesPlacing F d₀) d := by
  rw [create, wp_bind]
  refine wp_call ?_ (fun hfail => .inl ⟨h, .inl ⟨_, hfail⟩⟩) (fun hx => ⟨⟨_, hx⟩, _, h⟩)
  intro _
  obtain ⟨hgrew, hdir, hblocked⟩ := grew_createPrivateDir h
  cases hr : d.createPrivateDir.1 with
  | error e => exact .inl ⟨hgrew, .inr (.occupied hmem hc hnone (.inr (hblocked e hr)))⟩
  | ok _ =>
    have hput := safely_linkOrCopy (F := F) hf hmem hc hown hgrew hnone (hdir hr)
    dsimp only
    rw [wp_bind]
    refine wp_mono hput ?_ (fun _ hx => hx)
    intro r d' hd'
    cases r with
    | error e => exact hd'
    | ok _ => exact ⟨hd', hnone, hrep⟩

include hf hmem hc in
theorem wp_place (hown : d₀.OwnName f) (hcmp : F (.compare f) ≠ .fails) (h : Grew d₀ d placed) :
    wp F (place f c) (Places F d₀ d placed f c) (DiesPlacing F d₀) d := by
  have hfind := h.find hown hf
  have hread : d.read ⟨.new, f⟩ = d₀.read ⟨.new, f⟩ := read_congr (hfind .new) (h.rest f hf)
  rw [place, wp_bind]
  refine wp_call ?_ (fun hfail => .inl ⟨h, .inl ⟨_, hfail⟩⟩) (fun hx => ⟨⟨_, hx⟩, _, h⟩)
  intro _
  rw [hread]
  cases hr : d₀.read ⟨.new, f⟩ with
  | error e => exact .inl ⟨h, .inr (.unreadNew hmem hc hr)⟩
  | ok existing =>
    cases existing with
    | none =>
      dsimp only
      rw [wp_bind, wp_get, reported_congr (hfind .old) h.record]
      split
      · next hrep => exact ⟨rfl, .inr ⟨hr, hrep⟩⟩
      · next hrep => exact wp_create hf hmem hc hown h hr (by simpa using hrep)
    | some existing =>
      dsimp only
      rw [wp_bind]
      refine wp_call ?_ (fun hfail => absurd hfail hcmp) (fun hx => ⟨⟨_, hx⟩, _, h⟩)
      intro _
      dsimp only
      rw [samePath_congr hfind]
      split
      · next hsame => exact ⟨rfl, hsame⟩
      · next hsame =>
        split
        · next heq =>
          subst heq
          exact ⟨rfl, hr, by simpa using hsame⟩
        · next hne => exact ⟨rfl, .inl ⟨existing, hr, hne⟩⟩

end Placing

/-- No directory fails to be synced and nothing placed fails to be taken back. -/
def Reverts (F : Call → Fate) : Prop := ∀ f, F (.syncDir f) ≠ .fails ∧ F (.undo f) ≠ .fails

theorem wp_undo {created : List File} (h : Grew d₀ d placed) (hsub : created ⊆ placed)
    (hall : Reverts F → placed ⊆ created) :
    wp F (undo created) (fun _ d => ∃ placed, Grew d₀ d placed ∧ (Reverts F → placed = []))
      (DiesPlacing F d₀) d := by
  let I (done : List File) (d : Disk) : Prop :=
    ∃ left, Grew d₀ d left ∧ left ⊆ placed ∧ (Reverts F → ∀ f ∈ left, f ∉ done)
  have hloop : wp F (undo created) (fun _ => I created) (DiesPlacing F d₀) d := by
    refine wp_each ?_ ⟨placed, h, List.Subset.refl _, fun _ _ _ => by simp⟩
    rintro done f d hf ⟨left, hgrew, hleft, hdone⟩
    refine wp_call ?_ ?_ (fun hx => ⟨⟨_, hx⟩, left, hgrew⟩)
    · intro _
      refine ⟨_, grew_erase hgrew (h.fresh f (hsub hf)).1, ?_, ?_⟩
      · exact fun g hg => hleft (List.mem_of_mem_filter hg)
      · intro hrev g hg
        have hg' : g ∈ left ∧ g ≠ f := by simpa using hg
        simpa [hg'.2] using hdone hrev g hg'.1
    · intro hfail
      exact ⟨left, hgrew, hleft, fun hrev => absurd hfail (hrev f).2⟩
  refine wp_mono hloop ?_ (fun _ hx => hx)
  rintro _ d ⟨left, hgrew, hleft, hdone⟩
  refine ⟨left, hgrew, ?_⟩
  intro hrev
  rw [List.eq_nil_iff_forall_not_mem]
  exact fun f hf => hdone hrev f hf (hall hrev (hleft hf))

/-- What the files put in place so far are. -/
structure Sorted (d₀ d : Disk) (moved created kept : List File) : Prop where
  grew : Grew d₀ d created
  sub : created ⊆ moved
  ofMoved : ∀ f ∈ moved, f ∈ files ∧ ∃ c, d₀.read ⟨.old, f⟩ = .ok (some c) ∧ ¬ Kept d₀ f c ∧
    d₀.samePath f = false ∧ (f ∈ created ∨ d₀.read ⟨.new, f⟩ = .ok (some c))
  ofKept : ∀ f ∈ kept, f ∈ files ∧ ∃ c, d₀.read ⟨.old, f⟩ = .ok (some c) ∧ Kept d₀ f c

/-- The move of every file failed: what was placed before is taken back. -/
def Undone (F : Call → Fate) (d₀ d : Disk) : Prop :=
  ∃ placed, Grew d₀ d placed ∧ Hindered F d₀ ∧ (Reverts F → placed = [])

/-- What putting the rest of the files in place comes to. -/
def PlacesAll (F : Call → Fate) (d₀ : Disk) (rest : List (File × Bytes)) (moved kept : List File)
    (r : Except String (List File × List File)) (d : Disk) : Prop :=
  match r with
  | .ok (moved', kept') => (∃ created, Sorted d₀ d moved' created kept') ∧ moved ⊆ moved' ∧
      kept ⊆ kept' ∧ ∀ p ∈ rest, p.1 ∈ moved' ∨ p.1 ∈ kept' ∨ d₀.samePath p.1 = true
  | .error _ => Undone F d₀ d

theorem PlacesAll.cons {moved' kept' : List File}
    {r : Except String (List File × List File)} (h : PlacesAll F d₀ rest moved' kept' r d)
    (hmoved : moved ⊆ moved') (hkept : kept ⊆ kept')
    (hf : f ∈ moved' ∨ f ∈ kept' ∨ d₀.samePath f = true) :
    PlacesAll F d₀ ((f, c) :: rest) moved kept r d := by
  cases r with
  | error e => exact h
  | ok out =>
    obtain ⟨hsorted, hmv, hkp, hall⟩ := h
    refine ⟨hsorted, fun g hg => hmv (hmoved hg), fun g hg => hkp (hkept hg), ?_⟩
    refine List.forall_mem_cons.mpr ⟨?_, hall⟩
    exact hf.imp (fun h => hmv h) (fun h => h.imp_left fun h => hkp h)

theorem not_samePath_of_read (hnone : d₀.read ⟨.new, f⟩ = .ok none) : d₀.samePath f = false := by
  by_contra hsame
  obtain ⟨l, k, k', -, hn⟩ := samePath_iff.mp (by simpa using hsame)
  have hx : d₀.pathExists ⟨.new, f⟩ = true := by simp [pathExists, hn]
  rw [not_exists_of_read hnone] at hx
  cases hx

section Sorted

variable {created : List File} (h : Sorted d₀ d moved created kept) (hmem : f ∈ files)
  (hc : d₀.read ⟨.old, f⟩ = .ok (some c))

include h hmem hc

theorem Sorted.add_moved (hnot : ¬ Kept d₀ f c) (hdiff : d₀.samePath f = false)
    (hthere : d₀.read ⟨.new, f⟩ = .ok (some c)) : Sorted d₀ d (moved ++ [f]) created kept := by
  refine ⟨h.grew, fun g hg => List.mem_append_left _ (h.sub hg), ?_, h.ofKept⟩
  intro g hg
  rcases List.mem_append.mp hg with hg | hg
  · exact h.ofMoved g hg
  · obtain rfl : g = f := by simpa using hg
    exact ⟨hmem, c, hc, hnot, hdiff, .inr hthere⟩

theorem Sorted.add_kept (hkept : Kept d₀ f c) : Sorted d₀ d moved created (kept ++ [f]) := by
  refine ⟨h.grew, h.sub, h.ofMoved, ?_⟩
  intro g hg
  rcases List.mem_append.mp hg with hg | hg
  · exact h.ofKept g hg
  · obtain rfl : g = f := by simpa using hg
    exact ⟨hmem, c, hc, hkept⟩

theorem Sorted.add_created (hgrew : Grew d₀ d' (created ++ [f]))
    (hnone : d₀.read ⟨.new, f⟩ = .ok none) (hrep : d₀.reported f = false) :
    Sorted d₀ d' (moved ++ [f]) (created ++ [f]) kept := by
  refine ⟨hgrew, ?_, ?_, h.ofKept⟩
  · intro g hg
    rcases List.mem_append.mp hg with hg | hg
    · exact List.mem_append_left _ (h.sub hg)
    · exact List.mem_append_right _ hg
  · intro g hg
    rcases List.mem_append.mp hg with hg | hg
    · obtain ⟨hg₁, c', hc', hnot, hdiff, hplace⟩ := h.ofMoved g hg
      exact ⟨hg₁, c', hc', hnot, hdiff, hplace.imp_left (List.mem_append_left _)⟩
    · obtain rfl : g = f := by simpa using hg
      refine ⟨hmem, c, hc, ?_, not_samePath_of_read hnone, .inl (by simp)⟩
      rintro (⟨c', hc', -⟩ | ⟨-, hr⟩)
      · rw [hnone] at hc'
        cases hc'
      · rw [hrep] at hr
        cases hr

end Sorted

theorem wp_placeAll (hown : ∀ f ∈ files, d₀.OwnName f) (hcmp : ∀ f, F (.compare f) ≠ .fails)
    {moved created kept : List File}
    (hrest : ∀ p ∈ rest, p.1 ∈ files ∧ d₀.read ⟨.old, p.1⟩ = .ok (some p.2))
    (hnodup : (rest.map Prod.fst).Nodup) (hnew : ∀ p ∈ rest, p.1 ∉ created)
    (h : Sorted d₀ d moved created kept) :
    wp F (placeAll rest moved created kept) (PlacesAll F d₀ rest moved kept)
      (DiesPlacing F d₀) d := by
  induction rest generalizing d moved created kept with
  | nil => exact ⟨⟨created, h⟩, List.Subset.refl _, List.Subset.refl _, by simp⟩
  | cons p rest ih =>
    obtain ⟨f, c⟩ := p
    obtain ⟨hmem, hc⟩ := hrest (f, c) (by simp)
    have hf : f ∉ created := hnew (f, c) (by simp)
    have hrest' : ∀ p ∈ rest, p.1 ∈ files ∧ d₀.read ⟨.old, p.1⟩ = .ok (some p.2) :=
      fun p hp => hrest p (List.mem_cons_of_mem _ hp)
    have hnew' : ∀ p ∈ rest, p.1 ∉ created := fun p hp => hnew p (List.mem_cons_of_mem _ hp)
    obtain ⟨hfresh, hnodup'⟩ := List.nodup_cons.mp hnodup
    rw [placeAll, wp_bind]
    refine wp_mono (wp_place hf hmem hc (hown f hmem) (hcmp f) h.grew) ?_ (fun _ hx => hx)
    intro r d' hd'
    cases r with
    | error e =>
      rw [wp_bind]
      rcases hd' with ⟨hgrew, hh⟩ | ⟨hgrew, hfail⟩
      · refine wp_mono (wp_undo hgrew (List.Subset.refl _) fun _ => List.Subset.refl _) ?_
          (fun _ hx => hx)
        rintro _ d'' ⟨left, hleft, hrev⟩
        exact ⟨left, hleft, hh, hrev⟩
      · -- the entry was made but the directory was not synced: this file is not taken back
        refine wp_mono (wp_undo hgrew (List.subset_append_left _ _)
          fun hrev => absurd hfail (hrev f).1) ?_ (fun _ hx => hx)
        rintro _ d'' ⟨left, hleft, hrev⟩
        exact ⟨left, hleft, .inl ⟨_, hfail⟩, hrev⟩
    | ok placement =>
      cases placement with
      | same =>
        obtain ⟨rfl, hsame⟩ := hd'
        refine wp_mono (ih hrest' hnodup' hnew' h) ?_ (fun _ hx => hx)
        exact fun r d'' hr => hr.cons (List.Subset.refl _) (List.Subset.refl _) (.inr (.inr hsame))
      | there =>
        obtain ⟨rfl, hthere, hdiff⟩ := hd'
        have hnot : ¬ Kept d₀ f c := by
          rintro (⟨c', hc', hne⟩ | ⟨hnone, -⟩)
          · rw [hthere] at hc'
            cases hc'
            exact hne rfl
          · rw [hthere] at hnone
            cases hnone
        refine wp_mono (ih hrest' hnodup' hnew' (h.add_moved hmem hc hnot hdiff hthere)) ?_
          (fun _ hx => hx)
        exact fun r d'' hr => hr.cons (List.subset_append_left _ _) (List.Subset.refl _)
          (.inl (by simp))
      | kept =>
        obtain ⟨rfl, hkept⟩ := hd'
        refine wp_mono (ih hrest' hnodup' hnew' (h.add_kept hmem hc hkept)) ?_ (fun _ hx => hx)
        exact fun r d'' hr => hr.cons (List.Subset.refl _) (List.subset_append_left _ _)
          (.inr (.inl (by simp)))
      | created =>
        obtain ⟨hgrew, hnone, hrep⟩ := hd'
        have hnew'' : ∀ p ∈ rest, p.1 ∉ created ++ [f] := by
          intro p hp hmem'
          rcases List.mem_append.mp hmem' with hmem' | hmem'
          · exact hnew' p hp hmem'
          · refine hfresh (List.mem_map.mpr ⟨p, hp, ?_⟩)
            exact List.mem_singleton.mp hmem'
        refine wp_mono (ih hrest' hnodup' hnew'' (h.add_created hmem hc hgrew hnone hrep)) ?_
          (fun _ hx => hx)
        exact fun r d'' hr => hr.cons (List.subset_append_left _ _) (List.Subset.refl _)
          (.inl (by simp))

/-! Removing. -/

/-- How far the move has come: the files `moved` are in place in the new directory, and may be
gone from the old one; the others are as they were. -/
structure Between (d₀ d : Disk) (moved : List File) : Prop where
  dirs : ∃ k o k', d₀.dirs = .two .plain k ∧ d.dirs = .two o k' ∧ (o = .plain ∨ o = .absent) ∧
    (k' = k ∨ k = .absent ∧ k' = .plain)
  elsewhere : d.elsewhere = d₀.elsewhere
  record : d.record = d₀.record
  same : ∀ f ∈ files, f ∉ moved → ∀ s, d.lookup ⟨s, f⟩ = d₀.lookup ⟨s, f⟩
  old : ∀ f ∈ moved, d.lookup ⟨.old, f⟩ = d₀.lookup ⟨.old, f⟩ ∨ d.lookup ⟨.old, f⟩ = none
  fresh : ∀ f ∈ moved, (d₀.lookup ⟨.new, f⟩ = none ∨ d.lookup ⟨.new, f⟩ = d₀.lookup ⟨.new, f⟩) ∧
    ∃ c, d₀.read ⟨.old, f⟩ = .ok (some c) ∧ InPlace d f c

/-- The process died on the way. -/
def Dies (F : Call → Fate) (d₀ d : Disk) : Prop :=
  (∃ c, F c = .crashes) ∧ ∃ moved, Between d₀ d moved

theorem Grew.between (h : Grew d₀ d placed) : Between d₀ d placed := by
  obtain ⟨k, k', h₀, h₁, hk⟩ := h.dirs
  refine ⟨⟨k, .plain, k', h₀, h₁, .inl rfl, hk⟩, h.elsewhere, h.record,
    fun f _ hf => h.same hf, fun f _ => .inl (h.old f), ?_⟩
  intro f hf
  obtain ⟨hnone, hplace⟩ := h.fresh f hf
  exact ⟨.inl hnone, hplace⟩

theorem Sorted.between {created : List File} (hown : ∀ f ∈ files, d₀.OwnName f)
    (h : Sorted d₀ d moved created kept) : Between d₀ d moved := by
  obtain ⟨k, k', h₀, h₁, hk⟩ := h.grew.dirs
  refine ⟨⟨k, .plain, k', h₀, h₁, .inl rfl, hk⟩, h.grew.elsewhere, h.grew.record,
    fun f _ hf => h.grew.same fun hmem => hf (h.sub hmem), fun f _ => .inl (h.grew.old f), ?_⟩
  intro f hf
  obtain ⟨hmem, c, hc, -, hdiff, hplace⟩ := h.ofMoved f hf
  by_cases hcreated : f ∈ created
  · obtain ⟨hnone, hplace⟩ := h.grew.fresh f hcreated
    exact ⟨.inl hnone, hplace⟩
  · have hread : d₀.read ⟨.new, f⟩ = .ok (some c) := hplace.resolve_left hcreated
    have hlook := h.grew.rest f hcreated
    refine ⟨.inr hlook, c, hc, ?_⟩
    exact (inPlace_of_read (hown f hmem) hread hdiff).congr hlook h.grew.elsewhere

theorem Between.erase (h : Between d₀ d moved) (hf : f ∈ moved) :
    Between d₀ (d.erase ⟨.old, f⟩) moved := by
  obtain ⟨k, o, k', h₀, h₁, ho, hk⟩ := h.dirs
  have hlook := lookup_erase h₁ ⟨.old, f⟩
  refine ⟨⟨k, o, k', h₀, by simp [h₁], ho, hk⟩, by simp [h.elsewhere], by simp [h.record],
    ?_, ?_, ?_⟩
  · intro g hg hnot s
    have hne : g ≠ f := fun hgf => hnot (hgf ▸ hf)
    rw [hlook, ← h.same g hg hnot s]
    simp [hne]
  · intro g hg
    rw [hlook]
    by_cases hgf : g = f
    · simp [hgf]
    · simpa [hgf] using h.old g hg
  · intro g hg
    obtain ⟨hfresh, c, hc, hplace⟩ := h.fresh g hg
    have hnew : (d.erase ⟨.old, f⟩).lookup ⟨.new, g⟩ = d.lookup ⟨.new, g⟩ := by simp [hlook]
    exact ⟨by rwa [hnew], c, hc, hplace.congr hnew (by simp)⟩

/-- A change of the old directory that leaves the files alone. -/
structure Swept (d d' : Disk) : Prop where
  dirs : d'.dirs = d.dirs ∨ ∃ n, d.dirs = .two .plain n ∧ d'.dirs = .two .absent n
  elsewhere : d'.elsewhere = d.elsewhere
  record : d'.record = d.record
  lookup : ∀ f ∈ files, ∀ s, d'.lookup ⟨s, f⟩ = d.lookup ⟨s, f⟩

theorem swept_eraseSchema {o n : DirKind} (h : d.dirs = .two o n) :
    Swept d (d.erase ⟨.old, .schema⟩) := by
  refine ⟨.inl (by simp), by simp, by simp, ?_⟩
  intro f hf s
  have hne : f ≠ .schema := by
    rintro rfl
    simp [files] at hf
  rw [lookup_erase h]
  simp [hne]

theorem swept_removeOldDir (d : Disk) : Swept d d.removeOldDir := by
  unfold removeOldDir
  split
  · next new hdirs =>
    split
    · exact ⟨.inl rfl, rfl, rfl, fun _ _ _ => rfl⟩
    · next hempty =>
      refine ⟨.inr ⟨new, hdirs, rfl⟩, rfl, rfl, ?_⟩
      intro f hf s
      cases s with
      | old =>
        have hnot : d.isPresent ⟨.old, f⟩ = false := by
          by_contra hne
          refine hempty (.inr (List.any_eq_true.mpr ⟨f, ?_, by simpa using hne⟩))
          simp only [files, List.mem_cons] at hf ⊢
          tauto
        have hnone : d.lookup ⟨.old, f⟩ = none := by simpa [isPresent] using hnot
        rw [hnone, lookup_two rfl]
        simp [Dirs.kind, DirKind.isDir]
      | new =>
        unfold lookup home
        rw [hdirs]
        rfl
  · exact ⟨.inl rfl, rfl, rfl, fun _ _ _ => rfl⟩

theorem Between.swept (h : Between d₀ d moved) (hs : moved ⊆ files) (hsw : Swept d d') :
    Between d₀ d' moved := by
  obtain ⟨k, o, k', h₀, h₁, ho, hk⟩ := h.dirs
  refine ⟨?_, by rw [hsw.elsewhere, h.elsewhere], by rw [hsw.record, h.record], ?_, ?_, ?_⟩
  · rcases hsw.dirs with hd | ⟨n, hd, hd'⟩
    · exact ⟨k, o, k', h₀, by rw [hd, h₁], ho, hk⟩
    · rw [h₁] at hd
      cases hd
      exact ⟨k, .absent, k', h₀, hd', .inr rfl, hk⟩
  · intro f hf hnot s
    rw [hsw.lookup f hf s, h.same f hf hnot s]
  · intro f hf
    rw [hsw.lookup f (hs hf)]
    exact h.old f hf
  · intro f hf
    obtain ⟨hfresh, c, hc, hplace⟩ := h.fresh f hf
    have hnew := hsw.lookup f (hs hf) .new
    exact ⟨by rwa [hnew], c, hc, hplace.congr hnew hsw.elsewhere⟩

theorem wp_removeAll (h : Between d₀ d moved) :
    wp F (removeAll moved) (fun _ d => Between d₀ d moved ∧
        ∀ f ∈ moved, d.lookup ⟨.old, f⟩ = none ∨ F (.removeOld f) = .fails) (Dies F d₀) d := by
  refine wp_each (I := fun done d => Between d₀ d moved ∧
    ∀ f ∈ done, d.lookup ⟨.old, f⟩ = none ∨ F (.removeOld f) = .fails) ?_ ⟨h, by simp⟩
  rintro done f d hf ⟨hbetween, hdone⟩
  obtain ⟨k, o, k', -, h₁, -, -⟩ := hbetween.dirs
  refine wp_call ?_ ?_ (fun hx => ⟨⟨_, hx⟩, moved, hbetween⟩)
  · intro _
    refine ⟨hbetween.erase hf, ?_⟩
    intro g hg
    rw [lookup_erase h₁]
    by_cases hgf : g = f
    · simp [hgf]
    · have hg' : g ∈ done := by simpa [hgf] using hg
      simpa [hgf] using hdone g hg'
  · intro hfail
    refine ⟨hbetween, ?_⟩
    intro g hg
    rcases List.mem_append.mp hg with hg | hg
    · exact hdone g hg
    · obtain rfl : g = f := by simpa using hg
      exact .inr hfail

theorem wp_removeEmpty (h : Between d₀ d moved) (hs : moved ⊆ files)
    (hgone : ∀ f ∈ moved, d.lookup ⟨.old, f⟩ = none ∨ F (.removeOld f) = .fails) :
    wp F removeEmpty (fun _ d => Between d₀ d moved ∧
        ∀ f ∈ moved, d.lookup ⟨.old, f⟩ = none ∨ F (.removeOld f) = .fails) (Dies F d₀) d := by
  -- both steps sweep, so both keep what is said of the files
  have hsweep {d d' : Disk} (hsw : Swept d d') (h : Between d₀ d moved ∧
      ∀ f ∈ moved, d.lookup ⟨.old, f⟩ = none ∨ F (.removeOld f) = .fails) :
      Between d₀ d' moved ∧
        ∀ f ∈ moved, d'.lookup ⟨.old, f⟩ = none ∨ F (.removeOld f) = .fails := by
    refine ⟨h.1.swept hs hsw, ?_⟩
    intro f hf
    rw [hsw.lookup f (hs hf)]
    exact h.2 f hf
  have hdir (d : Disk) (h : Between d₀ d moved ∧
      ∀ f ∈ moved, d.lookup ⟨.old, f⟩ = none ∨ F (.removeOld f) = .fails) :
      wp F (Prog.call .removeDir () fun d => ((), d.removeOldDir)) (fun _ d => Between d₀ d moved ∧
          ∀ f ∈ moved, d.lookup ⟨.old, f⟩ = none ∨ F (.removeOld f) = .fails)
        (Dies F d₀) d :=
    wp_call (fun _ => hsweep (swept_removeOldDir d) h) (fun _ => h) (fun hx => ⟨⟨_, hx⟩, moved, h.1⟩)
  obtain ⟨k, o, k', -, h₁, -, -⟩ := h.dirs
  rw [removeEmpty, wp_bind, wp_get]
  split
  · exact ⟨h, hgone⟩
  · rw [wp_bind]
    refine wp_call ?_ (fun _ => hdir d ⟨h, hgone⟩) (fun hx => ⟨⟨_, hx⟩, moved, h⟩)
    exact fun _ => hdir _ (hsweep (swept_eraseSchema h₁) ⟨h, hgone⟩)

theorem wp_readAll {fs : List File} (hfs : fs ⊆ files) :
    wp F (readAll fs) (fun r d' => d' = d ∧
      match r with
      | .ok old => (old.map Prod.fst).Sublist fs ∧
          (∀ p ∈ old, d.read ⟨.old, p.1⟩ = .ok (some p.2)) ∧
          ∀ f ∈ fs, (∃ c, (f, c) ∈ old) ∨ d.read ⟨.old, f⟩ = .ok none
      | .error _ => Hindered F d) (fun d' => (∃ c, F c = .crashes) ∧ d' = d) d := by
  induction fs with
  | nil => exact ⟨rfl, List.Sublist.refl _, by simp, by simp⟩
  | cons f fs ih =>
    have hf : f ∈ files := hfs (by simp)
    have hfs' : fs ⊆ files := fun g hg => hfs (List.mem_cons_of_mem _ hg)
    rw [readAll, wp_bind]
    refine wp_call ?_ (fun hfail => ⟨rfl, .inl ⟨_, hfail⟩⟩) (fun hx => ⟨⟨_, hx⟩, rfl⟩)
    intro _
    cases hr : d.read ⟨.old, f⟩ with
    | error e => exact ⟨rfl, .inr (.unreadOld hf hr)⟩
    | ok o =>
      cases o with
      | none =>
        refine wp_mono (ih hfs') ?_ (fun _ hx => hx)
        rintro r d' ⟨rfl, h⟩
        cases r with
        | error e => exact ⟨rfl, h⟩
        | ok old =>
          obtain ⟨hsub, hread, hall⟩ := h
          exact ⟨rfl, hsub.cons f, hread, List.forall_mem_cons.mpr ⟨.inr hr, hall⟩⟩
      | some c =>
        rw [wp_bind]
        refine wp_mono (ih hfs') ?_ (fun _ hx => hx)
        rintro r d' ⟨rfl, h⟩
        cases r with
        | error e => exact ⟨rfl, h⟩
        | ok old =>
          obtain ⟨hsub, hread, hall⟩ := h
          refine ⟨rfl, hsub.cons_cons f, List.forall_mem_cons.mpr ⟨hr, hread⟩, ?_⟩
          refine List.forall_mem_cons.mpr ⟨.inl ⟨c, by simp⟩, ?_⟩
          intro g hg
          exact (hall g hg).imp_left fun ⟨c', hc'⟩ => ⟨c', List.mem_cons_of_mem _ hc'⟩

/-- What a move that went through says of its files. -/
structure Moved (F : Call → Fate) (d₀ d : Disk) (moved kept : List File) : Prop where
  between : Between d₀ d moved
  gone : ∀ f ∈ moved, d.lookup ⟨.old, f⟩ = none ∨ F (.removeOld f) = .fails
  ofMoved : ∀ f ∈ moved, f ∈ files ∧ ∃ c, d₀.read ⟨.old, f⟩ = .ok (some c) ∧ ¬ Kept d₀ f c ∧
    d₀.samePath f = false
  ofKept : ∀ f ∈ kept, f ∈ files ∧ ∃ c, d₀.read ⟨.old, f⟩ = .ok (some c) ∧ Kept d₀ f c
  all : ∀ f ∈ files, (f ∈ moved ∨ f ∈ kept ∨ d₀.samePath f = true) ∨
    d₀.read ⟨.old, f⟩ = .ok none

/-- What reading and placing the files comes to. -/
def Moves (F : Call → Fate) (d₀ : Disk) (r : Except String (List File)) (d : Disk) : Prop :=
  match r with
  | .ok kept => ∃ moved, Moved F d₀ d moved kept
  | .error _ => Undone F d₀ d

theorem wp_moveRead {k : DirKind} (hdirs : d₀.dirs = .two .plain k)
    (hown : ∀ f ∈ files, d₀.OwnName f) (hcmp : ∀ f, F (.compare f) ≠ .fails) :
    wp F moveRead (Moves F d₀) (Dies F d₀) d₀ := by
  have hnone : Grew d₀ d₀ [] := .refl hdirs
  rw [moveRead, wp_bind]
  refine wp_mono (wp_readAll (List.Subset.refl _)) ?_ ?_
  · rintro r d ⟨rfl, hr⟩
    cases r with
    | error e => exact ⟨[], hnone, hr, fun _ => rfl⟩
    | ok old =>
      obtain ⟨hsub, hread, hall⟩ := hr
      have hrest : ∀ p ∈ old, p.1 ∈ files ∧ d.read ⟨.old, p.1⟩ = .ok (some p.2) :=
        fun p hp => ⟨hsub.subset (List.mem_map_of_mem hp), hread p hp⟩
      have hnodup : (old.map Prod.fst).Nodup := hsub.nodup (by decide)
      have hstart : Sorted d d [] [] [] := ⟨hnone, by simp, by simp, by simp⟩
      rw [wp_bind]
      refine wp_mono (wp_placeAll hown hcmp hrest hnodup (by simp) hstart) ?_ ?_
      · intro r d' hr
        cases r with
        | error e => exact hr
        | ok out =>
          obtain ⟨moved, kept⟩ := out
          obtain ⟨⟨created, hsorted⟩, -, -, hplaced⟩ := hr
          have hmoved : moved ⊆ files := fun f hf => (hsorted.ofMoved f hf).1
          rw [wp_bind]
          refine wp_mono (wp_removeAll (hsorted.between hown)) ?_ (fun _ hx => hx)
          rintro _ d'' ⟨hbetween, hgone⟩
          rw [wp_bind]
          refine wp_mono (wp_removeEmpty hbetween hmoved hgone) ?_ (fun _ hx => hx)
          rintro _ d''' ⟨hbetween, hgone⟩
          refine ⟨moved, hbetween, hgone, ?_, hsorted.ofKept, ?_⟩
          · intro f hf
            obtain ⟨hmem, c, hc, hnot, hdiff, -⟩ := hsorted.ofMoved f hf
            exact ⟨hmem, c, hc, hnot, hdiff⟩
          · intro f hf
            exact (hall f hf).imp_left fun ⟨c, hc⟩ => hplaced (f, c) hc
      · rintro d' ⟨hdies, placed, hgrew⟩
        exact ⟨hdies, placed, hgrew.between⟩
  · rintro d ⟨hdies, rfl⟩
    exact ⟨hdies, [], hnone.between⟩

end AciGateway.Desktop.Relocation
