import AciGateway.Desktop.RelocationMoves

/-! What a relocation leaves: no old file is lost, the next run finishes the move, and the
directory it returns is the one selected later. -/
namespace AciGateway.Desktop.Relocation

open Faults Octets Disk

variable {N : Names} {d d₀ d' : Disk} {f : File} {s : Side} {c : Bytes} {F : Call → Fate}
  {moved kept : List File}

/-! The states of a move. -/

theorem Between.home (h : Between d₀ d moved) : d.home = d₀.home := by
  obtain ⟨k, o, k', h₀, h₁, -⟩ := h.dirs
  rw [home_two h₀, home_two h₁]

theorem Between.find (h : Between d₀ d moved) (hown : d₀.OwnName f) (hf : f ∈ files)
    (hnot : f ∉ moved) (s : Side) : d.find ⟨s, f⟩ = d₀.find ⟨s, f⟩ :=
  resolve_congr hown h.home h.elsewhere (h.same f hf hnot) _ s

theorem Between.read (h : Between d₀ d moved) (hown : d₀.OwnName f) (hf : f ∈ files)
    (hnot : f ∉ moved) (s : Side) : d.read ⟨s, f⟩ = d₀.read ⟨s, f⟩ :=
  read_congr (h.find hown hf hnot s) (h.same f hf hnot s)

theorem Between.content (h : Between d₀ d moved) (hown : d₀.OwnName f) (hf : f ∈ files)
    (hnot : f ∉ moved) (s : Side) : d.content ⟨s, f⟩ = d₀.content ⟨s, f⟩ := by
  simp only [Disk.content, Disk.fsRead, h.find hown hf hnot s]

theorem Between.reported (h : Between d₀ d moved) (hown : d₀.OwnName f) (hf : f ∈ files)
    (hnot : f ∉ moved) : d.reported f = d₀.reported f :=
  reported_congr (h.find hown hf hnot .old) h.record

theorem Between.kept_iff (h : Between d₀ d moved) (hown : d₀.OwnName f) (hf : f ∈ files)
    (hnot : f ∉ moved) : Kept d f c ↔ Kept d₀ f c := by
  rw [Kept, Kept, h.read hown hf hnot, h.reported hown hf hnot]

/-- A file in place whose old entry is still there is read as before. -/
theorem Between.read_moved (h : Between d₀ d moved) (hown : d₀.OwnName f) (hf : f ∈ moved)
    (hc : d₀.read ⟨.old, f⟩ = .ok (some c)) (hold : d.lookup ⟨.old, f⟩ = d₀.lookup ⟨.old, f⟩) :
    d.read ⟨.old, f⟩ = .ok (some c) := by
  obtain ⟨l, m, hfind⟩ := Disk.fsRead_eq_ok_iff.mp (Disk.fsRead_of_read hc)
  have hstays : ∀ s node, d₀.lookup ⟨s, f⟩ = some node → d.lookup ⟨s, f⟩ = some node := by
    intro s node hnode
    cases s with
    | old => rw [hold, hnode]
    | new =>
      rcases (h.fresh f hf).1 with hnone | hsame
      · rw [hnone] at hnode
        cases hnode
      · rw [hsame, hnode]
  have hfind' := Disk.resolve_stays hown h.home h.elsewhere hstays hfind
  have hread := Disk.fsRead_eq_ok_iff.mpr ⟨l, m, hfind'⟩
  have hlink : d.isSymlink ⟨.old, f⟩ = d₀.isSymlink ⟨.old, f⟩ := by
    simp only [Disk.isSymlink, hold]
  have hread₀ := Disk.fsRead_of_read hc
  rw [← hc]
  simp only [Disk.read, hlink, hread, hread₀]

theorem Between.ownName (h : Between d₀ d moved) (hown : ∀ f ∈ files, d₀.OwnName f) (hf : f ∈ files) :
    d.OwnName f := by
  intro s p hl
  by_cases hm : f ∈ moved
  · cases s with
    | old =>
      rcases h.old f hm with hsame | hnone
      · exact hown f hf .old p (by rw [← hsame, hl])
      · rw [hnone] at hl
        cases hl
    | new =>
      obtain ⟨-, c, -, hplace⟩ := h.fresh f hm
      exact absurd hl hplace.ownName
  · exact hown f hf s p (by rw [← h.same f hf hm s, hl])

/-- Every old file is read in the old or the new directory. -/
def NothingLost (d₀ d : Disk) : Prop :=
  ∀ f ∈ files, ∀ c, d₀.content ⟨.old, f⟩ = some c →
    d.content ⟨.old, f⟩ = some c ∨ d.content ⟨.new, f⟩ = some c

theorem Between.nothingLost (h : Between d₀ d moved) (hown : ∀ f ∈ files, d₀.OwnName f) :
    NothingLost d₀ d := by
  intro f hf c hc
  by_cases hm : f ∈ moved
  · obtain ⟨-, c', hc', hplace⟩ := h.fresh f hm
    rw [content_of_read hc'] at hc
    cases hc
    exact .inr hplace.content
  · exact .inl (by rw [h.content (hown f hf) hf hm, hc])

/-- Every old file is in the new directory and gone from the old one (or both are one file), or is
kept because the new directory has, or had, its own. -/
def Completed (d₀ d : Disk) (kept : List File) : Prop :=
  ∀ f ∈ files, ∀ c, d₀.content ⟨.old, f⟩ = some c →
    (d.content ⟨.new, f⟩ = some c ∧ (d.lookup ⟨.old, f⟩ = none ∨ d.samePath f = true)) ∨
    (f ∈ kept ∧ Kept d₀ f c ∧ d.content ⟨.old, f⟩ = some c)

/-- A refusal met on the way was there from the start. -/
theorem Between.refused (h : Between d₀ d moved) (hown : ∀ f ∈ files, d₀.OwnName f) (hr : Refused d) :
    Refused d₀ := by
  obtain ⟨k, o, k', h₀, h₁, ho, hk⟩ := h.dirs
  -- what a file in place, gone or not from the old directory, is read as
  have hmoved {f : File} (hf : f ∈ files) (hm : f ∈ moved) :
      (∃ o, d.read ⟨.old, f⟩ = .ok o) ∧ ∃ c, d.read ⟨.new, f⟩ = .ok (some c) := by
    obtain ⟨-, c, hc, hplace⟩ := h.fresh f hm
    refine ⟨?_, c, hplace.read⟩
    rcases h.old f hm with hsame | hnone
    · exact ⟨_, h.read_moved (hown f hf) hm hc hsame⟩
    · have hread : d.fsRead ⟨.old, f⟩ = .error .notFound := by
        simp [Disk.fsRead, Disk.find, Disk.symlinkLimit, Disk.resolve, hnone]
      simp [Disk.read, hread, Disk.isSymlink, hnone]
  cases hr with
  | linked hkind hf hx =>
    rcases ho with rfl | rfl <;> simp [h₁, Dirs.kind] at hkind
  | @unreadOld f e hf he =>
    by_cases hm : f ∈ moved
    · obtain ⟨⟨o, ho⟩, -⟩ := hmoved hf hm
      rw [he] at ho
      cases ho
    · exact .unreadOld hf (by rw [← h.read (hown f hf) hf hm, he])
  | @unreadNew f c e hf hc he =>
    by_cases hm : f ∈ moved
    · obtain ⟨-, c, hc⟩ := hmoved hf hm
      rw [he] at hc
      cases hc
    · exact .unreadNew hf (by rw [← h.read (hown f hf) hf hm, hc])
        (by rw [← h.read (hown f hf) hf hm, he])
  | @occupied f c hf hc hnone hocc =>
    by_cases hm : f ∈ moved
    · obtain ⟨-, c, hc⟩ := hmoved hf hm
      rw [hnone] at hc
      cases hc
    · refine .occupied hf (by rw [← h.read (hown f hf) hf hm, hc])
        (by rw [← h.read (hown f hf) hf hm, hnone]) ?_
      rcases hocc with hpres | hblocked
      · exact .inl (by rwa [← h.same f hf hm .new])
      · right
        have hk' : k' = .blocked := by simpa [h₁, Dirs.kind] using hblocked
        rcases hk with rfl | ⟨-, rfl⟩
        · simpa [h₀, Dirs.kind] using hk'
        · cases hk'

/-- A file as a move that met no fault leaves it, told from the state it began in. -/
theorem Moved.file (h : Moved (fun _ => .goes) d₀ d moved kept) (hown : ∀ f ∈ files, d₀.OwnName f)
    (hf : f ∈ files) (hc : d₀.content ⟨.old, f⟩ = some c) :
    (d.content ⟨.new, f⟩ = some c ∧ (d.lookup ⟨.old, f⟩ = none ∨ d.samePath f = true)) ∨
    (f ∈ kept ∧ Kept d₀ f c ∧ d.content ⟨.old, f⟩ = some c) := by
  rcases h.all f hf with hsort | hnone
  · by_cases hm : f ∈ moved
    · obtain ⟨-, c', hc', hplace⟩ := h.between.fresh f hm
      rw [content_of_read hc'] at hc
      cases hc
      exact .inl ⟨hplace.content, .inl ((h.gone f hm).resolve_right (by simp))⟩
    · have hfind := h.between.find (hown f hf) hf hm
      have hold := h.between.content (hown f hf) hf hm .old
      rcases hsort.resolve_left hm with hk | hsame
      · obtain ⟨-, c', hc', hkept⟩ := h.ofKept f hk
        have hcc : c' = c := by simpa [content_of_read hc'] using hc
        subst hcc
        exact .inr ⟨hk, hkept, by rw [hold, hc]⟩
      · refine .inl ⟨?_, .inr (by rw [samePath_congr hfind, hsame])⟩
        rw [h.between.content (hown f hf) hf hm .new]
        exact content_of_samePath (hown f hf) hsame hc
  · have hx := pathExists_of_content hc
    rw [not_exists_of_read hnone] at hx
    cases hx

/-- A run without a fault from a state on the way completes the move. -/
theorem Between.completed (h : Between d₀ d moved) (hown : ∀ f ∈ files, d₀.OwnName f)
    {moved' : List File} (hm' : Moved (fun _ => .goes) d d' moved' kept) : Completed d₀ d' kept := by
  intro f hf c hc
  have hown' : ∀ f ∈ files, d.OwnName f := fun f hf => h.ownName hown hf
  by_cases hm : f ∈ moved
  · obtain ⟨-, c', hc', hplace⟩ := h.fresh f hm
    rw [Disk.content_of_read hc'] at hc
    cases hc
    rcases h.old f hm with hsame | hnone
    · have hread := h.read_moved (hown f hf) hm hc' hsame
      rcases hm'.file hown' hf (Disk.content_of_read hread) with hdone | ⟨-, hkept, -⟩
      · exact .inl hdone
      · -- what is in place is no other content
        exfalso
        rcases hkept with ⟨c', hc', hne⟩ | ⟨hnone, -⟩
        · rw [hplace.read] at hc'
          cases hc'
          exact hne rfl
        · rw [hplace.read] at hnone
          cases hnone
    · have hnot : f ∉ moved' := by
        intro hmem
        obtain ⟨-, c', hc', -⟩ := hm'.between.fresh f hmem
        have := Disk.fsRead_of_read hc'
        simp [Disk.fsRead, Disk.find, Disk.symlinkLimit, Disk.resolve, hnone] at this
      refine .inl ⟨?_, .inl ?_⟩
      · rw [hm'.between.content (hown' f hf) hf hnot, hplace.content]
      · rw [hm'.between.same f hf hnot, hnone]
  · have hc' : d.content ⟨.old, f⟩ = some c := by rw [h.content (hown f hf) hf hm, hc]
    rcases hm'.file hown' hf hc' with hdone | ⟨hk, hkept, hold⟩
    · exact .inl hdone
    · exact .inr ⟨hk, (h.kept_iff (hown f hf) hf hm).mp hkept, hold⟩

/-! The whole move. -/

/-- There is nothing to move. -/
def Settled (d : Disk) : Prop :=
  (d.dirs.kind .old).isDir = false ∨ d.sameDirs = true ∨
    ∀ f ∈ files, d.pathExists ⟨.old, f⟩ = false

/-- What a move comes to. -/
inductive Result (F : Call → Fate) (d₀ : Disk) : Except String (List File) → Disk → Prop
  | nothing (h : Settled d₀) : Result F d₀ (.ok []) d₀
  | refused {e : String} (hk : d₀.dirs.kind .old = .linked)
      (hf : ∃ f ∈ files, d₀.pathExists ⟨.old, f⟩ = true) (ht : d₀.sameDirs = false) :
      Result F d₀ (.error e) d₀
  | moves {r : Except String (List File)} {d : Disk} (h : Moves F d₀ r d) : Result F d₀ r d

theorem wp_moveFiles (hown : ∀ f ∈ files, d₀.OwnName f) (hdir : F .compareDirs ≠ .fails)
    (hcmp : ∀ f, F (.compare f) ≠ .fails) :
    wp F (moveFiles N) (Result F d₀)
      (fun d => (∃ c, F c = .crashes) ∧ (d = d₀ ∨ ∃ moved, Between d₀ d moved)) d₀ := by
  rw [moveFiles, wp_bind, wp_get]
  split
  · next habs => exact .nothing (.inl (by simp [habs, DirKind.isDir]))
  · rw [wp_bind]
    refine wp_call ?_ (fun hfail => absurd hfail hdir) (fun hx => ⟨⟨_, hx⟩, .inl rfl⟩)
    intro _
    split
    · next hsame => exact .nothing (.inr (.inl hsame))
    · next hsame =>
      rw [wp_bind, wp_get]
      split
      · next hk =>
        rw [wp_bind, wp_get]
        split
        · next hany => exact .refused hk (List.any_eq_true.mp hany) (by simpa using hsame)
        · next hany => exact .nothing (.inr (.inr (by simpa [files] using hany)))
      · next hk =>
        have htwo : ∃ k, d₀.dirs = .two .plain k := by
          cases hdirs : d₀.dirs with
          | one l => simp [sameDirs, hdirs] at hsame
          | two o k =>
            obtain rfl : o = .plain := by simpa [hdirs, Dirs.kind] using hk
            exact ⟨k, rfl⟩
        obtain ⟨k, htwo⟩ := htwo
        refine wp_mono (wp_moveRead htwo hown hcmp) (fun r d h => .moves h) ?_
        exact fun d h => ⟨h.1, .inr h.2⟩
      · refine .nothing (.inl ?_)
        cases hk : d₀.dirs.kind .old <;> simp_all [DirKind.isDir]

theorem Result.between {r : Except String (List File)} (h : Result F d₀ r d) :
    d = d₀ ∨ ∃ moved, Between d₀ d moved := by
  cases h with
  | nothing => exact .inl rfl
  | refused => exact .inl rfl
  | moves h =>
    cases r with
    | ok kept =>
      obtain ⟨moved, h⟩ := h
      exact .inr ⟨moved, h.between⟩
    | error e =>
      obtain ⟨placed, hgrew, -⟩ := h
      exact .inr ⟨placed, hgrew.between⟩

/-- A run without a fault completes the move, unless it was refused from the start. -/
def Finishes (N : Names) (d₀ d : Disk) : Prop :=
  wp (fun _ => .goes) (moveFiles N)
    (fun r d' => match r with
      | .ok kept => Completed d₀ d' kept
      | .error _ => Refused d₀) (fun _ => False) d

theorem content_of_not_isDir (h : (d.dirs.kind s).isDir = false) : d.content ⟨s, f⟩ = none := by
  have hnone : d.lookup ⟨s, f⟩ = none := by simp [lookup, h]
  simp [content, fsRead, find, symlinkLimit, resolve, hnone, Except.toOption]

theorem samePath_of_sameDirs (h : d.sameDirs = true) (hx : d.pathExists ⟨.old, f⟩ = true) :
    d.samePath f = true ∧ d.content ⟨.new, f⟩ = d.content ⟨.old, f⟩ := by
  cases hdirs : d.dirs with
  | two o n => simp [sameDirs, hdirs] at h
  | one l =>
    have hlook : d.lookup ⟨.new, f⟩ = d.lookup ⟨.old, f⟩ := by
      cases l <;> simp [lookup, home, hdirs, Dirs.kind, DirKind.isDir]
    have hfind : d.find ⟨.new, f⟩ = d.find ⟨.old, f⟩ := by
      simp only [find, symlinkLimit, resolve, hlook, home, hdirs]
    refine ⟨?_, by simp only [content, fsRead, hfind]⟩
    unfold pathExists at hx
    split at hx
    · next l k hl => exact samePath_iff.mpr ⟨l, k, k, hl, by rw [hfind, hl]⟩
    · cases hx

theorem Settled.completed (h : Settled d) : Completed d d [] := by
  intro f hf c hc
  rcases h with hdir | hsame | hnone
  · rw [content_of_not_isDir hdir] at hc
    cases hc
  · obtain ⟨hpath, hcont⟩ := samePath_of_sameDirs hsame (pathExists_of_content hc)
    exact .inl ⟨by rw [hcont, hc], .inr hpath⟩
  · have hx := pathExists_of_content hc
    rw [hnone f hf] at hx
    cases hx

theorem Between.settled (h : Between d₀ d moved) (hown : ∀ f ∈ files, d₀.OwnName f)
    (hs : Settled d) : Completed d₀ d [] := by
  intro f hf c hc
  have hgone : d.content ⟨.old, f⟩ = none := by
    by_contra hne
    obtain ⟨c', hc'⟩ := Option.ne_none_iff_exists'.mp hne
    rcases hs with hdir | hsame | hnone
    · exact hne (content_of_not_isDir hdir)
    · obtain ⟨k, o, k', -, h₁, -⟩ := h.dirs
      simp [sameDirs, h₁] at hsame
    · have hx := pathExists_of_content hc'
      rw [hnone f hf] at hx
      cases hx
  by_cases hm : f ∈ moved
  · obtain ⟨-, c', hc', hplace⟩ := h.fresh f hm
    rw [content_of_read hc'] at hc
    cases hc
    rcases h.old f hm with hsame | hnone
    · rw [content_of_read (h.read_moved (hown f hf) hm hc' hsame)] at hgone
      cases hgone
    · exact .inl ⟨hplace.content, .inl hnone⟩
  · rw [h.content (hown f hf) hf hm, hc] at hgone
    cases hgone

theorem finishes (hown : ∀ f ∈ files, d₀.OwnName f) (h : d = d₀ ∨ ∃ moved, Between d₀ d moved) :
    Finishes N d₀ d := by
  have hown' : ∀ f ∈ files, d.OwnName f := by
    rcases h with rfl | ⟨moved, h⟩
    · exact hown
    · exact fun f hf => h.ownName hown hf
  have hrun := wp_moveFiles (N := N) (F := fun _ => .goes) hown' (by simp) (by simp)
  refine wp_mono hrun ?_ (fun d' hx => by simp at hx)
  intro r d' hr
  rcases h with rfl | ⟨moved, h⟩
  · cases hr with
    | nothing hs => exact hs.completed
    | refused hk hx ht =>
      obtain ⟨f, hf, hx⟩ := hx
      exact .linked hk hf hx
    | moves hm =>
      cases r with
      | ok kept =>
        obtain ⟨moved, hm⟩ := hm
        exact fun f hf c hc => hm.file hown hf hc
      | error e =>
        obtain ⟨-, -, hh, -⟩ := hm
        exact hh.resolve_left (by simp)
  · cases hr with
    | nothing hs => exact h.settled hown hs
    | refused hk hx ht =>
      obtain ⟨f, hf, hx⟩ := hx
      exact h.refused hown (.linked hk hf hx)
    | moves hm =>
      cases r with
      | ok kept =>
        obtain ⟨moved', hm⟩ := hm
        exact h.completed hown hm
      | error e =>
        obtain ⟨-, -, hh, -⟩ := hm
        exact h.refused hown (hh.resolve_left (by simp))

/-! The selection. -/

/-- The old directory alone has the file. -/
def onlyOld (d : Disk) (f : File) : Bool := d.pathExists ⟨.old, f⟩ && !d.pathExists ⟨.new, f⟩

theorem leftoverOf_eq_pending (fs kept : List File) :
    leftoverOf d fs kept = .pending ↔ ∃ f ∈ fs, onlyOld d f = true ∧ d.reported f = false := by
  induction fs generalizing kept with
  | nil => cases kept <;> simp [leftoverOf]
  | cons f fs ih =>
    rw [leftoverOf]
    split
    · next h => simp [ih, onlyOld, show d.pathExists ⟨.old, f⟩ = false by simpa using h]
    · split
      · split
        · next hr => simp_all [onlyOld]
        · next hr => simp_all [onlyOld]
      · split
        · simp_all [onlyOld]
        · simp_all [onlyOld]

theorem currentDir_eq_old : currentDir d = .old ↔ (d.dirs.kind .old).isDir = true ∧
    d.sameDirs = false ∧ ∃ f ∈ files, onlyOld d f = true ∧ d.reported f = false := by
  unfold currentDir leftover
  by_cases hdir : (d.dirs.kind .old).isDir = true
  · by_cases hsame : d.sameDirs = true
    · simp [hdir, hsame]
    · simp [hdir, hsame, leftoverOf_eq_pending]
  · simp [hdir]

namespace Disk

theorem find_record (r : Option Record) (p : Place) : find { d with record := r } p = d.find p := by
  suffices hgen : ∀ n p, resolve { d with record := r } n p = d.resolve n p from hgen _ p
  intro n
  induction n with
  | zero => exact fun p => rfl
  | succ n ih =>
    intro p
    have hlook : lookup { d with record := r } p = d.lookup p := rfl
    have hhome : home { d with record := r } = d.home := rfl
    rw [resolve, resolve, hlook, hhome]
    split <;> simp [ih]

theorem pathExists_record (r : Option Record) (p : Place) :
    pathExists { d with record := r } p = d.pathExists p := by
  simp only [pathExists, find_record]

theorem reported_record (h : d.reported f = true) (hf : f ∈ kept) :
    reported { d with record := some (.stamps (kept.filterMap d.stamp)) } f = true := by
  obtain ⟨s, hs, -⟩ := (Option.any_eq_true ..).mp h
  have hstamp : stamp { d with record := some (.stamps (kept.filterMap d.stamp)) } f = some s := by
    exact hs
  unfold reported
  rw [hstamp]
  have hmem : s ∈ kept.filterMap d.stamp := List.mem_filterMap.mpr ⟨f, hf, hs⟩
  simpa using hmem

end Disk

/-- Reporting keeps the files, and keeps the reported ones reported. -/
theorem wp_report (N : Names) (kept : List File) :
    wp F (report N kept) (fun _ d' => d'.dirs = d.dirs ∧ (∀ p, d'.pathExists p = d.pathExists p) ∧
      ∀ f ∈ kept, d.reported f = true → d'.reported f = true) (fun _ => True) d := by
  rw [report, wp_bind, wp_get, wp_bind, wp_get]
  split
  · exact ⟨rfl, fun _ => rfl, fun _ _ h => h⟩
  · rw [wp_bind, wp_get, wp_bind]
    refine wp_call ?_ ?_ (fun _ => trivial)
    · intro _
      exact ⟨rfl, fun p => pathExists_record _ p, fun f hf h => reported_record h hf⟩
    · intro _
      exact ⟨rfl, fun _ => rfl, fun _ _ h => h⟩

/-- After a move that went through, no file the old directory alone has is still to come. -/
theorem Moved.reported (h : Moved F d₀ d moved kept) (hown : ∀ f ∈ files, d₀.OwnName f)
    (hf : f ∈ files) (hold : onlyOld d f = true) : f ∈ kept ∧ d.reported f = true := by
  obtain ⟨ho, hn⟩ : d.pathExists ⟨.old, f⟩ = true ∧ d.pathExists ⟨.new, f⟩ = false := by
    simpa [onlyOld] using hold
  by_cases hm : f ∈ moved
  · obtain ⟨-, c, -, hplace⟩ := h.between.fresh f hm
    rw [pathExists_of_content hplace.content] at hn
    cases hn
  · have hfind := h.between.find (hown f hf) hf hm
    have hexists (s : Side) : d.pathExists ⟨s, f⟩ = d₀.pathExists ⟨s, f⟩ := by
      simp only [pathExists, hfind]
    rw [hexists] at ho hn
    rcases h.all f hf with hsort | hnone
    · rcases hsort.resolve_left hm with hk | hsame
      · refine ⟨hk, ?_⟩
        obtain ⟨-, c, hc, hkept⟩ := h.ofKept f hk
        rcases hkept with ⟨c', hc', -⟩ | ⟨-, hr⟩
        · rw [pathExists_of_content (content_of_read hc')] at hn
          cases hn
        · rw [h.between.reported (hown f hf) hf hm, hr]
      · obtain ⟨l, k, k', -, hnew⟩ := samePath_iff.mp hsame
        simp [pathExists, hnew] at hn
    · rw [not_exists_of_read hnone] at ho
      cases ho

/-- Every old file that was reported has its counterpart in the new directory. -/
def NoneDismissed (d : Disk) : Prop :=
  ∀ f ∈ files, d.reported f = true → d.pathExists ⟨.new, f⟩ = true

theorem wp_conclude_ok (hown : ∀ f ∈ files, d₀.OwnName f) (h : Result F d₀ (.ok kept) d) :
    wp F (conclude N (.ok kept)) (fun out d' => out.1 = currentDir d') (fun _ => True) d := by
  rw [conclude, wp_bind]
  refine wp_mono (wp_report N kept) ?_ (fun _ hx => hx)
  rintro notices d' ⟨hdirs, hexists, hrep⟩
  have honly (f : File) : onlyOld d' f = onlyOld d f := by simp only [onlyOld, hexists]
  have hsame : d'.sameDirs = d.sameDirs := by simp only [sameDirs, hdirs]
  have hnot : currentDir d' ≠ .old := by
    intro hcur
    obtain ⟨hdir, hsd, f, hf, hold, hunrep⟩ := currentDir_eq_old.mp hcur
    rw [honly] at hold
    rw [hdirs] at hdir
    rw [hsame] at hsd
    cases h with
    | nothing hs =>
      rcases hs with hs | hs | hs
      · rw [hdir] at hs
        cases hs
      · rw [hsd] at hs
        cases hs
      · simp [onlyOld, hs f hf] at hold
    | moves hm =>
      obtain ⟨moved, hm⟩ := hm
      obtain ⟨hk, hr⟩ := hm.reported hown hf hold
      rw [hrep f hk hr] at hunrep
      cases hunrep
  rw [wp_pure]
  cases hcur : currentDir d' with
  | old => exact absurd hcur hnot
  | new => rfl

theorem wp_conclude_error (hown : ∀ f ∈ files, d₀.OwnName f) {e : String}
    (hnone : NoneDismissed d₀) (h : Result F d₀ (.error e) d) :
    wp F (conclude N (.error e)) (fun out d' => out.1 = currentDir d') (fun _ => True) d := by
  -- the old directory is one, apart from the new, and what it alone has was never reported
  have hstate : (d.dirs.kind .old).isDir = true ∧ d.sameDirs = false ∧
      ∀ f ∈ files, onlyOld d f = true → d.reported f = false := by
    cases h with
    | refused hk hx ht =>
      refine ⟨by simp [hk, DirKind.isDir], ht, ?_⟩
      intro f hf hold
      by_contra hr
      have hx := hnone f hf (by simpa using hr)
      simp [onlyOld, hx] at hold
    | moves hm =>
      obtain ⟨placed, hgrew, -⟩ := hm
      obtain ⟨k, k', -, h₁, -⟩ := hgrew.dirs
      refine ⟨by simp [h₁, Dirs.kind, DirKind.isDir], by simp [sameDirs, h₁], ?_⟩
      intro f hf hold
      by_cases hp : f ∈ placed
      · obtain ⟨-, c, -, hplace⟩ := hgrew.fresh f hp
        simp [onlyOld, pathExists_of_content hplace.content] at hold
      · by_contra hr
        have hfind := hgrew.find (hown f hf) hp
        have hr₀ : d₀.reported f = true := by
          rw [← reported_congr (hfind .old) hgrew.record]
          simpa using hr
        have hx : d.pathExists ⟨.new, f⟩ = true := by
          have := hnone f hf hr₀
          simpa only [pathExists, hfind] using this
        simp [onlyOld, hx] at hold
  obtain ⟨hdir, hsd, hunrep⟩ := hstate
  change (if files.any (fun f => onlyOld d f) = true then Side.old else .new) = currentDir d
  split
  · next hany =>
    obtain ⟨f, hf, hold⟩ := List.any_eq_true.mp hany
    exact (currentDir_eq_old.mpr ⟨hdir, hsd, f, hf, hold, hunrep f hf hold⟩).symm
  · next hany =>
    cases hcur : currentDir d with
    | new => rfl
    | old =>
      obtain ⟨-, -, f, hf, hold, -⟩ := currentDir_eq_old.mp hcur
      exact absurd (List.any_eq_true.mpr ⟨f, hf, hold⟩) hany

/-- However its calls fare, a move loses no old file, and a run without a fault finishes it unless
it is refused; a move that fails takes back what it placed; and the relocation, which goes on with
`conclude`, returns the directory selected afterwards. -/
theorem relocation_safe (N : Names) (F : Call → Fate) (d₀ : Disk)
    (hown : ∀ f ∈ files, d₀.OwnName f) (hdir : F .compareDirs ≠ .fails)
    (hcmp : ∀ f, F (.compare f) ≠ .fails) :
    wp F (moveFiles N)
      (fun r d => NothingLost d₀ d ∧ Finishes N d₀ d ∧
        (∀ e, r = .error e → Reverts F → ∀ f, d.lookup ⟨.new, f⟩ = d₀.lookup ⟨.new, f⟩) ∧
        ((∀ e, r = .error e → NoneDismissed d₀) →
          wp F (conclude N r) (fun out d' => out.1 = currentDir d') (fun _ => True) d))
      (fun d => NothingLost d₀ d ∧ Finishes N d₀ d) d₀ := by
  have hlost {d : Disk} (h : d = d₀ ∨ ∃ moved, Between d₀ d moved) : NothingLost d₀ d := by
    rcases h with rfl | ⟨moved, h⟩
    · exact fun f _ c hc => .inl hc
    · exact h.nothingLost hown
  refine wp_mono (wp_moveFiles hown hdir hcmp) ?_ ?_
  · intro r d hr
    refine ⟨hlost hr.between, finishes hown hr.between, ?_, ?_⟩
    · rintro e rfl hrev f
      cases hr with
      | refused => rfl
      | moves hm =>
        obtain ⟨placed, hgrew, -, hplaced⟩ := hm
        exact hgrew.rest f (by simp [hplaced hrev])
    · intro hnone
      cases r with
      | ok kept => exact wp_conclude_ok hown hr
      | error e => exact wp_conclude_error hown (hnone e rfl) hr
  · rintro d ⟨-, hd⟩
    exact ⟨hlost hd, finishes hown hd⟩

/-! Runs. -/

def names : Names := ⟨"Config", "private-ai-proxy"⟩

/-- An old directory with a `config.toml`, and the given directories. -/
def withConfig (dirs : Dirs) : Disk :=
  { dirs := dirs
    entries := fun s f =>
      if s = .old ∧ f = .config then some (.here (.file [97] (some 5))) else none
    elsewhere := fun _ => none, others := false, record := none, clock := none }

def only (c : Call) (fate : Fate) : Call → Fate := fun c' => if c' = c then fate else .goes

theorem relocation_safe_of_crash :
    ∃ d, moveFiles names (only (.removeOld .config) .crashes) (withConfig (.two .plain .absent)) =
        .crashed d ∧
      NothingLost (withConfig (.two .plain .absent)) d ∧
      Finishes names (withConfig (.two .plain .absent)) d := by
  have hown : ∀ f ∈ files, (withConfig (.two .plain .absent)).OwnName f := by
    intro f _ s p h
    cases f <;> cases s <;> cases h
  exact ⟨_, rfl, relocation_safe names (only (.removeOld .config) .crashes) _ hown (by decide)
    (by intro f; simp [only])⟩

/-- An old `config.toml` that was reported and has no counterpart, beside credentials that cannot
be moved. -/
def dismissed : Disk :=
  { dirs := .two .plain .plain
    entries := fun s f =>
      match s, f with
      | .old, .config => some (.here (.file [97] (some 5)))
      | .old, .credentials => some (.link (.outside 0))
      | .new, .credentials => some (.here (.file [98] none))
      | _, _ => none
    elsewhere := fun _ => none, others := false
    record := some (.stamps [⟨"config.toml", 1, 5⟩]), clock := none }

/-- A linked old directory is refused on every run. A file whose directory could not be synced
stays placed though the move fails. A comparison of paths that fails lets the only copy be
removed. A file that was reported makes a failed move stay where the selection does not. -/
theorem relocation_departs :
    (∃ e, moveFiles names (fun _ => .goes) (withConfig (.two .linked .absent)) =
      .ended (.error e) (withConfig (.two .linked .absent))) ∧
    (∃ e d, moveFiles names (only (.syncDir .config) .fails) (withConfig (.two .plain .absent)) =
        .ended (.error e) d ∧ d.isPresent ⟨.new, .config⟩ = true) ∧
    (∃ r d, moveFiles names (fun c => if c = .compareDirs ∨ c = .compare .config then .fails
        else .goes) (withConfig (.one false)) = .ended r d ∧
      (withConfig (.one false)).content ⟨.old, .config⟩ = some [97] ∧
      d.content ⟨.old, .config⟩ = none ∧ d.content ⟨.new, .config⟩ = none) ∧
    ∃ out d, relocate names (fun _ => .goes) dismissed = .ended out d ∧ out.1 = .old ∧
      currentDir d = .new :=
  ⟨⟨_, rfl⟩, ⟨_, _, rfl, rfl⟩, ⟨_, _, rfl, rfl, rfl, rfl⟩, ⟨_, _, rfl, rfl, rfl⟩⟩

end AciGateway.Desktop.Relocation
