import AciGateway.Lib.EventStream
import AciGateway.Lib.Utf8

/-! Events of a stream as texts: lines that line feeds end, and a blank line after them. -/
namespace EventStream

open Octets List
open Char (ofNat)

/-- A line of an event. -/
def IsLine (l : List Char) : Prop := l ≠ [] ∧ '\n' ∉ l ∧ '\r' ∉ l

/-- The lines of an event, with the blank line after them. -/
def frame (ls : List (List Char)) : List Char := ls.flatMap (· ++ ['\n']) ++ ['\n']

/-- The same in bytes. -/
def block (ls : List Bytes) : Bytes := ls.flatMap (· ++ [10]) ++ [10]

theorem frame_cons (l : List Char) (ls : List (List Char)) :
    frame (l :: ls) = l ++ '\n' :: frame ls := by simp [frame]

theorem block_cons (l : Bytes) (ls : List Bytes) : block (l :: ls) = l ++ 10 :: block ls := by
  simp [block]

theorem utf8_frame (ls : List (List Char)) :
    utf8 (String.ofList (frame ls)) = block (ls.map fun l => utf8 (String.ofList l)) := by
  have hline : String.utf8EncodeChar '\n' = [10] := by decide
  induction ls with
  | nil => decide
  | cons l ls ih =>
    rw [utf8_ofList] at ih
    rw [map_cons, block_cons, ← ih, frame_cons, utf8_ofList, utf8_ofList]
    simp [hline]

theorem splitOn_block {α : Type} [BEq α] [LawfulBEq α] {lf : α} {ls : List (List α)}
    (h : ∀ l ∈ ls, lf ∉ l) : (ls.flatMap (· ++ [lf]) ++ [lf]).splitOn lf = ls ++ [[], []] := by
  induction ls with
  | nil =>
    have hnil : ([] ++ lf :: []).splitOn lf = [] :: [].splitOn lf :=
      splitOn_append_cons_self_of_not_mem not_mem_nil []
    simpa using hnil
  | cons l ls ih =>
    rw [forall_mem_cons] at h
    have hsplit : (l :: ls).flatMap (· ++ [lf]) ++ [lf] =
        l ++ lf :: (ls.flatMap (· ++ [lf]) ++ [lf]) := by simp
    rw [hsplit, splitOn_append_cons_self_of_not_mem h.1, ih h.2]
    rfl

theorem splitOn_lines (ls : List (List Char)) {tail : List Char} (h : ∀ l ∈ ls, '\n' ∉ l)
    (ht : '\n' ∉ tail) : (ls.flatMap (· ++ ['\n']) ++ tail).splitOn '\n' = ls ++ [tail] := by
  induction ls with
  | nil => simpa using splitOn_eq_singleton ht
  | cons l ls ih =>
    rw [forall_mem_cons] at h
    have hsplit : (l :: ls).flatMap (· ++ ['\n']) ++ tail =
        l ++ '\n' :: (ls.flatMap (· ++ ['\n']) ++ tail) := by simp
    rw [hsplit, splitOn_append_cons_self_of_not_mem h.1, ih h.2]
    rfl

/-! Texts without blank lines. -/

/-- No line is blank, and no line has a carriage return. -/
structure Tidy {α : Type} (lf cr : α) (l : List α) : Prop where
  head : l.head? ≠ some lf
  chain : l.IsChain fun a b => ¬ (a = lf ∧ b = lf)
  noReturn : cr ∉ l

theorem exists_lines_from {cs : List Char} (open_ : List Char)
    (hopen : '\n' ∉ open_ ∧ '\r' ∉ open_) (hhead : open_ = [] → cs.head? ≠ some '\n')
    (hchain : cs.IsChain fun a b => ¬ (a = '\n' ∧ b = '\n')) (hcr : '\r' ∉ cs) :
    ∃ (ls : List (List Char)) (tail : List Char),
      (∀ l ∈ ls, IsLine l) ∧ ('\n' ∉ tail ∧ '\r' ∉ tail) ∧
      open_ ++ cs = ls.flatMap (· ++ ['\n']) ++ tail := by
  induction cs generalizing open_ with
  | nil => exact ⟨[], open_, by simp, hopen, by simp⟩
  | cons c cs ih =>
    have hcr' : '\r' ∉ cs := fun h => hcr (mem_cons_of_mem c h)
    by_cases hc : c = '\n'
    · subst hc
      have hnext : ([] : List Char) = [] → cs.head? ≠ some '\n' := by
        rintro - hhd
        cases cs with
        | nil => cases hhd
        | cons d cs =>
          have hd : d = '\n' := Option.some.inj hhd
          rw [isChain_cons_cons] at hchain
          exact hchain.1 ⟨rfl, hd⟩
      obtain ⟨ls, tail, hls, htail, heq⟩ :=
        ih [] ⟨by simp, by simp⟩ hnext hchain.tail hcr'
      refine ⟨open_ :: ls, tail, ?_, htail, ?_⟩
      · rw [forall_mem_cons]
        exact ⟨⟨fun h => hhead h rfl, hopen⟩, hls⟩
      · rw [nil_append] at heq
        simp [heq]
    · have hc' : c ≠ '\r' := fun h => hcr (h ▸ mem_cons_self)
      obtain ⟨ls, tail, hls, htail, heq⟩ := ih (open_ ++ [c])
        ⟨by simp [hopen.1, Ne.symm hc], by simp [hopen.2, Ne.symm hc']⟩ (by simp) hchain.tail hcr'
      exact ⟨ls, tail, hls, htail, by simpa using heq⟩

/-- A tidy text is made of lines, of which the last may lack its line feed. -/
theorem Tidy.exists_lines {cs : List Char} (h : Tidy '\n' '\r' cs) :
    ∃ (ls : List (List Char)) (tail : List Char),
      (∀ l ∈ ls, IsLine l) ∧ (tail = [] ∨ IsLine tail) ∧ cs = ls.flatMap (· ++ ['\n']) ++ tail := by
  obtain ⟨ls, tail, hls, htail, heq⟩ :=
    exists_lines_from [] ⟨by simp, by simp⟩ (fun _ => h.head) h.chain h.noReturn
  exact ⟨ls, tail, hls, (em (tail = [])).imp_right (fun hne => ⟨hne, htail⟩), by simpa using heq⟩

/-! Reading tidy bytes. -/

theorem toNat_ofNat_of_lt {k : Nat} (h : k < 128) : (ofNat k).toNat = k := by
  have hall : ∀ k < 128, (ofNat k).toNat = k := by decide
  exact hall k h

variable {n m : Nat}

theorem char_of_mem_encode {c : Char} (hn : n < 128)
    (h : UInt8.ofNat n ∈ String.utf8EncodeChar c) : c = ofNat n := by
  by_cases hbig : c.val.toNat ≤ 127
  · have hall : ∀ k < 128, String.utf8EncodeChar (ofNat k) = [UInt8.ofNat k] := by decide
    have hc : ofNat c.toNat = c := Char.ofNat_toNat c
    have hlt : c.toNat < 128 := Nat.lt_succ_of_le hbig
    rw [← hc, hall c.toNat hlt, mem_singleton] at h
    have hnat := congrArg UInt8.toNat h
    rw [UInt8.toNat_ofNat', UInt8.toNat_ofNat'] at hnat
    rw [← hc, show c.toNat = n by omega]
  · have hle := le_of_mem_utf8EncodeChar hbig h
    rw [UInt8.toNat_ofNat'] at hle
    omega

theorem head?_of_utf8 {s : String} (hn : n < 128)
    (h : (utf8 s).head? = some (UInt8.ofNat n)) : s.toList.head? = some (ofNat n) := by
  rw [← String.ofList_toList (s := s), utf8_ofList] at h
  cases hs : s.toList with
  | nil => simp [hs] at h
  | cons c cs =>
    obtain ⟨d, ds, hds⟩ := exists_cons_of_ne_nil (String.utf8EncodeChar_ne_nil (c := c))
    rw [hs, flatMap_cons, head?_append, hds] at h
    cases h
    rw [char_of_mem_encode hn (c := c) (by rw [hds]; exact mem_cons_self)]
    rfl

theorem getLast?_of_utf8 {s : String} (hn : n < 128)
    (h : (utf8 s).getLast? = some (UInt8.ofNat n)) : s.toList.getLast? = some (ofNat n) := by
  rw [← String.ofList_toList (s := s), utf8_ofList] at h
  rcases eq_nil_or_concat s.toList with hs | ⟨cs, c, hs⟩
  · simp [hs] at h
  · obtain ⟨ds, d, hds⟩ :=
      (eq_nil_or_concat (String.utf8EncodeChar c)).resolve_left String.utf8EncodeChar_ne_nil
    rw [hs, concat_eq_append, flatMap_append, flatMap_singleton, hds] at h
    simp at h
    have hc := char_of_mem_encode hn (c := c) (by rw [hds, h]; simp)
    simp [hs, hc]

theorem ofNat_ne_of_ge (h : 128 ≤ n) (hm : 0 < m) (hlt : m < 128) :
    ofNat n ≠ ofNat m := by
  have hbig : (ofNat n).toNat = n ∨ (ofNat n).toNat = 0 := by
    unfold ofNat
    split
    · exact .inl rfl
    · exact .inr rfl
  intro heq
  rw [heq, toNat_ofNat_of_lt hlt] at hbig
  omega

variable {b : Bytes}

theorem fitting_all {lo hi : UInt8} {ranges : List (UInt8 × UInt8)}
    (h : fitting ((lo, hi) :: ranges) b = ranges.length + 1) :
    ∃ d b', b = d :: b' ∧ lo.toNat ≤ d.toNat ∧ d.toNat ≤ hi.toNat ∧
      fitting ranges b' = ranges.length := by
  cases b with
  | nil => cases h
  | cons d b' =>
    rw [fitting] at h
    split at h
    · next hd =>
      exact ⟨d, b', rfl, UInt8.le_iff_toNat_le.mp hd.1, UInt8.le_iff_toNat_le.mp hd.2,
        Nat.succ.inj h⟩
    · cases h

/-- A whole sequence encodes a character beyond ASCII. -/
theorem le_sequence {c : UInt8} (hne : followers c ≠ [])
    (hfit : fitting (followers c) b = (followers c).length) :
    128 ≤ (b.take (followers c).length).foldl (fun n d => n * 64 + d.toNat % 64)
      (c.toNat % 2 ^ (6 - (b.take (followers c).length).length)) := by
  unfold followers at hne hfit ⊢
  split_ifs at hne hfit ⊢ with h₁ h₂ h₃ h₄ h₅ h₆ h₇
  · obtain ⟨d, b, rfl, hd, -⟩ := fitting_all hfit
    have hl := UInt8.le_iff_toNat_le.mp h₁.1
    have hu := UInt8.le_iff_toNat_le.mp h₁.2
    simp at hl hu ⊢
    omega
  · obtain ⟨d, b, rfl, hd, hd', hfit⟩ := fitting_all hfit
    obtain ⟨e, b, rfl, -⟩ := fitting_all hfit
    simp at hd hd' ⊢
    omega
  · obtain ⟨d, b, rfl, -, -, hfit⟩ := fitting_all hfit
    obtain ⟨e, b, rfl, -⟩ := fitting_all hfit
    simp [h₃]
    omega
  · obtain ⟨d, b, rfl, -, -, hfit⟩ := fitting_all hfit
    obtain ⟨e, b, rfl, -⟩ := fitting_all hfit
    have hl := UInt8.le_iff_toNat_le.mp h₄.1
    have hu := UInt8.le_iff_toNat_le.mp h₄.2
    simp at hl hu ⊢
    omega
  · obtain ⟨d, b, rfl, hd, hd', hfit⟩ := fitting_all hfit
    obtain ⟨e, b, rfl, -, -, hfit⟩ := fitting_all hfit
    obtain ⟨f, b, rfl, -⟩ := fitting_all hfit
    simp at hd hd' ⊢
    omega
  · obtain ⟨d, b, rfl, -, -, hfit⟩ := fitting_all hfit
    obtain ⟨e, b, rfl, -, -, hfit⟩ := fitting_all hfit
    obtain ⟨f, b, rfl, -⟩ := fitting_all hfit
    have hl := UInt8.le_iff_toNat_le.mp h₆.1
    have hu := UInt8.le_iff_toNat_le.mp h₆.2
    simp at hl hu ⊢
    omega
  · obtain ⟨d, b, rfl, -, -, hfit⟩ := fitting_all hfit
    obtain ⟨e, b, rfl, -, -, hfit⟩ := fitting_all hfit
    obtain ⟨f, b, rfl, -⟩ := fitting_all hfit
    simp [h₇]
    omega
  · exact absurd rfl hne

/-- The character read for a byte beyond ASCII, whole or broken. -/
theorem repaired_ne {c : UInt8} (hm : 0 < m) (hlt : m < 128) :
    (if followers c ≠ [] ∧ fitting (followers c) b = (followers c).length
      then sequenceChar c (b.take (fitting (followers c) b)) else replacementChar) ≠
      ofNat m := by
  split
  · next h =>
    rw [h.2, sequenceChar]
    exact ofNat_ne_of_ge (le_sequence h.1 h.2) hm hlt
  · exact ofNat_ne_of_ge (by decide) hm hlt

theorem tidy_repair (fuel : Nat) (hchain : b.IsChain fun a b => ¬ (a = 10 ∧ b = 10))
    (hcr : 13 ∉ b) :
    ((repair fuel b).head? = some '\n' → b.head? = some 10) ∧
      ((repair fuel b).IsChain fun a b => ¬ (a = '\n' ∧ b = '\n')) ∧ '\r' ∉ repair fuel b := by
  induction fuel generalizing b with
  | zero => simp [repair]
  | succ fuel ih =>
    cases b with
    | nil => simp [repair]
    | cons c b =>
      rw [repair]
      split
      · next hc =>
        have hc : c.toNat < 128 := UInt8.lt_iff_toNat_lt.mp hc
        obtain ⟨hhead, hrest, hnocr⟩ := ih hchain.tail (fun h => hcr (mem_cons_of_mem c h))
        have hback {m : Nat} (hm : m < 128) (h : ofNat c.toNat = ofNat m) :
            c.toNat = m := by
          rw [← toNat_ofNat_of_lt hc, h, toNat_ofNat_of_lt hm]
        have hlf : ofNat c.toNat = '\n' → c = 10 := fun h =>
          UInt8.toNat_inj.mp (hback (m := 10) (by decide) h)
        refine ⟨fun h => by rw [hlf (Option.some.inj h)]; rfl, ?_, ?_⟩
        · refine isChain_cons.mpr ⟨?_, hrest⟩
          rintro d hd ⟨hc', rfl⟩
          have hnext := hhead hd
          exact (isChain_cons.mp hchain).1 10 hnext ⟨hlf hc', rfl⟩
        · rw [mem_cons, not_or]
          refine ⟨fun h => hcr ?_, hnocr⟩
          have hcr' : c = 13 := UInt8.toNat_inj.mp (hback (m := 13) (by decide) h.symm)
          exact hcr' ▸ mem_cons_self
      · have hdrop : b.drop (fitting (followers c) b) <:+ c :: b :=
          (drop_suffix _ b).trans (suffix_cons c b)
        obtain ⟨-, hrest, hnocr⟩ := ih (hchain.suffix hdrop) (fun h => hcr (hdrop.mem h))
        have hlf := repaired_ne (c := c) (b := b) (m := 10) (by decide) (by decide)
        have hcr' := repaired_ne (c := c) (b := b) (m := 13) (by decide) (by decide)
        refine ⟨fun h => absurd (Option.some.inj h) hlf, ?_, ?_⟩
        · exact isChain_cons.mpr ⟨fun d _ h => hlf h.1, hrest⟩
        · rw [mem_cons, not_or]
          exact ⟨fun h => hcr' h.symm, hnocr⟩

theorem tidy_fromUtf8Lossy (h : Tidy 10 13 b) : Tidy '\n' '\r' (fromUtf8Lossy b).toList := by
  obtain ⟨hhead, hchain, hcr⟩ := tidy_repair b.length h.chain h.noReturn
  rw [toList_fromUtf8Lossy]
  exact ⟨fun hlf => h.head (hhead hlf), hchain, hcr⟩

end EventStream
