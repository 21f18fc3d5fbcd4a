import AciGateway.Lib.Octets
import Mathlib.Data.List.TakeWhile

/-! Byte strings as lines. -/
namespace Lines

open Octets List

variable {a b : Bytes} {c d : UInt8}

/-- The stretches between line feeds; the last one ends with the text. -/
def lines : Bytes → List Bytes
  | [] => [[]]
  | c :: b =>
    if c = 10 then [] :: lines b
    else
      match lines b with
      | [] => [[c]]
      | l :: ls => (c :: l) :: ls

theorem lines_ne_nil (b : Bytes) : lines b ≠ [] := by
  cases b with
  | nil => simp [lines]
  | cons c b =>
    rw [lines]
    split
    · simp
    · split <;> simp

/-- A line feed ends what stands before it. -/
theorem lines_append (a b : Bytes) : lines (a ++ 10 :: b) = lines a ++ lines b := by
  induction a with
  | nil => simp [lines]
  | cons c a ih =>
    rw [cons_append, lines, lines]
    by_cases hc : c = 10
    · simp [hc, ih]
    · obtain ⟨l, ls, hl⟩ := exists_cons_of_ne_nil (lines_ne_nil a)
      simp [hc, ih, hl]

theorem lines_of_notMem (h : 10 ∉ a) : lines a = [a] := by
  induction a with
  | nil => rfl
  | cons c a ih =>
    rw [mem_cons, not_or] at h
    rw [lines, ih h.2]
    simp [Ne.symm h.1]

/-- Without a line feed between them, the last line of one text and the first of the next are
one line. -/
theorem lines_join (a : Bytes) : ∃ init last, lines a = init ++ [last] ∧
    ∀ b l ls, lines b = l :: ls → lines (a ++ b) = init ++ (last ++ l) :: ls := by
  induction a with
  | nil => exact ⟨[], [], rfl, by simp⟩
  | cons c a ih =>
    obtain ⟨init, last, ha, hj⟩ := ih
    by_cases hc : c = 10
    · refine ⟨[] :: init, last, by simp [lines, hc, ha], ?_⟩
      intro b l ls hb
      simp [lines, hc, hj b l ls hb]
    · cases init with
      | nil =>
        refine ⟨[], c :: last, by simp [lines, hc, ha], ?_⟩
        intro b l ls hb
        simp [lines, hc, hj b l ls hb]
      | cons i init =>
        refine ⟨(c :: i) :: init, last, by simp [lines, hc, ha], ?_⟩
        intro b l ls hb
        simp [lines, hc, hj b l ls hb]

theorem notMem_of_mem_lines {l : Bytes} (h : l ∈ lines a) : 10 ∉ l := by
  induction a generalizing l with
  | nil =>
    rw [lines, mem_singleton] at h
    simp [h]
  | cons c a ih =>
    rw [lines] at h
    by_cases hc : c = 10
    · rw [if_pos hc] at h
      rcases mem_cons.mp h with rfl | h
      · simp
      · exact ih h
    · rw [if_neg hc] at h
      obtain ⟨l', ls, hl⟩ := exists_cons_of_ne_nil (lines_ne_nil a)
      rw [hl] at h ih
      rcases mem_cons.mp h with rfl | h
      · have := ih mem_cons_self
        simp [Ne.symm hc, this]
      · exact ih (mem_cons_of_mem _ h)

/-- The lines that have ended. -/
def ended (b : Bytes) : List Bytes := (lines b).dropLast

/-- What stands after the last line feed. -/
def rest (b : Bytes) : Bytes := (lines b).getLast (lines_ne_nil b)

theorem lines_eq (b : Bytes) : lines b = ended b ++ [rest b] :=
  (dropLast_append_getLast (lines_ne_nil b)).symm

/-- More text continues what has not ended. -/
theorem lines_continue (a b : Bytes) : lines (a ++ b) = ended a ++ lines (rest a ++ b) := by
  obtain ⟨l, ls, hb⟩ := exists_cons_of_ne_nil (lines_ne_nil b)
  have hrest : lines (rest a) = [rest a] :=
    lines_of_notMem (notMem_of_mem_lines (getLast_mem (lines_ne_nil a)))
  obtain ⟨init, last, ha, hj⟩ := lines_join a
  obtain ⟨init', last', hr, hj'⟩ := lines_join (rest a)
  have hends : ended a ++ [rest a] = init ++ [last] := (lines_eq a).symm.trans ha
  have hends' : [] ++ [rest a] = init' ++ [last'] := hrest.symm.trans hr
  obtain ⟨rfl, hlast⟩ := append_inj' hends rfl
  obtain ⟨rfl, hlast'⟩ := append_inj' hends' rfl
  rw [hj b l ls hb, hj' b l ls hb, ← singleton_inj.mp hlast, ← singleton_inj.mp hlast']
  rfl

theorem ended_continue (a b : Bytes) : ended (a ++ b) = ended a ++ ended (rest a ++ b) := by
  rw [ended, lines_continue, dropLast_append_of_ne_nil (lines_ne_nil _), ← ended]

theorem rest_continue (a b : Bytes) : rest (a ++ b) = rest (rest a ++ b) := by
  have h := lines_continue a b
  rw [lines_eq (a ++ b), lines_eq (rest a ++ b), ← append_assoc] at h
  exact singleton_inj.mp (append_inj' h rfl).2

/-- Space, tab, line feed, form feed and carriage return. -/
def isAsciiWhitespace (c : UInt8) : Bool := c = 32 || c = 9 || c = 10 || c = 12 || c = 13

def trimAsciiEnd (b : Bytes) : Bytes := (b.reverse.dropWhile isAsciiWhitespace).reverse

def trimAscii (b : Bytes) : Bytes :=
  ((b.dropWhile isAsciiWhitespace).reverse.dropWhile isAsciiWhitespace).reverse

/-- A text that starts and ends with other bytes has nothing to trim. -/
theorem trimAscii_eq (h : ¬ isAsciiWhitespace c) (h' : ¬ isAsciiWhitespace d) :
    trimAscii (c :: (b ++ [d])) = c :: (b ++ [d]) := by
  have hd : ((c :: (b ++ [d])).reverse).dropWhile isAsciiWhitespace =
      (c :: (b ++ [d])).reverse := by
    simp [h']
  rw [trimAscii, dropWhile_cons_of_neg h, hd, reverse_reverse]

theorem trimAscii_of_forall (h : ∀ c ∈ b, isAsciiWhitespace c) : trimAscii b = [] := by
  rw [trimAscii, dropWhile_eq_nil_iff.mpr h]
  rfl

theorem trimAscii_append (h : ∀ c ∈ a, isAsciiWhitespace c) : trimAscii (a ++ b) = trimAscii b := by
  rw [trimAscii, dropWhile_append_of_pos h, trimAscii]

/-- No more than white space stands after the last line feed. -/
def Clean (b : Bytes) : Prop := ∀ l, (lines b).getLast? = some l → ∀ c ∈ l, isAsciiWhitespace c

theorem clean_nil : Clean [] := by
  rintro l ⟨⟩ c hc
  cases hc

theorem clean_append_newline (b : Bytes) : Clean (b ++ [10]) := by
  intro l hl c hc
  rw [lines_append, lines, getLast?_append] at hl
  cases hl
  cases hc

end Lines
