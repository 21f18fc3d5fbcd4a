import Mathlib.Data.List.Infix

/-! Searching and splitting texts. -/
namespace Text

open List

variable {sep s a b t : List Char}

def stripPrefix (mark s : String) : Option String :=
  if mark.toList.isPrefixOf s.toList then some (String.ofList (s.toList.drop mark.toList.length))
  else none

/-- What stands before and after the first occurrence of `sep`. -/
def splitOnceChars (sep : List Char) : List Char → Option (List Char × List Char)
  | [] => if sep = [] then some ([], []) else none
  | c :: cs =>
    if sep.isPrefixOf (c :: cs) then some ([], (c :: cs).drop sep.length)
    else (splitOnceChars sep cs).map (fun r => (c :: r.1, r.2))

def splitOnce (sep s : String) : Option (String × String) :=
  (splitOnceChars sep.toList s.toList).map (fun r => (String.ofList r.1, String.ofList r.2))

def contains (s sub : String) : Bool := decide (sub.toList <:+: s.toList)

theorem prefix_drop (h : a.isPrefixOf s) : a ++ s.drop a.length = s := by
  obtain ⟨t, rfl⟩ := List.isPrefixOf_iff_prefix.mp h
  simp

theorem splitOnceChars_eq (h : splitOnceChars sep s = some (a, b)) : a ++ sep ++ b = s := by
  induction s generalizing a with
  | nil =>
    simp only [splitOnceChars] at h
    split at h <;> simp_all
  | cons c cs ih =>
    simp only [splitOnceChars] at h
    split at h
    · next hp =>
      obtain ⟨rfl, rfl⟩ := Prod.mk.inj (Option.some.inj h)
      simpa using prefix_drop hp
    · obtain ⟨r, hr, he⟩ := Option.map_eq_some_iff.mp h
      obtain ⟨rfl, rfl⟩ := Prod.mk.inj he
      simpa using ih hr

/-- A separator that cannot overlap itself is found where it was put, when nothing before
contains it. -/
theorem splitOnceChars_append {c : Char} (hc : c ∉ t)
    (ha : ¬ (c :: t) <:+: a) : splitOnceChars (c :: t) (a ++ (c :: t) ++ b) = some (a, b) := by
  induction a with
  | nil =>
    have hp : (c :: t).isPrefixOf (c :: (t ++ b)) := by simp [List.isPrefixOf_iff_prefix]
    simp [splitOnceChars, hp]
  | cons x a ih =>
    have hn : ¬ (c :: t).isPrefixOf (x :: (a ++ (c :: t) ++ b)) := by
      rw [List.isPrefixOf_iff_prefix, cons_prefix_cons]
      rintro ⟨rfl, hp⟩
      rcases Nat.lt_or_ge a.length t.length with hlt | hge
      · -- The separator's first character would stand inside its tail.
        have hin : a ++ [c] <+: t :=
          prefix_of_prefix_length_le ⟨t ++ b, by simp⟩ hp (by simp; omega)
        exact hc (hin.subset (by simp))
      · have hin : t <+: a :=
          prefix_of_prefix_length_le hp ⟨(c :: t) ++ b, by simp⟩ hge
        exact ha ((cons_prefix_cons.mpr ⟨rfl, hin⟩).isInfix)
    have hih := ih (fun h => ha (infix_cons h))
    rw [cons_append, cons_append, splitOnceChars, if_neg hn, hih]
    rfl

theorem splitOnce_append {sep s : String} {c : Char} (rest : String)
    (hsep : sep.toList = c :: t) (hc : c ∉ t) (hs : contains s sep = false) :
    splitOnce sep (s ++ sep ++ rest) = some (s, rest) := by
  have ha : ¬ (c :: t) <:+: s.toList := by
    rw [← hsep]
    exact of_decide_eq_false hs
  simp only [splitOnce, String.toList_append, hsep, splitOnceChars_append hc ha, Option.map_some,
    String.ofList_toList]

theorem stripPrefix_append (mark s : String) : stripPrefix mark (mark ++ s) = some s := by
  simp [stripPrefix, List.isPrefixOf_iff_prefix]

theorem splitOnce_eq {sep s a b : String} (h : splitOnce sep s = some (a, b)) :
    a ++ sep ++ b = s := by
  obtain ⟨r, hr, he⟩ := Option.map_eq_some_iff.mp h
  obtain ⟨rfl, rfl⟩ := Prod.mk.inj he
  rw [← String.toList_inj]
  simpa using splitOnceChars_eq hr

theorem stripPrefix_eq {mark s a : String} (h : stripPrefix mark s = some a) : mark ++ a = s := by
  unfold stripPrefix at h
  split at h
  · next hp =>
    obtain rfl := Option.some.inj h
    rw [← String.toList_inj]
    simpa using prefix_drop hp
  · cases h

/-- The Unicode property `White_Space`. -/
def isWhitespace (c : Char) : Bool :=
  let n := c.toNat
  (9 ≤ n && n ≤ 13) || n = 0x20 || n = 0x85 || n = 0xA0 || n = 0x1680 ||
    (0x2000 ≤ n && n ≤ 0x200A) || n = 0x2028 || n = 0x2029 || n = 0x202F || n = 0x205F || n = 0x3000

def trim (s : String) : String :=
  String.ofList ((s.toList.dropWhile isWhitespace).reverse.dropWhile isWhitespace).reverse

theorem dropWhile_eq_self {p : Char → Bool} {l : List Char} (h : ∀ c ∈ l, p c = false) :
    l.dropWhile p = l := by
  cases l with
  | nil => rfl
  | cons c l => simp [h c mem_cons_self]

theorem trim_eq_self {s : String} (h : ∀ c ∈ s.toList, isWhitespace c = false) : trim s = s := by
  have hreverse : s.toList.reverse.dropWhile isWhitespace = s.toList.reverse :=
    dropWhile_eq_self (fun c hc => h c (mem_reverse.mp hc))
  simp [trim, dropWhile_eq_self h, hreverse]

theorem trim_of_ends {s : String} {a b : Char} (ha : s.toList.head? = some a)
    (hb : s.toList.getLast? = some b) (hawhite : isWhitespace a = false)
    (hbwhite : isWhitespace b = false) : trim s = s := by
  have hhead : s.toList.dropWhile isWhitespace = s.toList := by
    cases hs : s.toList with
    | nil => rfl
    | cons c cs =>
      rw [hs] at ha
      cases ha
      simp [hawhite]
  have hlast : s.toList.reverse.dropWhile isWhitespace = s.toList.reverse := by
    rw [← head?_reverse] at hb
    cases hs : s.toList.reverse with
    | nil => rfl
    | cons c cs =>
      rw [hs] at hb
      cases hb
      simp [hbwhite]
  simp [trim, hhead, hlast]

/-- Equality up to the case of ASCII letters. -/
def eqIgnoreAsciiCase (s t : String) : Bool :=
  s.toList.map Char.toLower = t.toList.map Char.toLower

theorem eqIgnoreAsciiCase_refl (s : String) : eqIgnoreAsciiCase s s := by
  simp [eqIgnoreAsciiCase]

theorem eqIgnoreAsciiCase_trans {s t u : String} (h : eqIgnoreAsciiCase s t)
    (h' : eqIgnoreAsciiCase t u) : eqIgnoreAsciiCase s u := by
  simp only [eqIgnoreAsciiCase, decide_eq_true_eq] at *
  exact h.trans h'

end Text
