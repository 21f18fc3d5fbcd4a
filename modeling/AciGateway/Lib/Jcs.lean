import AciGateway.Lib.JsonParse
import Mathlib.Data.String.Basic

/-! The JSON canonicalization of RFC 8785: numbers are IEEE doubles in the shortest decimal
form that reads back as the same double, strings have the fixed escapes, and the members of
an object stand in the order of the UTF-16 code units of their names. -/
namespace Jcs

open Octets Json List

/-- The distance of neighbouring doubles at `n`; integers below `2 ^ 53` are doubles. -/
def ulp (n : Nat) : Nat := 2 ^ (Nat.log 2 n - 52)

/-- The double nearest to an integer, of two equally near the one with an even significand. -/
def nearestDouble (n : Nat) : Nat :=
  let q := n / ulp n
  let r := n % ulp n
  if 2 * r < ulp n ∨ (2 * r = ulp n ∧ q % 2 = 0) then q * ulp n else (q + 1) * ulp n

/-- The multiple of `p` nearest to the double `x` among those that read back as `x`. The only
candidates are its neighbours; of two equally near the one with an even quotient. -/
def decimalAt (x p : Nat) : Option Nat :=
  let lo := x / p * p
  let hi := lo + p
  if nearestDouble lo = x then
    if nearestDouble hi = x ∧ (hi - x < x - lo ∨ (hi - x = x - lo ∧ (x / p) % 2 = 1)) then some hi
    else some lo
  else if nearestDouble hi = x then some hi
  else none

/-- `Number::toString` of a double below `10 ^ 21`: as many trailing zeros as possible. -/
def shortestDecimal (x : Nat) : Nat → Nat
  | 0 => x
  | j + 1 => (decimalAt x (10 ^ (j + 1))).getD (shortestDecimal x j)

/-- The integer whose digits stand for `n`. -/
def printed (n : Nat) : Nat := shortestDecimal (nearestDouble n) 20

/-- The text of a number; `float` prints the doubles that are not read from an integer. -/
def numberText (float : FloatText → Bytes) : Number → Bytes
  | .posInt n => printNat (printed n.val)
  | .negInt m => 45 :: printNat (printed (m.val + 1))
  | .float f => float f

def escapeChar (c : Char) : Bytes :=
  if c = '"' then utf8 "\\\""
  else if c = '\\' then utf8 "\\\\"
  else if c.toNat = 8 then utf8 "\\b"
  else if c.toNat = 9 then utf8 "\\t"
  else if c.toNat = 10 then utf8 "\\n"
  else if c.toNat = 12 then utf8 "\\f"
  else if c.toNat = 13 then utf8 "\\r"
  else if c.toNat < 32 then utf8 "\\u00" ++ utf8 (hexEncode [byte c.toNat])
  else String.utf8EncodeChar c

def stringText (s : String) : Bytes := utf8 "\"" ++ s.toList.flatMap escapeChar ++ utf8 "\""

/-- The UTF-16 code units of a name. -/
def utf16 (s : String) : List Nat := s.toList.flatMap fun c =>
  if c.toNat < 0x10000 then [c.toNat]
  else [0xd800 + (c.toNat - 0x10000) / 0x400, 0xdc00 + (c.toNat - 0x10000) % 0x400]

mutual

/-- The value with the members of every object in the order of their UTF-16 names. -/
def ordered : Value → Value
  | .arr vs => .arr (orderedItems vs)
  | .obj ms => .obj ((orderedMembers ms).insertionSort (fun a b => utf16 a.1 ≤ utf16 b.1))
  | v => v

def orderedItems : List Value → List Value
  | [] => []
  | v :: vs => ordered v :: orderedItems vs

def orderedMembers : Members → Members
  | [] => []
  | (k, v) :: ms => (k, ordered v) :: orderedMembers ms

end

section Text

variable (float : FloatText → Bytes)

mutual

def text : Value → Bytes
  | .null => utf8 "null"
  | .bool true => utf8 "true"
  | .bool false => utf8 "false"
  | .num n => numberText float n
  | .str s => stringText s
  | .arr [] => utf8 "[]"
  | .arr (v :: vs) => utf8 "[" ++ text v ++ textItems vs
  | .obj [] => [123, 125]
  | .obj ((k, v) :: ms) => 123 :: (stringText k ++ utf8 ":" ++ text v ++ textMembers ms)

def textItems : List Value → Bytes
  | [] => utf8 "]"
  | v :: vs => utf8 "," ++ text v ++ textItems vs

def textMembers : Members → Bytes
  | [] => [125]
  | (k, v) :: ms => utf8 "," ++ stringText k ++ utf8 ":" ++ text v ++ textMembers ms

end

end Text

/-- The canonical bytes of a document. -/
def bytes (float : FloatText → Bytes) (v : Value) : Bytes := text float (ordered v)

mutual

/-- The numbers of a value. -/
def numbers : Value → List Number
  | .num n => [n]
  | .arr vs => numbersItems vs
  | .obj ms => numbersMembers ms
  | _ => []

def numbersItems : List Value → List Number
  | [] => []
  | v :: vs => numbers v ++ numbersItems vs

def numbersMembers : Members → List Number
  | [] => []
  | (_, v) :: ms => numbers v ++ numbersMembers ms

end

/-- The number is an integer, and its digits are those its double is printed with. -/
def Faithful : Number → Prop
  | .posInt n => printed n.val = n.val
  | .negInt m => printed (m.val + 1) = m.val + 1
  | .float _ => False

variable {v : Value} {n x p : Nat} {s t : String}

example : printed 9007199254740993 = 9007199254740992 := by decide +kernel
example : printed 1152921504606846976 = 1152921504606847000 := by decide +kernel
example : printed 18446744073709551615 = 18446744073709552000 := by decide +kernel

theorem ulp_of_lt (h : n < 2 ^ 53) : ulp n = 1 := by
  have hlog : Nat.log 2 n ≤ 52 := by
    by_cases hn : n = 0
    · simp [hn]
    · have := Nat.log_lt_of_lt_pow hn h
      omega
  rw [ulp, Nat.sub_eq_zero_of_le hlog, pow_zero]

theorem nearestDouble_of_lt (h : n < 2 ^ 53) : nearestDouble n = n := by
  simp [nearestDouble, ulp_of_lt h, Nat.mod_one]

/-- Rounding does not cross `2 ^ 53`. -/
theorem le_nearestDouble (h : 2 ^ 53 ≤ n) : 2 ^ 53 ≤ nearestDouble n := by
  have hn : n ≠ 0 := by
    rintro rfl
    norm_num at h
  have hlog : 53 ≤ Nat.log 2 n := Nat.le_log_of_pow_le (by norm_num) h
  have hulp : 2 ^ 52 * ulp n = 2 ^ Nat.log 2 n := by
    rw [ulp, ← pow_add]
    congr 1
    omega
  have hq : 2 ^ 52 ≤ n / ulp n := by
    rw [Nat.le_div_iff_mul_le (by rw [ulp]; positivity), hulp]
    exact Nat.pow_log_le_self 2 hn
  have hle : 2 ^ 53 ≤ n / ulp n * ulp n := calc
    2 ^ 53 ≤ 2 ^ Nat.log 2 n := Nat.pow_le_pow_right (by norm_num) hlog
    _ = 2 ^ 52 * ulp n := hulp.symm
    _ ≤ n / ulp n * ulp n := Nat.mul_le_mul_right _ hq
  simp only [nearestDouble]
  split
  · exact hle
  · rw [Nat.add_mul]
    omega

/-- No multiple of a power of ten but the integer itself rounds to a small integer. -/
theorem decimalAt_of_lt (h : n < 2 ^ 53) (hp : 0 < p) (hm : decimalAt n p = some x) : x = n := by
  have hround : ∀ y, nearestDouble y = n → y = n := by
    intro y hy
    by_cases hlt : y < 2 ^ 53
    · rwa [nearestDouble_of_lt hlt] at hy
    · have := le_nearestDouble (Nat.le_of_not_lt hlt)
      omega
  have hlo := Nat.div_mul_le_self n p
  have hhi : n < n / p * p + p := by
    have := Nat.lt_div_mul_add hp (a := n)
    omega
  simp only [decimalAt] at hm
  split at hm
  · next hlow =>
    have hlow := hround _ hlow
    split at hm
    · next hhigh =>
      have := hround _ hhigh.1
      omega
    · cases hm
      exact hlow
  · split at hm
    · next hhigh =>
      have := hround _ hhigh
      omega
    · cases hm

theorem shortestDecimal_of_lt (h : n < 2 ^ 53) (j : Nat) : shortestDecimal n j = n := by
  induction j with
  | zero => rfl
  | succ j ih =>
    rw [shortestDecimal]
    cases hd : decimalAt n (10 ^ (j + 1)) with
    | none => exact ih
    | some x => exact decimalAt_of_lt h (by positivity) hd

/-- Integers below `2 ^ 53` are printed with their own digits. -/
theorem printed_of_lt (h : n < 2 ^ 53) : printed n = n := by
  rw [printed, nearestDouble_of_lt h, shortestDecimal_of_lt h]

theorem printNat_injective : Function.Injective printNat := by
  intro a b h
  have := congrArg digitsValue h
  rwa [digitsValue_printNat, digitsValue_printNat] at this

theorem numberText_eq_iff (float : FloatText → Bytes) {k : Number} (hk : integral (.num k)) :
    numberText float k = k.print ↔ Faithful k := by
  cases k with
  | posInt n => exact printNat_injective.eq_iff
  | negInt m => simp [numberText, Number.print, Faithful, printNat_injective.eq_iff]
  | float f => cases hk

/-- The escapes are those of compact text. -/
theorem stringText_eq (s : String) : stringText s = printString s := by
  have hchar : ∀ c : Char, escapeChar c = (String.utf8EncodeChar c).flatMap escapeByte := by
    intro c
    by_cases h : c.val.toNat ≤ 127
    · have hall : ∀ n < 128, escapeChar (Char.ofNat n) =
          (String.utf8EncodeChar (Char.ofNat n)).flatMap escapeByte := by decide
      have := hall c.toNat (by rw [Char.toNat]; omega)
      rwa [Char.ofNat_toNat] at this
    · have hne : ∀ d : Char, d.val.toNat ≤ 127 → c ≠ d := by
        rintro d hd rfl
        exact h hd
      rw [escape_utf8EncodeChar h, escapeChar, if_neg (hne _ (by decide)),
        if_neg (hne _ (by decide))]
      simp only [Char.toNat]
      split_ifs <;> first | rfl | omega
  have hbody : s.toList.flatMap escapeChar = (utf8 s).flatMap escapeByte := by
    rw [← String.ofList_toList (s := s), utf8_ofList, flatMap_assoc, String.toList_ofList]
    exact flatMap_congr (fun c _ => hchar c)
  rw [stringText, printString, hbody, append_assoc]
  rfl

theorem utf16_eq_map (h : ∀ c ∈ s.toList, c.toNat < 0x10000) :
    utf16 s = s.toList.map Char.toNat := by
  rw [utf16, map_eq_flatMap]
  exact flatMap_congr (fun c hc => if_pos (h c hc))

theorem map_toNat_lt_iff {a b : List Char} : a.map Char.toNat < b.map Char.toNat ↔ a < b := by
  induction a generalizing b with
  | nil => cases b <;> simp
  | cons c a ih =>
    cases b with
    | nil => simp
    | cons d b =>
      rw [map_cons, map_cons, cons_lt_cons_iff, cons_lt_cons_iff, ih, Char.toNat_inj]
      exact Iff.rfl

/-- In the basic plane the order of names is the order of their characters. -/
theorem utf16_le_iff (hs : ∀ c ∈ s.toList, c.toNat < 0x10000)
    (ht : ∀ c ∈ t.toList, c.toNat < 0x10000) : utf16 s ≤ utf16 t ↔ s ≤ t := by
  rw [utf16_eq_map hs, utf16_eq_map ht, ← not_lt, map_toNat_lt_iff, String.le_iff_toList_le, not_lt]

section Text

variable {float : FloatText → Bytes} {r r' : Bytes} {k : Number}

theorem utf8_comma : utf8 "," = [44] := rfl

theorem utf8_colon : utf8 ":" = [58] := rfl

theorem utf8_open : utf8 "[" = [91] := rfl

theorem utf8_close : utf8 "]" = [93] := rfl

theorem isNumberByte_numberText (hk : integral (.num k)) :
    ∀ c ∈ numberText float k, isNumberByte c := by
  have hd : ∀ m, ∀ c ∈ printNat m, isNumberByte c := by
    intro m c hc
    have := isDigit_printNat m c hc
    simp [isNumberByte, this]
  cases k with
  | posInt n => exact hd _
  | negInt m =>
    intro c hc
    obtain rfl | hc := mem_cons.mp hc
    · decide
    · exact hd _ c hc
  | float f => cases hk

/-- A number ends where its bytes do. -/
theorem number_append_inj {a b : Bytes} (ha : ∀ c ∈ a, isNumberByte c)
    (hb : ∀ c ∈ b, isNumberByte c) (hr : Stops r) (hr' : Stops r') (h : a ++ r = b ++ r') :
    a = b ∧ r = r' := by
  induction a generalizing b with
  | nil =>
    cases b with
    | nil => exact ⟨rfl, h⟩
    | cons c b =>
      have hc := hb c (by simp)
      exact absurd hc (hr c (by simp [show r = c :: (b ++ r') from h]))
  | cons d a ih =>
    cases b with
    | nil =>
      have hd := ha d (by simp)
      exact absurd hd (hr' d (by simp [show r' = d :: (a ++ r) from h.symm]))
    | cons c b =>
      rw [cons_append, cons_append, cons.injEq] at h
      obtain ⟨hab, hrr⟩ := ih (fun c hc => ha c (by simp [hc])) (fun c hc => hb c (by simp [hc])) h.2
      exact ⟨by rw [h.1, hab], hrr⟩

theorem stops_textItems (vs : List Value) (r : Bytes) : Stops (textItems float vs ++ r) := by
  cases vs <;> simp [textItems, Stops, isNumberByte, utf8_comma, utf8_close]

theorem stops_textMembers (ms : Members) (r : Bytes) : Stops (textMembers float ms ++ r) := by
  cases ms <;> simp [textMembers, Stops, isNumberByte, utf8_comma]

/-- What the texts of a value agree on: the numbers, and what follows. -/
def Agrees (float : FloatText → Bytes) (v : Value) : Prop := ∀ r r', Stops r → Stops r' →
  text float v ++ r = print v ++ r' → (∀ k ∈ numbers v, numberText float k = k.print) ∧ r = r'

theorem agrees_items {vs : List Value} (ih : ∀ v ∈ vs, Agrees float v)
    (h : textItems float vs ++ r = printItems vs ++ r') :
    (∀ k ∈ numbersItems vs, numberText float k = k.print) ∧ r = r' := by
  induction vs with
  | nil => exact ⟨by simp [numbersItems], append_cancel_left h⟩
  | cons v vs ihs =>
    rw [forall_mem_cons] at ih
    have h : text float v ++ (textItems float vs ++ r) = print v ++ (printItems vs ++ r') := by
      simpa [textItems, printItems, utf8_comma] using h
    obtain ⟨hv, h⟩ := ih.1 _ _ (stops_textItems vs r) (stops_printItems vs r') h
    obtain ⟨hvs, h⟩ := ihs ih.2 h
    exact ⟨by simpa [numbersItems, or_imp, forall_and] using ⟨hv, hvs⟩, h⟩

theorem agrees_members {ms : Members} (ih : ∀ m ∈ ms, Agrees float m.2)
    (h : textMembers float ms ++ r = printMembers ms ++ r') :
    (∀ k ∈ numbersMembers ms, numberText float k = k.print) ∧ r = r' := by
  induction ms with
  | nil => exact ⟨by simp [numbersMembers], append_cancel_left h⟩
  | cons m ms ihs =>
    rw [forall_mem_cons] at ih
    have h : text float m.2 ++ (textMembers float ms ++ r) =
        print m.2 ++ (printMembers ms ++ r') := by
      simpa [textMembers, printMembers, utf8_comma, utf8_colon, stringText_eq] using h
    obtain ⟨hv, h⟩ := ih.1 _ _ (stops_textMembers ms r) (stops_printMembers ms r') h
    obtain ⟨hms, h⟩ := ihs ih.2 h
    exact ⟨by simpa [numbersMembers, or_imp, forall_and] using ⟨hv, hms⟩, h⟩

theorem agrees (hi : integral v) : Agrees float v := by
  induction v using Value.ind with
  | null => exact fun r r' _ _ h => ⟨by simp [numbers], append_cancel_left h⟩
  | bool b =>
    cases b <;> exact fun r r' _ _ h => ⟨by simp [numbers], append_cancel_left h⟩
  | num k =>
    intro r r' hr hr' h
    obtain ⟨heq, hrest⟩ := number_append_inj (isNumberByte_numberText hi) (numeric_print k) hr hr' h
    exact ⟨by simpa [numbers] using heq, hrest⟩
  | str s =>
    intro r r' _ _ h
    rw [text, print, stringText_eq] at h
    exact ⟨by simp [numbers], append_cancel_left h⟩
  | arr vs ih =>
    intro r r' _ _ h
    have ih : ∀ v ∈ vs, Agrees float v := fun v hv => ih v hv (integralItems_iff.mp hi v hv)
    cases vs with
    | nil => exact ⟨by simp [numbers, numbersItems], append_cancel_left h⟩
    | cons v vs =>
      refine agrees_items ih ?_
      simpa [text, print, textItems, printItems, utf8_comma, utf8_open] using h
  | obj ms ih =>
    intro r r' _ _ h
    have ih : ∀ m ∈ ms, Agrees float m.2 := fun m hm => ih m hm (integralMembers_iff.mp hi m hm)
    cases ms with
    | nil => exact ⟨by simp [numbers, numbersMembers], append_cancel_left h⟩
    | cons m ms =>
      refine agrees_members ih ?_
      simpa [text, print, textMembers, printMembers, utf8_comma] using h

theorem mem_numbersItems {vs : List Value} : k ∈ numbersItems vs ↔ ∃ v ∈ vs, k ∈ numbers v := by
  induction vs with
  | nil => simp [numbersItems]
  | cons v vs ih => simp [numbersItems, ih]

theorem mem_numbersMembers {ms : Members} : k ∈ numbersMembers ms ↔ ∃ m ∈ ms, k ∈ numbers m.2 := by
  induction ms with
  | nil => simp [numbersMembers]
  | cons m ms ih => simp [numbersMembers, ih]

theorem textItems_eq {vs : List Value} (h : ∀ v ∈ vs, text float v = print v) :
    textItems float vs = printItems vs := by
  induction vs with
  | nil => rfl
  | cons v vs ih =>
    rw [forall_mem_cons] at h
    simp [textItems, printItems, utf8_comma, h.1, ih h.2]

theorem textMembers_eq {ms : Members} (h : ∀ m ∈ ms, text float m.2 = print m.2) :
    textMembers float ms = printMembers ms := by
  induction ms with
  | nil => rfl
  | cons m ms ih =>
    rw [forall_mem_cons] at h
    simp [textMembers, printMembers, utf8_comma, utf8_colon, stringText_eq, h.1, ih h.2]

/-- The text is the compact one when that holds of every number. -/
theorem text_eq (h : ∀ k ∈ numbers v, numberText float k = k.print) : text float v = print v := by
  induction v using Value.ind with
  | null => rfl
  | bool b => cases b <;> rfl
  | num k => exact h k (by simp [numbers])
  | str s => exact stringText_eq s
  | arr vs ih =>
    have ih : ∀ v ∈ vs, text float v = print v :=
      fun v hv => ih v hv (fun k hk => h k (mem_numbersItems.mpr ⟨v, hv, hk⟩))
    cases vs with
    | nil => rfl
    | cons v vs =>
      rw [forall_mem_cons] at ih
      simp [text, print, utf8_open, ih.1, textItems_eq ih.2]
  | obj ms ih =>
    have ih : ∀ m ∈ ms, text float m.2 = print m.2 :=
      fun m hm => ih m hm (fun k hk => h k (mem_numbersMembers.mpr ⟨m, hm, hk⟩))
    cases ms with
    | nil => rfl
    | cons m ms =>
      rw [forall_mem_cons] at ih
      simp [text, print, utf8_colon, stringText_eq, ih.1, textMembers_eq ih.2]

theorem integral_of_mem_numbers (hi : integral v) (hk : k ∈ numbers v) : integral (.num k) := by
  induction v using Value.ind with
  | num n => simpa [numbers] using (mem_singleton.mp hk).symm ▸ hi
  | arr vs ih =>
    obtain ⟨v, hv, hk⟩ := mem_numbersItems.mp hk
    exact ih v hv (integralItems_iff.mp hi v hv) hk
  | obj ms ih =>
    obtain ⟨m, hm, hk⟩ := mem_numbersMembers.mp hk
    exact ih m hm (integralMembers_iff.mp hi m hm) hk
  | _ => simp [numbers] at hk

/-- The canonical text is the compact text exactly when every number is printed with its own
digits. -/
theorem text_eq_print_iff (hi : integral v) :
    text float v = print v ↔ ∀ k ∈ numbers v, Faithful k := by
  constructor
  · intro h k hk
    have := (agrees hi [] [] (by simp [Stops]) (by simp [Stops]) (by simpa using h)).1 k hk
    exact (numberText_eq_iff float (integral_of_mem_numbers hi hk)).mp this
  · intro h
    refine text_eq (fun k hk => ?_)
    exact (numberText_eq_iff float (integral_of_mem_numbers hi hk)).mpr (h k hk)

end Text

end Jcs
