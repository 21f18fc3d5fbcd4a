import AciGateway.Lib.Octets
import AciGateway.Lib.U64
import Mathlib.Data.Nat.Digits.Lemmas

/-! JSON values and their compact text. Objects keep the order of their members. -/
namespace Json

open Octets

/-- The bytes a JSON number can be written with. -/
def isNumberByte (c : UInt8) : Bool :=
  (48 ≤ c ∧ c ≤ 57) ∨ c = 43 ∨ c = 45 ∨ c = 46 ∨ c = 69 ∨ c = 101

/-- The decimal text of a floating-point number. -/
structure FloatText where
  text : Bytes
  nonempty : text ≠ []
  numeric : text.all isNumberByte
  deriving DecidableEq

/-- A number is an unsigned integer, a negative integer `-(m + 1)`, or a float. -/
inductive Number where
  | posInt (n : U64)
  | negInt (m : Fin (2 ^ 63))
  | float (f : FloatText)
  deriving DecidableEq

inductive Value where
  | null
  | bool (b : Bool)
  | num (n : Number)
  | str (s : String)
  | arr (items : List Value)
  | obj (members : List (String × Value))

abbrev Members := List (String × Value)

/-- The decimal digits of a number, most significant first. -/
def printNat (n : Nat) : Bytes :=
  if n = 0 then [48] else (Nat.digits 10 n).reverse.map (fun d => byte (48 + d))

def Number.print : Number → Bytes
  | .posInt n => printNat n.val
  | .negInt m => 45 :: printNat (m.val + 1)
  | .float f => f.text

/-- One byte of a string body. Bytes from `0x20` on stand for themselves, the quote and
the backslash excepted. -/
def escapeByte (c : UInt8) : Bytes :=
  if c = 34 then [92, 34]
  else if c = 92 then [92, 92]
  else if c = 8 then [92, 98]
  else if c = 12 then [92, 102]
  else if c = 10 then [92, 110]
  else if c = 13 then [92, 114]
  else if c = 9 then [92, 116]
  else if c < 32 then 92 :: 117 :: 48 :: 48 :: utf8 (hexEncode [c])
  else [c]

def printString (s : String) : Bytes := 34 :: ((utf8 s).flatMap escapeByte ++ [34])

mutual

/-- The compact text of a value. -/
def print : Value → Bytes
  | .null => utf8 "null"
  | .bool true => utf8 "true"
  | .bool false => utf8 "false"
  | .num n => n.print
  | .str s => printString s
  | .arr [] => utf8 "[]"
  | .arr (v :: vs) => 91 :: (print v ++ printItems vs)
  | .obj [] => [123, 125]
  | .obj ((k, v) :: ms) => 123 :: (printString k ++ 58 :: (print v ++ printMembers ms))

/-- The items after the first one, with the closing bracket. -/
def printItems : List Value → Bytes
  | [] => [93]
  | v :: vs => 44 :: (print v ++ printItems vs)

/-- The members after the first one, with the closing brace. -/
def printMembers : Members → Bytes
  | [] => [125]
  | (k, v) :: ms => 44 :: (printString k ++ 58 :: (print v ++ printMembers ms))

end

mutual

/-- How many containers are open at the deepest point of a value. -/
def depth : Value → Nat
  | .arr vs => depthItems vs + 1
  | .obj ms => depthMembers ms + 1
  | _ => 0

def depthItems : List Value → Nat
  | [] => 0
  | v :: vs => max (depth v) (depthItems vs)

def depthMembers : Members → Nat
  | [] => 0
  | (_, v) :: ms => max (depth v) (depthMembers ms)

end

mutual

/-- No number of the value is a float. -/
def integral : Value → Bool
  | .num (.float _) => false
  | .arr vs => integralItems vs
  | .obj ms => integralMembers ms
  | _ => true

def integralItems : List Value → Bool
  | [] => true
  | v :: vs => integral v && integralItems vs

def integralMembers : Members → Bool
  | [] => true
  | (_, v) :: ms => integral v && integralMembers ms

end

mutual

/-- No object of the value names a member twice. -/
def uniqueKeys : Value → Bool
  | .arr vs => uniqueKeysItems vs
  | .obj ms => decide (ms.map Prod.fst).Nodup && uniqueKeysMembers ms
  | _ => true

def uniqueKeysItems : List Value → Bool
  | [] => true
  | v :: vs => uniqueKeys v && uniqueKeysItems vs

def uniqueKeysMembers : Members → Bool
  | [] => true
  | (_, v) :: ms => uniqueKeys v && uniqueKeysMembers ms

end

/-- The member of an object under a name. -/
def Value.get? (k : String) : Value → Option Value
  | .obj ms => ms.lookup k
  | _ => none

def Value.asStr? : Value → Option String
  | .str s => some s
  | _ => none

/-- Induction over a value: a container may use what holds of its items or members. -/
@[elab_as_elim]
theorem Value.ind {motive : Value → Prop} (null : motive .null) (bool : ∀ b, motive (.bool b))
    (num : ∀ n, motive (.num n)) (str : ∀ s, motive (.str s))
    (arr : ∀ vs, (∀ v ∈ vs, motive v) → motive (.arr vs))
    (obj : ∀ ms, (∀ m ∈ ms, motive m.2) → motive (.obj ms)) (v : Value) : motive v :=
  @Value.rec motive (fun vs => ∀ v ∈ vs, motive v) (fun ms => ∀ m ∈ ms, motive m.2)
    (fun m => motive m.2) null bool num str arr obj
    (by simp) (fun v vs hv hvs => List.forall_mem_cons.mpr ⟨hv, hvs⟩)
    (by simp) (fun m ms hm hms => List.forall_mem_cons.mpr ⟨hm, hms⟩) (fun _ _ hv => hv) v

variable {c : UInt8} {s : String} {v : Value} {n : Nat} {vs : List Value}

theorem depthItems_le_iff : depthItems vs ≤ n ↔ ∀ v ∈ vs, depth v ≤ n := by
  induction vs with
  | nil => simp [depthItems]
  | cons v vs ih => simp [depthItems, ih]

theorem depthMembers_le_iff {ms : Members} : depthMembers ms ≤ n ↔ ∀ m ∈ ms, depth m.2 ≤ n := by
  induction ms with
  | nil => simp [depthMembers]
  | cons m ms ih => simp [depthMembers, ih]

theorem integralItems_iff : integralItems vs ↔ ∀ v ∈ vs, integral v := by
  induction vs with
  | nil => simp [integralItems]
  | cons v vs ih => simp [integralItems, ih]

theorem integralMembers_iff {ms : Members} : integralMembers ms ↔ ∀ m ∈ ms, integral m.2 := by
  induction ms with
  | nil => simp [integralMembers]
  | cons m ms ih => simp [integralMembers, ih]

theorem exists_printMembers (ms : Members) : ∃ b, printMembers ms = b ++ [125] := by
  induction ms with
  | nil => exact ⟨[], rfl⟩
  | cons m ms ih =>
    obtain ⟨b, hb⟩ := ih
    exact ⟨44 :: (printString m.1 ++ 58 :: (print m.2 ++ b)), by simp [printMembers, hb]⟩

/-- The text of an object stands between braces. -/
theorem exists_print_obj (ms : Members) : ∃ b, print (.obj ms) = 123 :: (b ++ [125]) := by
  cases ms with
  | nil => exact ⟨[], rfl⟩
  | cons m ms =>
    obtain ⟨b, hb⟩ := exists_printMembers ms
    exact ⟨printString m.1 ++ 58 :: (print m.2 ++ b), by simp [print, hb]⟩

/-! Compact text is free of control characters, so it stays on one line. -/

/-- A byte string without control characters. -/
def Printable (b : Bytes) : Prop := ∀ c ∈ b, 32 ≤ c

instance (b : Bytes) : Decidable (Printable b) := List.decidableBAll _ b

@[simp] theorem printable_nil : Printable [] := by simp [Printable]

@[simp] theorem printable_cons {b : Bytes} : Printable (c :: b) ↔ 32 ≤ c ∧ Printable b := by
  simp [Printable]

@[simp] theorem printable_append {a b : Bytes} :
    Printable (a ++ b) ↔ Printable a ∧ Printable b := by
  simp [Printable, or_imp, forall_and]

theorem printable_hex (h : c < 32) : Printable (utf8 (hexEncode [c])) := by
  have hn : ∀ n < 32, Printable (utf8 (hexEncode [byte n])) := by decide
  have hc := hn c.toNat (UInt8.lt_iff_toNat_lt.mp h)
  rwa [byte_eq rfl] at hc

theorem printable_escapeByte (c : UInt8) : Printable (escapeByte c) := by
  unfold escapeByte
  split_ifs with _ _ _ _ _ _ _ hc
  all_goals simp_all [printable_hex]

theorem printable_printString (s : String) : Printable (printString s) := by
  have hb : Printable ((utf8 s).flatMap escapeByte) := by
    intro c hc
    obtain ⟨d, -, hd⟩ := List.mem_flatMap.mp hc
    exact printable_escapeByte d c hd
  simp [printString, hb]

theorem isNumberByte_le (h : isNumberByte c) : 32 ≤ c := by
  simp only [isNumberByte, UInt8.le_iff_toNat_le, ← UInt8.toNat_inj] at h ⊢
  simp at h ⊢
  omega

/-- The value of one decimal digit is below ten, so its byte is a digit. -/
theorem isDigit_printNat (n : Nat) : ∀ c ∈ printNat n, 48 ≤ c ∧ c ≤ 57 := by
  intro c hc
  unfold printNat at hc
  split_ifs at hc
  · simp at hc
    subst hc
    decide
  · simp only [List.mem_map, List.mem_reverse] at hc
    obtain ⟨d, hd, rfl⟩ := hc
    have hlt := Nat.digits_lt_base (by norm_num : 1 < 10) hd
    have hb := toNat_byte (n := 48 + d) (by omega)
    simp only [UInt8.le_iff_toNat_le, hb]
    simp
    omega

theorem numeric_print (n : Number) : ∀ c ∈ n.print, isNumberByte c := by
  have hd : ∀ m, ∀ c ∈ printNat m, isNumberByte c := by
    intro m c hc
    have := isDigit_printNat m c hc
    simp [isNumberByte, this]
  cases n with
  | posInt n => exact hd _
  | negInt m =>
    intro c hc
    obtain rfl | hc := List.mem_cons.mp hc
    · decide
    · exact hd _ c hc
  | float f => simpa [Number.print] using f.numeric

theorem printNat_ne_nil (n : Nat) : printNat n ≠ [] := by
  unfold printNat
  split_ifs with h
  · simp
  · simpa using Nat.digits_ne_nil_iff_ne_zero.mpr h

theorem Number.print_ne_nil (n : Number) : n.print ≠ [] := by
  cases n with
  | posInt n => exact printNat_ne_nil _
  | negInt m => simp [Number.print]
  | float f => exact f.nonempty

mutual

/-- A value prints on one line. -/
theorem printable_print : ∀ v, Printable (print v)
  | .null => by decide
  | .bool true => by decide
  | .bool false => by decide
  | .num n => fun c hc => isNumberByte_le (numeric_print n c hc)
  | .str s => by simpa [print] using printable_printString s
  | .arr [] => by decide
  | .arr (v :: vs) => by
    simp [print, printable_print v, printable_printItems vs]
  | .obj [] => by decide
  | .obj ((k, v) :: ms) => by
    simp [print, printable_printString, printable_print v, printable_printMembers ms]

theorem printable_printItems : ∀ vs, Printable (printItems vs)
  | [] => by simp [printItems]
  | v :: vs => by simp [printItems, printable_print v, printable_printItems vs]

theorem printable_printMembers : ∀ ms, Printable (printMembers ms)
  | [] => by simp [printMembers]
  | (k, v) :: ms => by
    simp [printMembers, printable_printString, printable_print v, printable_printMembers ms]

end

/-! Compact text is valid UTF-8. -/

theorem ascii_hex (h : c < 32) : ∀ d ∈ utf8 (hexEncode [c]), d.toNat < 128 := by
  have hn : ∀ n < 32, (utf8 (hexEncode [byte n])).all (fun d => decide (d.toNat < 128)) := by
    decide
  have hc := hn c.toNat (UInt8.lt_iff_toNat_lt.mp h)
  rw [byte_eq rfl] at hc
  simpa using hc

theorem ascii_escapeByte (h : c.toNat < 128) : ∀ d ∈ escapeByte c, d.toNat < 128 := by
  unfold escapeByte
  split_ifs with _ _ _ _ _ _ _ hc
  iterate 7 · simp
  · simpa using ascii_hex hc
  · simpa using h

theorem escapeByte_of_le (h : 128 ≤ c.toNat) : escapeByte c = [c] := by
  have hne : ∀ m : UInt8, m.toNat < 128 → c ≠ m := by
    rintro m hm rfl
    omega
  have hlt : ¬ c < 32 := by
    rw [UInt8.lt_iff_toNat_lt]
    simp
    omega
  simp [escapeByte, hlt, hne]

/-- Only ASCII characters are escaped. -/
theorem escape_utf8EncodeChar {ch : Char} (h : ¬ ch.val.toNat ≤ 127) :
    (String.utf8EncodeChar ch).flatMap escapeByte = String.utf8EncodeChar ch := by
  have hbig : ∀ d ∈ String.utf8EncodeChar ch, escapeByte d = [d] :=
    fun d hd => escapeByte_of_le (le_of_mem_utf8EncodeChar h hd)
  rw [List.flatMap_congr hbig]
  simp

theorem isText_escape_char (ch : Char) :
    IsText ((String.utf8EncodeChar ch).flatMap escapeByte) := by
  by_cases h : ch.val.toNat ≤ 127
  · have hone : String.utf8EncodeChar ch = [UInt8.ofNat ch.val.toNat] := if_pos h
    rw [hone, List.flatMap_singleton]
    apply isText_ascii
    apply ascii_escapeByte
    rw [UInt8.toNat_ofNat']
    omega
  · rw [escape_utf8EncodeChar h]
    exact isText_utf8EncodeChar ch

theorem isText_printString (s : String) : IsText (printString s) := by
  have hb : IsText ((utf8 s).flatMap escapeByte) := by
    rw [← String.ofList_toList (s := s), utf8_ofList, List.flatMap_assoc]
    induction s.toList with
    | nil => exact ⟨"", rfl⟩
    | cons ch cs ih => exact (isText_escape_char ch).append ih
  exact (isText_utf8 "\"").append (hb.append (isText_utf8 "\""))

theorem isText_number (n : Number) : IsText n.print := by
  apply isText_ascii
  intro c hc
  have := numeric_print n c hc
  simp only [isNumberByte, UInt8.le_iff_toNat_le, ← UInt8.toNat_inj] at this
  simp at this
  omega

mutual

theorem isText_print : ∀ v, IsText (print v)
  | .null => isText_utf8 _
  | .bool true => isText_utf8 _
  | .bool false => isText_utf8 _
  | .num n => isText_number n
  | .str s => isText_printString s
  | .arr [] => isText_utf8 _
  | .arr (v :: vs) => by
    rw [print]
    exact (isText_utf8 "[").append ((isText_print v).append (isText_printItems vs))
  | .obj [] => isText_utf8 "\x7b\x7d"
  | .obj ((k, v) :: ms) => by
    rw [print]
    exact (isText_utf8 "\x7b").append ((isText_printString k).append
      ((isText_utf8 ":").append ((isText_print v).append (isText_printMembers ms))))

theorem isText_printItems : ∀ vs, IsText (printItems vs)
  | [] => isText_utf8 "]"
  | v :: vs => by
    rw [printItems]
    exact (isText_utf8 ",").append ((isText_print v).append (isText_printItems vs))

theorem isText_printMembers : ∀ ms, IsText (printMembers ms)
  | [] => isText_utf8 "\x7d"
  | (k, v) :: ms => by
    rw [printMembers]
    exact (isText_utf8 ",").append ((isText_printString k).append
      ((isText_utf8 ":").append ((isText_print v).append (isText_printMembers ms))))

end

end Json
