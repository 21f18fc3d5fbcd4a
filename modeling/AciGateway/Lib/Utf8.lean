import AciGateway.Lib.Octets
import Mathlib

/-! Reading bytes as text where some of them are not UTF-8. -/
namespace Octets

open List
open UInt8 (ofNat)

/-- The ranges of the bytes that must follow the first byte of a longer sequence. -/
def followers (c : UInt8) : List (UInt8 × UInt8) :=
  if 0xC2 ≤ c ∧ c ≤ 0xDF then [(0x80, 0xBF)]
  else if c = 0xE0 then [(0xA0, 0xBF), (0x80, 0xBF)]
  else if c = 0xED then [(0x80, 0x9F), (0x80, 0xBF)]
  else if 0xE1 ≤ c ∧ c ≤ 0xEF then [(0x80, 0xBF), (0x80, 0xBF)]
  else if c = 0xF0 then [(0x90, 0xBF), (0x80, 0xBF), (0x80, 0xBF)]
  else if 0xF1 ≤ c ∧ c ≤ 0xF3 then [(0x80, 0xBF), (0x80, 0xBF), (0x80, 0xBF)]
  else if c = 0xF4 then [(0x80, 0x8F), (0x80, 0xBF), (0x80, 0xBF)]
  else []

/-- How many of the next bytes are as required. -/
def fitting : List (UInt8 × UInt8) → Bytes → Nat
  | (lo, hi) :: ranges, c :: b => if lo ≤ c ∧ c ≤ hi then fitting ranges b + 1 else 0
  | _, _ => 0

/-- The character of a whole sequence. -/
def sequenceChar (c : UInt8) (more : Bytes) : Char :=
  let lead := c.toNat % 2 ^ (6 - more.length)
  Char.ofNat (more.foldl (fun n d => n * 64 + d.toNat % 64) lead)

def replacementChar : Char := Char.ofNat 0xFFFD

/-- The characters of a text, with one replacement for each maximal piece of a broken sequence. -/
def repair : Nat → Bytes → List Char
  | fuel + 1, c :: b =>
    if c < 0x80 then Char.ofNat c.toNat :: repair fuel b
    else
      let n := fitting (followers c) b
      let char := if followers c ≠ [] ∧ n = (followers c).length then sequenceChar c (b.take n)
        else replacementChar
      char :: repair fuel (b.drop n)
  | _, _ => []

theorem utf8_of_ofUtf8? {b : Bytes} {s : String} (h : ofUtf8? b = some s) : utf8 s = b := by
  unfold ofUtf8? String.fromUTF8? at h
  split at h
  · cases h
    simp [utf8, String.fromUTF8]
  · cases h

def fromUtf8Lossy (b : Bytes) : String :=
  (ofUtf8? b).getD (String.ofList (repair b.length b))

theorem fromUtf8Lossy_utf8 (s : String) : fromUtf8Lossy (utf8 s) = s := by
  simp [fromUtf8Lossy]

theorem fromUtf8Lossy_ne {b : Bytes} (h : b ≠ []) : fromUtf8Lossy b ≠ "" := by
  unfold fromUtf8Lossy
  cases hs : ofUtf8? b with
  | none =>
    obtain ⟨c, b, rfl⟩ := exists_cons_of_ne_nil h
    rw [Option.getD_none, length_cons, repair]
    split <;> simp
  | some s =>
    rintro (rfl : s = "")
    exact h (utf8_of_ofUtf8? hs).symm

example : fromUtf8Lossy [0x61, 0xE2, 0x82, 0x62, 0xE2, 0x82, 0xAC] =
    String.ofList ['a', replacementChar, 'b', '€'] := by decide +kernel

/-! Text that is whole. -/

theorem toNat_ofNat_byte {n : Nat} (h : n < 256) : (ofNat n).toNat = n := by
  rw [UInt8.toNat_ofNat']
  omega

theorem ofNat_byte_le {m n : Nat} (hm : m < 256) (hn : n < 256) :
    ofNat m ≤ ofNat n ↔ m ≤ n := by
  rw [UInt8.le_iff_toNat_le, toNat_ofNat_byte hm, toNat_ofNat_byte hn]

theorem followers_two : ∀ n < 256, 0xC2 ≤ n → n ≤ 0xDF →
    followers (ofNat n) = [(0x80, 0xBF)] := by decide +kernel

theorem followers_three : ∀ n < 256, 0xE0 ≤ n → n ≤ 0xEF →
    followers (ofNat n) =
      [(ofNat (if n = 0xE0 then 0xA0 else 0x80), ofNat (if n = 0xED then 0x9F else 0xBF)),
        (0x80, 0xBF)] := by
  decide +kernel

theorem followers_four : ∀ n < 256, 0xF0 ≤ n → n ≤ 0xF4 →
    followers (ofNat n) =
      [(ofNat (if n = 0xF0 then 0x90 else 0x80), ofNat (if n = 0xF4 then 0x8F else 0xBF)),
        (0x80, 0xBF),
        (0x80, 0xBF)] := by decide +kernel

theorem fitting_cons (lo hi : Nat) {n : Nat} (hlo : lo ≤ n) (hhi : n ≤ hi) (hbyte : hi < 256)
    (ranges : List (UInt8 × UInt8)) (b : Bytes) :
    fitting ((ofNat lo, ofNat hi) :: ranges) (ofNat n :: b) =
      fitting ranges b + 1 := by
  rw [fitting, if_pos]
  exact ⟨(ofNat_byte_le (by omega) (by omega)).mpr hlo, (ofNat_byte_le (by omega) hbyte).mpr hhi⟩

theorem repair_long (more : Bytes) {c : UInt8} {rest : Bytes} {ch : Char} (hc : 128 ≤ c.toNat)
    (hne : followers c ≠ []) (hfit : fitting (followers c) (more ++ rest) = (followers c).length)
    (hlength : more.length = (followers c).length) (hchar : sequenceChar c more = ch) (fuel : Nat) :
    repair (fuel + 1) (c :: (more ++ rest)) = ch :: repair fuel rest := by
  have hbig : ¬ c < 0x80 := by
    rw [UInt8.lt_iff_toNat_lt]
    exact Nat.not_lt.mpr hc
  rw [repair, if_neg hbig]
  dsimp only
  rw [if_pos ⟨hne, hfit⟩, hfit, ← hlength, take_left, drop_left, hchar]

/-- A character is read from its encoding. -/
theorem repair_encode (ch : Char) (fuel : Nat) (rest : Bytes) :
    repair (fuel + 1) (String.utf8EncodeChar ch ++ rest) = ch :: repair fuel rest := by
  have hvalid : ch.val.toNat < 0xD800 ∨ (0xDFFF < ch.val.toNat ∧ ch.val.toNat < 0x110000) :=
    ch.valid
  have hof : Char.ofNat ch.val.toNat = ch := Char.ofNat_toNat ch
  unfold String.utf8EncodeChar
  generalize hv : ch.val.toNat = v at hvalid hof ⊢
  dsimp only
  split
  · next h =>
    have hsmall : ofNat v < 0x80 := by
      rw [UInt8.lt_iff_toNat_lt, toNat_ofNat_byte (by omega)]
      exact Nat.lt_succ_of_le h
    rw [singleton_append, repair, if_pos hsmall, toNat_ofNat_byte (by omega), hof]
  · split
    · next h₁ h₂ =>
      have hf := followers_two (v / 64 % 32 + 192) (by omega) (by omega) (by omega)
      refine repair_long [_] ?_ ?_ ?_ ?_ ?_ fuel
      · rw [toNat_ofNat_byte (by omega)]
        omega
      · rw [hf]
        simp
      · rw [hf]
        exact fitting_cons 0x80 0xBF (by omega) (by omega) (by omega) [] rest
      · rw [hf]
        rfl
      · rw [← hof, sequenceChar]
        simp only [length_cons, length_nil, foldl_cons, foldl_nil]
        rw [toNat_ofNat_byte (by omega), toNat_ofNat_byte (by omega)]
        congr 1
        omega
    · split
      · next h₁ h₂ h₃ =>
        have hf := followers_three (v / 4096 % 16 + 224) (by omega) (by omega) (by omega)
        refine repair_long [_, _] ?_ ?_ ?_ ?_ ?_ fuel
        · rw [toNat_ofNat_byte (by omega)]
          omega
        · rw [hf]
          simp
        · rw [hf, cons_append, fitting_cons _ _ (by split <;> omega) (by split <;> omega)
            (by split <;> omega)]
          exact congrArg (· + 1) (fitting_cons 0x80 0xBF (by omega) (by omega) (by omega) [] rest)
        · rw [hf]
          rfl
        · rw [← hof, sequenceChar]
          simp only [length_cons, length_nil, foldl_cons, foldl_nil]
          rw [toNat_ofNat_byte (by omega), toNat_ofNat_byte (by omega), toNat_ofNat_byte (by omega)]
          congr 1
          omega
      · next h₁ h₂ h₃ =>
        have hf := followers_four (v / 262144 % 8 + 240) (by omega) (by omega) (by omega)
        refine repair_long [_, _, _] ?_ ?_ ?_ ?_ ?_ fuel
        · rw [toNat_ofNat_byte (by omega)]
          omega
        · rw [hf]
          simp
        · rw [hf, cons_append, fitting_cons _ _ (by split <;> omega) (by split <;> omega)
            (by split <;> omega)]
          refine congrArg (· + 1) ((fitting_cons 0x80 0xBF (by omega) (by omega)
            (by omega) [(0x80, 0xBF)] _).trans (congrArg (· + 1) ?_))
          exact fitting_cons 0x80 0xBF (by omega) (by omega) (by omega) [] rest
        · rw [hf]
          rfl
        · rw [← hof, sequenceChar]
          simp only [length_cons, length_nil, foldl_cons, foldl_nil]
          rw [toNat_ofNat_byte (by omega), toNat_ofNat_byte (by omega), toNat_ofNat_byte (by omega),
            toNat_ofNat_byte (by omega)]
          congr 1
          omega

theorem repair_utf8 (cs : List Char) {fuel : Nat} (h : cs.length ≤ fuel) :
    repair fuel (cs.flatMap String.utf8EncodeChar) = cs := by
  induction cs generalizing fuel with
  | nil => cases fuel <;> rfl
  | cons c cs ih =>
    obtain ⟨fuel, rfl⟩ : ∃ n, fuel = n + 1 := ⟨fuel - 1, by simp at h; omega⟩
    rw [flatMap_cons, repair_encode, ih (by simpa using h)]

theorem length_le_encoded (cs : List Char) : cs.length ≤ (cs.flatMap String.utf8EncodeChar).length := by
  induction cs with
  | nil => exact Nat.le_refl 0
  | cons c cs ih =>
    have hpos : 0 < (String.utf8EncodeChar c).length :=
      length_pos_iff.mpr String.utf8EncodeChar_ne_nil
    rw [flatMap_cons, length_append, length_cons]
    omega

theorem toList_fromUtf8Lossy (b : Bytes) : (fromUtf8Lossy b).toList = repair b.length b := by
  unfold fromUtf8Lossy
  cases hs : ofUtf8? b with
  | none => simp
  | some s =>
    have hb : s.toList.flatMap String.utf8EncodeChar = b := by
      rw [← utf8_ofList, String.ofList_toList]
      exact utf8_of_ofUtf8? hs
    rw [Option.getD_some, ← hb, repair_utf8 _ (length_le_encoded _)]

end Octets
