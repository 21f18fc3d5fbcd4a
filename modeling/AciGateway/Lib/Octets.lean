import Mathlib.Data.List.Basic
import Mathlib.Tactic.NormNum

/-! Byte strings, with the UTF-8, hexadecimal and base64 text encodings of them. -/
namespace Octets

open List
open String (utf8EncodeChar toList_ofList)

/-- A byte string, as `[u8]` and `Vec<u8>`. -/
abbrev Bytes := List UInt8

variable {a b : Bytes} {s t : String} {c : UInt8} {n : Nat}

/-- The UTF-8 bytes of a text. -/
def utf8 (s : String) : Bytes := s.toByteArray.data.toList

/-- The text a byte string encodes, if it is valid UTF-8. -/
def ofUtf8? (b : Bytes) : Option String := String.fromUTF8? b.toByteArray

theorem toByteArray_utf8 (s : String) : (utf8 s).toByteArray = s.toByteArray := by
  apply ByteArray.ext
  simp [utf8]

@[simp] theorem ofUtf8?_utf8 (s : String) : ofUtf8? (utf8 s) = some s := by
  rw [ofUtf8?, toByteArray_utf8, String.fromUTF8?]
  simp [String.isValidUTF8, String.fromUTF8]

theorem utf8_injective : Function.Injective utf8 := by
  intro s t h
  have := congrArg ofUtf8? h
  simpa using this

@[simp] theorem utf8_inj : utf8 s = utf8 t ↔ s = t := utf8_injective.eq_iff

@[simp] theorem utf8_append (s t : String) : utf8 (s ++ t) = utf8 s ++ utf8 t := by
  simp [utf8]

theorem utf8_ofList (cs : List Char) :
    utf8 (String.ofList cs) = cs.flatMap utf8EncodeChar := by
  simp [utf8, String.toByteArray_ofList, utf8Encode]

/-- The byte string is the UTF-8 encoding of some text. -/
def IsText (b : Bytes) : Prop := ∃ s, utf8 s = b

theorem isText_utf8 (s : String) : IsText (utf8 s) := ⟨s, rfl⟩

theorem IsText.append (ha : IsText a) (hb : IsText b) : IsText (a ++ b) := by
  obtain ⟨s, rfl⟩ := ha
  obtain ⟨t, rfl⟩ := hb
  exact ⟨s ++ t, utf8_append s t⟩

theorem isText_utf8EncodeChar (c : Char) : IsText (utf8EncodeChar c) :=
  ⟨String.ofList [c], by rw [utf8_ofList]; exact flatMap_singleton _ _⟩

/-- A character beyond ASCII has no ASCII byte. -/
theorem le_of_mem_utf8EncodeChar {ch : Char} {d : UInt8} (h : ¬ ch.val.toNat ≤ 127)
    (hd : d ∈ utf8EncodeChar ch) : 128 ≤ d.toNat := by
  have hle : ∀ n, 128 ≤ n → n < 256 → 128 ≤ (UInt8.ofNat n).toNat := by
    intro n h1 h2
    rw [UInt8.toNat_ofNat']
    omega
  simp only [utf8EncodeChar, if_neg h] at hd
  split_ifs at hd <;> simp only [mem_cons, not_mem_nil, or_false] at hd
  · rcases hd with rfl | rfl <;> exact hle _ (by omega) (by omega)
  · rcases hd with rfl | rfl | rfl <;> exact hle _ (by omega) (by omega)
  · rcases hd with rfl | rfl | rfl | rfl <;> exact hle _ (by omega) (by omega)

/-- A text with ASCII bytes only has ASCII characters only. -/
theorem toNat_le_of_ascii (h : ∀ d ∈ utf8 s, d.toNat < 128) : ∀ c ∈ s.toList, c.toNat ≤ 127 := by
  intro c hc
  by_contra hbig
  obtain ⟨d, hd⟩ := exists_mem_of_ne_nil (utf8EncodeChar c) (by
    simp only [utf8EncodeChar]
    split_ifs <;> simp)
  have hmem : d ∈ utf8 s := by
    rw [← String.ofList_toList (s := s), utf8_ofList]
    exact mem_flatMap.mpr ⟨c, hc, hd⟩
  have := le_of_mem_utf8EncodeChar hbig hd
  have := h d hmem
  omega

/-- ASCII bytes are text. -/
theorem isText_ascii (h : ∀ c ∈ b, c.toNat < 128) : IsText b := by
  induction b with
  | nil => exact ⟨"", rfl⟩
  | cons c b ih =>
    have hc := h c (by simp)
    have hall : ∀ n < 128, utf8EncodeChar (Char.ofNat n) = [UInt8.ofNat n] := by decide
    have hchar : utf8EncodeChar (Char.ofNat c.toNat) = [c] := by
      simpa using hall c.toNat hc
    have := (isText_utf8EncodeChar (Char.ofNat c.toNat)).append
      (ih (fun d hd => h d (by simp [hd])))
    rwa [hchar] at this

/-- The byte with value `n`, for `n < 256`. -/
def byte (n : Nat) : UInt8 := UInt8.ofNat n

theorem byte_eq {x : UInt8} (h : n = x.toNat) : byte n = x := by
  subst h
  simp [byte]

theorem toNat_byte (h : n < 256) : (byte n).toNat = n := by
  simp [byte, Nat.mod_eq_of_lt h]

/-! Hexadecimal text: lowercase on output, either case on input. -/

def hexDigit (n : Nat) : Char :=
  Char.ofNat (if n < 10 then 48 + n else 87 + n)

def hexValue (c : Char) : Option Nat :=
  if 48 ≤ c.toNat ∧ c.toNat ≤ 57 then some (c.toNat - 48)
  else if 97 ≤ c.toNat ∧ c.toNat ≤ 102 then some (c.toNat - 87)
  else if 65 ≤ c.toNat ∧ c.toNat ≤ 70 then some (c.toNat - 55)
  else none

def hexChars : Bytes → List Char
  | [] => []
  | x :: xs => hexDigit (x.toNat / 16) :: hexDigit (x.toNat % 16) :: hexChars xs

def unhexChars : List Char → Option Bytes
  | [] => some []
  | [_] => none
  | h :: l :: cs => do
    let hi ← hexValue h
    let lo ← hexValue l
    let rest ← unhexChars cs
    some (byte (16 * hi + lo) :: rest)

def hexEncode (b : Bytes) : String := String.ofList (hexChars b)

def hexDecode (s : String) : Option Bytes := unhexChars s.toList

/-- A hexadecimal text without the `0x` it may be marked with. -/
def stripHexMark (s : String) : String :=
  match s.toList with
  | '0' :: 'x' :: rest => String.ofList rest
  | _ => s

theorem hexValue_hexDigit : ∀ n, n < 16 → hexValue (hexDigit n) = some n := by decide

@[simp] theorem unhexChars_hexChars (b : Bytes) : unhexChars (hexChars b) = some b := by
  induction b with
  | nil => rfl
  | cons x xs ih =>
    have hx := x.toNat_lt
    have hi := hexValue_hexDigit (x.toNat / 16) (by omega)
    have lo := hexValue_hexDigit (x.toNat % 16) (by omega)
    simp only [hexChars, unhexChars, hi, lo, ih, Option.bind_eq_bind, Option.bind_some]
    rw [byte_eq (x := x) (by omega)]

@[simp] theorem hexDecode_hexEncode (b : Bytes) : hexDecode (hexEncode b) = some b := by
  simp [hexDecode, hexEncode]

theorem hexDigit_ne_x : ∀ n, n < 16 → hexDigit n ≠ 'x' := by decide

@[simp] theorem stripHexMark_hexEncode (b : Bytes) : stripHexMark (hexEncode b) = hexEncode b := by
  unfold stripHexMark
  split
  · next rest h =>
    cases b with
    | nil => simp [hexEncode, hexChars] at h
    | cons x xs =>
      simp only [hexEncode, toList_ofList, hexChars, cons.injEq] at h
      exact absurd h.2.1 (hexDigit_ne_x _ (Nat.mod_lt _ (by norm_num)))
  · rfl

theorem hexEncode_injective : Function.Injective hexEncode := by
  intro a b h
  have := congrArg hexDecode h
  simpa using this

@[simp] theorem hexEncode_inj : hexEncode a = hexEncode b ↔ a = b := hexEncode_injective.eq_iff

theorem mem_hexChars {c : Char} (h : c ∈ hexChars b) : ∃ n < 16, c = hexDigit n := by
  induction b with
  | nil => cases h
  | cons x b ih =>
    have hx := x.toNat_lt
    simp only [hexChars, mem_cons] at h
    rcases h with rfl | rfl | h
    · exact ⟨_, by omega, rfl⟩
    · exact ⟨_, by omega, rfl⟩
    · exact ih h

/-- The code of a hexadecimal digit, lower case. -/
def hexCode (n : Nat) : UInt8 := byte (if n < 10 then 48 + n else 87 + n)

theorem utf8EncodeChar_hexDigit : ∀ n, n < 16 → utf8EncodeChar (hexDigit n) = [hexCode n] := by
  decide

theorem utf8_hexEncode (b : Bytes) :
    utf8 (hexEncode b) = b.flatMap (fun x => [hexCode (x.toNat / 16), hexCode (x.toNat % 16)]) := by
  rw [hexEncode, utf8_ofList]
  induction b with
  | nil => rfl
  | cons x xs ih =>
    have hx := x.toNat_lt
    simp only [hexChars, flatMap_cons, ih]
    rw [utf8EncodeChar_hexDigit _ (by omega), utf8EncodeChar_hexDigit _ (by omega)]
    rfl

theorem length_hexEncode (b : Bytes) : (hexEncode b).toList.length = 2 * b.length := by
  rw [hexEncode, toList_ofList]
  induction b with
  | nil => rfl
  | cons c b ih =>
    simp only [hexChars, length_cons, ih]
    omega

theorem length_utf8_hexEncode (b : Bytes) : (utf8 (hexEncode b)).length = 2 * b.length := by
  rw [utf8_hexEncode]
  induction b with
  | nil => rfl
  | cons c b ih =>
    simp only [flatMap_cons, length_append, length_cons, ih, length_nil]
    omega

/-- Hexadecimal text is written with lower-case digits. -/
theorem lowercase_of_mem_hexEncode (h : c ∈ utf8 (hexEncode b)) :
    (48 ≤ c ∧ c ≤ 57) ∨ (97 ≤ c ∧ c ≤ 102) := by
  have hcode : ∀ n, n < 16 → (48 ≤ hexCode n ∧ hexCode n ≤ 57) ∨
      (97 ≤ hexCode n ∧ hexCode n ≤ 102) := by decide
  rw [utf8_hexEncode, mem_flatMap] at h
  obtain ⟨x, -, hc⟩ := h
  have hx := x.toNat_lt
  rcases mem_cons.mp hc with rfl | hc
  · exact hcode _ (by omega)
  · rw [mem_singleton.mp hc]
    exact hcode _ (by omega)

/-! Base64 with the standard alphabet. Decoding insists on canonical padding and on
zero trailing bits, so a text decodes only if it is the encoding of its value. -/

def base64Char (n : Nat) : Char :=
  if n < 26 then Char.ofNat (65 + n)
  else if n < 52 then Char.ofNat (71 + n)
  else if n < 62 then Char.ofNat (n - 4)
  else if n = 62 then '+'
  else '/'

def base64Value (c : Char) : Option Nat :=
  if 'A' ≤ c ∧ c ≤ 'Z' then some (c.toNat - 65)
  else if 'a' ≤ c ∧ c ≤ 'z' then some (c.toNat - 71)
  else if '0' ≤ c ∧ c ≤ '9' then some (c.toNat + 4)
  else if c = '+' then some 62
  else if c = '/' then some 63
  else none

def base64Chars : Bytes → List Char
  | [] => []
  | [x] => [base64Char (x.toNat / 4), base64Char (x.toNat % 4 * 16), '=', '=']
  | [x, y] =>
    [base64Char (x.toNat / 4), base64Char (x.toNat % 4 * 16 + y.toNat / 16),
      base64Char (y.toNat % 16 * 4), '=']
  | x :: y :: z :: rest =>
    base64Char (x.toNat / 4) :: base64Char (x.toNat % 4 * 16 + y.toNat / 16) ::
      base64Char (y.toNat % 16 * 4 + z.toNat / 64) :: base64Char (z.toNat % 64) ::
      base64Chars rest

def unbase64Chars : List Char → Option Bytes
  | [] => some []
  | p :: q :: r :: s :: rest =>
    if s = '=' ∧ rest = [] then
      if r = '=' then do
        let u ← base64Value p
        let v ← base64Value q
        if v % 16 = 0 then some [byte (u * 4 + v / 16)] else none
      else do
        let u ← base64Value p
        let v ← base64Value q
        let w ← base64Value r
        if w % 4 = 0 then
          some [byte (u * 4 + v / 16), byte (v % 16 * 16 + w / 4)]
        else none
    else do
      let u ← base64Value p
      let v ← base64Value q
      let w ← base64Value r
      let x ← base64Value s
      let tail ← unbase64Chars rest
      some (byte (u * 4 + v / 16) :: byte (v % 16 * 16 + w / 4) ::
        byte (w % 4 * 64 + x) :: tail)
  | _ => none

def base64Encode (b : Bytes) : String := String.ofList (base64Chars b)

def base64Decode (s : String) : Option Bytes := unbase64Chars s.toList

theorem base64Value_base64Char : ∀ n, n < 64 → base64Value (base64Char n) = some n := by decide

theorem base64Char_ne_pad : ∀ n, n < 64 → base64Char n ≠ '=' := by decide

theorem base64Char_base64Value {c : Char} {n : Nat} (h : base64Value c = some n) :
    n < 64 ∧ base64Char n = c := by
  have key : ∀ m, m < 128 → ∀ k ∈ base64Value (Char.ofNat m), k < 64 ∧
      base64Char k = Char.ofNat m := by decide
  have hc : c.toNat < 128 := by
    by_contra hc
    have hle : ∀ d : Char, d.toNat < 128 → ¬ c ≤ d := by
      intro d hd hcd
      exact hc (Nat.lt_of_le_of_lt hcd hd)
    have hne : ∀ d : Char, d.toNat < 128 → c ≠ d := by
      rintro d hd rfl
      exact hc hd
    simp [base64Value, hle, hne] at h
  have := key c.toNat hc n (by simpa using h)
  simpa using this

@[simp] theorem unbase64Chars_base64Chars (b : Bytes) : unbase64Chars (base64Chars b) = some b := by
  induction b using base64Chars.induct with
  | case1 => rfl
  | case2 x =>
    have hx := x.toNat_lt
    simp (disch := omega) [base64Chars, unbase64Chars, base64Value_base64Char]
    exact byte_eq (by omega)
  | case3 x y =>
    have hx := x.toNat_lt
    have hy := y.toNat_lt
    simp (disch := omega) [base64Chars, unbase64Chars, base64Value_base64Char, base64Char_ne_pad]
    exact ⟨byte_eq (by omega), byte_eq (by omega)⟩
  | case4 x y z rest ih =>
    have hx := x.toNat_lt
    have hy := y.toNat_lt
    have hz := z.toNat_lt
    simp (disch := omega) [base64Chars, unbase64Chars, base64Value_base64Char, base64Char_ne_pad, ih]
    exact ⟨byte_eq (by omega), byte_eq (by omega), byte_eq (by omega)⟩

/-- Only the encoding of `b` decodes to `b`: padding and trailing bits are canonical. -/
theorem base64Chars_of_unbase64Chars {cs : List Char} (h : unbase64Chars cs = some b) :
    base64Chars b = cs := by
  induction cs using unbase64Chars.induct generalizing b with
  | case1 => simp_all [unbase64Chars, base64Chars]
  | case2 p q s rest hpad =>
    obtain ⟨rfl, rfl⟩ := hpad
    simp [unbase64Chars, Option.bind_eq_some_iff] at h
    obtain ⟨u, hu, v, hv, hz, rfl⟩ := h
    obtain ⟨hu64, rfl⟩ := base64Char_base64Value hu
    obtain ⟨hv64, rfl⟩ := base64Char_base64Value hv
    have hx := toNat_byte (n := u * 4 + v / 16) (by omega)
    simp only [base64Chars, hx]
    rw [show (u * 4 + v / 16) / 4 = u by omega, show (u * 4 + v / 16) % 4 * 16 = v by omega]
  | case3 p q r s rest hpad hr =>
    obtain ⟨rfl, rfl⟩ := hpad
    simp [unbase64Chars, hr, Option.bind_eq_some_iff] at h
    obtain ⟨u, hu, v, hv, w, hw, hz, rfl⟩ := h
    obtain ⟨hu64, rfl⟩ := base64Char_base64Value hu
    obtain ⟨hv64, rfl⟩ := base64Char_base64Value hv
    obtain ⟨hw64, rfl⟩ := base64Char_base64Value hw
    have hx := toNat_byte (n := u * 4 + v / 16) (by omega)
    have hy := toNat_byte (n := v % 16 * 16 + w / 4) (by omega)
    simp only [base64Chars, hx, hy]
    rw [show (u * 4 + v / 16) / 4 = u by omega,
      show (u * 4 + v / 16) % 4 * 16 + (v % 16 * 16 + w / 4) / 16 = v by omega,
      show (v % 16 * 16 + w / 4) % 16 * 4 = w by omega]
  | case4 p q r s rest hpad ih =>
    simp [unbase64Chars, hpad, Option.bind_eq_some_iff] at h
    obtain ⟨u, hu, v, hv, w, hw, x, hx, tail, ht, rfl⟩ := h
    obtain ⟨hu64, rfl⟩ := base64Char_base64Value hu
    obtain ⟨hv64, rfl⟩ := base64Char_base64Value hv
    obtain ⟨hw64, rfl⟩ := base64Char_base64Value hw
    obtain ⟨hx64, rfl⟩ := base64Char_base64Value hx
    have ha := toNat_byte (n := u * 4 + v / 16) (by omega)
    have hb := toNat_byte (n := v % 16 * 16 + w / 4) (by omega)
    have hc := toNat_byte (n := w % 4 * 64 + x) (by omega)
    simp only [base64Chars, ha, hb, hc, ih ht]
    rw [show (u * 4 + v / 16) / 4 = u by omega,
      show (u * 4 + v / 16) % 4 * 16 + (v % 16 * 16 + w / 4) / 16 = v by omega,
      show (v % 16 * 16 + w / 4) % 16 * 4 + (w % 4 * 64 + x) / 64 = w by omega,
      show (w % 4 * 64 + x) % 64 = x by omega]
  | case5 cs h1 h2 => simp_all [unbase64Chars]

@[simp] theorem base64Decode_base64Encode (b : Bytes) : base64Decode (base64Encode b) = some b := by
  simp [base64Decode, base64Encode]

theorem base64Encode_of_base64Decode (h : base64Decode s = some b) : base64Encode b = s := by
  rw [base64Encode, base64Chars_of_unbase64Chars h, String.ofList_toList]

/-! Base64 with the alphabet that is safe in URLs, and without padding. -/

def urlChar (c : Char) : Char := if c = '+' then '-' else if c = '/' then '_' else c

def unurlChar (c : Char) : Char := if c = '-' then '+' else if c = '_' then '/' else c

/-- The padding of `n` characters. -/
def base64Padding (n : Nat) : List Char := List.replicate ((4 - n % 4) % 4) '='

def base64UrlChars (b : Bytes) : List Char := ((base64Chars b).filter (· ≠ '=')).map urlChar

def unbase64UrlChars (cs : List Char) : Option Bytes :=
  if cs.any (fun c => c = '+' || c = '/' || c = '=') then none
  else unbase64Chars (cs.map unurlChar ++ base64Padding cs.length)

def base64UrlEncode (b : Bytes) : String := String.ofList (base64UrlChars b)

def base64UrlDecode (s : String) : Option Bytes := unbase64UrlChars s.toList

theorem unurlChar_urlChar_base64Char : ∀ n, n < 64 →
    unurlChar (urlChar (base64Char n)) = base64Char n ∧
      ¬ (urlChar (base64Char n) = '+' ∨ urlChar (base64Char n) = '/' ∨ urlChar (base64Char n) = '=') := by
  decide

theorem mem_base64Chars {c : Char} (h : c ∈ base64Chars b) : c = '=' ∨ ∃ n < 64, c = base64Char n := by
  have hbase : ∀ n, n < 64 → base64Char n = '=' ∨ ∃ m < 64, base64Char n = base64Char m :=
    fun n hn => .inr ⟨n, hn, rfl⟩
  induction b using base64Chars.induct with
  | case1 => cases h
  | case2 x =>
    have hx := x.toNat_lt
    simp only [base64Chars, mem_cons, not_mem_nil, or_false] at h
    rcases h with rfl | rfl | rfl | rfl
    · exact hbase _ (by omega)
    · exact hbase _ (by omega)
    · exact .inl rfl
    · exact .inl rfl
  | case3 x y =>
    have hx := x.toNat_lt
    have hy := y.toNat_lt
    simp only [base64Chars, mem_cons, not_mem_nil, or_false] at h
    rcases h with rfl | rfl | rfl | rfl
    · exact hbase _ (by omega)
    · exact hbase _ (by omega)
    · exact hbase _ (by omega)
    · exact .inl rfl
  | case4 x y z rest ih =>
    have hx := x.toNat_lt
    have hy := y.toNat_lt
    have hz := z.toNat_lt
    simp only [base64Chars, mem_cons] at h
    rcases h with rfl | rfl | rfl | rfl | h
    · exact hbase _ (by omega)
    · exact hbase _ (by omega)
    · exact hbase _ (by omega)
    · exact hbase _ (by omega)
    · exact ih h

/-- What padding a text lacks follows from its length. -/
theorem base64Chars_padding (b : Bytes) :
    (base64Chars b).filter (· ≠ '=') ++
      base64Padding ((base64Chars b).filter (· ≠ '=')).length = base64Chars b := by
  induction b using base64Chars.induct with
  | case1 => rfl
  | case2 x =>
    have hx := x.toNat_lt
    simp (disch := omega) [base64Chars, filter_cons, base64Char_ne_pad, base64Padding, replicate]
  | case3 x y =>
    have hx := x.toNat_lt
    have hy := y.toNat_lt
    simp (disch := omega) [base64Chars, filter_cons, base64Char_ne_pad, base64Padding]
  | case4 x y z rest ih =>
    have hx := x.toNat_lt
    have hy := y.toNat_lt
    have hz := z.toNat_lt
    have hlen : ∀ n, base64Padding (n + 1 + 1 + 1 + 1) = base64Padding n := by
      intro n
      rw [base64Padding, base64Padding, show n + 1 + 1 + 1 + 1 = n + 4 from rfl, Nat.add_mod_right]
    simpa (disch := omega) [base64Chars, filter_cons, base64Char_ne_pad, hlen] using ih

@[simp] theorem base64UrlDecode_base64UrlEncode (b : Bytes) :
    base64UrlDecode (base64UrlEncode b) = some b := by
  have hchar : ∀ c ∈ (base64Chars b).filter (· ≠ '='), unurlChar (urlChar c) = c ∧
      ¬ (urlChar c = '+' ∨ urlChar c = '/' ∨ urlChar c = '=') := by
    intro c hc
    rw [mem_filter, decide_eq_true_iff] at hc
    rcases mem_base64Chars hc.1 with rfl | ⟨n, hn, rfl⟩
    · exact absurd rfl hc.2
    · exact unurlChar_urlChar_base64Char n hn
  have hany : ¬ (base64UrlChars b).any (fun c => c = '+' || c = '/' || c = '=') := by
    rw [any_eq_true]
    rintro ⟨c, hc, h⟩
    obtain ⟨d, hd, rfl⟩ := mem_map.mp hc
    exact (hchar d hd).2 (by simpa [or_assoc] using h)
  have hmap : (base64UrlChars b).map unurlChar = (base64Chars b).filter (· ≠ '=') := by
    rw [base64UrlChars, map_map]
    exact (map_congr_left fun c hc => (hchar c hc).1).trans (map_id _)
  rw [base64UrlDecode, base64UrlEncode, toList_ofList, unbase64UrlChars, if_neg hany, hmap,
    base64UrlChars, length_map, base64Chars_padding, unbase64Chars_base64Chars]

end Octets
