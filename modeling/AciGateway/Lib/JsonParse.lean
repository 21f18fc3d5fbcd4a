import AciGateway.Lib.Json

/-! A JSON parser with a bound on nesting, and the round trip with compact text. -/
namespace Json

open Octets List

def isSpace (c : UInt8) : Bool := c = 32 ∨ c = 9 ∨ c = 10 ∨ c = 13

def skipSpace (b : Bytes) : Bytes := b.dropWhile isSpace

def isDigit (c : UInt8) : Bool := 48 ≤ c ∧ c ≤ 57

def digitsValue (ds : Bytes) : Nat := ds.foldl (fun acc d => 10 * acc + (d.toNat - 48)) 0

/-- The integer part of a number: a digit run without a redundant leading zero. -/
def readInteger (b : Bytes) : Option (Bytes × Bytes) :=
  let ds := b.takeWhile isDigit
  if ds = [] ∨ (ds.head? = some 48 ∧ 1 < ds.length) then none
  else some (ds, b.dropWhile isDigit)

def readFraction : Bytes → Option (Bytes × Bytes)
  | 46 :: b =>
    let ds := b.takeWhile isDigit
    if ds = [] then none else some (46 :: ds, b.dropWhile isDigit)
  | b => some ([], b)

def readExponent : Bytes → Option (Bytes × Bytes)
  | [] => some ([], [])
  | e :: b =>
    if e = 101 ∨ e = 69 then
      let sign := if b.head? = some 43 ∨ b.head? = some 45 then b.take 1 else []
      let rest := b.drop sign.length
      let ds := rest.takeWhile isDigit
      if ds = [] then none else some (e :: sign ++ ds, rest.dropWhile isDigit)
    else some ([], e :: b)

/-- The integer with a sign and a magnitude, if it fits; a negative zero does not. -/
def Number.ofInteger? (negative : Bool) (m : Nat) : Option Number :=
  if negative then
    if h : 0 < m ∧ m ≤ 2 ^ 63 then some (.negInt ⟨m - 1, by omega⟩) else none
  else
    if h : m < 2 ^ 64 then some (.posInt ⟨m, h⟩) else none

section Parser

-- How a number that is not an integer in range is rounded to a float.
variable (round : Bytes → Option FloatText)

def readNumber (negative : Bool) (b : Bytes) : Option (Number × Bytes) := do
  let (ds, b) ← readInteger b
  let (frac, b) ← readFraction b
  let (exp, b) ← readExponent b
  let float := (round (cond negative [45] [] ++ ds ++ frac ++ exp)).map Number.float
  let n ← if frac = [] ∧ exp = [] then (Number.ofInteger? negative (digitsValue ds)).or float
    else float
  some (n, b)

def hexByte (c : UInt8) : Option Nat := hexValue (Char.ofNat c.toNat)

def hex4 (a b c d : UInt8) : Option Nat := do
  some (((← hexByte a) * 16 + (← hexByte b)) * 256 + (← hexByte c) * 16 + (← hexByte d))

def simpleEscape (c : UInt8) : Option UInt8 :=
  if c = 34 ∨ c = 92 ∨ c = 47 then some c
  else if c = 98 then some 8
  else if c = 102 then some 12
  else if c = 110 then some 10
  else if c = 114 then some 13
  else if c = 116 then some 9
  else none

/-- The bytes of a string body up to its closing quote, and what follows it. -/
def unescape : Bytes → Option (Bytes × Bytes)
  | [] => none
  | c :: rest =>
    if c = 34 then some ([], rest)
    else if c = 92 then
      match rest with
      | 117 :: a :: b :: c :: d :: rest => do
        let hi ← hex4 a b c d
        if 0xd800 ≤ hi ∧ hi < 0xdc00 then
          match rest with
          | 92 :: 117 :: a :: b :: c :: d :: rest =>
            let lo ← hex4 a b c d
            if 0xdc00 ≤ lo ∧ lo < 0xe000 then
              let ch := Char.ofNat (0x10000 + (hi - 0xd800) * 0x400 + (lo - 0xdc00))
              let (s, rest) ← unescape rest
              some (utf8 (String.singleton ch) ++ s, rest)
            else none
          | _ => none
        else if 0xdc00 ≤ hi ∧ hi < 0xe000 then none
        else
          let (s, rest) ← unescape rest
          some (utf8 (String.singleton (Char.ofNat hi)) ++ s, rest)
      | e :: rest => do
        let x ← simpleEscape e
        let (s, rest) ← unescape rest
        some (x :: s, rest)
      | [] => none
    else if c < 32 then none
    else do
      let (s, rest) ← unescape rest
      some (c :: s, rest)

/-- A string after its opening quote. -/
def readString (b : Bytes) : Option (String × Bytes) := do
  let (s, rest) ← unescape b
  some (← ofUtf8? s, rest)

/-- `rest` after `word`. -/
def readWord (word : Bytes) (b : Bytes) : Option Bytes :=
  if word.isPrefixOf b then some (b.drop word.length) else none

mutual

/-- One value at the head of the input, with at most `limit` containers open at once.
The first argument bounds the recursion. -/
def readValue : Nat → Nat → Bytes → Option (Value × Bytes)
  | 0, _, _ => none
  | fuel + 1, limit, b =>
    match skipSpace b with
    | [] => none
    | c :: rest =>
      if c = 110 then (readWord (utf8 "ull") rest).map (.null, ·)
      else if c = 116 then (readWord (utf8 "rue") rest).map (.bool true, ·)
      else if c = 102 then (readWord (utf8 "alse") rest).map (.bool false, ·)
      else if c = 34 then (readString rest).map (fun r => (.str r.1, r.2))
      else if c = 45 then (readNumber round true rest).map (fun r => (.num r.1, r.2))
      else if isDigit c then (readNumber round false (c :: rest)).map (fun r => (.num r.1, r.2))
      else if c = 91 then
        if limit = 0 then none
        else if (skipSpace rest).head? = some 93 then some (.arr [], (skipSpace rest).drop 1)
        else do
          let (v, rest) ← readValue fuel (limit - 1) rest
          let (vs, rest) ← readItems fuel (limit - 1) rest
          some (.arr (v :: vs), rest)
      else if c = 123 then
        if limit = 0 then none
        else if (skipSpace rest).head? = some 125 then some (.obj [], (skipSpace rest).drop 1)
        else do
          let (m, rest) ← readMember fuel (limit - 1) rest
          let (ms, rest) ← readMembers fuel (limit - 1) rest
          some (.obj (m :: ms), rest)
      else none

/-- The items after the first one. -/
def readItems : Nat → Nat → Bytes → Option (List Value × Bytes)
  | 0, _, _ => none
  | fuel + 1, limit, b =>
    match skipSpace b with
    | 93 :: rest => some ([], rest)
    | 44 :: rest => do
      let (v, rest) ← readValue fuel limit rest
      let (vs, rest) ← readItems fuel limit rest
      some (v :: vs, rest)
    | _ => none

def readMember : Nat → Nat → Bytes → Option ((String × Value) × Bytes)
  | 0, _, _ => none
  | fuel + 1, limit, b =>
    match skipSpace b with
    | 34 :: rest => do
      let (k, rest) ← readString rest
      match skipSpace rest with
      | 58 :: rest =>
        let (v, rest) ← readValue fuel limit rest
        some ((k, v), rest)
      | _ => none
    | _ => none

/-- The members after the first one. -/
def readMembers : Nat → Nat → Bytes → Option (Members × Bytes)
  | 0, _, _ => none
  | fuel + 1, limit, b =>
    match skipSpace b with
    | 125 :: rest => some ([], rest)
    | 44 :: rest => do
      let (m, rest) ← readMember fuel limit rest
      let (ms, rest) ← readMembers fuel limit rest
      some (m :: ms, rest)
    | _ => none

end

/-- A whole input that is one value with white space around it. -/
def parse (limit : Nat) (b : Bytes) : Option Value := do
  let (v, rest) ← readValue round (2 * b.length + 2) limit b
  if skipSpace rest = [] then some v else none

end Parser

variable {round : Bytes → Option FloatText} {b rest : Bytes} {v : Value} {n fuel limit : Nat}
  {c : UInt8}

/-! Numbers -/

/-- `rest` does not continue a number. -/
def Stops (rest : Bytes) : Prop := ∀ c ∈ rest.head?, ¬ isNumberByte c

theorem isDigit_of_mem_printNat (h : c ∈ printNat n) : isDigit c := by
  simpa [isDigit] using isDigit_printNat n c h

theorem digitsValue_printNat (n : Nat) : digitsValue (printNat n) = n := by
  unfold printNat
  split_ifs with h
  · simp [h, digitsValue]
  · have hd : ∀ d ∈ Nat.digits 10 n, ∀ acc,
        10 * acc + ((byte (48 + d)).toNat - 48) = d + 10 * acc := by
      intro d hd acc
      have := Nat.digits_lt_base (by norm_num : 1 < 10) hd
      rw [toNat_byte (by omega)]
      omega
    conv_rhs => rw [← Nat.ofDigits_digits 10 n]
    rw [digitsValue, foldl_map, foldl_reverse, Nat.ofDigits_eq_foldr]
    exact foldr_ext _ _ _ hd

theorem head?_printNat (h : (printNat n).head? = some 48) : printNat n = [48] := by
  unfold printNat at h ⊢
  split_ifs at h ⊢ with hn
  · rfl
  · have hlast := Nat.getLast_digit_ne_zero 10 hn
    have hlt := Nat.digits_lt_base (by norm_num : 1 < 10)
      (getLast_mem (Nat.digits_ne_nil_iff_ne_zero.mpr hn))
    rw [head?_map, head?_reverse,
      getLast?_eq_some_getLast (Nat.digits_ne_nil_iff_ne_zero.mpr hn)] at h
    simp only [Option.map_some, Option.some.injEq] at h
    have := congrArg UInt8.toNat h
    rw [toNat_byte (by omega)] at this
    simp at this
    exact absurd this hlast

theorem takeWhile_isDigit (hd : ∀ c ∈ b, isDigit c) (h : Stops rest) :
    (b ++ rest).takeWhile isDigit = b := by
  rw [takeWhile_append_of_pos hd]
  cases rest with
  | nil => simp
  | cons c rest =>
    have hc : ¬ isDigit c := by
      have := h c (by simp)
      simp_all [isNumberByte, isDigit]
    simp [hc]

theorem dropWhile_isDigit (hd : ∀ c ∈ b, isDigit c) (h : Stops rest) :
    (b ++ rest).dropWhile isDigit = rest := by
  have := takeWhile_append_dropWhile (p := isDigit) (l := b ++ rest)
  rw [takeWhile_isDigit hd h] at this
  exact append_cancel_left this

theorem readInteger_printNat (n : Nat) (h : Stops rest) :
    readInteger (printNat n ++ rest) = some (printNat n, rest) := by
  have hd : ∀ c ∈ printNat n, isDigit c := fun c => isDigit_of_mem_printNat
  have hz : ¬ ((printNat n).head? = some 48 ∧ 1 < (printNat n).length) := by
    rintro ⟨hh, hl⟩
    rw [head?_printNat hh] at hl
    simp at hl
  simp only [readInteger, takeWhile_isDigit hd h, dropWhile_isDigit hd h, printNat_ne_nil, hz,
    false_or, if_false]

theorem readFraction_of_stops (h : Stops rest) : readFraction rest = some ([], rest) := by
  unfold readFraction
  split
  · next b => exact absurd (h 46 (by simp)) (by decide)
  · rfl

theorem readExponent_of_stops (h : Stops rest) : readExponent rest = some ([], rest) := by
  unfold readExponent
  split
  · rfl
  · next e b =>
    have he := h e (by simp)
    simp only [isNumberByte] at he
    simp_all

theorem readNumber_printNat (round : Bytes → Option FloatText) (negative : Bool) {k : Number}
    (h : Stops rest) (hn : Number.ofInteger? negative n = some k) :
    readNumber round negative (printNat n ++ rest) = some (k, rest) := by
  simp [readNumber, readInteger_printNat n h, readFraction_of_stops h, readExponent_of_stops h,
    digitsValue_printNat, hn]

/-! Strings -/

theorem unescape_quote (b : Bytes) : unescape (34 :: b) = some ([], b) := by
  rw [unescape.eq_def]
  simp

theorem unescape_simple {e x : UInt8} (he : e ≠ 117) (hx : simpleEscape e = some x) (b : Bytes) :
    unescape (92 :: e :: b) = (unescape b).map (fun r => (x :: r.1, r.2)) := by
  rw [unescape.eq_def]
  simp only [show ¬ (92 : UInt8) = 34 by decide, if_false, if_true]
  split
  · simp_all
  · next e' rest hne heq =>
    obtain ⟨rfl, rfl⟩ := cons.inj heq
    simp [hx, Option.map_eq_bind]
  · simp_all

theorem unescape_unicode {p q r t : UInt8} (hm : hex4 p q r t = some n) (hn : n < 0xd800)
    (b : Bytes) : unescape (92 :: 117 :: p :: q :: r :: t :: b) =
      (unescape b).map (fun s => (utf8 (String.singleton (Char.ofNat n)) ++ s.1, s.2)) := by
  rw [unescape.eq_def]
  simp [hm, show ¬ 0xd800 ≤ n by omega, show ¬ 0xdc00 ≤ n by omega, Option.map_eq_bind]

theorem unescape_plain (hq : c ≠ 34) (hb : c ≠ 92) (hc : ¬ c < 32) (b : Bytes) :
    unescape (c :: b) = (unescape b).map (fun r => (c :: r.1, r.2)) := by
  rw [unescape.eq_def]
  simp [hq, hb, hc, Option.map_eq_bind]

theorem control_escape : ∀ n < 32, ∃ p q, utf8 (hexEncode [byte n]) = [p, q] ∧
    hex4 48 48 p q = some n ∧ utf8 (String.singleton (Char.ofNat n)) = [byte n] := by
  intro n hn
  refine ⟨(utf8 (hexEncode [byte n]))[0]!, (utf8 (hexEncode [byte n]))[1]!, ?_⟩
  revert n
  decide +kernel

theorem unescape_escapeByte (c : UInt8) (b : Bytes) :
    unescape (escapeByte c ++ b) = (unescape b).map (fun r => (c :: r.1, r.2)) := by
  unfold escapeByte
  split_ifs with h1 h2 h3 h4 h5 h6 h7 h8
  iterate 7
    · subst c
      exact unescape_simple (by decide) (by decide) b
  · have hlt := UInt8.lt_iff_toNat_lt.mp h8
    obtain ⟨p, q, hpq, hhex, hchar⟩ := control_escape c.toNat hlt
    rw [byte_eq rfl] at hpq hchar
    simp only [hpq, cons_append, nil_append]
    rw [unescape_unicode hhex (by simp at hlt; omega), hchar]
    rfl
  · exact unescape_plain h1 h2 h8 b

theorem unescape_flatMap (s rest : Bytes) :
    unescape (s.flatMap escapeByte ++ 34 :: rest) = some (s, rest) := by
  induction s with
  | nil => exact unescape_quote rest
  | cons c s ih => simp [flatMap_cons, unescape_escapeByte, ih]

theorem readString_print (s : String) (rest : Bytes) :
    readString ((utf8 s).flatMap escapeByte ++ 34 :: rest) = some (s, rest) := by
  simp [readString, unescape_flatMap]

/-! Values -/

theorem skipSpace_cons (h : ¬ isSpace c) : skipSpace (c :: b) = c :: b := by
  simp [skipSpace, h]

theorem isNumberByte_head (h : isNumberByte c) : ¬ isSpace c ∧ c ≠ 93 ∧ c ≠ 125 := by
  simp only [isNumberByte, isSpace, ← UInt8.toNat_inj, UInt8.le_iff_toNat_le, ne_eq] at h ⊢
  simp at h ⊢
  omega

/-- A printed value starts with a byte that is neither space nor a closing bracket. -/
theorem print_head : ∀ v, ∃ c b, print v = c :: b ∧ ¬ isSpace c ∧ c ≠ 93 ∧ c ≠ 125
  | .null => ⟨110, _, rfl, by decide⟩
  | .bool true => ⟨116, _, rfl, by decide⟩
  | .bool false => ⟨102, _, rfl, by decide⟩
  | .num n => by
    obtain ⟨c, b, hb⟩ := exists_cons_of_ne_nil n.print_ne_nil
    exact ⟨c, b, by rw [print, hb], isNumberByte_head (numeric_print n c (by simp [hb]))⟩
  | .str s => ⟨34, _, rfl, by decide⟩
  | .arr [] => ⟨91, _, rfl, by decide⟩
  | .arr (_ :: _) => ⟨91, _, by rw [print], by decide⟩
  | .obj [] => ⟨123, _, rfl, by decide⟩
  | .obj (_ :: _) => ⟨123, _, by rw [print], by decide⟩

theorem stops_printItems (vs : List Value) (rest : Bytes) : Stops (printItems vs ++ rest) := by
  cases vs <;> simp [Stops, printItems] <;> decide

theorem stops_printMembers (ms : Members) (rest : Bytes) : Stops (printMembers ms ++ rest) := by
  cases ms <;> simp [Stops, printMembers] <;> decide

theorem isDigit_head (h : isDigit c) :
    ¬ isSpace c ∧ c ≠ 110 ∧ c ≠ 116 ∧ c ≠ 102 ∧ c ≠ 34 ∧ c ≠ 45 := by
  simp only [isDigit, isSpace, ← UInt8.toNat_inj, UInt8.le_iff_toNat_le, ne_eq] at h ⊢
  simp at h ⊢
  omega

/-- A number at the head of the input is read as such. -/
theorem readValue_number (k : Number) (hk : integral (.num k)) (h : Stops rest) :
    readValue round (fuel + 1) limit (k.print ++ rest) = some (.num k, rest) := by
  cases k with
  | posInt n =>
    have hr := readNumber_printNat round false (n := n.val)
      (k := .posInt n) h (by simp [Number.ofInteger?])
    obtain ⟨c, b, hb⟩ := exists_cons_of_ne_nil (printNat_ne_nil n.val)
    have hd : isDigit c := isDigit_of_mem_printNat (n := n.val) (by simp [hb])
    obtain ⟨hs, h1, h2, h3, h4, h5⟩ := isDigit_head hd
    rw [hb] at hr
    simp only [cons_append] at hr
    simp [Number.print, hb, readValue, skipSpace_cons hs, h1, h2, h3, h4, h5, hd, hr]
  | negInt m =>
    have hr := readNumber_printNat round true (n := m.val + 1)
      (k := .negInt m) h (by simp [Number.ofInteger?])
    simp [Number.print, readValue, skipSpace_cons, isSpace, hr]
  | float f => simp [integral] at hk

theorem readWord_append (word rest : Bytes) : readWord word (word ++ rest) = some rest := by
  simp [readWord]

/-! One equation per opening byte, so that the inductions below do not unfold the parser. -/

theorem readValue_bracket : readValue round (fuel + 1) limit (91 :: b) =
    if limit = 0 then none
    else if (skipSpace b).head? = some 93 then some (.arr [], (skipSpace b).drop 1)
    else (readValue round fuel (limit - 1) b).bind fun r =>
      (readItems round fuel (limit - 1) r.2).bind fun rs => some (.arr (r.1 :: rs.1), rs.2) := by
  simp [readValue, skipSpace_cons, isSpace, isDigit]

theorem readValue_brace : readValue round (fuel + 1) limit (123 :: b) =
    if limit = 0 then none
    else if (skipSpace b).head? = some 125 then some (.obj [], (skipSpace b).drop 1)
    else (readMember round fuel (limit - 1) b).bind fun r =>
      (readMembers round fuel (limit - 1) r.2).bind fun rs => some (.obj (r.1 :: rs.1), rs.2) := by
  simp [readValue, skipSpace_cons, isSpace, isDigit]

theorem readItems_comma : readItems round (fuel + 1) limit (44 :: b) =
    (readValue round fuel limit b).bind fun r =>
      (readItems round fuel limit r.2).bind fun rs => some (r.1 :: rs.1, rs.2) := by
  simp [readItems, skipSpace_cons, isSpace]

theorem readMembers_comma : readMembers round (fuel + 1) limit (44 :: b) =
    (readMember round fuel limit b).bind fun r =>
      (readMembers round fuel limit r.2).bind fun rs => some (r.1 :: rs.1, rs.2) := by
  simp [readMembers, skipSpace_cons, isSpace]

theorem readMember_printString (k : String) :
    readMember round (fuel + 1) limit (printString k ++ 58 :: b) =
      (readValue round fuel limit b).bind fun r => some ((k, r.1), r.2) := by
  simp [printString, readMember, skipSpace_cons, isSpace, readString_print]

theorem head?_skipSpace_printString (k : String) (b : Bytes) :
    (skipSpace (printString k ++ b)).head? ≠ some 125 := by
  simp [printString, skipSpace_cons, isSpace]

/-- The first byte of a printed value does not close the container it stands in. -/
theorem head?_skipSpace_print (v : Value) (b : Bytes) :
    (skipSpace (print v ++ b)).head? ≠ some 93 := by
  obtain ⟨c, b', hb, hs, h93, -⟩ := print_head v
  rw [hb, cons_append, skipSpace_cons hs]
  simpa using h93

mutual

/-- The parser reads back what was printed, whatever follows it, unless it nests deeper than the
limit. Every call consumes a byte, except that a member is read in two calls, so twice the length
is fuel enough. -/
theorem readValue_print : ∀ (v : Value) (fuel limit : Nat) (rest : Bytes),
    2 * (print v).length ≤ fuel → integral v → Stops rest →
    readValue round fuel limit (print v ++ rest) = if depth v ≤ limit then some (v, rest) else none
  | v, 0, limit, rest => by
    obtain ⟨c, b, hb, -⟩ := print_head v
    intro h
    simp [hb] at h
  | .null, fuel + 1, limit, rest => fun _ _ _ => by
    rw [print, show utf8 "null" = 110 :: utf8 "ull" by decide]
    simp [readValue, skipSpace_cons, isSpace, readWord_append, depth]
  | .bool true, fuel + 1, limit, rest => fun _ _ _ => by
    rw [print, show utf8 "true" = 116 :: utf8 "rue" by decide]
    simp [readValue, skipSpace_cons, isSpace, readWord_append, depth]
  | .bool false, fuel + 1, limit, rest => fun _ _ _ => by
    rw [print, show utf8 "false" = 102 :: utf8 "alse" by decide]
    simp [readValue, skipSpace_cons, isSpace, readWord_append, depth]
  | .num n, fuel + 1, limit, rest => fun _ hi hs => by
    simp [print, readValue_number n hi hs, depth]
  | .str s, fuel + 1, limit, rest => fun _ _ _ => by
    simp [print, printString, readValue, skipSpace_cons, isSpace, readString_print, depth]
  | .arr [], fuel + 1, limit, rest => fun _ _ _ => by
    rw [print, show utf8 "[]" = [91, 93] by decide]
    cases limit <;> simp [readValue_bracket, skipSpace_cons, isSpace, depth, depthItems]
  | .arr (v :: vs), fuel + 1, 0, rest => fun _ _ _ => by simp [print, readValue_bracket, depth]
  | .arr (v :: vs), fuel + 1, limit + 1, rest => fun hf hi _ => by
    simp only [print, length_cons, length_append] at hf
    simp only [integral, integralItems, Bool.and_eq_true] at hi
    have hne := head?_skipSpace_print v (printItems vs ++ rest)
    have hv := readValue_print v fuel limit (printItems vs ++ rest) (by omega) hi.1
      (stops_printItems vs rest)
    have hvs := readItems_print vs fuel limit rest (by omega) hi.2
    by_cases hd : depth v ≤ limit <;> by_cases hds : depthItems vs ≤ limit <;>
      simp [print, readValue_bracket, hne, hv, hvs, depth, depthItems, hd, hds]
  | .obj [], fuel + 1, limit, rest => fun _ _ _ => by
    cases limit <;> simp [print, readValue_brace, skipSpace_cons, isSpace, depth, depthMembers]
  | .obj ((k, v) :: ms), fuel + 1, 0, rest => fun _ _ _ => by
    simp [print, readValue_brace, depth]
  | .obj ((k, v) :: ms), fuel + 1, limit + 1, rest => fun hf hi _ => by
    simp only [print, length_cons, length_append] at hf
    simp only [integral, integralMembers, Bool.and_eq_true] at hi
    have hm := readMember_print k v fuel limit (printMembers ms ++ rest) (by omega) hi.1
      (stops_printMembers ms rest)
    have hms := readMembers_print ms fuel limit rest (by omega) hi.2
    have hne := head?_skipSpace_printString k (58 :: (print v ++ (printMembers ms ++ rest)))
    by_cases hd : depth v ≤ limit <;> by_cases hds : depthMembers ms ≤ limit <;>
      simp [print, readValue_brace, hne, hm, hms, depth, depthMembers, hd, hds]

theorem readItems_print : ∀ (vs : List Value) (fuel limit : Nat) (rest : Bytes),
    2 * (printItems vs).length ≤ fuel → integralItems vs →
    readItems round fuel limit (printItems vs ++ rest) =
      if depthItems vs ≤ limit then some (vs, rest) else none
  | vs, 0, limit, rest => by cases vs <;> simp [printItems]
  | [], fuel + 1, limit, rest => by
    simp [printItems, readItems, skipSpace_cons, isSpace, depthItems]
  | v :: vs, fuel + 1, limit, rest => fun hf hi => by
    simp only [printItems, length_cons, length_append] at hf
    simp only [integralItems, Bool.and_eq_true] at hi
    have hv := readValue_print v fuel limit (printItems vs ++ rest) (by omega) hi.1
      (stops_printItems vs rest)
    have hvs := readItems_print vs fuel limit rest (by omega) hi.2
    by_cases hd : depth v ≤ limit <;> by_cases hds : depthItems vs ≤ limit <;>
      simp [printItems, readItems_comma, hv, hvs, depthItems, hd, hds]

theorem readMember_print : ∀ (k : String) (v : Value) (fuel limit : Nat) (rest : Bytes),
    2 * (printString k).length + 2 * (print v).length ≤ fuel → integral v → Stops rest →
    readMember round fuel limit (printString k ++ 58 :: (print v ++ rest)) =
      if depth v ≤ limit then some ((k, v), rest) else none
  | k, v, 0, limit, rest => by simp [printString]
  | k, v, fuel + 1, limit, rest => fun hf hi hs => by
    have hv := readValue_print v fuel limit rest (by simp [printString] at hf; omega) hi hs
    by_cases hd : depth v ≤ limit <;> simp [readMember_printString, hv, hd]

theorem readMembers_print : ∀ (ms : Members) (fuel limit : Nat) (rest : Bytes),
    2 * (printMembers ms).length ≤ fuel → integralMembers ms →
    readMembers round fuel limit (printMembers ms ++ rest) =
      if depthMembers ms ≤ limit then some (ms, rest) else none
  | ms, 0, limit, rest => by cases ms <;> simp [printMembers]
  | [], fuel + 1, limit, rest => by
    simp [printMembers, readMembers, skipSpace_cons, isSpace, depthMembers]
  | (k, v) :: ms, fuel + 1, limit, rest => fun hf hi => by
    simp only [printMembers, length_cons, length_append] at hf
    simp only [integralMembers, Bool.and_eq_true] at hi
    have hm := readMember_print k v fuel limit (printMembers ms ++ rest) (by omega) hi.1
      (stops_printMembers ms rest)
    have hms := readMembers_print ms fuel limit rest (by omega) hi.2
    by_cases hd : depth v ≤ limit <;> by_cases hds : depthMembers ms ≤ limit <;>
      simp [printMembers, readMembers_comma, hm, hms, depthMembers, hd, hds]

end

/-- Compact text of a float-free value parses to that value when the limit covers it, and not at
all when it does not. -/
theorem parse_print_eq (round : Bytes → Option FloatText) (limit : Nat) (hi : integral v) :
    parse round limit (print v) = if depth v ≤ limit then some v else none := by
  have hv := @readValue_print round v (2 * (print v).length + 2) limit [] (by omega) hi
    (by simp [Stops])
  rw [append_nil] at hv
  by_cases hd : depth v ≤ limit <;> simp [parse, hv, skipSpace, hd]

theorem parse_print (round : Bytes → Option FloatText) (hd : depth v ≤ limit)
    (hi : integral v) : parse round limit (print v) = some v := by
  rw [parse_print_eq round limit hi, if_pos hd]

theorem parse_print_none (round : Bytes → Option FloatText) (hd : limit < depth v)
    (hi : integral v) : parse round limit (print v) = none := by
  rw [parse_print_eq round limit hi, if_neg (Nat.not_le.mpr hd)]

/-- Distinct float-free values have distinct texts. -/
theorem print_injective {v w : Value} (hv : integral v) (hw : integral w)
    (h : print v = print w) : v = w := by
  have h1 := parse_print (fun _ => none) (le_max_left (depth v) (depth w)) hv
  have h2 := parse_print (fun _ => none) (le_max_right (depth v) (depth w)) hw
  rw [h, h2] at h1
  exact (Option.some.inj h1).symm

end Json
