import AciGateway.Lib.EcmaJson
import AciGateway.Lib.Json

/-! Binary64 numbers read from decimal texts, and signed 64-bit integers read from them. -/
namespace Binary64

open Json Ecma

def digitsValue (cs : List Char) : Nat := cs.foldl (fun n c => 10 * n + (c.toNat - 48)) 0

def natural (cs : List Char) : Option Nat :=
  if cs ≠ [] ∧ cs.all Char.isDigit then some (digitsValue cs) else none

def exponent : List Char → Option Int
  | '-' :: cs => (natural cs).map fun n => -(n : Int)
  | '+' :: cs => (natural cs).map Int.ofNat
  | cs => (natural cs).map Int.ofNat

/-- A decimal without a sign: digits with at most one point, and an exponent. -/
def unsigned (cs : List Char) : Option ℚ :=
  let body := cs.takeWhile fun c => c ≠ 'e' && c ≠ 'E'
  let whole := body.takeWhile (· ≠ '.')
  let fraction := (body.drop whole.length).drop 1
  let scale := match cs.drop body.length with
    | [] => some 0
    | _ :: power => exponent power
  match natural (whole ++ fraction), scale with
  | some digits, some power => some (decimal digits (power - fraction.length))
  | _, _ => none

/-- The finite number that a text is read as. -/
def parse (s : String) : Option ℚ :=
  match s.toList with
  | '-' :: cs => (unsigned cs).bind fun q => roundBinary64 (-q)
  | '+' :: cs => (unsigned cs).bind roundBinary64
  | cs => (unsigned cs).bind roundBinary64

/-- The number as a binary64 one. The float of a decoded document has a text that reads. -/
def ofNumber : Number → ℚ
  | .posInt n => (roundBinary64 n.val).getD 0
  | .negInt m => (roundBinary64 (-(m.val + 1 : ℚ))).getD 0
  | .float f => (parse (String.ofList (f.text.map fun c => Char.ofNat c.toNat))).getD 0

def i64Max : Int := 2 ^ 63 - 1

def i64Min : Int := -2 ^ 63

/-- The cast to a signed integer truncates, and stops at the bounds. -/
def toI64 (q : ℚ) : Int := max i64Min (min i64Max (if 0 ≤ q then q.floor else q.ceil))

/-- Addition and subtraction of signed integers wrap. -/
def wrap (z : Int) : Int := z.bmod (2 ^ 64)

def asF64? : Value → Option ℚ
  | .num n => some (ofNumber n)
  | _ => none

def asI64? : Value → Option Int
  | .num (.posInt n) => if (n.val : Int) ≤ i64Max then some n.val else none
  | .num (.negInt m) => some (-(m.val + 1))
  | _ => none

/-- A signed integer as a JSON number. -/
def ofI64 (z : Int) : Value :=
  if 0 ≤ z then .num (.posInt (Fin.ofNat (2 ^ 64) z.toNat))
  else .num (.negInt (Fin.ofNat (2 ^ 63) (-z - 1).toNat))

end Binary64
