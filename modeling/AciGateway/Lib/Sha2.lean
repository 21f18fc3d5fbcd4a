import AciGateway.Lib.Octets

/-! The SHA-2 family, executable. Words are naturals below a power of two. -/
namespace Sha2

open Octets

/-- What distinguishes one member of the family from another. -/
structure Variant where
  wordBytes : Nat
  bigSigma0 : Nat × Nat × Nat
  bigSigma1 : Nat × Nat × Nat
  /-- Two rotations and a shift. -/
  smallSigma0 : Nat × Nat × Nat
  smallSigma1 : Nat × Nat × Nat
  rounds : List Nat
  initial : List Nat
  /-- How many words of the final state make the digest. -/
  outputWords : Nat

def Variant.bits (V : Variant) : Nat := 8 * V.wordBytes

def sha256Variant : Variant where
  wordBytes := 4
  bigSigma0 := (2, 13, 22)
  bigSigma1 := (6, 11, 25)
  smallSigma0 := (7, 18, 3)
  smallSigma1 := (17, 19, 10)
  rounds := [
    0x428a2f98, 0x71374491, 0xb5c0fbcf, 0xe9b5dba5, 0x3956c25b, 0x59f111f1,
    0x923f82a4, 0xab1c5ed5, 0xd807aa98, 0x12835b01, 0x243185be, 0x550c7dc3,
    0x72be5d74, 0x80deb1fe, 0x9bdc06a7, 0xc19bf174, 0xe49b69c1, 0xefbe4786,
    0x0fc19dc6, 0x240ca1cc, 0x2de92c6f, 0x4a7484aa, 0x5cb0a9dc, 0x76f988da,
    0x983e5152, 0xa831c66d, 0xb00327c8, 0xbf597fc7, 0xc6e00bf3, 0xd5a79147,
    0x06ca6351, 0x14292967, 0x27b70a85, 0x2e1b2138, 0x4d2c6dfc, 0x53380d13,
    0x650a7354, 0x766a0abb, 0x81c2c92e, 0x92722c85, 0xa2bfe8a1, 0xa81a664b,
    0xc24b8b70, 0xc76c51a3, 0xd192e819, 0xd6990624, 0xf40e3585, 0x106aa070,
    0x19a4c116, 0x1e376c08, 0x2748774c, 0x34b0bcb5, 0x391c0cb3, 0x4ed8aa4a,
    0x5b9cca4f, 0x682e6ff3, 0x748f82ee, 0x78a5636f, 0x84c87814, 0x8cc70208,
    0x90befffa, 0xa4506ceb, 0xbef9a3f7, 0xc67178f2]
  initial := [
    0x6a09e667, 0xbb67ae85, 0x3c6ef372, 0xa54ff53a, 0x510e527f, 0x9b05688c,
    0x1f83d9ab, 0x5be0cd19]
  outputWords := 8

def sha384Variant : Variant where
  wordBytes := 8
  bigSigma0 := (28, 34, 39)
  bigSigma1 := (14, 18, 41)
  smallSigma0 := (1, 8, 7)
  smallSigma1 := (19, 61, 6)
  rounds := [
    0x428a2f98d728ae22, 0x7137449123ef65cd, 0xb5c0fbcfec4d3b2f, 0xe9b5dba58189dbbc,
    0x3956c25bf348b538, 0x59f111f1b605d019, 0x923f82a4af194f9b, 0xab1c5ed5da6d8118,
    0xd807aa98a3030242, 0x12835b0145706fbe, 0x243185be4ee4b28c, 0x550c7dc3d5ffb4e2,
    0x72be5d74f27b896f, 0x80deb1fe3b1696b1, 0x9bdc06a725c71235, 0xc19bf174cf692694,
    0xe49b69c19ef14ad2, 0xefbe4786384f25e3, 0x0fc19dc68b8cd5b5, 0x240ca1cc77ac9c65,
    0x2de92c6f592b0275, 0x4a7484aa6ea6e483, 0x5cb0a9dcbd41fbd4, 0x76f988da831153b5,
    0x983e5152ee66dfab, 0xa831c66d2db43210, 0xb00327c898fb213f, 0xbf597fc7beef0ee4,
    0xc6e00bf33da88fc2, 0xd5a79147930aa725, 0x06ca6351e003826f, 0x142929670a0e6e70,
    0x27b70a8546d22ffc, 0x2e1b21385c26c926, 0x4d2c6dfc5ac42aed, 0x53380d139d95b3df,
    0x650a73548baf63de, 0x766a0abb3c77b2a8, 0x81c2c92e47edaee6, 0x92722c851482353b,
    0xa2bfe8a14cf10364, 0xa81a664bbc423001, 0xc24b8b70d0f89791, 0xc76c51a30654be30,
    0xd192e819d6ef5218, 0xd69906245565a910, 0xf40e35855771202a, 0x106aa07032bbd1b8,
    0x19a4c116b8d2d0c8, 0x1e376c085141ab53, 0x2748774cdf8eeb99, 0x34b0bcb5e19b48a8,
    0x391c0cb3c5c95a63, 0x4ed8aa4ae3418acb, 0x5b9cca4f7763e373, 0x682e6ff3d6b2b8a3,
    0x748f82ee5defb2fc, 0x78a5636f43172f60, 0x84c87814a1f0ab72, 0x8cc702081a6439ec,
    0x90befffa23631e28, 0xa4506cebde82bde9, 0xbef9a3f7b2c67915, 0xc67178f2e372532b,
    0xca273eceea26619c, 0xd186b8c721c0c207, 0xeada7dd6cde0eb1e, 0xf57d4f7fee6ed178,
    0x06f067aa72176fba, 0x0a637dc5a2c898a6, 0x113f9804bef90dae, 0x1b710b35131c471b,
    0x28db77f523047d84, 0x32caab7b40c72493, 0x3c9ebe0a15c9bebc, 0x431d67c49c100d4c,
    0x4cc5d4becb3e42b6, 0x597f299cfc657e2a, 0x5fcb6fab3ad6faec, 0x6c44198c4a475817]
  initial := [
    0xcbbb9d5dc1059ed8, 0x629a292a367cd507, 0x9159015a3070dd17, 0x152fecd8f70e5939,
    0x67332667ffc00b31, 0x8eb44a8768581511, 0xdb0c2e0d64f98fa7, 0x47b5481dbefa4fa4]
  outputWords := 6

section Compress

variable (V : Variant)

def rotr (n x : Nat) : Nat := (x >>> n) ||| ((x <<< (V.bits - n)) % 2 ^ V.bits)

def bigSigma (r : Nat × Nat × Nat) (x : Nat) : Nat :=
  rotr V r.1 x ^^^ rotr V r.2.1 x ^^^ rotr V r.2.2 x

def smallSigma (r : Nat × Nat × Nat) (x : Nat) : Nat :=
  rotr V r.1 x ^^^ rotr V r.2.1 x ^^^ (x >>> r.2.2)

/-- The eight working variables and the next sixteen words of the message schedule. -/
structure Round where
  vars : List Nat
  window : List Nat

/-- One round with its constant. -/
def round (s : Round) (k : Nat) : Round :=
  match s.vars with
  | [a, b, c, d, e, f, g, h] =>
    let w := s.window.getD 0 0
    let ch := (e &&& f) ^^^ ((2 ^ V.bits - 1 - e) &&& g)
    let maj := (a &&& b) ^^^ (a &&& c) ^^^ (b &&& c)
    let t1 := h + bigSigma V V.bigSigma1 e + ch + k + w
    let t2 := bigSigma V V.bigSigma0 a + maj
    let next := smallSigma V V.smallSigma1 (s.window.getD 14 0) + s.window.getD 9 0
      + smallSigma V V.smallSigma0 (s.window.getD 1 0) + w
    ⟨[(t1 + t2) % 2 ^ V.bits, a, b, c, (d + t1) % 2 ^ V.bits, e, f, g],
      s.window.drop 1 ++ [next % 2 ^ V.bits]⟩
  | _ => s

def compress (state block : List Nat) : List Nat :=
  List.zipWith (fun x y => (x + y) % 2 ^ V.bits) state
    (V.rounds.foldl (round V) ⟨state, block⟩).vars

/-- A big-endian word. -/
def word (b : Bytes) : Nat := b.foldl (fun acc x => acc * 256 + x.toNat) 0

def unword : Nat → Nat → Bytes
  | 0, _ => []
  | n + 1, x => unword n (x / 256) ++ [byte (x % 256)]

/-- The message with its padding: a one bit, zeros, and the bit length in two words. -/
def padded (m : Bytes) : Bytes :=
  let size := 16 * V.wordBytes
  let zeros := (2 * size - 1 - (m.length + 2 * V.wordBytes) % size) % size
  m ++ 128 :: (List.replicate zeros 0 ++ unword (2 * V.wordBytes) (8 * m.length))

def words : Nat → Bytes → List Nat
  | 0, _ => []
  | n + 1, b => word (b.take V.wordBytes) :: words n (b.drop V.wordBytes)

def blocks : Nat → List Nat → Bytes → List Nat
  | 0, state, _ => state
  | n + 1, state, b => blocks n (compress V state (words V 16 b)) (b.drop (16 * V.wordBytes))

def digest (m : Bytes) : Bytes :=
  let p := padded V m
  ((blocks V (p.length / (16 * V.wordBytes)) V.initial p).take V.outputWords).flatMap
    (unword V.wordBytes)

end Compress

def sha256 (m : Bytes) : Bytes := digest sha256Variant m

def sha384 (m : Bytes) : Bytes := digest sha384Variant m

example : hexEncode (sha256 (utf8 "abc")) =
    "ba7816bf8f01cfea414140de5dae2223b00361a396177a9cb410ff61f20015ad" := by decide +kernel

example : hexEncode (sha384 (utf8 "abc")) =
    "cb00753f45a35e8bb5a03d699ac65007272c32ab0eded163" ++
      "1a8b605a43ff5bed8086072ba1e7cc2358baeca134c825a7" := by decide +kernel

variable {V : Variant} {state : List Nat}

theorem length_round {s : Round} (k : Nat) (h : s.vars.length = 8) :
    (round V s k).vars.length = 8 := by
  unfold round
  split
  · rfl
  · exact h

theorem length_rounds {s : Round} (ks : List Nat) (h : s.vars.length = 8) :
    (ks.foldl (round V) s).vars.length = 8 := by
  induction ks generalizing s with
  | nil => exact h
  | cons k ks ih => exact ih (length_round k h)

theorem length_blocks (n : Nat) (b : Bytes) (h : state.length = 8) :
    (blocks V n state b).length = 8 := by
  induction n generalizing state b with
  | zero => exact h
  | succ n ih =>
    apply ih
    simp [compress, h, length_rounds]

theorem length_unword (n x : Nat) : (unword n x).length = n := by
  induction n generalizing x with
  | zero => rfl
  | succ n ih => simp [unword, ih]

/-- The length of a digest depends only on the variant. -/
theorem length_digest (hi : V.initial.length = 8) (ho : V.outputWords ≤ 8) (m : Bytes) :
    (digest V m).length = V.outputWords * V.wordBytes := by
  have hb := length_blocks (V := V) ((padded V m).length / (16 * V.wordBytes)) (padded V m) hi
  simp only [digest, List.length_flatMap, length_unword, List.map_const', List.length_take, hb,
    Nat.min_eq_left ho, List.sum_replicate_nat]

@[simp] theorem length_sha256 (m : Bytes) : (sha256 m).length = 32 :=
  length_digest rfl (by decide) m

@[simp] theorem length_sha384 (m : Bytes) : (sha384 m).length = 48 :=
  length_digest rfl (by decide) m

end Sha2
