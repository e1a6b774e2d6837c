import Mathlib.Algebra.Order.Ring.Nat
import Mathlib.Data.List.Basic

/-! The digests SHA-256 and SHA-512, which are one algorithm over words of 32 and of 64 bits. -/
namespace Lib.Sha2

/-- Three amounts; a word is rotated by each, or shifted by the last. -/
abbrev Amounts := Nat × Nat × Nat

structure Variant where
  width : Nat
  rounds : Nat
  sum0 : Amounts
  sum1 : Amounts
  sigma0 : Amounts
  sigma1 : Amounts

def sha256 : Variant where
  width := 32
  rounds := 64
  sum0 := (2, 13, 22)
  sum1 := (6, 11, 25)
  sigma0 := (7, 18, 3)
  sigma1 := (17, 19, 10)

def sha512 : Variant where
  width := 64
  rounds := 80
  sum0 := (28, 34, 39)
  sum1 := (14, 18, 41)
  sigma0 := (1, 8, 7)
  sigma1 := (19, 61, 6)

/- The constants. -/

def primes : List Nat :=
  (List.range 410).filter fun n => 2 ≤ n ∧ ∀ d ∈ List.range n, d < 2 ∨ n % d ≠ 0

/-- The largest number of so many bits whose power is no more than `n`, from the top bit down. -/
def root (k n : Nat) : Nat → Nat → Nat
  | 0, found => found
  | bit + 1, found => root k n bit (if (found + 2 ^ bit) ^ k ≤ n then found + 2 ^ bit else found)

/-- The first bits behind the point of a root of a prime. -/
def fraction (width k prime : Nat) : BitVec width :=
  BitVec.ofNat width (root k (prime * 2 ^ (k * width)) (width + 4) 0)

def roundConstants (v : Variant) : List (BitVec v.width) :=
  (primes.take v.rounds).map (fraction v.width 3)

/- Words. -/

section
variable {width : Nat}

def sum (amounts : Amounts) (x : BitVec width) : BitVec width :=
  x.rotateRight amounts.1 ^^^ x.rotateRight amounts.2.1 ^^^ x.rotateRight amounts.2.2

def sigma (amounts : Amounts) (x : BitVec width) : BitVec width :=
  x.rotateRight amounts.1 ^^^ x.rotateRight amounts.2.1 ^^^ x >>> amounts.2.2

def ch (x y z : BitVec width) : BitVec width := (x &&& y) ^^^ (~~~x &&& z)

def maj (x y z : BitVec width) : BitVec width := (x &&& y) ^^^ (x &&& z) ^^^ (y &&& z)

end

def ofBytes (width : Nat) (bytes : List UInt8) : BitVec width :=
  BitVec.ofNat width (bytes.foldl (fun n b => n * 256 + b.toNat) 0)

def toBytes (n count : Nat) : List UInt8 :=
  (List.range count).map fun i => UInt8.ofNat (n >>> (8 * (count - 1 - i)))

def chunks (size count : Nat) (bytes : List UInt8) : List (List UInt8) :=
  (List.range count).map fun i => (bytes.drop (i * size)).take size

/- The digest. -/

structure State (width : Nat) where
  a : BitVec width
  b : BitVec width
  c : BitVec width
  d : BitVec width
  e : BitVec width
  f : BitVec width
  g : BitVec width
  h : BitVec width

section
variable {width : Nat}

def State.words (s : State width) : List (BitVec width) := [s.a, s.b, s.c, s.d, s.e, s.f, s.g, s.h]

def State.add (s t : State width) : State width :=
  ⟨s.a + t.a, s.b + t.b, s.c + t.c, s.d + t.d, s.e + t.e, s.f + t.f, s.g + t.g, s.h + t.h⟩

end

section
variable (v : Variant)

def initial : State v.width :=
  let root := fraction v.width 2
  ⟨root 2, root 3, root 5, root 7, root 11, root 13, root 17, root 19⟩

/-- The words of a block are continued, the newest first. -/
def schedule : Nat → List (BitVec v.width) → List (BitVec v.width)
  | 0, words => words
  | n + 1, words => schedule n
    ((sigma v.sigma1 (words.getD 1 0) + words.getD 6 0 + sigma v.sigma0 (words.getD 14 0) +
      words.getD 15 0) :: words)

def round (s : State v.width) (input : BitVec v.width × BitVec v.width) : State v.width :=
  let t1 := s.h + sum v.sum1 s.e + ch s.e s.f s.g + input.1 + input.2
  let t2 := sum v.sum0 s.a + maj s.a s.b s.c
  ⟨t1 + t2, s.a, s.b, s.c, s.d + t1, s.e, s.f, s.g⟩

def compress (constants : List (BitVec v.width)) (s : State v.width) (block : List UInt8) :
    State v.width :=
  let words := (chunks (v.width / 8) 16 block).map (ofBytes v.width)
  let all := (schedule v (v.rounds - 16) words.reverse).reverse
  s.add ((constants.zip all).foldl (round v) s)

/-- A bit, zeros, and the length in bits, up to the end of a block. -/
def pad (bytes : List UInt8) : List UInt8 :=
  let block := v.width * 2
  let rest := (bytes.length + 1 + v.width / 4) % block
  bytes ++ [0x80] ++ List.replicate ((block - rest) % block) 0 ++
    toBytes (bytes.length * 8) (v.width / 4)

def digest (bytes : List UInt8) : List UInt8 :=
  let padded := pad v bytes
  let blocks := chunks (v.width * 2) (padded.length / (v.width * 2)) padded
  (blocks.foldl (compress v (roundConstants v)) (initial v)).words.flatMap fun word =>
    toBytes word.toNat (v.width / 8)

theorem length_digest (bytes : List UInt8) : (digest v bytes).length = 8 * (v.width / 8) := by
  simp [digest, State.words, toBytes]
  omega

end

set_option maxRecDepth 100000 in
/-- The published digest of "abc". -/
example : digest sha256 [0x61, 0x62, 0x63] =
    [0xba, 0x78, 0x16, 0xbf, 0x8f, 0x01, 0xcf, 0xea, 0x41, 0x41, 0x40, 0xde, 0x5d, 0xae, 0x22, 0x23,
      0xb0, 0x03, 0x61, 0xa3, 0x96, 0x17, 0x7a, 0x9c, 0xb4, 0x10, 0xff, 0x61, 0xf2, 0x00, 0x15,
      0xad] := by
  decide +kernel

end Lib.Sha2
