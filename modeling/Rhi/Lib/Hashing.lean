import Mathlib.Algebra.Order.Ring.Nat
import Mathlib.Tactic.Common

/-!
# SHA-256

The hash function over byte strings, on natural numbers below `2 ^ 32`, so that the digest of a
concrete message can be evaluated.
-/

namespace Hashing

/-- The low 32 bits of a number. -/
def word (value : Nat) : Nat := value % 4294967296

/-- Rotation of a word to the right. -/
def rotate (value count : Nat) : Nat :=
  (value >>> count) ||| word (value <<< (32 - count))

/-- The round constants. -/
def constants : List Nat := [
  0x428a2f98, 0x71374491, 0xb5c0fbcf, 0xe9b5dba5, 0x3956c25b, 0x59f111f1, 0x923f82a4, 0xab1c5ed5,
  0xd807aa98, 0x12835b01, 0x243185be, 0x550c7dc3, 0x72be5d74, 0x80deb1fe, 0x9bdc06a7, 0xc19bf174,
  0xe49b69c1, 0xefbe4786, 0x0fc19dc6, 0x240ca1cc, 0x2de92c6f, 0x4a7484aa, 0x5cb0a9dc, 0x76f988da,
  0x983e5152, 0xa831c66d, 0xb00327c8, 0xbf597fc7, 0xc6e00bf3, 0xd5a79147, 0x06ca6351, 0x14292967,
  0x27b70a85, 0x2e1b2138, 0x4d2c6dfc, 0x53380d13, 0x650a7354, 0x766a0abb, 0x81c2c92e, 0x92722c85,
  0xa2bfe8a1, 0xa81a664b, 0xc24b8b70, 0xc76c51a3, 0xd192e819, 0xd6990624, 0xf40e3585, 0x106aa070,
  0x19a4c116, 0x1e376c08, 0x2748774c, 0x34b0bcb5, 0x391c0cb3, 0x4ed8aa4a, 0x5b9cca4f, 0x682e6ff3,
  0x748f82ee, 0x78a5636f, 0x84c87814, 0x8cc70208, 0x90befffa, 0xa4506ceb, 0xbef9a3f7, 0xc67178f2]

/-- The chaining value a message starts from. -/
def initialState : List Nat := [
  0x6a09e667, 0xbb67ae85, 0x3c6ef372, 0xa54ff53a, 0x510e527f, 0x9b05688c, 0x1f83d9ab, 0x5be0cd19]

/-- The message schedule, latest word first. -/
def extend : Nat → List Nat → List Nat
  | 0, words => words
  | count + 1, words =>
      let recent := words.getD 1 0
      let old := words.getD 14 0
      let next := word ((rotate recent 17 ^^^ rotate recent 19 ^^^ (recent >>> 10)) +
        words.getD 6 0 + (rotate old 7 ^^^ rotate old 18 ^^^ (old >>> 3)) + words.getD 15 0)
      extend count (next :: words)

/-- One round, with its constant and its scheduled word. -/
def round (state : List Nat) (input : Nat × Nat) : List Nat :=
  match state with
  | [a, b, c, d, e, f, g, h] =>
      let first := word (h + (rotate e 6 ^^^ rotate e 11 ^^^ rotate e 25) +
        ((e &&& f) ^^^ ((4294967295 - e) &&& g)) + input.1 + input.2)
      let second := word ((rotate a 2 ^^^ rotate a 13 ^^^ rotate a 22) +
        ((a &&& b) ^^^ (a &&& c) ^^^ (b &&& c)))
      [word (first + second), a, b, c, word (d + first), e, f, g]
  | other => other

/-- The chaining value after one block of 16 words. -/
def compress (state block : List Nat) : List Nat :=
  let words := (extend 48 block.reverse).reverse
  (state.zip ((constants.zip words).foldl round state)).map fun pair => word (pair.1 + pair.2)

def toWords : List UInt8 → List Nat
  | a :: b :: c :: d :: rest =>
      (((a.toNat * 256 + b.toNat) * 256 + c.toNat) * 256 + d.toNat) :: toWords rest
  | _ => []

def blocks : Nat → List Nat → List (List Nat)
  | 0, _ => []
  | count + 1, words => words.take 16 :: blocks count (words.drop 16)

/-- A message with its end mark and its length, as a whole number of blocks. -/
def pad (message : List UInt8) : List UInt8 :=
  message ++ 128 :: List.replicate ((119 - message.length % 64) % 64) 0 ++
    (List.range 8).map fun index => UInt8.ofNat (message.length * 8 / 256 ^ (7 - index))

/-- The digest of a message, as a big-endian number. -/
def sha256 (message : List UInt8) : BitVec 256 :=
  let words := toWords (pad message)
  BitVec.ofNat 256 (((blocks (words.length / 16) words).foldl compress initialState).foldl
    (fun value next => value * 4294967296 + next) 0)

example : sha256 [97, 98, 99] =
    0xba7816bf8f01cfea414140de5dae2223b00361a396177a9cb410ff61f20015ad#256 := by
  decide

/-- HMAC over a hash function with blocks of the given length. -/
def hmac (hash : List UInt8 → List UInt8) (block : Nat) (key message : List UInt8) : List UInt8 :=
  let short := if block < key.length then hash key else key
  let padded := short ++ List.replicate (block - short.length) 0
  hash (padded.map (· ^^^ 0x5c) ++ hash (padded.map (· ^^^ 0x36) ++ message))

end Hashing
