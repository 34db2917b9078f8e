/-
SHA-256 (FIPS 180-4) on byte strings.

The state and the message schedule are lists of words; a block is absorbed by
folding the sixty-four rounds over the schedule zipped with the round
constants.
-/

import DhtRecords.Bytes

namespace DhtRecords.Sha256

/-- The bytes of a block. -/
def blockSize : Nat := 64

/-- The round constants. -/
def roundConstants : List UInt32 :=
  [0x428a2f98, 0x71374491, 0xb5c0fbcf, 0xe9b5dba5, 0x3956c25b, 0x59f111f1, 0x923f82a4, 0xab1c5ed5,
   0xd807aa98, 0x12835b01, 0x243185be, 0x550c7dc3, 0x72be5d74, 0x80deb1fe, 0x9bdc06a7, 0xc19bf174,
   0xe49b69c1, 0xefbe4786, 0x0fc19dc6, 0x240ca1cc, 0x2de92c6f, 0x4a7484aa, 0x5cb0a9dc, 0x76f988da,
   0x983e5152, 0xa831c66d, 0xb00327c8, 0xbf597fc7, 0xc6e00bf3, 0xd5a79147, 0x06ca6351, 0x14292967,
   0x27b70a85, 0x2e1b2138, 0x4d2c6dfc, 0x53380d13, 0x650a7354, 0x766a0abb, 0x81c2c92e, 0x92722c85,
   0xa2bfe8a1, 0xa81a664b, 0xc24b8b70, 0xc76c51a3, 0xd192e819, 0xd6990624, 0xf40e3585, 0x106aa070,
   0x19a4c116, 0x1e376c08, 0x2748774c, 0x34b0bcb5, 0x391c0cb3, 0x4ed8aa4a, 0x5b9cca4f, 0x682e6ff3,
   0x748f82ee, 0x78a5636f, 0x84c87814, 0x8cc70208, 0x90befffa, 0xa4506ceb, 0xbef9a3f7, 0xc67178f2]

/-- The eight words that are carried from block to block. -/
structure State where
  a : UInt32
  b : UInt32
  c : UInt32
  d : UInt32
  e : UInt32
  f : UInt32
  g : UInt32
  h : UInt32

/-- The state before the first block. -/
def State.initial : State :=
  ⟨0x6a09e667, 0xbb67ae85, 0x3c6ef372, 0xa54ff53a, 0x510e527f, 0x9b05688c, 0x1f83d9ab, 0x5be0cd19⟩

/-- The words of a state in order. -/
def State.words (s : State) : List UInt32 := [s.a, s.b, s.c, s.d, s.e, s.f, s.g, s.h]

/-- A word turned right by a number of bits below thirty-two. -/
def rotateRight (word count : UInt32) : UInt32 := (word >>> count) ||| (word <<< (32 - count))

/-- One round, with its round constant and schedule word already added up. -/
def State.round (s : State) (input : UInt32) : State :=
  let high := rotateRight s.e 6 ^^^ rotateRight s.e 11 ^^^ rotateRight s.e 25
  let choice := (s.e &&& s.f) ^^^ (~~~ s.e &&& s.g)
  let first := s.h + high + choice + input
  let low := rotateRight s.a 2 ^^^ rotateRight s.a 13 ^^^ rotateRight s.a 22
  let majority := (s.a &&& s.b) ^^^ (s.a &&& s.c) ^^^ (s.b &&& s.c)
  ⟨first + (low + majority), s.a, s.b, s.c, s.d + first, s.e, s.f, s.g⟩

/-- The next schedule word from the sixteen before it, the newest first. -/
def nextWord (window : List UInt32) : UInt32 :=
  let early := window.getD 14 0
  let late := window.getD 1 0
  let small := rotateRight early 7 ^^^ rotateRight early 18 ^^^ (early >>> 3)
  let large := rotateRight late 17 ^^^ rotateRight late 19 ^^^ (late >>> 10)
  window.getD 15 0 + small + window.getD 6 0 + large

/-- Extends a reversed schedule by `count` words. -/
def extend : Nat → List UInt32 → List UInt32
  | 0, reversed => reversed
  | count + 1, reversed => extend count (nextWord reversed :: reversed)

/-- The big-endian words of a byte string whose length is a multiple of four. -/
def words : Bytes → List UInt32
  | a :: b :: c :: d :: rest =>
    ((a.toUInt32 <<< 24) ||| (b.toUInt32 <<< 16) ||| (c.toUInt32 <<< 8) ||| d.toUInt32)
      :: words rest
  | _ => []

/-- The sixty-four schedule words of a block. -/
def schedule (block : Bytes) : List UInt32 := (extend 48 (words block).reverse).reverse

/-- The state after a block. -/
def State.absorb (s : State) (block : Bytes) : State :=
  let t := (List.zipWith (· + ·) roundConstants (schedule block)).foldl State.round s
  ⟨s.a + t.a, s.b + t.b, s.c + t.c, s.d + t.d, s.e + t.e, s.f + t.f, s.g + t.g, s.h + t.h⟩

/-- What follows a message of `length` bytes: a one bit, zero bits up to eight bytes short of a
block, and the message's length in bits. -/
def padding (length : Nat) : Bytes :=
  0x80 :: List.replicate ((119 - length % 64) % 64) 0 ++ Bytes.writeBig 8 (8 * length)

/-- The state after `count` blocks of a byte string. -/
def State.absorbMany (s : State) : Nat → Bytes → State
  | 0, _ => s
  | count + 1, message =>
    (s.absorb (message.take blockSize)).absorbMany count (message.drop blockSize)

/-- The thirty-two byte digest of a message. -/
def hash (message : Bytes) : Bytes :=
  let padded := message ++ padding message.length
  (State.initial.absorbMany (padded.length / blockSize) padded).words.flatMap
    fun word => Bytes.writeBig 4 word.toNat

@[simp] theorem length_hash (message : Bytes) : (hash message).length = 32 := by
  simp [hash, State.words]

end DhtRecords.Sha256
