/-
Ed25519 signatures (RFC 8032).

Field elements are natural numbers below the prime, points are in extended
coordinates, and a multiple of a point is found by halving its scalar. A
signature is checked by recomputing its first half and comparing the bytes.
-/

import DhtRecords.Hash.Sha512

namespace DhtRecords.Ed25519

/-- The order of the field. -/
def prime : Nat := Nat.pow 2 255 - 19

/-- The order of the base point. -/
def order : Nat := Nat.pow 2 252 + 27742317777372353535851937790883648493

/-- The bytes of a private seed, and of a public key. -/
def keySize : Nat := 32

/-- The bytes of a signature. -/
def signatureSize : Nat := 64

/-- The difference of two field elements. -/
def fieldSub (a b : Nat) : Nat := (a + prime - b) % prime

/-- A power with an exponent of at most `bits` bits. -/
def fieldPower : Nat → Nat → Nat → Nat
  | 0, _, _ => 1
  | bits + 1, base, exponent =>
    let rest := fieldPower bits (base * base % prime) (exponent / 2)
    if exponent % 2 = 1 then base * rest % prime else rest

/-- The reciprocal of a field element other than nought. -/
def fieldInverse (a : Nat) : Nat := fieldPower 255 a (prime - 2)

/-- The constant of the curve: -121665 / 121666. -/
def curveConstant : Nat :=
  37095705934669439343138083508754565189542113879843219016388785533085940283555

/-- A square root of -1. -/
def rootOfMinusOne : Nat :=
  19681161376707505956807079304988542015446066515923890162744021073123829784752

/-- A point of the curve: `(x / z, y / z)`, with `t = x y / z`. -/
structure Point where
  x : Nat
  y : Nat
  z : Nat
  t : Nat

/-- The neutral point. -/
def Point.neutral : Point := ⟨0, 1, 1, 0⟩

/-- The base point. -/
def Point.base : Point :=
  let x := 15112221349535400772501151409588531511454012693041857206046113283949847762202
  let y := 46316835694926478169428394003475163141307993866256225615783033603165251855960
  ⟨x, y, 1, x * y % prime⟩

/-- The sum of two points. -/
def Point.add (p q : Point) : Point :=
  let a := fieldSub p.y p.x * fieldSub q.y q.x % prime
  let b := (p.y + p.x) * (q.y + q.x) % prime
  let c := 2 * p.t * q.t % prime * curveConstant % prime
  let d := 2 * p.z * q.z % prime
  let e := fieldSub b a
  let f := fieldSub d c
  let g := d + c
  let h := b + a
  ⟨e * f % prime, g * h % prime, f * g % prime, e * h % prime⟩

/-- Twice a point. -/
def Point.double (p : Point) : Point :=
  let a := p.x * p.x % prime
  let b := p.y * p.y % prime
  let c := 2 * p.z * p.z % prime
  let h := (a + b) % prime
  let sum := p.x + p.y
  let e := fieldSub h (sum * sum % prime)
  let g := fieldSub a b
  let f := (c + g) % prime
  ⟨e * f % prime, g * h % prime, f * g % prime, e * h % prime⟩

/-- The multiple of a point by a scalar of at most `bits` bits. -/
def Point.multiple : Nat → Nat → Point → Point
  | 0, _, _ => .neutral
  | bits + 1, scalar, p =>
    let rest := Point.multiple bits (scalar / 2) p.double
    if scalar % 2 = 1 then p.add rest else rest

/-- A multiple of the base point. -/
def basePoint (scalar : Nat) : Point := Point.base.multiple 256 scalar

/-- A point as bytes: `y`, and the parity of `x` in the highest bit. -/
def Point.encode (p : Point) : Bytes :=
  let inverse := fieldInverse p.z
  let x := p.x * inverse % prime
  let y := p.y * inverse % prime
  Bytes.writeLittle keySize (y + x % 2 * Nat.pow 2 255)

/-- A square root of `u / v`, if there is one. -/
def squareRoot? (u v : Nat) : Option Nat :=
  let cube := v * v % prime * v % prime
  let seventh := cube * cube % prime * v % prime
  let x := u * cube % prime * fieldPower 255 (u * seventh % prime) ((prime - 5) / 8) % prime
  let check := v * x % prime * x % prime
  if check = u then some x
  else if check = fieldSub 0 u then some (x * rootOfMinusOne % prime)
  else none

/-- The point that the bytes encode. A `y` beyond the field counts modulo the prime, and an `x` of
nought goes with either parity. -/
def Point.decode? (bytes : Bytes) : Option Point :=
  if bytes.length ≠ keySize then none
  else
    let value := Bytes.readLittle bytes
    let y := value % Nat.pow 2 255 % prime
    let square := y * y % prime
    let root := squareRoot? (fieldSub square 1) ((curveConstant * square + 1) % prime)
    root.map fun root =>
      let x := if root % 2 = value / Nat.pow 2 255 then root else fieldSub 0 root
      ⟨x, y, 1, x * y % prime⟩

/-- The secret scalar of a seed: the lower half of its hash with five bits fixed. -/
def secretScalar (seed : Bytes) : Nat :=
  let half := Bytes.readLittle ((Sha512.hash seed).take 32)
  half % Nat.pow 2 254 / 8 * 8 + Nat.pow 2 254

/-- The secret bytes that are hashed in front of a message. -/
def secretNonce (seed : Bytes) : Bytes := (Sha512.hash seed).drop 32

/-- The public key of a seed. -/
def publicKey (seed : Bytes) : Bytes := (basePoint (secretScalar seed)).encode

/-- The number that binds commitment, key and message. -/
def challenge (commitment key message : Bytes) : Nat :=
  Bytes.readLittle (Sha512.hash (commitment ++ key ++ message)) % order

/-- The signature of a message under a seed whose public key is `key`. -/
def sign (seed key message : Bytes) : Bytes :=
  let nonce := Bytes.readLittle (Sha512.hash (secretNonce seed ++ message)) % order
  let commitment := (basePoint nonce).encode
  let answer := (nonce + challenge commitment key message * secretScalar seed) % order
  commitment ++ Bytes.writeLittle 32 answer

/-- Whether a signature of a message is one of the key's owner. -/
def verify (key message signature : Bytes) : Bool :=
  let commitment := signature.take 32
  let answer := Bytes.readLittle (signature.drop 32)
  if signature.length ≠ signatureSize ∨ order ≤ answer then false
  else match Point.decode? key with
    | none => false
    | some point =>
      let negated : Point := ⟨fieldSub 0 point.x, point.y, point.z, fieldSub 0 point.t⟩
      let shifted := negated.multiple 256 (challenge commitment key message)
      ((basePoint answer).add shifted).encode = commitment

@[simp] theorem length_publicKey (seed : Bytes) : (publicKey seed).length = keySize := by
  simp [publicKey, Point.encode]

@[simp] theorem length_sign (seed key message : Bytes) :
    (sign seed key message).length = signatureSize := by
  simp [sign, Point.encode, keySize, signatureSize]

end DhtRecords.Ed25519
