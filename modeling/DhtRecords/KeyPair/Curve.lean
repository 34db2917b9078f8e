/-
Curves whose keys are recognized though no item is signed with them.

A curve over a prime field is the set of points with `y² = x³ + slope x + c`
and its base point has a prime order; a key is a scalar below the order, and
the point that it belongs to is that multiple of the base point. Points are in
Jacobian coordinates: `(x / z², y / z³)`. The last coefficient takes no part in
the arithmetic.
-/

import DhtRecords.Bytes

namespace DhtRecords

/-- A curve over a prime field, with its base point. -/
structure Curve where
  prime : Nat
  slope : Nat
  baseX : Nat
  baseY : Nat
  order : Nat

namespace Curve

/-! ### Arithmetic -/

/-- A power modulo a number, with an exponent of at most `bits` bits. -/
def powerModulo (modulus : Nat) : Nat → Nat → Nat → Nat
  | 0, _, _ => 1 % modulus
  | bits + 1, base, exponent =>
    let rest := powerModulo modulus bits (base * base % modulus) (exponent / 2)
    if exponent % 2 = 1 then base * rest % modulus else rest

/-- The difference of two field elements. -/
def sub (curve : Curve) (a b : Nat) : Nat := (a + curve.prime - b % curve.prime) % curve.prime

/-- A point; `z` is nought for the neutral one. -/
structure Point where
  x : Nat
  y : Nat
  z : Nat

def neutral : Point := ⟨1, 1, 0⟩

def base (curve : Curve) : Point := ⟨curve.baseX, curve.baseY, 1⟩

/-- Twice a point. -/
def double (curve : Curve) (p : Point) : Point :=
  let y2 := p.y * p.y % curve.prime
  let z2 := p.z * p.z % curve.prime
  let s := 4 * p.x * y2 % curve.prime
  let m := (3 * p.x * p.x + curve.slope * (z2 * z2 % curve.prime)) % curve.prime
  let x := curve.sub (m * m) (2 * s)
  ⟨x, curve.sub (m * curve.sub s x) (8 * y2 * y2), 2 * p.y * p.z % curve.prime⟩

/-- The sum of two points. -/
def add (curve : Curve) (p q : Point) : Point :=
  if p.z = 0 then q
  else if q.z = 0 then p
  else
    let zp := p.z * p.z % curve.prime
    let zq := q.z * q.z % curve.prime
    let xp := p.x * zq % curve.prime
    let yp := p.y * zq % curve.prime * q.z % curve.prime
    let h := curve.sub (q.x * zp) xp
    let r := curve.sub (q.y * zp % curve.prime * p.z) yp
    if h = 0 then (if r = 0 then curve.double p else neutral)
    else
      let h2 := h * h % curve.prime
      let h3 := h2 * h % curve.prime
      let v := xp * h2 % curve.prime
      let x := curve.sub (r * r) (h3 + 2 * v)
      ⟨x, curve.sub (r * curve.sub v x) (yp * h3), p.z * q.z % curve.prime * h % curve.prime⟩

/-- The multiple of a point by a scalar of at most `bits` bits. -/
def multiple (curve : Curve) : Nat → Nat → Point → Point
  | 0, _, _ => neutral
  | bits + 1, scalar, p =>
    let rest := curve.multiple bits (scalar / 2) (curve.double p)
    if scalar % 2 = 1 then curve.add p rest else rest

/-! ### Keys -/

/-- The bits of a field element. -/
def bits (curve : Curve) : Nat := Nat.log2 curve.prime + 1

/-- The bytes of a field element. -/
def size (curve : Curve) : Nat := (curve.bits + 7) / 8

/-- The coordinates of the point of a scalar. -/
def coordinates (curve : Curve) (scalar : Nat) : Nat × Nat :=
  let point := curve.multiple curve.bits scalar curve.base
  let inverse := powerModulo curve.prime curve.bits point.z (curve.prime - 2)
  let square := inverse * inverse % curve.prime
  (point.x * square % curve.prime, point.y * square % curve.prime * inverse % curve.prime)

/-- The spellings of a point: both coordinates, the first with the parity of the second, or both
with the parity. -/
def spellings (curve : Curve) (point : Nat × Nat) : List Bytes :=
  let x := Bytes.writeBig curve.size point.1
  let y := Bytes.writeBig curve.size point.2
  let parity := UInt8.ofNat (point.2 % 2)
  [4 :: (x ++ y), (2 + parity) :: x, (6 + parity) :: (x ++ y)]

/-- Whether a scalar is a key, and the given point is spelled as the one that belongs to it. -/
def admits (curve : Curve) (scalar : Nat) (point : Option Bytes) : Bool :=
  0 < scalar && scalar < curve.order
    && point.all fun bytes => (curve.spellings (curve.coordinates scalar)).contains bytes

/-! ### Curves with a name -/

/-- The curve P-192. -/
def p192 : Curve where
  prime := 0xfffffffffffffffffffffffffffffffeffffffffffffffff
  slope := 0xfffffffffffffffffffffffffffffffefffffffffffffffc
  baseX := 0x188da80eb03090f67cbf20eb43a18800f4ff0afd82ff1012
  baseY := 0x7192b95ffc8da78631011ed6b24cdd573f977a11e794811
  order := 0xffffffffffffffffffffffff99def836146bc9b1b4d22831

/-- The curve P-224. -/
def p224 : Curve where
  prime := 0xffffffffffffffffffffffffffffffff000000000000000000000001
  slope := 0xfffffffffffffffffffffffffffffffefffffffffffffffffffffffe
  baseX := 0xb70e0cbd6bb4bf7f321390b94a03c1d356c21122343280d6115c1d21
  baseY := 0xbd376388b5f723fb4c22dfe6cd4375a05a07476444d5819985007e34
  order := 0xffffffffffffffffffffffffffff16a2e0b8f03e13dd29455c5c2a3d

/-- The curve P-256. -/
def p256 : Curve where
  prime := 0xffffffff00000001000000000000000000000000ffffffffffffffffffffffff
  slope := 0xffffffff00000001000000000000000000000000fffffffffffffffffffffffc
  baseX := 0x6b17d1f2e12c4247f8bce6e563a440f277037d812deb33a0f4a13945d898c296
  baseY := 0x4fe342e2fe1a7f9b8ee7eb4a7c0f9e162bce33576b315ececbb6406837bf51f5
  order := 0xffffffff00000000ffffffffffffffffbce6faada7179e84f3b9cac2fc632551

/-- The curve P-384. -/
def p384 : Curve where
  prime := 0xfffffffffffffffffffffffffffffffffffffffffffffffffffffffffffffffeffffffff0000000000000000ffffffff
  slope := 0xfffffffffffffffffffffffffffffffffffffffffffffffffffffffffffffffeffffffff0000000000000000fffffffc
  baseX := 0xaa87ca22be8b05378eb1c71ef320ad746e1d3b628ba79b9859f741e082542a385502f25dbf55296c3a545e3872760ab7
  baseY := 0x3617de4a96262c6f5d9e98bf9292dc29f8f41dbd289a147ce9da3113b5f0b8c00a60b1ce1d7e819d7a431d7c90ea0e5f
  order := 0xffffffffffffffffffffffffffffffffffffffffffffffffc7634d81f4372ddf581a0db248b0a77aecec196accc52973

/-- The curve P-521. -/
def p521 : Curve where
  prime := 0x1ffffffffffffffffffffffffffffffffffffffffffffffffffffffffffffffffffffffffffffffffffffffffffffffffffffffffffffffffffffffffffffffffff
  slope := 0x1fffffffffffffffffffffffffffffffffffffffffffffffffffffffffffffffffffffffffffffffffffffffffffffffffffffffffffffffffffffffffffffffffc
  baseX := 0xc6858e06b70404e9cd9e3ecb662395b4429c648139053fb521f828af606b4d3dbaa14b5e77efe75928fe1dc127a2ffa8de3348b3c1856a429bf97e7e31c2e5bd66
  baseY := 0x11839296a789a3bc0045c8a5fb42c7d1bd998f54449579b446817afbd17273e662c97ee72995ef42640c550b9013fad0761353c7086a272c24088be94769fd16650
  order := 0x1fffffffffffffffffffffffffffffffffffffffffffffffffffffffffffffffffa51868783bf2f966b7fcc0148f709a5d03bb5c9b8899c47aebb6fb71e91386409

/-- The Koblitz curve over 256 bits. -/
def koblitz256 : Curve where
  prime := 0xfffffffffffffffffffffffffffffffffffffffffffffffffffffffefffffc2f
  slope := 0x0
  baseX := 0x79be667ef9dcbbac55a06295ce870b07029bfcdb2dce28d959f2815b16f81798
  baseY := 0x483ada7726a3c4655da4fbfc0e1108a8fd17b448a68554199c47d08ffb10d4b8
  order := 0xfffffffffffffffffffffffffffffffebaaedce6af48a03bbfd25e8cd0364141

/-- The first curve of the random family over 256 bits. -/
def random256 : Curve where
  prime := 0xa9fb57dba1eea9bc3e660a909d838d726e3bf623d52620282013481d1f6e5377
  slope := 0x7d5a0975fc2c3057eef67530417affe7fb8055c126dc5c6ce94a4b44f330b5d9
  baseX := 0x8bd2aeb9cb7e57cb2c4b482ffc81b7afb9de27e1e3bd23c23a4453bd9ace3262
  baseY := 0x547ef835c3dac4fd97f8461a14611dc9c27745132ded8e545c1d54c72f046997
  order := 0xa9fb57dba1eea9bc3e660a909d838d718c397aa3b561a6f7901e0e82974856a7

/-- The first curve of the random family over 384 bits. -/
def random384 : Curve where
  prime := 0x8cb91e82a3386d280f5d6f7e50e641df152f7109ed5456b412b1da197fb71123acd3a729901d1a71874700133107ec53
  slope := 0x7bc382c63d8c150c3c72080ace05afa0c2bea28e4fb22787139165efba91f90f8aa5814a503ad4eb04a8c7dd22ce2826
  baseX := 0x1d1c64f068cf45ffa2a63a81b7c13f6b8847a3e77ef14fe3db7fcafe0cbd10e8e826e03436d646aaef87b2e247d4af1e
  baseY := 0x8abe1d7520f9c2a45cb1eb8e95cfd55262b70b29feec5864e19c054ff99129280e4646217791811142820341263c5315
  order := 0x8cb91e82a3386d280f5d6f7e50e641df152f7109ed5456b31f166e6cac0425a7cf3ab6af6b7fc3103b883202e9046565

/-- The first curve of the random family over 512 bits. -/
def random512 : Curve where
  prime := 0xaadd9db8dbe9c48b3fd4e6ae33c9fc07cb308db3b3c9d20ed6639cca703308717d4d9b009bc66842aecda12ae6a380e62881ff2f2d82c68528aa6056583a48f3
  slope := 0x7830a3318b603b89e2327145ac234cc594cbdd8d3df91610a83441caea9863bc2ded5d5aa8253aa10a2ef1c98b9ac8b57f1117a72bf2c7b9e7c1ac4d77fc94ca
  baseX := 0x81aee4bdd82ed9645a21322e9c4c6a9385ed9f70b5d916c1b43b62eef4d0098eff3b1f78e2d0d48d50d1687b93b97d5f7c6d5047406a5e688b352209bcb9f822
  baseY := 0x7dde385d566332ecc0eabfa9cf7822fdf209f70024a57b1aa000c55b881f8111b2dcde494a5f485e5bca4bd88a2763aed1ca2b2fa8f0540678cd1e0f3ad80892
  order := 0xaadd9db8dbe9c48b3fd4e6ae33c9fc07cb308db3b3c9d20ed6639cca70330870553e5c414ca92619418661197fac10471db1d381085ddaddb58796829ca90069

end Curve

/-- A curve with a name: over a prime field, or over a binary one of the given degree. -/
inductive NamedCurve where
  | prime (curve : Curve)
  | binary (degree : Nat)

namespace NamedCurve

open Curve in
/-- The curves by their identifiers. -/
def table : List (Bytes × NamedCurve) :=
  [([0x2a, 0x86, 0x48, 0xce, 0x3d, 0x03, 0x01, 0x01], .prime p192),
   ([0x2b, 0x81, 0x04, 0x00, 0x21], .prime p224),
   ([0x2a, 0x86, 0x48, 0xce, 0x3d, 0x03, 0x01, 0x07], .prime p256),
   ([0x2b, 0x81, 0x04, 0x00, 0x22], .prime p384),
   ([0x2b, 0x81, 0x04, 0x00, 0x23], .prime p521),
   ([0x2b, 0x81, 0x04, 0x00, 0x0a], .prime koblitz256),
   ([0x2b, 0x24, 0x03, 0x03, 0x02, 0x08, 0x01, 0x01, 0x07], .prime random256),
   ([0x2b, 0x24, 0x03, 0x03, 0x02, 0x08, 0x01, 0x01, 0x0b], .prime random384),
   ([0x2b, 0x24, 0x03, 0x03, 0x02, 0x08, 0x01, 0x01, 0x0d], .prime random512),
   ([0x2b, 0x81, 0x04, 0x00, 0x01], .binary 163),
   ([0x2b, 0x81, 0x04, 0x00, 0x0f], .binary 163),
   ([0x2b, 0x81, 0x04, 0x00, 0x1a], .binary 233),
   ([0x2b, 0x81, 0x04, 0x00, 0x1b], .binary 233),
   ([0x2b, 0x81, 0x04, 0x00, 0x10], .binary 283),
   ([0x2b, 0x81, 0x04, 0x00, 0x11], .binary 283),
   ([0x2b, 0x81, 0x04, 0x00, 0x24], .binary 409),
   ([0x2b, 0x81, 0x04, 0x00, 0x25], .binary 409),
   ([0x2b, 0x81, 0x04, 0x00, 0x26], .binary 571),
   ([0x2b, 0x81, 0x04, 0x00, 0x27], .binary 571)]

/-- The curve with an identifier. -/
def find? (identifier : Bytes) : Option NamedCurve :=
  (table.find? (·.1 = identifier)).map (·.2)

/-- Whether a point over a field of the given degree has a length that fits its first byte. -/
def fits (degree : Nat) (point : Bytes) : Bool :=
  let size := (degree + 7) / 8
  match point with
  | first :: rest =>
    if first = 2 ∨ first = 3 then rest.length = size
    else (first = 4 || first = 6 || first = 7) && rest.length = 2 * size
  | [] => false

/-- Whether a scalar and the point given with it are a key. Of a point over a binary field only the
form is checked. -/
def admits (scalar : Nat) (point : Option Bytes) : NamedCurve → Bool
  | .prime curve => curve.admits scalar point
  | .binary degree => 0 < scalar && scalar < Nat.pow 2 degree && point.all (fits degree)

end NamedCurve

end DhtRecords
