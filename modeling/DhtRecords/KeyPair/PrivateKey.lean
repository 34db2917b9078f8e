/-
Private keys as nested structures.

A key in PKCS#8 is a version, an algorithm and the key itself; older forms
belong to one algorithm each. `PrivateKey.read?` tells a seed from a sound key
of another algorithm, and both from what is no key: a key whose parts do not
fit together counts as none.
-/

import DhtRecords.KeyPair.Curve
import DhtRecords.KeyPair.Der
import DhtRecords.Signature.Ed25519

namespace DhtRecords

/-- What a key file holds. -/
inductive KeyContent where
  /-- The seed of an Ed25519 key. -/
  | seed (bytes : Bytes)
  /-- A key for something else. -/
  | otherAlgorithm
  /-- A key that needs a password. -/
  | encrypted
  /-- A key on a curve without a known name. -/
  | unknownCurve
  /-- No key at all. -/
  | unreadable
  deriving DecidableEq, Repr

namespace PrivateKey

open Der (Element)

/-- Another algorithm's key if its parts fit together. -/
def other (fits : Bool) : KeyContent := if fits then .otherAlgorithm else .unreadable

/-! ### Algorithms -/

/-- What a key is for. -/
inductive Algorithm where
  | ed25519
  /-- A related curve whose keys have the given size. -/
  | related (size : Nat)
  | curve
  | rsa
  /-- RSA for signatures with random filling. -/
  | rsaSignature
  | dsa
  | exchange
  /-- Key exchange in a subgroup of given order. -/
  | exchangeWithOrder
  deriving DecidableEq, Repr

/-- The algorithms by their identifiers. -/
def algorithms : List (Bytes × Algorithm) :=
  [([0x2b, 0x65, 0x70], .ed25519),
   ([0x2b, 0x65, 0x6e], .related 32),
   ([0x2b, 0x65, 0x6f], .related 56),
   ([0x2b, 0x65, 0x71], .related 57),
   ([0x2a, 0x86, 0x48, 0xce, 0x3d, 0x02, 0x01], .curve),
   ([0x2a, 0x86, 0x48, 0x86, 0xf7, 0x0d, 0x01, 0x01, 0x01], .rsa),
   ([0x2a, 0x86, 0x48, 0x86, 0xf7, 0x0d, 0x01, 0x01, 0x0a], .rsaSignature),
   ([0x2a, 0x86, 0x48, 0xce, 0x38, 0x04, 0x01], .dsa),
   ([0x2a, 0x86, 0x48, 0x86, 0xf7, 0x0d, 0x01, 0x03, 0x01], .exchange),
   ([0x2a, 0x86, 0x48, 0xce, 0x3e, 0x02, 0x01], .exchangeWithOrder)]

/-- An algorithm's identifier and parameters. -/
def algorithm? (element : Element) : Option (Bytes × Option Element) := do
  match ← element.parts? Der.sequenceType with
  | [identifier] => return (← identifier.identifier?, none)
  | [identifier, parameters] => return (← identifier.identifier?, some parameters)
  | _ => none

/-- The numbers of a structure of numbers. -/
def naturals? (elements : List Element) : Option (List Nat) := elements.mapM Element.natural?

/-! ### Keys of numbers -/

/-- Whether a number is odd and passes the test of Fermat in base two. -/
def isPrimeLike (n : Nat) : Bool :=
  n % 2 = 1 && Curve.powerModulo n (Nat.log2 n + 1) 2 (n - 1) = 1

/-- Whether numbers are an RSA key: modulus, exponents, the two primes, and what is derived of them
for speed. -/
def isRsaKey : List Nat → Bool
  | [n, e, d, p, q, dp, dq, inverse] =>
    isPrimeLike p && isPrimeLike q && n = p * q && 1 < e && e % 2 = 1
      && d * e % Nat.lcm (p - 1) (q - 1) = 1
      && dp = d % (p - 1) && dq = d % (q - 1) && inverse < p && q * inverse % p = 1
  | _ => false

/-- The RSA key of a structure. -/
def readRsa (bytes : Bytes) : KeyContent :=
  match ((Der.element? bytes).bind (Element.parts? Der.sequenceType)).bind naturals? with
  | some (0 :: numbers) => other (isRsaKey numbers)
  | _ => .unreadable

/-- The DSA key of a structure of its own: version, group, public and private number. -/
def readDsa (bytes : Bytes) : KeyContent :=
  match ((Der.element? bytes).bind (Element.parts? Der.sequenceType)).bind naturals? with
  | some [0, _, _, _, _, _] => .otherAlgorithm
  | _ => .unreadable

/-- The fewest bits of a prime for a key exchange, and the most. -/
def exchangeBits : Nat × Nat := (512, 10000)

/-- Whether keys can be exchanged modulo a number. -/
def allowsExchange (prime : Nat) : Bool :=
  let bits := Nat.log2 prime + 1
  prime % 2 = 1 && exchangeBits.1 ≤ bits && bits ≤ exchangeBits.2

/-- The key of an algorithm whose parameters are numbers and whose key is a number. -/
def readNumber (parameters : Option Element) (key : Bytes) (fits : List Nat → Bool) : KeyContent :=
  let numbers := (parameters.bind (Element.parts? Der.sequenceType)).bind naturals?
  match numbers, (Der.element? key).bind Element.natural? with
  | some numbers, some _ => other (fits numbers)
  | _, _ => .unreadable

/-! ### Keys on curves -/

/-- The content of an optional part that a structure's remaining elements start with, and the elements
after it. -/
def takeOptional? (number : UInt8) : List Element → Option (Option Element × List Element)
  | [] => some (none, [])
  | first :: rest =>
    if first.type = Der.optionalType number then
      (Der.element? first.content).map fun element => (some element, rest)
    else some (none, first :: rest)

/-- The key on a curve that one of the two parameters names; both are the same. -/
def readOnCurve (outer inner : Option Element) (scalar : Nat) (point : Option Bytes) : KeyContent :=
  match outer.or inner with
  | none => .unreadable
  | some parameters =>
    if inner.any (· ≠ parameters) then .unreadable
    else match parameters.identifier? with
      | none => .unreadable
      | some identifier =>
        match NamedCurve.find? identifier with
        | none => .unknownCurve
        | some curve => other (curve.admits scalar point)

/-- The kinds of parameters of a curve: a name, inherited ones, and ones that are spelled out. -/
def curveParameterTypes : List UInt8 := [Der.identifierType, Der.nullType, Der.sequenceType]

/-- The parts of a key on a curve: version, scalar, parameters and point. -/
def curveParts? (bytes : Bytes) : Option (Nat × Option Element × Option Bytes) := do
  match ← (← Der.element? bytes).parts? Der.sequenceType with
  | version :: scalar :: rest =>
    let scalar ← scalar.contentOf? Der.octetsType
    let (parameters, rest) ← takeOptional? 0 rest
    let (point, rest) ← takeOptional? 1 rest
    guard (rest.isEmpty ∧ (← version.natural?) = 1)
    guard (parameters.all fun element => curveParameterTypes.contains element.type)
    match point with
    | none => return (Bytes.readBig scalar, parameters, none)
    | some point => return (Bytes.readBig scalar, parameters, some (← point.bits?))
  | _ => none

/-- The key on a curve, whose parameters may stand outside of it. -/
def readCurve (outer : Option Element) (bytes : Bytes) : KeyContent :=
  match curveParts? bytes with
  | none => .unreadable
  | some (scalar, inner, point) => readOnCurve outer inner scalar point

/-! ### PKCS#8 -/

/-- The bytes of a key that is a string of bytes of the given size. -/
def octets? (size : Nat) (key : Bytes) : Option Bytes := do
  let bytes ← (← Der.element? key).contentOf? Der.octetsType
  if bytes.length = size then some bytes else none

/-- The key of an algorithm. -/
def readKey (parameters : Option Element) (key : Bytes) : Algorithm → KeyContent
  | .ed25519 =>
    match parameters, octets? Ed25519.keySize key with
    | none, some seed => .seed seed
    | _, _ => .unreadable
  | .related size => other (parameters.isNone && (octets? size key).isSome)
  | .curve =>
    match parameters with
    | some parameters => readCurve (some parameters) key
    | none => .unreadable
  | .rsa => if parameters.all (· = ⟨Der.nullType, []⟩) then readRsa key else .unreadable
  | .rsaSignature =>
    if parameters.all fun element => (element.parts? Der.sequenceType).isSome then readRsa key
    else .unreadable
  | .dsa => readNumber parameters key fun numbers => numbers.length = 3 && numbers.head? ≠ some 0
  | .exchange => readNumber parameters key fun numbers =>
    (numbers.length = 2 || numbers.length = 3) && numbers.head?.any allowsExchange
  | .exchangeWithOrder => readNumber parameters key fun numbers =>
    (numbers.length = 3 || numbers.length = 4) && numbers.head?.any allowsExchange

/-- Whether an element is an attribute: an identifier and a set. -/
def isAttribute (element : Element) : Bool :=
  match element.parts? Der.sequenceType with
  | some [identifier, values] =>
    identifier.identifier?.isSome && (values.parts? Der.setType).isSome
  | _ => false

/-- Whether what follows the key is nothing or a set of attributes. -/
def isEnding : List Element → Bool
  | [] => true
  | [attributes] => ((attributes.parts? (Der.optionalType 0)).map (·.all isAttribute)).getD false
  | _ => false

/-- The key of a PKCS#8 structure. -/
def readPlain (bytes : Bytes) : KeyContent :=
  let content : Option KeyContent := do
    match ← (← Der.element? bytes).parts? Der.sequenceType with
    | version :: algorithm :: key :: ending =>
      let (identifier, parameters) ← algorithm? algorithm
      let key ← key.contentOf? Der.octetsType
      guard ((← version.natural?) = 0 ∧ isEnding ending)
      let (_, algorithm) ← algorithms.find? (·.1 = identifier)
      return readKey parameters key algorithm
    | _ => none
  content.getD .unreadable

/-- What an encrypted structure holds: an algorithm and bytes. -/
def readEncrypted (bytes : Bytes) : KeyContent :=
  match (Der.element? bytes).bind (Element.parts? Der.sequenceType) with
  | some [algorithm, content] =>
    if (algorithm? algorithm).isSome ∧ content.type = Der.octetsType then .encrypted else .unreadable
  | _ => .unreadable

/-- The forms of keys by their labels. -/
def forms : List (String × (Bytes → KeyContent)) :=
  [("PRIVATE KEY", readPlain), ("ENCRYPTED PRIVATE KEY", readEncrypted), ("RSA PRIVATE KEY", readRsa),
   ("EC PRIVATE KEY", readCurve none), ("DSA PRIVATE KEY", readDsa)]

/-- The content of a structure with a label; `none` for a label that is not one of a private key. -/
def read? (label : String) (bytes : Bytes) : Option KeyContent :=
  (forms.find? (·.1 = label)).map fun form => form.2 bytes

end PrivateKey

end DhtRecords
