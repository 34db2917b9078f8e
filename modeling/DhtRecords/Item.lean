/-
Signed items.

An item is authenticated by an Ed25519 signature over `signingBuffer`: its
salt (left out when empty), its sequence number and its value, each with its
kind and length, so that no two items share a buffer. An item whose sequence
number is too long to be written can neither be signed nor verified.
-/

import DhtRecords.Decimal.Limit
import DhtRecords.Signature.Ed25519
import DhtRecords.Text.Utf8

namespace DhtRecords

/-- What is wrong with a pair of keys, or with what it shall sign. -/
inductive KeyError where
  /-- One of the two keys has not the size of a key. -/
  | keySizes
  /-- The private key has not the size of a seed. -/
  | privateSize
  /-- The public key is not the private key's own. -/
  | mismatch
  /-- A key in hexadecimal is wrong at a character. -/
  | notHex (position : Nat)
  /-- The sequence number has too many digits. -/
  | tooLong
  deriving DecidableEq, Repr

/-- The reason why a text is no hexadecimal number. -/
def notHexMessage (position : Nat) : String :=
  s!"non-hexadecimal number found in fromhex() arg at position {position}"

def KeyError.message : KeyError → String
  | keySizes => "public and private keys must be 32 bytes each"
  | privateSize => "private key must be 32 bytes"
  | mismatch => "public key does not match private key"
  | notHex position => notHexMessage position
  | tooLong => Decimal.tooLongMessage ""

/-- An item that an engine can store. -/
structure SignedItem where
  salt : String
  value : Bytes
  sequence : Int
  signature : Bytes
  publicKey : Bytes
  deriving DecidableEq, Repr

namespace Item

/-- The characters of a text, each a byte of its own; for the seven-bit texts of this format. -/
def ascii (text : String) : Bytes := text.toList.map fun c => UInt8.ofNat c.toNat

/-- A byte string after its length and a colon. -/
def counted (bytes : Bytes) : Bytes := ascii (toString bytes.length ++ ":") ++ bytes

/-- The bytes that an item's signature covers. -/
def signingBuffer (value : Bytes) (salt : String) (sequence : Int) : Bytes :=
  let name := Utf8.encode salt
  (if name.isEmpty then [] else ascii "4:salt" ++ counted name)
    ++ ascii ("3:seqi" ++ toString sequence ++ "e1:v") ++ counted value

/-- The bytes that an item's signature covers, unless its sequence number is too long to be written. -/
def writeBuffer (value : Bytes) (salt : String) (sequence : Int) : Except KeyError Bytes :=
  if Decimal.isTooLong sequence then .error .tooLong else .ok (signingBuffer value salt sequence)

/-- What is wrong with a public and a private key that shall sign. -/
def keyError? (publicKey privateKey : Bytes) : Option KeyError :=
  if publicKey.length ≠ Ed25519.keySize ∨ privateKey.length ≠ Ed25519.keySize then some .keySizes
  else if Ed25519.publicKey privateKey ≠ publicKey then some .mismatch
  else none

/-- The signature of an item. -/
def sign (value : Bytes) (salt : String) (sequence : Int) (publicKey privateKey : Bytes) :
    Except KeyError Bytes :=
  match keyError? publicKey privateKey with
  | some error => .error error
  | none => (writeBuffer value salt sequence).map (Ed25519.sign privateKey publicKey)

/-- Whether a signature is the key owner's for an item. -/
def verify (value : Bytes) (salt : String) (sequence : Int) (publicKey signature : Bytes) : Bool :=
  match writeBuffer value salt sequence with
  | .error _ => false
  | .ok buffer => Ed25519.verify publicKey buffer signature

end Item

/-- All that it takes to sign an item but its salt. -/
structure Signer where
  value : Bytes
  sequence : Int
  publicKey : Bytes
  privateKey : Bytes
  deriving DecidableEq, Repr

/-- The signed item for a salt. -/
def Signer.sign (signer : Signer) (salt : String) : Except KeyError SignedItem :=
  (Item.sign signer.value salt signer.sequence signer.publicKey signer.privateKey).map fun signature =>
    { salt, value := signer.value, sequence := signer.sequence, signature
      publicKey := signer.publicKey }

end DhtRecords
