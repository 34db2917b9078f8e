/-
Key pairs: a seed of thirty-two bytes and the public key that it determines.
-/

import DhtRecords.Digest
import DhtRecords.Item

namespace DhtRecords

/-- A private seed with its public key. -/
structure KeyPair where
  seed : Bytes
  publicKey : Bytes
  seed_length : seed.length = Ed25519.keySize
  publicKey_eq : publicKey = Ed25519.publicKey seed

namespace KeyPair

/-- The pair of a seed. -/
def ofSeed (seed : Bytes) (h : seed.length = Ed25519.keySize) : KeyPair :=
  ⟨seed, Ed25519.publicKey seed, h, rfl⟩

/-- The pair of a private key. -/
def ofPrivate (seed : Bytes) : Except KeyError KeyPair :=
  if h : seed.length = Ed25519.keySize then .ok (ofSeed seed h) else .error .privateSize

/-- A key in hexadecimal. -/
def readKey (text : String) : Except KeyError Bytes := (Hex.decode text).mapError .notHex

/-- The pair whose two keys are given in hexadecimal. -/
def ofHex (publicKey privateKey : String) : Except KeyError KeyPair := do
  let pair ← ofPrivate (← readKey privateKey)
  if pair.publicKey = (← readKey publicKey) then return pair else throw .mismatch

/-- The pair whose seed is the digest of a message. -/
def derived (message : Bytes) : KeyPair := ofSeed (Sha256.hash message) (Sha256.length_hash message)

/-- A short name of the pair for display. -/
def fingerprint (pair : KeyPair) : String := shortHash pair.publicKey shortLength

/-- The pair's signature of an item. -/
def signItem (pair : KeyPair) (value : Bytes) (salt : String) (sequence : Int) : Bytes :=
  Ed25519.sign pair.seed pair.publicKey (Item.signingBuffer value salt sequence)

/-- Two pairs of one seed are one. -/
theorem eq_of_seed_eq {a b : KeyPair} (h : a.seed = b.seed) : a = b := by
  cases a; cases b
  simp_all

end KeyPair

end DhtRecords
