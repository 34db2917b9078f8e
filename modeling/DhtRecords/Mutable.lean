/-
Getting and putting one item, as the outside sees it: with keys in
hexadecimal, and an error of a kind and a diagnostic for everything that can
go wrong.

`put` reads the item's sequence number from a final answer before it puts the
next one, and reports success only when the put has been acknowledged.
-/

import DhtRecords.Get
import DhtRecords.Put

namespace DhtRecords.Mutable

/-- An item that was got. -/
structure Item where
  /-- The owner's key as it was given. -/
  publicKey : String
  salt : String
  sequence : Int
  value : String

/-- An item that was put. -/
structure Published where
  publicKey : String
  privateKey : String
  salt : String
  sequence : Int
  value : String
  message : String

variable {τ ν : Type} [Quantity τ] [Overlay τ ν]

/-- Fails with a kind and a diagnostic. -/
def fail {α : Type} (kind : ErrorKind) (message : String) : Op τ ν α :=
  throw (.operation (.of kind message))

/-- The public key that a text spells in hexadecimal. -/
def readOwner (text : String) : Op τ ν Bytes :=
  match Hex.decode text with
  | .error position =>
    fail .invalidArgument ("public key is not valid hex: " ++ notHexMessage position)
  | .ok key =>
    if key.length = Ed25519.keySize then return key
    else fail .invalidArgument s!"public key must be {Ed25519.keySize} bytes"

/-- Looks an item up for as long as the settings say. A lookup that nothing is said for is fired all the
same. -/
def lookUp (owner : Bytes) (salt : String) (onlyFinal : Bool) :
    Op τ ν (Except (Get.Error τ) Get.Found) := do
  match (← MonadState.get).settings.getTimeout with
  | some timeout => Get.lookup owner salt timeout onlyFinal
  | none =>
    modify (Get.forget owner salt)
    match ← Get.fire owner salt with
    | .error error => return .error error
    | .ok () => throw .mistypedSetting

/-- Gets an item. -/
def get (publicKey salt : String) : Op τ ν Item := do
  let owner ← readOwner publicKey
  match ← lookUp owner salt false with
  | .error error => fail error.kind error.message
  | .ok found => return ⟨publicKey, salt, found.sequence, Utf8.decodeReplacing found.value⟩

/-- The next of the fresh pairs. -/
def generatePair (world : World τ ν) : KeyPair × World τ ν :=
  let count := world.keysGenerated + 1
  (world.freshKeys count, { world with keysGenerated := count })

/-- What is put: the pair that signs, and the sequence number that the put follows on. -/
def prepare (salt : String) : Option String → Option String → Op τ ν (KeyPair × Int)
  | some publicKey, some privateKey => do
    match KeyPair.ofHex publicKey privateKey with
    | .error error => fail .invalidArgument error.message
    | .ok pair =>
      match ← lookUp pair.publicKey salt true with
      | .error error =>
        fail error.kind ("Get failed, cannot determine the current sequence: " ++ error.message)
      | .ok found => return (pair, found.sequence)
  | _, _ => return (← modifyGet generatePair, 0)

/-- Keeps an item in the node's store, if it has one. -/
def keep (pair : KeyPair) (salt : String) (value : Bytes) (sequence : Int) : Op τ ν Unit := do
  let world ← MonadState.get
  match world.store with
  | none => return ()
  | some store =>
    match DhtRecords.Item.writeBuffer value salt sequence with
    | .error error => throw (.key error)
    | .ok _ =>
      let item : StoredItem τ := {
        infoHash := infoHash pair.publicKey salt
        owner := pair.publicKey
        salt, value, sequence
        signature := pair.signItem value salt sequence
        moment := world.clock }
      match store.put world.clock item with
      | .ok store => set { world with store := some store }
      | .error error => throw (.store error)

/-- Fails if a value has more bytes than the settings allow. -/
def checkSize (value : Bytes) : Op τ ν Unit := do
  match (← MonadState.get).settings.maxChunkSize with
  | none => throw .mistypedSetting
  | some limit =>
    if limit.isBelow value.length then
      if limit.isTooLong then throw .tooLong
      fail .invalidArgument (s!"value is {value.length} bytes, limit is " ++ limit.text)

/-- Waits for the acknowledgement of a put, for as long as the settings say. -/
def acknowledge (key : String) (receipt : Put.Receipt τ) : Op τ ν (Acknowledgement τ) := do
  match (← MonadState.get).settings.putAckTimeout with
  | none => throw .mistypedSetting
  | some timeout =>
    match ← modifyGet
      (Put.waitForAcknowledgement key receipt.moment timeout (some receipt.sequence)) with
    | some acknowledgement => return acknowledgement
    | none => fail .timeout ("No put acknowledgement within " ++ Quantity.briefText timeout ++ "s")

/-- What is said of a put that was acknowledged: what the acknowledgement says, or else on how many nodes
it has succeeded. -/
def report (acknowledgement : Acknowledgement τ) : Except Failure String :=
  if acknowledgement.message.isEmpty then
    if Decimal.isTooLong acknowledgement.successes then .error .tooLong
    else .ok s!"Put succeeded on {acknowledgement.successes} nodes"
  else .ok acknowledgement.message

/-- Puts a value and waits until the put is acknowledged. Without keys a fresh pair is taken. -/
def put (value : Bytes) (salt : String) (publicKey privateKey : Option String) :
    Op τ ν Published := do
  if publicKey.isNone ≠ privateKey.isNone then
    fail .invalidArgument "Supply both the public and private key, or neither"
  checkSize value
  let (pair, lastSequence) ← prepare salt publicKey privateKey
  match ← Put.item pair.publicKey pair.seed salt value lastSequence with
  | .error error => fail error.kind error.message
  | .ok receipt =>
    let acknowledgement ← acknowledge (infoHash pair.publicKey salt) receipt
    if acknowledgement.successes = 0 then
      fail .putNotAcknowledged
        (if acknowledgement.message.isEmpty then "Put succeeded on 0 nodes" else acknowledgement.message)
    keep pair salt value receipt.sequence
    let message ← report acknowledgement
    return {
      publicKey := Hex.encode pair.publicKey
      privateKey := Hex.encode pair.seed
      salt
      sequence := receipt.sequence
      value := Utf8.decodeReplacing value
      message }

end DhtRecords.Mutable
