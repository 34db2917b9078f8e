/-
Fetching records: the header first, then the chunks that it declares, all of
one sequence number.

`record` fetches one record. `inTurn` fetches the records of several owners
one after the other; `pipelined` fires the lookups of all headers and then
those of all chunks before it waits, and asks once more for a chunk that has
not come or is of another sequence number. Both pass over owners whose records
cannot be fetched and say why.
-/

import DhtRecords.Get
import DhtRecords.Put

namespace DhtRecords.Fetch

/-- An owner whose record is to be fetched. -/
structure Link where
  owner : Bytes
  seed : Bytes := []
  /-- How the owner is called; the name is bound to the record. -/
  name : String := ""

/-- Why there is no record. -/
inductive Error where
  | noHeader (salt : String) (kind : ErrorKind)
  | tooManyChunks (declared : Whole) (limit : Int)
  | missingChunk (salt : String)
  /-- A chunk is of another put than the header. -/
  | otherSequence (salt : String) (found expected : Int)
  | defective (defect : Defect)

/-- Records, and why there are no others. -/
structure Batch where
  records : List Record := []
  errors : List String := []

namespace Error

def kind : Error → ErrorKind
  | noHeader _ kind => kind
  | tooManyChunks _ _ => .malformedRecord
  | missingChunk _ => .notFound
  | otherSequence _ _ _ => .malformedRecord
  | defective _ => .malformedRecord

def message : Error → String
  | noHeader salt _ => "No header for " ++ Text.quoted salt
  | tooManyChunks declared limit => "header declares " ++ declared.text ++ s!" chunks, limit is {limit}"
  | missingChunk salt => "Missing chunk " ++ Text.quoted salt
  | otherSequence salt found expected =>
    "chunk " ++ Text.quoted salt ++ s!" has sequence {found}, header has {expected}"
  | defective defect => defect.message

/-- Whether a diagnostic has an integer that is too long to be written. -/
def hasLongInteger : Error → Bool
  | tooManyChunks declared limit => declared.isTooLong || Decimal.isTooLong limit
  | otherSequence _ found expected => Decimal.isTooLong found || Decimal.isTooLong expected
  | defective defect => defect.hasLongInteger
  | noHeader _ _ | missingChunk _ => false

end Error

/-- What an owner is called in diagnostics: the name, or a short one made from the key. -/
def Link.label (link : Link) : String :=
  if link.name.isEmpty then shortHash link.owner shortLength else link.name

/-- The diagnostic that an owner is passed over with. -/
def Link.problem (link : Link) (message : String) : String := link.label ++ ": " ++ message

/-- The diagnostics of a batch, one a line. -/
def Batch.text (batch : Batch) : String := "\n".intercalate batch.errors

variable {τ ν : Type} [Quantity τ] [Overlay τ ν]

/-! ### Single records -/

/-- Ends without a record, but fails if that cannot be told. -/
def refuse {α : Type} (error : Error) : Op τ ν (Except Error α) :=
  if error.hasLongInteger then throw .tooLong else return .error error

/-- A record that has been bound, if it is valid. -/
def accept (record : Record) : Op τ ν (Except Error Record) :=
  match record.defect with
  | none => return .ok record
  | some defect => refuse (.defective defect)

/-- Looks a header up, again and again while there is none and the engine can be called. -/
def headerWithin (owner : Bytes) (salt : String) :
    Nat → ErrorKind → Op τ ν (Except ErrorKind (Header × Int))
  | 0, kind => return .error kind
  | attempts + 1, _ => do
    match ← Get.lookup owner salt (← get).settings.fetchTimeout false with
    | .error error =>
      if error.kind = .engineUnavailable then return .error .engineUnavailable
      else headerWithin owner salt attempts error.kind
    | .ok found =>
      match Header.decode? found.value with
      | some header => return .ok (header, found.sequence)
      | none => headerWithin owner salt attempts .notFound

/-- The header of a record, with its sequence number. -/
def header (owner : Bytes) (operation : String) : Op τ ν (Except ErrorKind (Header × Int)) := do
  match (← get).settings.headerRetries with
  | none => throw .mistypedSetting
  | some retries => headerWithin owner (headerSalt operation) (1 + retries).toNat .notFound

/-- The values of the chunks that begin with the given position, as many as are left. -/
def chunksFrom (owner : Bytes) (operation : String) (total : Whole) (sequence : Int) :
    Nat → Nat → Op τ ν (Except Error (List Chunk))
  | 0, _ => return .ok []
  | left + 1, position => do
    let salt := chunkSalt operation position
    match ← Get.lookup owner salt (← get).settings.fetchTimeout false with
    | .error _ => return .error (.missingChunk salt)
    | .ok found =>
      if found.sequence ≠ sequence then refuse (.otherSequence salt found.sequence sequence)
      else
        match ← chunksFrom owner operation total sequence left (position + 1) with
        | .error error => return .error error
        | .ok rest => return .ok (⟨position, total, salt, found.value⟩ :: rest)

/-- The record of an owner for an operation. -/
def record (owner seed : Bytes) (operation : String) : Op τ ν (Except Error Record) := do
  match ← header owner operation with
  | .error kind => return .error (.noHeader (headerSalt operation) kind)
  | .ok (header, sequence) =>
    let slots := (← get).settings.totalSlots
    if slots < header.chunks.value then refuse (.tooManyChunks header.chunks slots)
    else
      match ← chunksFrom owner operation header.chunks sequence header.chunks.value.toNat 0 with
      | .error error => return .error error
      | .ok chunks => accept (Record.assemble operation slots header chunks seed sequence)

/-- Puts a payload as a record. -/
def publish (pair : KeyPair) (operation : String) (payload seed : Bytes) (lastSequence : Int) :
    Op τ ν (Except Put.Error (Put.Receipt τ)) := do
  let settings := (← get).settings
  match settings.maxChunkSize with
  | some (.whole size) =>
    match Record.split? operation payload seed size.value settings.totalSlots with
    | none => throw .noChunkSize
    | some record =>
      if record.isUnwritable then throw .tooLong
      else Put.record pair.publicKey pair.seed lastSequence record
  | _ => throw .mistypedSetting

/-! ### Batches, one after the other -/

/-- The batch with the outcome for one more owner. -/
def Batch.add (batch : Batch) (link : Link) : Except String Record → Batch
  | .ok record => { batch with records := batch.records ++ [{ record with owner := link.name }] }
  | .error message => { batch with errors := batch.errors ++ [link.problem message] }

/-- The records of the owners, after those in the batch. -/
def inTurnAfter (operation : String) (batch : Batch) : List Link → Op τ ν Batch
  | [] => return batch
  | link :: rest => do
    let outcome ← record link.owner link.seed operation
    inTurnAfter operation (batch.add link (outcome.mapError Error.message)) rest

/-- The records of several owners, one after the other. -/
def inTurn (links : List Link) (operation : String) : Op τ ν Batch := inTurnAfter operation {} links

/-! ### Pipelined batches -/

/-- An owner with the header of the record. -/
structure Resolved where
  link : Link
  header : Header
  sequence : Int

/-- Lets a pause pass, but not before the first lookup. -/
def pace (first : Bool) (pause : τ) : Op τ ν Unit :=
  if first then return () else modify (World.sleep pause)

/-- Fires the lookups of the headers. Gives the owners whose lookups were fired. -/
def fireHeaders (salt : String) : Bool → Batch → List Link → Op τ ν (List Link × Batch)
  | _, batch, [] => return ([], batch)
  | first, batch, link :: rest => do
    pace first (← get).settings.headerIssueDelay
    modify (Get.forget link.owner salt)
    match ← Get.fire link.owner salt with
    | .error error => fireHeaders salt false (batch.add link (.error error.message)) rest
    | .ok () =>
      let (links, batch) ← fireHeaders salt false batch rest
      return (link :: links, batch)

/-- The header that has come for an owner, unless it declares too many chunks. No header that is read
declares more than can be written. -/
def resolve (salt : String) (world : World τ ν) (link : Link) : Except String Resolved :=
  match Get.peek link.owner salt world with
  | none => .error "no header"
  | some result =>
    match Header.decode? result.value with
    | none => .error "no header"
    | some header =>
      if world.settings.totalSlots < header.chunks.value then
        .error ("header declares " ++ header.chunks.text ++ " chunks")
      else .ok ⟨link, header, result.sequence⟩

/-- The owners whose headers have come. -/
def resolveAll (salt : String) (world : World τ ν) : Batch → List Link → List Resolved × Batch
  | batch, [] => ([], batch)
  | batch, link :: rest =>
    match resolve salt world link with
    | .error message => resolveAll salt world (batch.add link (.error message)) rest
    | .ok resolved =>
      let (others, batch) := resolveAll salt world batch rest
      (resolved :: others, batch)

/-- The salts of all chunks of the resolved owners. -/
def chunkItems (operation : String) (resolved : List Resolved) : List (Bytes × String) :=
  resolved.flatMap fun peer =>
    (List.range peer.header.chunks.value.toNat).map fun (position : Nat) =>
      (peer.link.owner, chunkSalt operation position)

/-- Fires the lookups of chunks; one that cannot be fired is passed over. -/
def fireChunks : Bool → List (Bytes × String) → Op τ ν Unit
  | _, [] => return ()
  | first, (owner, salt) :: rest => do
    pace first (← get).settings.chunkIssueDelay
    modify (Get.forget owner salt)
    let _ ← Get.fire owner salt
    fireChunks false rest

/-- The value of a chunk: what has come, if it is of the header's sequence number, or else the answer
to another lookup. -/
def drainChunk (peer : Resolved) (salt : String) : Op τ ν (Except String Bytes) := do
  let fitting := (Get.peek peer.link.owner salt (← get)).filter (·.sequence = peer.sequence)
  match fitting with
  | some result => return .ok result.value
  | none =>
    match ← Get.lookup peer.link.owner salt (← get).settings.fetchTimeout false with
    | .error error =>
      return .error ("missing chunk " ++ Text.quoted salt ++ " (" ++ error.message ++ ")")
    | .ok found =>
      if found.sequence ≠ peer.sequence then
        return (← refuse (.otherSequence salt found.sequence peer.sequence)).mapError Error.message
      else return .ok found.value

/-- The chunks of an owner that begin with the given position, as many as are left. -/
def drainFrom (peer : Resolved) (operation : String) :
    Nat → Nat → Op τ ν (Except String (List Chunk))
  | 0, _ => return .ok []
  | left + 1, position => do
    let salt := chunkSalt operation position
    match ← drainChunk peer salt with
    | .error message => return .error message
    | .ok value =>
      match ← drainFrom peer operation left (position + 1) with
      | .error message => return .error message
      | .ok rest => return .ok (⟨position, peer.header.chunks, salt, value⟩ :: rest)

/-- The record of an owner whose lookups were fired. -/
def drain (peer : Resolved) (operation : String) : Op τ ν (Except String Record) := do
  match ← drainFrom peer operation peer.header.chunks.value.toNat 0 with
  | .error message => return .error message
  | .ok chunks =>
    let record := Record.assemble operation (← get).settings.totalSlots peer.header chunks
      peer.link.seed peer.sequence
    return (← accept record).mapError Error.message

/-- The records of the resolved owners, after those in the batch. -/
def drainAll (operation : String) (batch : Batch) : List Resolved → Op τ ν Batch
  | [] => return batch
  | peer :: rest => do
    let outcome ← drain peer operation
    drainAll operation (batch.add peer.link outcome) rest

/-- The records of several owners, with all lookups of a kind fired before any is waited for. -/
def pipelined (links : List Link) (operation : String) : Op τ ν Batch := do
  let salt := headerSalt operation
  let (issued, batch) ← fireHeaders salt true {} links
  let _ ← modifyGet <|
    Get.waitForAll (issued.map fun link => infoHash link.owner salt) (← get).settings.headerSettle
  let (resolved, batch) := resolveAll salt (← get) batch issued
  let items := chunkItems operation resolved
  fireChunks true items
  let _ ← modifyGet <|
    Get.waitForAll (items.map fun (owner, salt) => infoHash owner salt) (← get).settings.chunkSettle
  drainAll operation batch resolved

end DhtRecords.Fetch
