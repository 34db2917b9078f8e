/-
Records: a header and its chunks.

`Record.split` cuts a payload into chunks and describes them by a header;
`Record.assemble` binds a header and chunks into a record and notes the first
thing that is wrong with them, its defect. A record with a defect is never
put and never counts as found.
-/

import DhtRecords.Digest
import DhtRecords.Record.Header
import DhtRecords.Record.Salt
import DhtRecords.Text.Quoted

namespace DhtRecords

/-- One chunk item of a record. -/
structure Chunk where
  /-- The chunk's position, from nought. -/
  index : Int
  /-- The number of chunks that the header declares. -/
  total : Whole
  salt : String
  value : Bytes
  deriving DecidableEq, Repr

/-- What can be wrong with a header and chunks that are bound together. -/
inductive Defect where
  | otherOperation (declared operation : String)
  | tooManyChunks (declared : Whole) (limit : Int)
  | chunkCount (declared : Whole) (found : Nat)
  | outOfOrder (index : Int) (position : Nat)
  | unexpectedSalt (position : Nat) (salt : String)
  | sizeMismatch (declared : Whole) (found : Nat)
  | digestMismatch
  deriving DecidableEq, Repr

/-- The diagnostic of a defect. -/
def Defect.message : Defect → String
  | otherOperation declared operation =>
    "header operation " ++ Text.quoted declared ++ " does not match " ++ Text.quoted operation
  | tooManyChunks declared limit => "header declares " ++ declared.text ++ s!" chunks, limit is {limit}"
  | chunkCount declared found => "header declares " ++ declared.text ++ s!" chunks, got {found}"
  | outOfOrder index position => s!"chunk {index} out of order at position {position}"
  | unexpectedSalt position salt => s!"chunk {position} has unexpected salt " ++ Text.quoted salt
  | sizeMismatch declared found => "size mismatch: header " ++ declared.text ++ s!", chunks {found}"
  | digestMismatch => "digest mismatch between header and chunks"

/-- Whether the diagnostic of a defect has an integer that is too long to be written. -/
def Defect.hasLongInteger : Defect → Bool
  | tooManyChunks declared limit => declared.isTooLong || Decimal.isTooLong limit
  | chunkCount declared _ | sizeMismatch declared _ => declared.isTooLong
  | outOfOrder index _ => Decimal.isTooLong index
  | otherOperation _ _ | unexpectedSalt _ _ | digestMismatch => false

/-- A header with its chunks in order. -/
structure Record where
  operation : String
  header : Header
  chunks : List Chunk
  /-- A seed that owners bind to the record; it is carried along and never looked at. -/
  seed : Bytes := []
  /-- Who owns the record, as its reader names the owner. -/
  owner : String := ""
  /-- The first thing that is wrong with the record. -/
  defect : Option Defect := none
  /-- The most chunks that the record may have. -/
  slots : Int := 32
  /-- The sequence number of the record's items. -/
  sequence : Int := 0
  deriving DecidableEq, Repr

/-- The key under which puts of a record are held back: its owner and its operation. -/
structure RecordKey where
  owner : Bytes
  operation : String
  deriving DecidableEq, Repr

namespace Record

/-- The payload: the values of the chunks one after the other. -/
def value (record : Record) : Bytes := record.chunks.flatMap Chunk.value

/-- The salts of the header and the chunks. -/
def salts (record : Record) : List String := headerSalt record.operation :: record.chunks.map Chunk.salt

/-- Whether nothing is wrong with the record. -/
def isValid (record : Record) : Bool := record.defect.isNone

/-- The diagnostic of the record's defect; empty without one. -/
def message (record : Record) : String := (record.defect.map Defect.message).getD ""

/-- Whether the record has a diagnostic that cannot be written. Such a record is of no use: whoever binds
it fails. -/
def isUnwritable (record : Record) : Bool := record.defect.any Defect.hasLongInteger

/-- The first chunk that is not in its place: its index and its salt must be those of its position. -/
def misplaced? (operation : String) : Nat → List Chunk → Option Defect
  | _, [] => none
  | position, chunk :: rest =>
    if chunk.index ≠ position then some (.outOfOrder chunk.index position)
    else if chunk.salt ≠ chunkSalt operation position then
      some (.unexpectedSalt position chunk.salt)
    else misplaced? operation (position + 1) rest

/-- What is wrong with a record's payload, if its header declares size or digest. -/
def payloadDefect? (header : Header) (payload : Bytes) : Option Defect :=
  if header.size.value ≠ 0 ∧ header.size.value ≠ payload.length then
    some (.sizeMismatch header.size payload.length)
  else if header.digest ≠ "" ∧ header.digest ≠ contentHash payload then some .digestMismatch
  else none

/-- The first thing that is wrong with a header and its chunks. -/
def findDefect (record : Record) : Option Defect :=
  let header := record.header
  if header.operation ≠ record.operation then
    some (.otherOperation header.operation record.operation)
  else if record.slots < header.chunks.value then some (.tooManyChunks header.chunks record.slots)
  else if header.chunks.value ≠ record.chunks.length then
    some (.chunkCount header.chunks record.chunks.length)
  else match misplaced? record.operation 0 record.chunks with
    | some defect => some defect
    | none => payloadDefect? header record.value

/-- Binds a header and chunks into a record. -/
def assemble (operation : String) (slots : Int) (header : Header) (chunks : List Chunk)
    (seed : Bytes) (sequence : Int) : Record :=
  let record : Record := { operation, header, chunks, seed, slots, sequence }
  { record with defect := record.findDefect }

/-- A payload cut into pieces of `size` bytes, the last one shorter; `fuel` bounds their number. -/
def piecesWithin : Nat → Nat → Bytes → List Bytes
  | 0, _, _ => []
  | _ + 1, _, [] => []
  | fuel + 1, size, payload => payload.take size :: piecesWithin fuel size (payload.drop size)

/-- A payload cut into pieces of at most `size` bytes; there is one for every `size` bytes begun. -/
def pieces (size : Nat) (payload : Bytes) : List Bytes := piecesWithin payload.length size payload

/-- The chunks of pieces of which the first has the given position. -/
def chunksFrom (operation : String) (total : Whole) : Nat → List Bytes → List Chunk
  | _, [] => []
  | position, piece :: rest =>
    ⟨position, total, chunkSalt operation position, piece⟩
      :: chunksFrom operation total (position + 1) rest

/-- The header that describes a payload cut into pieces. -/
def describe (operation : String) (pieces : List Bytes) (payload : Bytes) : Header where
  operation := operation
  chunks := .int pieces.length
  size := .int payload.length
  digest := contentHash payload

/-- Cuts a payload into chunks of at most `chunkSize` bytes and binds them into a record. A negative
size gives no chunks, and a size of nought no record. -/
def split? (operation : String) (payload seed : Bytes) (chunkSize slots : Int) : Option Record :=
  if chunkSize = 0 then none
  else
    let parts := if chunkSize < 0 then [] else pieces chunkSize.toNat payload
    some (assemble operation slots (describe operation parts payload)
      (chunksFrom operation (.int parts.length) 0 parts) seed 0)

end Record

end DhtRecords
