/-
Record headers and their form on the overlay.

A header is a MessagePack map of five entries. Reading accepts any map with a
usable chunk count and operation type: unknown entries are ignored, of equal
keys the last decides, and the other fields fall back to their defaults.
-/

import DhtRecords.Msgpack.Reader
import DhtRecords.Msgpack.Writer
import DhtRecords.Whole

namespace DhtRecords

/-- What a record's header item declares. A size of nought and an empty digest declare nothing. -/
structure Header where
  /-- The operation type of the record. -/
  operation : String
  /-- The number of chunks. -/
  chunks : Whole
  /-- The bytes of all chunks together. -/
  size : Whole := .int 0
  /-- The digest of all chunks together. -/
  digest : String := ""
  version : Whole := .int 1
  deriving DecidableEq, Repr

namespace Header

open Msgpack

/-- A whole number's form; `none` if it is out of range. -/
def writeWhole? : Whole → Option Bytes
  | .int value => writeInt? value
  | .bool value => some (writeBool value)

/-- A header's form: its five fields in a fixed order, each as short as possible. `none` if a number
is out of range or a text too long. -/
def encode? (header : Header) : Option Bytes := do
  let entry (key : String) (value : Option Bytes) : Option Bytes := return (← writeText? key) ++ (← value)
  let version ← entry "v" (writeWhole? header.version)
  let operation ← entry "op" (writeText? header.operation)
  let chunks ← entry "n" (writeWhole? header.chunks)
  let size ← entry "size" (writeWhole? header.size)
  let digest ← entry "digest" (writeText? header.digest)
  return 0x85 :: version ++ operation ++ chunks ++ size ++ digest

/-- The last value under a text key. -/
def last? (entries : List (Value × Value)) (key : String) : Option Value :=
  (entries.reverse.find? fun entry => match entry.1 with
    | .text name => name = key
    | _ => false).map Prod.snd

/-- The whole number that a value is. -/
def whole? : Value → Option Whole
  | .int value => some (.int value)
  | .bool value => some (.bool value)
  | _ => none

/-- The text that a value is. -/
def text? : Value → Option String
  | .text value => some value
  | _ => none

/-- The header that a map's entries describe. -/
def ofEntries? (entries : List (Value × Value)) : Option Header := do
  let chunks ← (← last? entries "n") |> whole?
  let operation ← (← last? entries "op") |> text?
  if chunks.value < 0 then none
  else some {
    operation, chunks
    size := ((last? entries "size").bind whole?).getD (.int 0)
    digest := ((last? entries "digest").bind text?).getD ""
    version := ((last? entries "v").bind whole?).getD (.int 1) }

/-- The header that a byte string is a form of. -/
def decode? (bytes : Bytes) : Option Header :=
  match read? bytes with
  | some (.map entries) => ofEntries? entries
  | _ => none

end Header

end DhtRecords
