/-
Reading MessagePack.

A value begins with a head: its first byte and, for some forms, a length
field. A head either is the whole value or announces contents. Integers,
texts and containers are accepted in any form, also a longer one than needed.

Refused are: bytes that end early or are left over, the unused first byte, a
text that is not UTF-8, a map key that is neither a text nor binary, more
than `maxDepth` containers open at once, an extension of a reserved type, and
a timestamp of a wrong size or with too many nanoseconds.
-/

import DhtRecords.Msgpack.Value
import DhtRecords.Text.Utf8

namespace DhtRecords.Msgpack

/-- The most containers that may be open at once. -/
def maxDepth : Nat := 1024

/-- The first `count` bytes and the rest, if there are that many. -/
def takeBytes? : Nat → Bytes → Option (Bytes × Bytes)
  | 0, bytes => some ([], bytes)
  | _ + 1, [] => none
  | count + 1, byte :: bytes =>
    (takeBytes? count bytes).map fun (taken, rest) => (byte :: taken, rest)

/-- What a head announces. -/
inductive Head where
  /-- The value is complete. -/
  | done (value : Value)
  | text (size : Nat)
  | binary (size : Nat)
  | array (count : Nat)
  | map (count : Nat)
  /-- An extension: its content follows its type. -/
  | extension (size : Nat)

/-- A number of `width` bytes. -/
def readNat? (width : Nat) (bytes : Bytes) : Option (Nat × Bytes) :=
  (takeBytes? width bytes).map fun (taken, rest) => (Bytes.readBig taken, rest)

/-- The integer whose two's complement of `width` bytes is the number. -/
def signed (width value : Nat) : Int :=
  if value < Nat.pow 2 (8 * width - 1) then value else (value : Int) - Nat.pow 2 (8 * width)

/-- A head and what follows it. -/
def readHead? : Bytes → Option (Head × Bytes)
  | [] => none
  | first :: rest =>
    let number (width : Nat) (head : Nat → Head) : Option (Head × Bytes) :=
      (readNat? width rest).map fun (value, rest) => (head value, rest)
    let natural (width : Nat) := number width fun value => .done (.int value)
    let integer (width : Nat) := number width fun value => .done (.int (signed width value))
    let float (width : Nat) : Option (Head × Bytes) :=
      (takeBytes? width rest).map fun (taken, rest) => (.done (.float taken), rest)
    let code := first.toNat
    if code < 0x80 then some (.done (.int code), rest)
    else if code < 0x90 then some (.map (code - 0x80), rest)
    else if code < 0xa0 then some (.array (code - 0x90), rest)
    else if code < 0xc0 then some (.text (code - 0xa0), rest)
    else if 0xe0 ≤ code then some (.done (.int (signed 1 code)), rest)
    else match code with
      | 0xc0 => some (.done .nil, rest)
      | 0xc2 => some (.done (.bool false), rest)
      | 0xc3 => some (.done (.bool true), rest)
      | 0xc4 => number 1 .binary
      | 0xc5 => number 2 .binary
      | 0xc6 => number 4 .binary
      | 0xc7 => number 1 .extension
      | 0xc8 => number 2 .extension
      | 0xc9 => number 4 .extension
      | 0xca => float 4
      | 0xcb => float 8
      | 0xcc => natural 1
      | 0xcd => natural 2
      | 0xce => natural 4
      | 0xcf => natural 8
      | 0xd0 => integer 1
      | 0xd1 => integer 2
      | 0xd2 => integer 4
      | 0xd3 => integer 8
      | 0xd4 => some (.extension 1, rest)
      | 0xd5 => some (.extension 2, rest)
      | 0xd6 => some (.extension 4, rest)
      | 0xd7 => some (.extension 8, rest)
      | 0xd8 => some (.extension 16, rest)
      | 0xd9 => number 1 .text
      | 0xda => number 2 .text
      | 0xdb => number 4 .text
      | 0xdc => number 2 .array
      | 0xdd => number 4 .array
      | 0xde => number 2 .map
      | 0xdf => number 4 .map
      | _ => none

/-- The most nanoseconds of a timestamp. -/
def maxNanoseconds : Nat := 999999999

/-- Whether an extension's type and content are accepted: types from nought on, and timestamps. -/
def acceptsExtension (type : Int) (content : Bytes) : Bool :=
  if type = -1 then
    match content.length with
    | 4 => true
    | 8 => Bytes.readBig content / Nat.pow 2 34 ≤ maxNanoseconds
    | 12 => Bytes.readBig (content.take 4) ≤ maxNanoseconds
    | _ => false
  else 0 ≤ type

/-- Whether a value may be a map key. -/
def Value.isKey : Value → Bool
  | .text _ => true
  | .binary _ => true
  | _ => false

mutual

/-- A value and what follows it, with `depth` containers open; `fuel` bounds the nested calls. -/
def readValue? : Nat → Nat → Bytes → Option (Value × Bytes)
  | 0, _, _ => none
  | fuel + 1, depth, bytes =>
    match readHead? bytes with
    | none => none
    | some (.done value, rest) => some (value, rest)
    | some (.text size, rest) => do
      let (content, rest) ← takeBytes? size rest
      return (.text (← Utf8.decode? content), rest)
    | some (.binary size, rest) => do
      let (content, rest) ← takeBytes? size rest
      return (.binary content, rest)
    | some (.extension size, rest) => do
      let (type, rest) ← readNat? 1 rest
      let (content, rest) ← takeBytes? size rest
      if acceptsExtension (signed 1 type) content then
        return (.extension (signed 1 type) content, rest)
      else none
    | some (.array count, rest) =>
      if maxDepth ≤ depth then none
      else (readItems? fuel (depth + 1) count rest).map fun (items, rest) => (.array items, rest)
    | some (.map count, rest) =>
      if maxDepth ≤ depth then none
      else (readEntries? fuel (depth + 1) count rest).map fun (items, rest) => (.map items, rest)

/-- So many values. -/
def readItems? : Nat → Nat → Nat → Bytes → Option (List Value × Bytes)
  | 0, _, _, _ => none
  | _ + 1, _, 0, bytes => some ([], bytes)
  | fuel + 1, depth, count + 1, bytes => do
    let (item, rest) ← readValue? fuel depth bytes
    let (items, rest) ← readItems? fuel depth count rest
    return (item :: items, rest)

/-- So many pairs of a key and a value. -/
def readEntries? : Nat → Nat → Nat → Bytes → Option (List (Value × Value) × Bytes)
  | 0, _, _, _ => none
  | _ + 1, _, 0, bytes => some ([], bytes)
  | fuel + 1, depth, count + 1, bytes => do
    let (key, rest) ← readValue? fuel depth bytes
    if key.isKey then
      let (value, rest) ← readValue? fuel depth rest
      let (entries, rest) ← readEntries? fuel depth count rest
      return ((key, value) :: entries, rest)
    else none

end

/-- The value that a byte string is the form of. Each nested call either takes a byte or counts one
item of a container that still has to take one, so twice the length is fuel enough. -/
def read? (bytes : Bytes) : Option Value :=
  match readValue? (2 * bytes.length + 3) 0 bytes with
  | some (value, []) => some value
  | _ => none

end DhtRecords.Msgpack
