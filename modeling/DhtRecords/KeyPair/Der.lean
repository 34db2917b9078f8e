/-
Nested structures in their distinguished encoding.

An element is a type, a length and a content, and the content of a structure
is a row of elements. Only the shortest form of a length and of an integer is
read, so a row of elements has one encoding.
-/

import DhtRecords.Bytes

namespace DhtRecords.Der

/-- An element: its type and its content. -/
structure Element where
  type : UInt8
  content : Bytes
  deriving DecidableEq, Repr

def integerType : UInt8 := 0x02
def bitsType : UInt8 := 0x03
def octetsType : UInt8 := 0x04
def nullType : UInt8 := 0x05
def identifierType : UInt8 := 0x06
def sequenceType : UInt8 := 0x30
def setType : UInt8 := 0x31

/-- The type of an optional part of a structure, by its number. -/
def optionalType (number : UInt8) : UInt8 := 0xa0 + number

/-! ### Rows of elements -/

/-- A length, and what follows it: one byte, or the count of the bytes and then these if they are
needed. -/
def readLength? : Bytes → Option (Nat × Bytes)
  | [] => none
  | first :: rest =>
    let code := first.toNat
    if code < 0x80 then some (code, rest)
    else
      let width := code - 0x80
      let value := Bytes.readBig (rest.take width)
      if width = 0 ∨ 4 < width ∨ rest.length < width then none
      else if value < 0x80 ∨ value < Nat.pow 256 (width - 1) then none
      else some (value, rest.drop width)

/-- The first element, and what follows it. A type takes one byte. -/
def readElement? : Bytes → Option (Element × Bytes)
  | [] => none
  | type :: rest => do
    guard (type.toNat % 32 ≠ 31)
    let (size, rest) ← readLength? rest
    if size ≤ rest.length then some (⟨type, rest.take size⟩, rest.drop size) else none

/-- The elements of a row of at most `fuel` bytes. -/
def readRow? : Nat → Bytes → Option (List Element)
  | _, [] => some []
  | 0, _ => none
  | fuel + 1, bytes => do
    let (element, rest) ← readElement? bytes
    return element :: (← readRow? fuel rest)

/-- The elements that bytes consist of. -/
def elements? (bytes : Bytes) : Option (List Element) := readRow? bytes.length bytes

/-- The single element that bytes consist of. -/
def element? (bytes : Bytes) : Option Element :=
  match readElement? bytes with
  | some (element, []) => some element
  | _ => none

/-! ### Values -/

namespace Element

/-- The content of an element of the given type. -/
def contentOf? (type : UInt8) (element : Element) : Option Bytes :=
  if element.type = type then some element.content else none

/-- The elements of a structure of the given type. -/
def parts? (type : UInt8) (element : Element) : Option (List Element) :=
  (element.contentOf? type).bind elements?

/-- An integer that is not negative. -/
def natural? (element : Element) : Option Nat :=
  match element.contentOf? integerType with
  | some [byte] => if byte < 0x80 then some byte.toNat else none
  | some (first :: second :: rest) =>
    if first < 0x80 ∧ (first ≠ 0 ∨ 0x80 ≤ second) then
      some (Bytes.readBig (first :: second :: rest))
    else none
  | _ => none

/-- The bytes of a bit string, whose first byte says how many of the last bits are filling. -/
def bits? (element : Element) : Option Bytes :=
  match element.contentOf? bitsType with
  | some (filling :: bytes) =>
    let unit := Nat.pow 2 filling.toNat
    if filling < 8 ∧ (filling = 0 ∨ !bytes.isEmpty) ∧ (bytes.getLastD 0).toNat % unit = 0 then
      some bytes
    else none
  | _ => none

/-- The most bytes of an identifier. -/
def maxIdentifier : Nat := 63

/-- An identifier: numbers in base 128, each without leading noughts. -/
def identifier? (element : Element) : Option Bytes := do
  let bytes ← element.contentOf? identifierType
  let starts := bytes.zip (0 :: bytes)
  guard (bytes.length ≤ maxIdentifier ∧ bytes.getLast?.any (· < 0x80))
  guard (starts.all fun (byte, last) => byte ≠ 0x80 ∨ 0x80 ≤ last)
  return bytes

end Element

end DhtRecords.Der
