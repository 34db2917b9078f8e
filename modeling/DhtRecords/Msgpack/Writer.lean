/-
Integers, truth values and texts in their shortest MessagePack form.
-/

import DhtRecords.Bytes
import DhtRecords.Text.Utf8

namespace DhtRecords.Msgpack

/-- A truth value. -/
def writeBool (value : Bool) : Bytes := [if value then 0xc3 else 0xc2]

/-- An integer in the fewest bytes; `none` if it has no form, being outside
`-2 ^ 63 ≤ value < 2 ^ 64`. -/
def writeInt? (value : Int) : Option Bytes :=
  let size := value.toNat
  if 0 ≤ value then
    if size < 0x80 then some [UInt8.ofNat size]
    else if size < 0x100 then some (0xcc :: Bytes.writeBig 1 size)
    else if size < 0x10000 then some (0xcd :: Bytes.writeBig 2 size)
    else if size < 0x100000000 then some (0xce :: Bytes.writeBig 4 size)
    else if size < 0x10000000000000000 then some (0xcf :: Bytes.writeBig 8 size)
    else none
  else if -0x20 ≤ value then some [UInt8.ofNat (value + 0x100).toNat]
  else if -0x80 ≤ value then some (0xd0 :: Bytes.writeBig 1 (value + 0x100).toNat)
  else if -0x8000 ≤ value then some (0xd1 :: Bytes.writeBig 2 (value + 0x10000).toNat)
  else if -0x80000000 ≤ value then some (0xd2 :: Bytes.writeBig 4 (value + 0x100000000).toNat)
  else if -0x8000000000000000 ≤ value then some (0xd3 :: Bytes.writeBig 8 (value + 0x10000000000000000).toNat)
  else none

/-- A text with the shortest length field; `none` if it has `2 ^ 32` bytes or more. -/
def writeText? (value : String) : Option Bytes :=
  let bytes := Utf8.encode value
  let size := bytes.length
  if size < 0x20 then some (UInt8.ofNat (0xa0 + size) :: bytes)
  else if size < 0x100 then some (0xd9 :: Bytes.writeBig 1 size ++ bytes)
  else if size < 0x10000 then some (0xda :: Bytes.writeBig 2 size ++ bytes)
  else if size < 0x100000000 then some (0xdb :: Bytes.writeBig 4 size ++ bytes)
  else none

end DhtRecords.Msgpack
