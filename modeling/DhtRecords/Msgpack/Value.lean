/-
The values of MessagePack.
-/

import DhtRecords.Bytes

namespace DhtRecords.Msgpack

/-- A value of the format. Floating-point numbers are kept as the bytes that spell them, and a
timestamp is the extension of type -1. -/
inductive Value where
  | nil
  | bool (value : Bool)
  | int (value : Int)
  | float (bits : Bytes)
  | text (value : String)
  | binary (value : Bytes)
  | array (items : List Value)
  | map (entries : List (Value × Value))
  | extension (type : Int) (content : Bytes)

end DhtRecords.Msgpack
