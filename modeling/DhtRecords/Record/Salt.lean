/-
The names of a record's items.

A record of an operation type is stored as a header item in slot 0 and chunk
items in the slots after it; the salt is the operation type, a colon and the
slot.
-/

import DhtRecords.Decimal.Limit

namespace DhtRecords

/-- The salt of a record's header. -/
def headerSalt (operation : String) : String := operation ++ ":0"

/-- The salt of a record's chunk, counted from nought. -/
def chunkSalt (operation : String) (index : Int) : String := operation ++ ":" ++ toString (index + 1)

/-- The salt of a record's chunk, unless its slot is too long to be written. -/
def chunkSalt? (operation : String) (index : Int) : Option String :=
  if Decimal.isTooLong (index + 1) then none else some (chunkSalt operation index)

end DhtRecords
