/-
Whole numbers as records carry them.

The wire format has truth values beside integers, and a truth value is
accepted where a whole number is asked for: it counts as one or nought, and
keeps its own written and encoded form.
-/

import DhtRecords.Decimal.Limit

namespace DhtRecords

/-- An integer, or a truth value in its place. -/
inductive Whole where
  | int (value : Int)
  | bool (value : Bool)
  deriving DecidableEq, Repr

namespace Whole

/-- What the number counts as. -/
def value : Whole → Int
  | int value => value
  | bool true => 1
  | bool false => 0

/-- Whether the number has too many digits to be written. -/
def isTooLong : Whole → Bool
  | int value => Decimal.isTooLong value
  | bool _ => false

/-- The number in a message. -/
def text : Whole → String
  | int value => toString value
  | bool true => "True"
  | bool false => "False"

@[simp] theorem value_int (value : Int) : (int value).value = value := rfl

theorem value_bool (b : Bool) : (bool b).value = if b then 1 else 0 := by cases b <;> rfl

end Whole

end DhtRecords
