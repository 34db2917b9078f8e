/-
Numbers as settings have them: whole ones, truth values in their place, and
fractions.
-/

import DhtRecords.Quantity
import DhtRecords.Whole

namespace DhtRecords

/-- A whole number or a fraction. -/
inductive Number (τ : Type) where
  | whole (value : Whole)
  | fraction (value : τ)

namespace Number

variable {τ : Type} [Quantity τ]

/-- Whether the number is less than a count. -/
def isBelow (number : Number τ) (count : Nat) : Bool :=
  match number with
  | whole value => value.value < count
  | fraction value => Quantity.lt value (Quantity.fraction count 0)

/-- Whether the number has too many digits to be written. -/
def isTooLong : Number τ → Bool
  | whole value => value.isTooLong
  | fraction _ => false

/-- The number in a message. -/
def text : Number τ → String
  | whole value => value.text
  | fraction value => Quantity.exactText value

end Number

end DhtRecords
