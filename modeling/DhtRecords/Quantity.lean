/-
The numbers in which times, waits and fractional options are measured.

The library is generic in them: its programs run on floating-point numbers,
and statements about clock readings can be made for numbers that add up
exactly.
-/

import DhtRecords.Decimal.Binary64

namespace DhtRecords

/-- What the library asks of a number type for times and fractions. -/
class Quantity (τ : Type) where
  add : τ → τ → τ
  sub : τ → τ → τ
  lt : τ → τ → Bool
  eq : τ → τ → Bool
  /-- The number of an integer, unless that is beyond the range. -/
  ofInt? : Int → Option τ
  /-- The number nearest to a numeral. -/
  ofNumeral : Numeral → τ
  /-- The numeral with the fewest digits that reads back as the number. -/
  shortest : τ → Numeral
  /-- The numeral of so many significant digits that is nearest to the number. -/
  rounded : Nat → τ → Numeral
  /-- The least integer that is not below the number, if there is one. -/
  ceil? : τ → Option Int

namespace Quantity

variable {τ : Type} [Quantity τ]

/-- The number of a decimal fraction, such as 35 and -2 for 0.35. -/
def fraction (digits : Nat) (exponent : Int) : τ := ofNumeral (.finite false digits exponent)

/-- The number nought. -/
def zero : τ := fraction 0 0

/-- The first number, unless the second is larger. -/
def later (a b : τ) : τ := if lt a b then b else a

/-- The first number, unless the second is smaller. -/
def earlier (a b : τ) : τ := if lt b a then b else a

/-- Whether the first number is the second or a larger one. -/
def atLeast (a b : τ) : Bool := lt b a || eq a b

/-- A number written so that it reads back. -/
def exactText (x : τ) : String := String.ofList ((shortest x).write .exact)

/-- A number written for a message: six significant digits. -/
def briefText (x : τ) : String := String.ofList ((rounded 6 x).write .brief)

end Quantity

instance : Quantity Float where
  add := (· + ·)
  sub := (· - ·)
  lt a b := a < b
  eq a b := a == b
  ofInt? := Binary64.ofInt?
  ofNumeral := Binary64.ofNumeral
  shortest := Binary64.shortest
  rounded := Binary64.rounded
  ceil? := Binary64.ceil?

end DhtRecords
