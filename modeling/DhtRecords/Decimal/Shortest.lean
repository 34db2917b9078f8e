/-
Few decimal digits for a binary number.

The number is `mantissa · 2 ^ power`. `shortest` gives the fewest digits that
lie in the interval of reals closer to it than to its neighbours, and of
those the nearest; `rounded` gives a fixed count of digits, a half going to
the even digit. All arithmetic is on natural numbers.
-/

namespace DhtRecords.Decimal

/-- A positive fraction of natural numbers. -/
structure Ratio where
  num : Nat
  den : Nat

/-- The product of a natural number and a power of two. -/
def Ratio.scaled (value : Nat) (power : Int) : Ratio :=
  if 0 ≤ power then ⟨value * Nat.pow 2 power.toNat, 1⟩ else ⟨value, Nat.pow 2 power.natAbs⟩

/-- A fraction divided by a power of ten. -/
def Ratio.shift (r : Ratio) (power : Int) : Ratio :=
  if 0 ≤ power then ⟨r.num, r.den * Nat.pow 10 power.toNat⟩ else ⟨r.num * Nat.pow 10 power.natAbs, r.den⟩

/-- The number of decimal digits of a natural number; zero has none. -/
def digitCount (value : Nat) : Nat := if value = 0 then 0 else (Nat.toDigits 10 value).length

/-- The exponent of the first decimal digit of a positive fraction. -/
def Ratio.leading (r : Ratio) : Int :=
  if r.den ≤ r.num then (digitCount (r.num / r.den) : Int) - 1
  else -(digitCount ((r.den - 1) / r.num) : Int)

/-- The quotient rounded to the nearest natural number, a half to the even one. -/
def Ratio.round (r : Ratio) : Nat :=
  let quotient := r.num / r.den
  let twice := 2 * (r.num % r.den)
  if r.den < twice ∨ (twice = r.den ∧ quotient % 2 = 1) then quotient + 1 else quotient

/-- The reals that round to a binary number: its two ends and itself, in quarters of its last
place; the ends belong to it iff `closed`. -/
structure Interval where
  low : Ratio
  value : Ratio
  high : Ratio
  closed : Bool

/-- The interval of `mantissa · 2 ^ power`; `narrow` if the number below it is only half a place
away. -/
def Interval.of (mantissa : Nat) (power : Int) (narrow : Bool) : Interval where
  low := .scaled (4 * mantissa - if narrow then 1 else 2) (power - 2)
  value := .scaled (4 * mantissa) (power - 2)
  high := .scaled (4 * mantissa + 2) (power - 2)
  closed := mantissa % 2 = 0

/-- Whether `digits · 10 ^ exponent` is in the interval. -/
def Interval.holds (i : Interval) (digits : Nat) (exponent : Int) : Bool :=
  let low := i.low.shift exponent
  let high := i.high.shift exponent
  if i.closed then low.num ≤ digits * low.den && digits * high.den ≤ high.num
  else low.num < digits * low.den && digits * high.den < high.num

/-- The digit string of `count` digits in the interval, if there is one: of the value's two
neighbours on that grid the nearer. -/
def Interval.atCount? (i : Interval) (leading : Int) (count : Nat) : Option (Nat × Int) :=
  let exponent := leading - count + 1
  let value := i.value.shift exponent
  let below := value.num / value.den
  let rounded := value.round
  let other := if rounded = below then below + 1 else below
  if i.holds rounded exponent then some (rounded, exponent)
  else if i.holds other exponent then some (other, exponent)
  else none

/-- The fewest digits that read back as `mantissa · 2 ^ power`. Seventeen always do. -/
def shortest (mantissa : Nat) (power : Int) (narrow : Bool) : Nat × Int :=
  let i := Interval.of mantissa power narrow
  let leading := i.value.leading
  ((List.range 17).findSome? fun count => i.atCount? leading (count + 1)).getD
    ((i.value.shift (leading - 16)).round, leading - 16)

/-- `mantissa · 2 ^ power` to `count` significant digits. -/
def rounded (count mantissa : Nat) (power : Int) : Nat × Int :=
  let value := Ratio.scaled mantissa power
  let exponent := value.leading - count + 1
  ((value.shift exponent).round, exponent)

end DhtRecords.Decimal
