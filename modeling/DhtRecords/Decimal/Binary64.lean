/-
Floating-point numbers of sixty-four bits, taken apart and put together
exactly: sign, mantissa and power of two on one side, the nearest number to a
fraction on the other.
-/

import DhtRecords.Decimal.Numeral
import DhtRecords.Decimal.Shortest

namespace DhtRecords.Binary64

open Decimal

/-- The exact value of a floating-point number. -/
inductive Parts where
  /-- A number `mantissa · 2 ^ power`. -/
  | finite (negative : Bool) (mantissa : Nat) (power : Int)
  | infinite (negative : Bool)
  | undefined

/-- The least power of two that a last place can have. -/
def leastPower : Int := -1074

/-- The mantissas of normal numbers start here. -/
def hidden : Nat := Nat.pow 2 52

/-- The exact value of a floating-point number. -/
def parts (x : Float) : Parts :=
  let bits := x.toBits.toNat
  let negative := bits / Nat.pow 2 63 == 1
  let exponent : Nat := bits / Nat.pow 2 52 % Nat.pow 2 11
  let fraction : Nat := bits % Nat.pow 2 52
  if exponent = 2047 then if fraction = 0 then .infinite negative else .undefined
  else if exponent = 0 then .finite negative fraction leastPower
  else .finite negative (hidden + fraction) ((exponent : Int) - 1075)

/-- The number with a sign, a mantissa below `2 ^ 53` and a power; infinite beyond the range. -/
def ofParts (negative : Bool) (mantissa : Nat) (power : Int) : Float :=
  let sign := if negative then Nat.pow 2 63 else 0
  let size :=
    if mantissa < hidden then mantissa
    else if 971 < power then 2047 * Nat.pow 2 52
    else (power + 1075).toNat * Nat.pow 2 52 + (mantissa - hidden)
  Float.ofBits (UInt64.ofNat (sign + size))

/-- The infinities and the number that is none. -/
def infinity (negative : Bool) : Float :=
  Float.ofBits (if negative then 0xfff0000000000000 else 0x7ff0000000000000)

/-- The value that is no number. -/
def nan : Float := Float.ofBits 0x7ff8000000000000

/-- The number nearest to a fraction, a half going to the even mantissa. -/
def ofRatio (negative : Bool) (r : Ratio) : Float :=
  if r.num = 0 then ofParts negative 0 leastPower
  else
    let guess : Int := r.num.log2 - r.den.log2
    let atLeast := if 0 ≤ guess then r.den * Nat.pow 2 guess.toNat ≤ r.num
      else r.den ≤ r.num * Nat.pow 2 guess.natAbs
    let leading := if atLeast then guess else guess - 1
    let power := max (leading - 52) leastPower
    let scaled : Ratio := if 0 ≤ power then ⟨r.num, r.den * Nat.pow 2 power.toNat⟩
      else ⟨r.num * Nat.pow 2 power.natAbs, r.den⟩
    let mantissa := scaled.round
    if mantissa = Nat.pow 2 53 then ofParts negative hidden (power + 1) else ofParts negative mantissa power

/-- The number nearest to a numeral. Exponents far beyond the range are settled by the position of
the first digit. -/
def ofNumeral : Numeral → Float
  | .finite negative digits exponent =>
    let leading := exponent + digitCount digits
    if digits = 0 ∨ leading < -400 then ofParts negative 0 leastPower
    else if 400 < leading then infinity negative
    else if 0 ≤ exponent then ofRatio negative ⟨digits * Nat.pow 10 exponent.toNat, 1⟩
    else ofRatio negative ⟨digits, Nat.pow 10 exponent.natAbs⟩
  | .infinite negative => infinity negative
  | .undefined => nan

/-- The number nearest to an integer, if one is in the range. -/
def ofInt? (value : Int) : Option Float :=
  let x := ofRatio (value < 0) ⟨value.natAbs, 1⟩
  if x.isFinite then some x else none

/-- A numeral made of the digits that `pick` finds for mantissa and power. -/
def toNumeral (x : Float) (pick : Nat → Int → Nat × Int) : Numeral :=
  match parts x with
  | .finite negative mantissa power =>
    if mantissa = 0 then .finite negative 0 0
    else
      let (digits, exponent) := pick mantissa power
      .finite negative digits exponent
  | .infinite negative => .infinite negative
  | .undefined => .undefined

/-- The numeral with the fewest digits that reads back as the number. -/
def shortest (x : Float) : Numeral :=
  toNumeral x fun mantissa power =>
    Decimal.shortest mantissa power (mantissa = hidden && power != leastPower)

/-- The numeral of `count` significant digits nearest to the number. -/
def rounded (count : Nat) (x : Float) : Numeral := toNumeral x (Decimal.rounded count)

/-- The least integer that is not below the number. -/
def ceil? (x : Float) : Option Int :=
  match parts x with
  | .finite negative mantissa power =>
    let value := Ratio.scaled mantissa power
    if negative then some (-(value.num / value.den : Nat))
    else some ((value.num + value.den - 1) / value.den : Nat)
  | _ => none

/-- The integer nearest to the number, a half going to the even one. -/
def nearestInt (x : Float) : Int :=
  match parts x with
  | .finite negative mantissa power =>
    let size := (Ratio.scaled mantissa power).round
    if negative then -size else size
  | _ => 0

end DhtRecords.Binary64
