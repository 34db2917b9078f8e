/-
Decimal numerals and how they are written.

A numeral is a natural number scaled by a power of ten, with a sign, or one
of the values that have no digits. A layout says where positional notation
ends and what marks a number without a fraction; `Numeral.write` follows it.
-/

namespace DhtRecords

/-- A decimal numeral. -/
inductive Numeral where
  /-- The digits of a natural number, times ten to the exponent. -/
  | finite (negative : Bool) (digits : Nat) (exponent : Int)
  /-- A value beyond all numbers. -/
  | infinite (negative : Bool)
  /-- No value. -/
  | undefined
  deriving DecidableEq, Repr

namespace Numeral

/-- How numerals are written. -/
structure Layout where
  /-- The least exponent of the first digit at which the notation is positional. -/
  positionalFrom : Int
  /-- The exponent of the first digit at which positional notation ends. -/
  positionalBelow : Int
  /-- What follows a positional number that has no fraction. -/
  whole : List Char

/-- Numbers that shall be read back: positional from 0.0001 up to sixteen digits, and always with a
fraction or an exponent. -/
def Layout.exact : Layout := ⟨-4, 16, ['.', '0']⟩

/-- Numbers in messages: positional up to six digits, whole numbers without a fraction. -/
def Layout.brief : Layout := ⟨-4, 6, []⟩

/-- The decimal digits of a natural number. -/
def digitsOf (value : Nat) : List Char := Nat.toDigits 10 value

/-- The digits without the zeros at their end, and the exponent that makes up for these. -/
def trimZeros (digits : List Char) (exponent : Int) : List Char × Int :=
  let kept := (digits.reverse.dropWhile (· = '0')).reverse
  if kept.isEmpty then (['0'], 0) else (kept, exponent + (digits.length - kept.length : Nat))

/-- An exponent: its sign and at least two digits. -/
def writeExponent (exponent : Int) : List Char :=
  let digits := digitsOf exponent.natAbs
  (if exponent < 0 then '-' else '+') :: List.replicate (2 - digits.length) '0' ++ digits

/-- Digits of which the first has the weight ten to `leading`. -/
def writeDigits (layout : Layout) (digits : List Char) (leading : Int) : List Char :=
  if layout.positionalFrom ≤ leading ∧ leading < layout.positionalBelow then
    if leading < 0 then
      '0' :: '.' :: List.replicate (leading.natAbs - 1) '0' ++ digits
    else
      let places := leading.toNat + 1
      if digits.length ≤ places then
        digits ++ List.replicate (places - digits.length) '0' ++ layout.whole
      else digits.take places ++ '.' :: digits.drop places
  else
    let mantissa := match digits with
      | first :: second :: rest => first :: '.' :: second :: rest
      | short => short
    mantissa ++ 'e' :: writeExponent leading

/-- The characters of a numeral. -/
def write (layout : Layout) : Numeral → List Char
  | finite negative digits exponent =>
    let (kept, scale) := trimZeros (digitsOf digits) exponent
    let text := writeDigits layout kept (scale + (kept.length - 1 : Nat))
    if negative then '-' :: text else text
  | infinite negative => if negative then "-inf".toList else "inf".toList
  | undefined => "nan".toList

end Numeral

end DhtRecords
