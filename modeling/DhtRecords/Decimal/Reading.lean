/-
Numbers read from strings that people write: settings in the environment and
on the command line.

Blanks may surround the number, digits may be of any script, and a single
underscore may stand between two digits.
-/

import DhtRecords.Decimal.Limit
import DhtRecords.Decimal.Numeral
import DhtRecords.Text.Blank
import DhtRecords.Text.Digit
import DhtRecords.Text.Quoted

namespace DhtRecords.Decimal

open Text (digit? isNumberBlank trim)

/-- Why a string is no number. -/
inductive ReadError where
  | notAnInteger (text : String)
  | notANumber (text : String)
  /-- An integer of more digits than are converted. -/
  | tooManyDigits (count : Nat)
  deriving DecidableEq, Repr

/-- At most this much of a quotation is shown. -/
def maxQuotation : Nat := 200

def ReadError.message : ReadError → String
  | notAnInteger text =>
    "invalid literal for int() with base 10: "
      ++ String.ofList ((Text.quoted text).toList.take maxQuotation)
  | notANumber text => "could not convert string to float: " ++ Text.quoted text
  | tooManyDigits count => tooLongMessage s!": value has {count} digits"

/-- At least one digit, with single underscores between digits and nothing else. -/
def separatedDigits? : List Char → Option (List Nat)
  | [] => none
  | [c] => (digit? c).map ([·])
  | c :: '_' :: rest => do return (← digit? c) :: (← separatedDigits? rest)
  | c :: d :: rest => do return (← digit? c) :: (← separatedDigits? (d :: rest))

/-- The number that decimal digits spell. -/
def ofDigits (digits : List Nat) : Nat := digits.foldl (fun value digit => value * 10 + digit) 0

/-- Whether there is a minus sign, and what follows the sign. -/
def splitSign : List Char → Bool × List Char
  | '-' :: rest => (true, rest)
  | '+' :: rest => (false, rest)
  | rest => (false, rest)

/-- The characters before the first that satisfies the test, and those after it. -/
def splitAtFirst (test : Char → Bool) (cs : List Char) : List Char × Option (List Char) :=
  match cs.dropWhile (fun c => !test c) with
  | [] => (cs, none)
  | _ :: rest => (cs.takeWhile (fun c => !test c), some rest)

/-- Whether a character can stand in the digits of an integer. -/
def isDigitOrSeparator (c : Char) : Bool := c = '_' || (digit? c).isSome

/-- An integer. Its digits are counted before what follows them is looked at. -/
def readInt (text : String) : Except ReadError Int :=
  let (negative, body) := splitSign (text.toList.dropWhile isNumberBlank)
  match separatedDigits? (body.takeWhile isDigitOrSeparator) with
  | none => .error (.notAnInteger text)
  | some digits =>
    if maxIntegerDigits < digits.length then .error (.tooManyDigits digits.length)
    else if (body.dropWhile isDigitOrSeparator).all isNumberBlank then
      .ok (if negative then -(ofDigits digits : Int) else ofDigits digits)
    else .error (.notAnInteger text)

/-- Digits, of which there may be none. -/
def optionalDigits? : List Char → Option (List Nat)
  | [] => some []
  | cs => separatedDigits? cs

/-- The exponent after its mark. -/
def readExponent? (cs : List Char) : Option Int :=
  let (negative, body) := splitSign cs
  (separatedDigits? body).map fun digits =>
    if negative then -(ofDigits digits : Int) else ofDigits digits

/-- A number without sign: digits with an optional point and exponent. -/
def readUnsigned? (negative : Bool) (cs : List Char) : Option Numeral := do
  let (mantissa, exponentPart) := splitAtFirst (· = 'e') cs
  let (wholePart, fractionPart) := splitAtFirst (· = '.') mantissa
  let whole ← optionalDigits? wholePart
  let fraction ← optionalDigits? (fractionPart.getD [])
  guard (!(whole ++ fraction).isEmpty)
  let exponent ← match exponentPart with
    | none => some 0
    | some part => readExponent? part
  return .finite negative (ofDigits (whole ++ fraction)) (exponent - fraction.length)

/-- A number with a fraction or an exponent, or one of the names of the values without digits. -/
def readNumeral (text : String) : Except ReadError Numeral :=
  let (negative, body) := splitSign ((trim isNumberBlank text.toList).map Char.toLower)
  if body = "inf".toList ∨ body = "infinity".toList then .ok (.infinite negative)
  else if body = "nan".toList then .ok .undefined
  else match readUnsigned? negative body with
    | some numeral => .ok numeral
    | none => .error (.notANumber text)

end DhtRecords.Decimal
