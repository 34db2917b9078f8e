/-
How long integers may be as text.

Reading and writing an integer takes time in the square of its length, so
neither is done beyond a fixed number of digits.
-/

namespace DhtRecords.Decimal

/-- The most digits of an integer that is read or written. -/
def maxIntegerDigits : Nat := 4300

/-- Whether an integer has too many digits to be written. -/
def isTooLong (value : Int) : Bool := Nat.pow 10 maxIntegerDigits ≤ value.natAbs

/-- Integers of eight bytes have few digits. -/
theorem isTooLong_of_lt {value : Int} (small : value.natAbs < Nat.pow 2 64) :
    isTooLong value = false := by
  have large : Nat.pow 2 64 ≤ Nat.pow 10 maxIntegerDigits := by decide +kernel
  exact decide_eq_false (Nat.not_le.mpr (Nat.lt_of_lt_of_le small large))

/-- Why an integer is neither read nor written; there may be more to say about its digits. -/
def tooLongMessage (digits : String) : String :=
  s!"Exceeds the limit ({maxIntegerDigits} digits) for integer string conversion{digits}; "
    ++ "use sys.set_int_max_str_digits() to increase the limit"

end DhtRecords.Decimal
