/-
The two sets of blank characters: what surrounds a number in a string, and
what is trimmed from a word.
-/

namespace DhtRecords.Text

/-- The blanks of seven-bit text: tabulators, line ends, form feed and the space. -/
def isAsciiBlank (c : Char) : Bool := (9 ≤ c.toNat && c.toNat ≤ 13) || c == ' '

/-- The space characters of Unicode beyond the seven-bit range, the next-line control included. -/
def isWideBlank (c : Char) : Bool :=
  let n := c.toNat
  n == 0x85 || n == 0xa0 || n == 0x1680 || (0x2000 ≤ n && n ≤ 0x200a) || n == 0x2028
    || n == 0x2029 || n == 0x202f || n == 0x205f || n == 0x3000

/-- What may surround a number. -/
def isNumberBlank (c : Char) : Bool := isAsciiBlank c || isWideBlank c

/-- What is trimmed from a word: the blanks around numbers and the four separator controls. -/
def isBlank (c : Char) : Bool := isNumberBlank c || (0x1c ≤ c.toNat && c.toNat ≤ 0x1f)

/-- The characters without those at either end that satisfy the test. -/
def trim (drop : Char → Bool) (cs : List Char) : List Char :=
  ((cs.dropWhile drop).reverse.dropWhile drop).reverse

end DhtRecords.Text
