/-
The words of a configuration file: blanks and comments, names, texts, numbers,
days and times.

Every reader takes the characters from its word on and gives the word with
the characters after it, or nothing if no such word stands there.
-/

import DhtRecords.Decimal.Numeral
import DhtRecords.Text.Hex
import DhtRecords.Toml.Moment

namespace DhtRecords.Toml

/-- Blanks within a line. -/
def isBlank (c : Char) : Bool := c == ' ' || c == '\t'

/-- Controls, which stand nowhere in a file but as tabulators and line ends. -/
def isControl (c : Char) : Bool := (c.toNat < 0x20 && c != '\t') || c.toNat == 0x7f

/-- The characters from the first that is no blank on. -/
def skipBlanks (cs : List Char) : List Char := cs.dropWhile isBlank

/-- The characters from the end of the line on, within a comment. -/
def skipComment? : List Char → Option (List Char)
  | [] => some []
  | c :: rest =>
    if c = '\n' then some (c :: rest) else if isControl c then none else skipComment? rest

/-- The characters after blanks, line ends and comments; `comment` tells whether one is open. -/
def skipFiller? (comment : Bool) : List Char → Option (List Char)
  | [] => some []
  | c :: rest =>
    if comment then
      if c = '\n' then skipFiller? false rest
      else if isControl c then none
      else skipFiller? true rest
    else if isBlank c || c == '\n' then skipFiller? false rest
    else if c = '#' then skipFiller? true rest
    else some (c :: rest)

/-! ### Texts -/

/-- The character with so many hexadecimal digits, unless there is none. -/
def scalar? (digits : List Char) : Option Char := do
  let value := (← digits.mapM Hex.digit?).foldl (fun value digit => value * 16 + digit) 0
  if h : value.isValidChar then return Char.ofNatAux value h else none

/-- What an escape of one letter stands for. -/
def escape? : Char → Option Char
  | 'b' => some '\x08'
  | 't' => some '\t'
  | 'n' => some '\n'
  | 'f' => some '\x0c'
  | 'r' => some '\r'
  | '"' => some '"'
  | '\\' => some '\\'
  | _ => none

/-- What a backslash has opened in a text of several lines: blanks up to the line end, or the blanks
and line ends after it. -/
inductive Gap where
  | closed
  | toLineEnd
  | pastLineEnd
  deriving DecidableEq

/-- A text of one line between double quotes, from the opening quote on. -/
def readLine? : List Char → Option (List Char × List Char)
  | [] => none
  | '"' :: rest => some ([], rest)
  | '\\' :: 'u' :: a :: b :: c :: d :: rest => do
    let read ← scalar? [a, b, c, d]
    let (text, rest) ← readLine? rest
    return (read :: text, rest)
  | '\\' :: 'U' :: a :: b :: c :: d :: e :: f :: g :: h :: rest => do
    let read ← scalar? [a, b, c, d, e, f, g, h]
    let (text, rest) ← readLine? rest
    return (read :: text, rest)
  | '\\' :: c :: rest => do
    let read ← escape? c
    let (text, rest) ← readLine? rest
    return (read :: text, rest)
  | c :: rest => do
    if isControl c || c == '\\' then none
    let (text, rest) ← readLine? rest
    return (c :: text, rest)

/-- A text of several lines between double quotes, up to three closing quotes. -/
def readLines? : Gap → List Char → Option (List Char × List Char)
  | _, [] => none
  | .toLineEnd, c :: rest =>
    if c = '\n' then readLines? .pastLineEnd rest
    else if isBlank c then readLines? .toLineEnd rest
    else none
  | gap, c :: rest =>
    if gap = .pastLineEnd ∧ (isBlank c || c == '\n') then readLines? .pastLineEnd rest
    else match c, rest with
      | '"', '"' :: '"' :: rest => some ([], rest)
      | '\\', '\n' :: rest => readLines? .pastLineEnd rest
      | '\\', ' ' :: rest => readLines? .toLineEnd rest
      | '\\', '\t' :: rest => readLines? .toLineEnd rest
      | '\\', 'u' :: a :: b :: c :: d :: rest => do
        let read ← scalar? [a, b, c, d]
        let (text, rest) ← readLines? .closed rest
        return (read :: text, rest)
      | '\\', 'U' :: a :: b :: c :: d :: e :: f :: g :: h :: rest => do
        let read ← scalar? [a, b, c, d, e, f, g, h]
        let (text, rest) ← readLines? .closed rest
        return (read :: text, rest)
      | '\\', c :: rest => do
        let read ← escape? c
        let (text, rest) ← readLines? .closed rest
        return (read :: text, rest)
      | c, rest => do
        if (isControl c && c != '\n') || c == '\\' then none
        let (text, rest) ← readLines? .closed rest
        return (c :: text, rest)

/-- A text between single quotes, in which nothing is escaped. -/
def readLiteral? : List Char → Option (List Char × List Char)
  | [] => none
  | c :: rest =>
    if c = '\'' then some ([], rest)
    else if isControl c then none
    else (readLiteral? rest).map fun (text, rest) => (c :: text, rest)

/-- A text of several lines between single quotes, up to three closing quotes. -/
def readLiteralLines? : List Char → Option (List Char × List Char)
  | [] => none
  | '\'' :: '\'' :: '\'' :: rest => some ([], rest)
  | c :: rest =>
    if isControl c && c != '\n' then none
    else (readLiteralLines? rest).map fun (text, rest) => (c :: text, rest)

/-- A text of several lines without the line end at its front, and with up to two more quotes
before the closing three. -/
def finishLines (quote : Char) (read : List Char × List Char) : List Char × List Char :=
  let (text, rest) := read
  match rest with
  | a :: b :: more =>
    if a = quote then if b = quote then (text ++ [quote, quote], more) else (text ++ [quote], b :: more)
    else (text, rest)
  | [a] => if a = quote then (text ++ [quote], []) else (text, rest)
  | [] => (text, rest)

/-- The characters after a line end at the front. -/
def skipLineEnd : List Char → List Char
  | '\n' :: rest => rest
  | rest => rest

/-- A text in any of the four forms. -/
def readText? : List Char → Option (List Char × List Char)
  | '"' :: '"' :: '"' :: rest => (readLines? .closed (skipLineEnd rest)).map (finishLines '"')
  | '"' :: rest => readLine? rest
  | '\'' :: '\'' :: '\'' :: rest => (readLiteralLines? (skipLineEnd rest)).map (finishLines '\'')
  | '\'' :: rest => readLiteral? rest
  | _ => none

/-! ### Names -/

/-- The characters of names that need no quotes. -/
def isNameChar (c : Char) : Bool := (c.toNat < 0x80 && c.isAlphanum) || c == '-' || c == '_'

/-- A name: plain characters, or a text of one line. -/
def readName? : List Char → Option (List Char × List Char)
  | '"' :: rest => readLine? rest
  | '\'' :: rest => readLiteral? rest
  | cs =>
    match cs.takeWhile isNameChar with
    | [] => none
    | name => some (name, cs.dropWhile isNameChar)

/-- The names that lead to a value, outermost first. -/
abbrev Key := List String

/-- Names with points between them, and the blanks around them; each takes a character at least,
so the length is fuel enough. -/
def readKeyFrom? : Nat → List Char → Option (Key × List Char)
  | 0, _ => none
  | fuel + 1, cs => do
    let (name, rest) ← readName? (skipBlanks cs)
    match skipBlanks rest with
    | '.' :: rest =>
      let (key, rest) ← readKeyFrom? fuel rest
      return (String.ofList name :: key, rest)
    | rest => return ([String.ofList name], rest)

/-- A key. -/
def readKey? (cs : List Char) : Option (Key × List Char) := readKeyFrom? (cs.length + 1) cs

/-! ### Numbers -/

/-- A number in a file: an integer of so many decimal digits, or a numeral. -/
inductive Number where
  | integer (value : Int) (decimals : Nat)
  | numeral (value : Numeral)

/-- The value of a digit below a base. -/
def digitBelow? (base : Nat) (c : Char) : Option Nat := (Hex.digit? c).filter (· < base)

/-- More digits, each of which may follow an underscore. -/
def moreDigits (base : Nat) : List Char → List Nat × List Char
  | '_' :: c :: rest =>
    match digitBelow? base c with
    | some digit =>
      let (digits, rest) := moreDigits base rest
      (digit :: digits, rest)
    | none => ([], '_' :: c :: rest)
  | c :: rest =>
    match digitBelow? base c with
    | some digit =>
      let (digits, rest) := moreDigits base rest
      (digit :: digits, rest)
    | none => ([], c :: rest)
  | [] => ([], [])

/-- Digits, at least one. -/
def readDigits? (base : Nat) : List Char → Option (List Nat × List Char)
  | [] => none
  | c :: rest => do
    let digit ← digitBelow? base c
    let (digits, rest) := moreDigits base rest
    return (digit :: digits, rest)

/-- The number that digits spell. -/
def ofDigits (base : Nat) (digits : List Nat) : Nat :=
  digits.foldl (fun value digit => value * base + digit) 0

/-- The digits before the point: a lone zero, or digits that do not start with one. -/
def readWholePart? : List Char → Option (List Nat × List Char)
  | '0' :: rest => some ([0], rest)
  | cs => readDigits? 10 cs

/-- A point and the digits after it; the digits are empty if there is no point. -/
def readFraction : List Char → List Nat × List Char
  | '.' :: rest => (readDigits? 10 rest).getD ([], '.' :: rest)
  | rest => ([], rest)

/-- A sign, if there is one. -/
def readSign : List Char → Bool × List Char
  | '-' :: rest => (true, rest)
  | '+' :: rest => (false, rest)
  | rest => (false, rest)

/-- An exponent after its mark, if there is one. -/
def readExponent : List Char → Option Int × List Char
  | c :: rest =>
    let (negative, digits) := readSign rest
    match c == 'e' || c == 'E', readDigits? 10 digits with
    | true, some (digits, rest) =>
      let size : Int := ofDigits 10 digits
      (some (if negative then -size else size), rest)
    | _, _ => (none, c :: rest)
  | [] => (none, [])

/-- A decimal number after its sign. -/
def readDecimal? (negative : Bool) (cs : List Char) : Option (Number × List Char) := do
  let (whole, rest) ← readWholePart? cs
  let (fraction, rest) := readFraction rest
  let (exponent, rest) := readExponent rest
  let size := ofDigits 10 (whole ++ fraction)
  if fraction.isEmpty ∧ exponent.isNone then
    return (.integer (if negative then -size else size) whole.length, rest)
  else
    return (.numeral (.finite negative size (exponent.getD 0 - fraction.length)), rest)

/-- One of the values without digits after its sign. -/
def readNamed? (negative : Bool) : List Char → Option (Number × List Char)
  | 'i' :: 'n' :: 'f' :: rest => some (.numeral (.infinite negative), rest)
  | 'n' :: 'a' :: 'n' :: rest => some (.numeral .undefined, rest)
  | _ => none

/-- An integer in another base. -/
def readBased? (base : Nat) (cs : List Char) : Option (Number × List Char) :=
  (readDigits? base cs).map fun (digits, rest) => (.integer (ofDigits base digits) 0, rest)

/-- A number in any form. -/
def readNumber? : List Char → Option (Number × List Char)
  | '0' :: 'x' :: rest => readBased? 16 rest
  | '0' :: 'o' :: rest => readBased? 8 rest
  | '0' :: 'b' :: rest => readBased? 2 rest
  | cs =>
    let (negative, rest) := readSign cs
    readDecimal? negative rest <|> readNamed? negative rest

/-! ### Days and times -/

/-- So many decimal digits. -/
def readPlaces? : Nat → List Char → Option (List Nat × List Char)
  | 0, cs => some ([], cs)
  | _ + 1, [] => none
  | count + 1, c :: rest => do
    let digit ← digitBelow? 10 c
    let (digits, rest) ← readPlaces? count rest
    return (digit :: digits, rest)

/-- A number of two digits that is within bounds. -/
def readTwo? (least most : Nat) (cs : List Char) : Option (Nat × List Char) := do
  let (digits, rest) ← readPlaces? 2 cs
  let number := ofDigits 10 digits
  if least ≤ number ∧ number ≤ most then some (number, rest) else none

/-- The characters after a mark. -/
def skipMark? (mark : Char) : List Char → Option (List Char)
  | c :: rest => if c = mark then some rest else none
  | [] => none

/-- The numbers of a day and what follows them. The month may have fewer days than that. -/
def readDay? (cs : List Char) : Option (Option Day × List Char) := do
  let (year, rest) ← readPlaces? 4 cs
  let (month, rest) ← readTwo? 1 12 (← skipMark? '-' rest)
  let (day, rest) ← readTwo? 1 31 (← skipMark? '-' rest)
  return (Day.ofNumbers? (ofDigits 10 year) month day, rest)

/-- A point and the digits of a fraction of a second after it, in millionths; more digits than six are
passed over. -/
def readMicros : List Char → Nat × List Char
  | '.' :: rest =>
    match rest.takeWhile Char.isDigit with
    | [] => (0, '.' :: rest)
    | digits =>
      let places := (digits ++ List.replicate 5 '0').take 6
      (ofDigits 10 (places.map fun c => c.toNat - 48), rest.dropWhile Char.isDigit)
  | rest => (0, rest)

/-- A time of the day. -/
def readClock? (cs : List Char) : Option (Clock × List Char) := do
  let (hour, rest) ← readTwo? 0 23 cs
  let (minute, rest) ← readTwo? 0 59 (← skipMark? ':' rest)
  let (second, rest) ← readTwo? 0 59 (← skipMark? ':' rest)
  let (micro, rest) := readMicros rest
  return (⟨hour, minute, second, micro⟩, rest)

/-- A time of the day after a day and the mark between them. -/
def readClockAfter? : List Char → Option (Clock × List Char)
  | c :: rest => if c = 'T' ∨ c = 't' ∨ c = ' ' then readClock? rest else none
  | [] => none

/-- Hours and minutes after a sign. -/
def readOffset? : List Char → Option (Int × List Char)
  | c :: rest =>
    if c = '+' ∨ c = '-' then do
      let (hours, rest) ← readTwo? 0 23 rest
      let (minutes, rest) ← readTwo? 0 59 (← skipMark? ':' rest)
      let size : Int := 60 * hours + minutes
      return (if c = '-' then -size else size, rest)
    else none
  | [] => none

/-- By how many minutes a time is ahead, if that is said after it. -/
def readAhead (cs : List Char) : Option Int × List Char :=
  match cs with
  | 'Z' :: rest => (some 0, rest)
  | 'z' :: rest => (some 0, rest)
  | cs =>
    match readOffset? cs with
    | some (minutes, rest) => (some minutes, rest)
    | none => (none, cs)

/-- A day, a time or both; there may be no such day. -/
def readMoment? (cs : List Char) : Option (Option Moment × List Char) :=
  match readDay? cs with
  | none => (readClock? cs).map fun (clock, rest) => (some (.time clock), rest)
  | some (day, rest) =>
    match readClockAfter? rest with
    | none => some (day.map .date, rest)
    | some (clock, rest) =>
      let (ahead, rest) := readAhead rest
      some (day.map fun day => .both day clock ahead, rest)

end DhtRecords.Toml
