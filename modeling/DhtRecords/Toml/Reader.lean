/-
Reading configuration files.

A file is a sequence of statements, one a line: a header that opens a table,
a header that opens a new item in a list of tables, or a key with its value.
A `Document` is what the statements so far have made, with what later ones
must leave alone: a table is opened by one header at most, a table made by
the points of a key belongs to the section of that key, and a list or table
written as a value is complete.
-/

import DhtRecords.Decimal.Reading
import DhtRecords.Toml.Lexeme
import DhtRecords.Toml.Value

namespace DhtRecords.Toml

/-- Why a file cannot be read. -/
inductive ReadError where
  | malformed
  /-- An integer of more digits than are converted. -/
  | tooManyDigits (count : Nat)
  deriving DecidableEq, Repr

/-- What is there, or the file is malformed. -/
def required {α : Type} : Option α → Except ReadError α
  | some value => .ok value
  | none => .error .malformed

variable {τ : Type} [Quantity τ]

/-! ### Tables within tables -/

/-- The table with a change of the table that a key leads to. Missing tables are made on the way; a
list stands for its last item, if `throughLists` is set. -/
def alter? (throughLists : Bool) (change : Table τ → Option (Table τ)) :
    Key → Table τ → Option (Table τ)
  | [], table => change table
  | name :: key, table =>
    match table.get? name with
    | none => (alter? throughLists change key []).map fun inner => table ++ [(name, .table inner)]
    | some (.table inner) =>
      (alter? throughLists change key inner).map fun inner => table.replace name (.table inner)
    | some (.list items) =>
      match throughLists, items.getLast? with
      | true, some (.table inner) =>
        (alter? throughLists change key inner).map fun inner =>
          table.replace name (.list (items.dropLast ++ [.table inner]))
      | _, _ => none
    | some _ => none

/-- The table with a new entry; `none` if the name is taken. -/
def addValue? (name : String) (value : Value τ) (table : Table τ) : Option (Table τ) :=
  if (table.get? name).isSome then none else some (table ++ [(name, value)])

/-- The table with one more empty table at the end of the list of that name. -/
def addItem? (name : String) (table : Table τ) : Option (Table τ) :=
  match table.get? name with
  | none => some (table ++ [(name, .list [.table []])])
  | some (.list items) => some (table.replace name (.list (items ++ [.table []])))
  | some _ => none

/-- Whether a key or one that leads to it is among complete values. -/
def isWithin (complete : List Key) (key : Key) : Bool := complete.any (·.isPrefixOf key)

/-- Whether a value is complete once it is written. -/
def Value.isContainer : Value τ → Bool
  | .list _ => true
  | .table _ => true
  | _ => false

/-- The key among the complete ones, if its value is a list or table. -/
def addComplete (complete : List Key) (key : Key) (value : Value τ) : List Key :=
  if value.isContainer then key :: complete else complete

/-! ### Values -/

/-- The value of a number. -/
def Number.toValue : Number → Except ReadError (Value τ)
  | .integer value decimals =>
    if Decimal.maxIntegerDigits < decimals then .error (.tooManyDigits decimals) else .ok (.int value)
  | .numeral value => .ok (.float (Quantity.ofNumeral value))

/-- A value that holds no other. -/
def readScalar : List Char → Except ReadError (Value τ × List Char)
  | 't' :: 'r' :: 'u' :: 'e' :: rest => .ok (.bool true, rest)
  | 'f' :: 'a' :: 'l' :: 's' :: 'e' :: rest => .ok (.bool false, rest)
  | cs =>
    match readText? cs with
    | some (text, rest) => .ok (.text (String.ofList text), rest)
    | none =>
      match readMoment? cs with
      | some (moment, rest) => do return (.moment (← required moment), rest)
      | none => do
        let (number, rest) ← required (readNumber? cs)
        return (← number.toValue, rest)

mutual

/-- A value and what follows it; `fuel` bounds the nested calls. -/
def readValue : Nat → List Char → Except ReadError (Value τ × List Char)
  | 0, _ => .error .malformed
  | fuel + 1, '[' :: rest => do
    match ← required (skipFiller? false rest) with
    | ']' :: rest => return (.list [], rest)
    | rest =>
      let (items, rest) ← readItems fuel rest
      return (.list items, rest)
  | fuel + 1, '\x7b' :: rest =>
    match skipBlanks rest with
    | '\x7d' :: rest => return (.table [], rest)
    | rest => do
      let (entries, rest) ← readEntries fuel [] [] rest
      return (.table entries, rest)
  | _ + 1, cs => readScalar cs

/-- The items of a list up to its end. -/
def readItems : Nat → List Char → Except ReadError (List (Value τ) × List Char)
  | 0, _ => .error .malformed
  | fuel + 1, cs => do
    let (item, rest) ← readValue fuel cs
    match ← required (skipFiller? false rest) with
    | ']' :: rest => return ([item], rest)
    | ',' :: rest =>
      match ← required (skipFiller? false rest) with
      | ']' :: rest => return ([item], rest)
      | rest =>
        let (items, rest) ← readItems fuel rest
        return (item :: items, rest)
    | _ => .error .malformed

/-- The entries of a table on one line, up to its end, after those in `entries`. -/
def readEntries : Nat → List Key → Table τ → List Char → Except ReadError (Table τ × List Char)
  | 0, _, _, _ => .error .malformed
  | fuel + 1, complete, entries, cs => do
    let (key, value, rest) ← readPair fuel cs
    if isWithin complete key then throw .malformed
    let entries ← required
      (alter? false (addValue? (key.getLast?.getD "") value) key.dropLast entries)
    match skipBlanks rest with
    | '\x7d' :: rest => return (entries, rest)
    | ',' :: rest => readEntries fuel (addComplete complete key value) entries (skipBlanks rest)
    | _ => .error .malformed

/-- A key with its value. -/
def readPair : Nat → List Char → Except ReadError (Key × Value τ × List Char)
  | 0, _ => .error .malformed
  | fuel + 1, cs => do
    match ← required (readKey? cs) with
    | (key, '=' :: rest) =>
      let (value, rest) ← readValue fuel (skipBlanks rest)
      return (key, value, rest)
    | _ => .error .malformed

end

/-- Each nested call but one in two takes a character. -/
def fuelFor (cs : List Char) : Nat := 3 * cs.length + 3

/-! ### Statements -/

/-- One line of a file. -/
inductive Statement (τ : Type) where
  | blank
  | openTable (key : Key)
  | openItem (key : Key)
  | entry (key : Key) (value : Value τ)

/-- A statement without the end of its line. -/
def readStatement : List Char → Except ReadError (Statement τ × List Char)
  | [] => .ok (.blank, [])
  | '[' :: '[' :: rest => do
    match ← required (readKey? rest) with
    | (key, ']' :: ']' :: rest) => return (.openItem key, rest)
    | _ => .error .malformed
  | '[' :: rest => do
    match ← required (readKey? rest) with
    | (key, ']' :: rest) => return (.openTable key, rest)
    | _ => .error .malformed
  | c :: rest =>
    if c = '\n' ∨ c = '#' then .ok (.blank, c :: rest)
    else do
      let (key, value, rest) ← readPair (fuelFor (c :: rest)) (c :: rest)
      return (.entry key value, rest)

/-- What follows the end of a line: after blanks and a comment there is nothing, or a line end. -/
def skipToNextLine? (cs : List Char) : Option (Option (List Char)) := do
  let rest ← match skipBlanks cs with
    | '#' :: rest => skipComment? rest
    | rest => some rest
  match rest with
  | [] => return none
  | '\n' :: rest => return some rest
  | _ => none

/-! ### Documents -/

/-- What the statements so far have made. -/
structure Document (τ : Type) where
  data : Table τ := []
  /-- The section that entries belong to. -/
  section_ : Key := []
  /-- The tables that no header opens again. -/
  opened : List Key := []
  /-- The tables made by the keys of the current section: its own until the next header. -/
  dotted : List Key := []
  /-- Values that are complete. -/
  complete : List Key := []

namespace Document

/-- The keys that lead to a key from a section on, without the key itself. -/
def leadingKeys (base key : Key) : List Key :=
  (List.range (key.length - 1)).map fun count => base ++ key.take (count + 1)

/-- The tables of the last section's keys become opened ones. -/
def closeSection (document : Document τ) : Document τ :=
  { document with opened := document.dotted ++ document.opened, dotted := [] }

/-- A header that opens a table. -/
def openTable? (document : Document τ) (key : Key) : Option (Document τ) := do
  let document := document.closeSection
  if document.opened.contains key || isWithin document.complete key then none
  let data ← alter? true some key document.data
  return { document with data, section_ := key, opened := key :: document.opened }

/-- A header that opens a new item in a list of tables; what was said of the last item is
forgotten. -/
def openItem? (document : Document τ) (key : Key) : Option (Document τ) := do
  let document := document.closeSection
  if isWithin document.complete key then none
  let data ← alter? true (addItem? (key.getLast?.getD "")) key.dropLast document.data
  let others := List.filter fun other => !key.isPrefixOf other
  return { document with
    data, section_ := key, opened := key :: others document.opened, complete := others document.complete }

/-- A key with its value. -/
def assign? (document : Document τ) (key : Key) (value : Value τ) : Option (Document τ) := do
  let leading := leadingKeys document.section_ key
  let target := document.section_ ++ key.dropLast
  if leading.any document.opened.contains || isWithin document.complete target then none
  let data ← alter? true (addValue? (key.getLast?.getD "") value) target document.data
  return { document with
    data
    dotted := leading ++ document.dotted
    complete := addComplete document.complete (document.section_ ++ key) value }

/-- The document after one more statement. -/
def follow? (document : Document τ) : Statement τ → Option (Document τ)
  | .blank => some document
  | .openTable key => document.openTable? key
  | .openItem key => document.openItem? key
  | .entry key value => document.assign? key value

end Document

/-- The document after the rest of a file; each line takes a character at least. -/
def readLinesInto : Nat → Document τ → List Char → Except ReadError (Document τ)
  | 0, _, _ => .error .malformed
  | fuel + 1, document, cs => do
    let (statement, rest) ← readStatement (skipBlanks cs)
    let document ← required (document.follow? statement)
    match ← required (skipToNextLine? rest) with
    | none => return document
    | some rest => readLinesInto fuel document rest

/-- Every kind of line end becomes a single character. -/
def unifyLineEnds : List Char → List Char
  | '\r' :: '\n' :: rest => '\n' :: unifyLineEnds rest
  | '\r' :: rest => '\n' :: unifyLineEnds rest
  | c :: rest => c :: unifyLineEnds rest
  | [] => []

/-- The table that a file describes. -/
def read (text : String) : Except ReadError (Table τ) :=
  let cs := unifyLineEnds text.toList
  (readLinesInto (cs.length + 1) {} cs).map (·.data)

end DhtRecords.Toml
