/-
Values of configuration files and how they are displayed.

A table keeps its entries in the order of the file. A display shows a text on
its own as it is, and a text inside a list or table as a quotation; so it is with days
and times.
-/

import DhtRecords.Decimal.Limit
import DhtRecords.Entries
import DhtRecords.Quantity
import DhtRecords.Text.Quoted
import DhtRecords.Toml.Moment

namespace DhtRecords.Toml

/-- A value, with fractional numbers from `τ`. -/
inductive Value (τ : Type) where
  | bool (value : Bool)
  | int (value : Int)
  | float (value : τ)
  | text (value : String)
  | moment (value : Moment)
  | list (items : List (Value τ))
  | table (entries : List (String × Value τ))
  deriving Inhabited

/-- Entries by name, in the order of the file. -/
abbrev Table (τ : Type) := List (String × Value τ)

/-- The value under a name. -/
def Table.get? {τ : Type} (table : Table τ) (name : String) : Option (Value τ) :=
  (table.find? (·.1 = name)).map Prod.snd

/-- The table with another value under a name that it has. -/
def Table.replace {τ : Type} (table : Table τ) (name : String) (value : Value τ) : Table τ :=
  table.map fun entry => if entry.1 = name then (name, value) else entry

namespace Value

variable {τ : Type} [Quantity τ]

/-- The name of a value's type in messages. -/
def typeName : Value τ → String
  | bool _ => "bool"
  | int _ => "int"
  | float _ => "float"
  | text _ => "str"
  | moment value => value.typeName
  | list _ => "list"
  | table _ => "dict"

mutual

/-- A value as a part of a display. -/
def quoted : Value τ → String
  | bool value => if value then "True" else "False"
  | int value => toString value
  | float value => Quantity.exactText value
  | text value => Text.quoted value
  | moment value => value.quoted
  | list items => "[" ++ ", ".intercalate (quotedItems items) ++ "]"
  | table entries => "\x7b" ++ ", ".intercalate (quotedEntries entries) ++ "\x7d"

/-- The items of a list as parts of a display. -/
def quotedItems : List (Value τ) → List String
  | [] => []
  | item :: items => quoted item :: quotedItems items

/-- The entries of a table as parts of a display. -/
def quotedEntries : List (String × Value τ) → List String
  | [] => []
  | (name, value) :: entries => (Text.quoted name ++ ": " ++ quoted value) :: quotedEntries entries

end

mutual

/-- Whether a value has an integer, at any depth, that is too long to be written. -/
def hasLongInteger : Value τ → Bool
  | int value => Decimal.isTooLong value
  | list items => hasLongItem items
  | table entries => hasLongEntry entries
  | _ => false

/-- Whether one of a list's items has such an integer. -/
def hasLongItem : List (Value τ) → Bool
  | [] => false
  | item :: items => hasLongInteger item || hasLongItem items

/-- Whether one of a table's entries has such an integer. -/
def hasLongEntry : List (String × Value τ) → Bool
  | [] => false
  | (_, value) :: entries => hasLongInteger value || hasLongEntry entries

end

/-- A value on its own. -/
def display : Value τ → String
  | text value => value
  | moment value => value.text
  | value => quoted value

end Value

end DhtRecords.Toml
