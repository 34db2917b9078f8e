/-
Writing values of configuration files.

A text is written on one line between double quotes, with its quotes and
backslashes escaped and everything else as it is. Days, times and tables have no
written form of their own: their displays are written as texts.
-/

import DhtRecords.Toml.Value

namespace DhtRecords.Toml

/-- A character within double quotes. -/
def escapeChar (c : Char) : List Char := if c = '\\' ∨ c = '"' then ['\\', c] else [c]

/-- A text between double quotes. -/
def writeText (text : String) : String :=
  String.ofList ('"' :: text.toList.flatMap escapeChar ++ ['"'])

namespace Value

variable {τ : Type} [Quantity τ]

mutual

/-- The written form of a value. -/
def write : Value τ → String
  | bool value => if value then "true" else "false"
  | int value => toString value
  | float value => Quantity.exactText value
  | text value => writeText value
  | moment value => writeText value.text
  | list items => "[" ++ ", ".intercalate (writeItems items) ++ "]"
  | table entries => writeText (quoted (table entries))

/-- The written forms of a list's items. -/
def writeItems : List (Value τ) → List String
  | [] => []
  | item :: items => write item :: writeItems items

end

end Value

end DhtRecords.Toml
