/-
Values that the command line prints, and their text.

All characters beyond seven bits, and all controls, are escaped in units of
sixteen bits. A compact text is one line; an indented one has every item of a
list or object on a line of its own. Days and times have no text, nor have integers
of too many digits; the first of them in a value decides why it cannot be printed.
-/

import DhtRecords.Config.Basic
import DhtRecords.ErrorKind
import DhtRecords.Text.Quoted

namespace DhtRecords

/-- Why a value cannot be printed. -/
inductive JsonError where
  /-- An integer has too many digits to be written. -/
  | tooLong
  /-- There is no text for values of a type. -/
  | formless (typeName : String)
  deriving DecidableEq, Repr

/-- The text of an error. -/
def JsonError.message : JsonError → String
  | tooLong => Decimal.tooLongMessage ""
  | formless typeName => s!"Object of type {typeName} is not JSON serializable"

/-- A value to print. An object keeps its members in order. -/
inductive Json (τ : Type) where
  | bool (value : Bool)
  | int (value : Int)
  | float (value : τ)
  | text (value : String)
  | moment (value : Toml.Moment)
  | list (items : List (Json τ))
  | object (members : List (String × Json τ))

namespace Json

/-- A unit of sixteen bits as an escape. -/
def escapeUnit (unit : Nat) : List Char := '\\' :: 'u' :: Text.hexDigits 4 unit

/-- A character within a text. -/
def escapeChar (c : Char) : List Char :=
  let n := c.toNat
  if c = '"' ∨ c = '\\' then ['\\', c]
  else if c = '\n' then ['\\', 'n']
  else if c = '\r' then ['\\', 'r']
  else if c = '\t' then ['\\', 't']
  else if n = 0x08 then ['\\', 'b']
  else if n = 0x0c then ['\\', 'f']
  else if 0x20 ≤ n ∧ n ≤ 0x7e then [c]
  else if n < 0x10000 then escapeUnit n
  else escapeUnit (0xd800 + (n - 0x10000) / 0x400) ++ escapeUnit (0xdc00 + (n - 0x10000) % 0x400)

/-- A text between quotes. -/
def quote (text : String) : String :=
  String.ofList ('"' :: text.toList.flatMap escapeChar ++ ['"'])

/-- The line end and the blanks before what is so deep in a text. -/
def lineAt (depth : Nat) : String := "\n" ++ String.ofList (List.replicate (2 * depth) ' ')

variable {τ : Type} [Quantity τ]

/-- A number; those without digits have names of their own. -/
def writeNumber (value : τ) : String :=
  match Quantity.shortest value with
  | .infinite negative => if negative then "-Infinity" else "Infinity"
  | .undefined => "NaN"
  | numeral => String.ofList (numeral.write .exact)

/-- Items between brackets, on one line or, with a depth, each on its own. -/
def enclose (opening closing : String) (depth : Option Nat) (items : List String) : String :=
  match items, depth with
  | [], _ => opening ++ closing
  | items, none => opening ++ ", ".intercalate items ++ closing
  | items, some depth =>
    opening ++ lineAt (depth + 1) ++ ("," ++ lineAt (depth + 1)).intercalate items
      ++ lineAt depth ++ closing

mutual

/-- The text of a value, on one line or, with a depth, indented. -/
def write (depth : Option Nat) : Json τ → Except JsonError String
  | bool value => .ok (if value then "true" else "false")
  | int value => if Decimal.isTooLong value then .error .tooLong else .ok (toString value)
  | float value => .ok (writeNumber value)
  | text value => .ok (quote value)
  | moment value => .error (.formless value.kindName)
  | list items => (writeItems (depth.map (· + 1)) items).map (enclose "[" "]" depth)
  | object members => (writeMembers (depth.map (· + 1)) members).map (enclose "\x7b" "\x7d" depth)

/-- The texts of items. -/
def writeItems (depth : Option Nat) : List (Json τ) → Except JsonError (List String)
  | [] => .ok []
  | item :: items => do return (← write depth item) :: (← writeItems depth items)

/-- The texts of members. -/
def writeMembers (depth : Option Nat) : List (String × Json τ) → Except JsonError (List String)
  | [] => .ok []
  | (name, value) :: members => do
    return (quote name ++ ": " ++ (← write depth value)) :: (← writeMembers depth members)

end

/-- The text of a value on one line. -/
def compact (value : Json τ) : Except JsonError String := value.write none

/-- The text of a value over several lines. -/
def indented (value : Json τ) : Except JsonError String := value.write (some 0)

/-! ### Settings and errors -/

mutual

/-- A value of a configuration file. -/
def ofToml : Toml.Value τ → Json τ
  | .bool value => bool value
  | .int value => int value
  | .float value => float value
  | .text value => text value
  | .moment value => moment value
  | .list items => list (ofTomlItems items)
  | .table entries => object (ofTomlEntries entries)

/-- The items of a list. -/
def ofTomlItems : List (Toml.Value τ) → List (Json τ)
  | [] => []
  | item :: items => ofToml item :: ofTomlItems items

/-- The entries of a table. -/
def ofTomlEntries : List (String × Toml.Value τ) → List (String × Json τ)
  | [] => []
  | (name, value) :: entries => (name, ofToml value) :: ofTomlEntries entries

end

/-- The value of a setting; a path is a text. -/
def ofSetting : SettingValue τ → Json τ
  | .path path => text path.text
  | .plain value => ofToml value

/-- All settings by section. -/
def ofConfig (config : Config τ) : Json τ :=
  object <| Section.all.map fun place =>
    (place.name, object <| (Setting.within place).map fun setting =>
      (setting.name, ofSetting (config setting)))

/-- An error with its code and what to do about it. -/
def ofError (error : OperationError) : Json τ :=
  object [("error", object [
    ("code", text error.kind.code),
    ("kind", text error.kind.name),
    ("message", text error.message),
    ("resolution", text error.kind.resolution)])]

end Json

end DhtRecords
