/-
How a setting gets its value: from a string of the environment or the command
line, or from the file; matched to the setting's kind, and then fitted into
the setting's bounds and choices.
-/

import DhtRecords.Config.Setting
import DhtRecords.Decimal.Reading
import DhtRecords.Disk
import DhtRecords.Text.Split
import DhtRecords.Toml.Reader

namespace DhtRecords

/-- Why there are no settings. -/
inductive ConfigError where
  /-- The file is not in the format of such files. -/
  | malformed
  /-- The file is not UTF-8. -/
  | notText
  /-- A string is no number, or has too many digits. -/
  | number (error : Decimal.ReadError)
  /-- A whole number is beyond the range of the setting. -/
  | beyondRange
  /-- A section of the file is a value of another type than a table. -/
  | notATable (typeName : String)
  /-- A whole number has too many digits to be written. -/
  | tooLong
  /-- A path is in the home folder of somebody unknown. -/
  | noHome
  | disk (error : DiskError)
  deriving DecidableEq, Repr

namespace ConfigError

/-- The text of an error; that of the file's format has none. -/
def message : ConfigError → String
  | malformed => ""
  | notText => ""
  | number error => error.message
  | beyondRange => "int too large to convert to float"
  | notATable typeName => s!"'{typeName}' object has no attribute 'get'"
  | tooLong => Decimal.tooLongMessage ""
  | noHome => "Could not determine home directory."
  | disk error => error.message

/-- The error of the file's format. -/
def ofToml : Toml.ReadError → ConfigError
  | .malformed => malformed
  | .tooManyDigits count => number (.tooManyDigits count)

end ConfigError

variable {τ : Type} [Quantity τ]

/-- A number no lower and no higher than the bounds. A number that is not comparable stays. -/
def clamp (low high x : τ) : τ :=
  if Quantity.lt x low then low else if Quantity.lt high x then high else x

/-- A numeric value fitted into bounds; every other value stays. -/
def Bounds.fit (bounds : Bounds) (value : Toml.Value τ) : Toml.Value τ :=
  match bounds, value with
  | .whole low high, .int value =>
    .int (if value < low then low else if (high : Int) < value then high else value)
  | .whole low high, .float value =>
    .float (clamp (Quantity.fraction low 0) (Quantity.fraction high 0) value)
  | .fraction low high exponent, .float value =>
    .float (clamp (Quantity.fraction low exponent) (Quantity.fraction high exponent) value)
  | _, value => value

namespace Kind

/-- A path in which a leading tilde stands for a home folder. The name of its user is looked up, so it
must be one that a file system accepts. -/
def readPath (home : Path) (text : String) : Except ConfigError (SettingValue τ) :=
  let path := Path.ofText text
  match Path.expandHome? home path with
  | some found => .ok (.path found)
  | none =>
    .error (if path.parts.head?.any (·.toList.contains '\x00') then .disk .badName else .noHome)

/-- A word without the blanks around it. -/
def trimmed (text : String) : String := String.ofList (Text.trim Text.isBlank text.toList)

/-- The words that mean yes. -/
def affirmations : List String := ["1", "true", "yes", "on"]

/-- The value of a kind that a string spells. -/
def coerce (kind : Kind) (home : Path) (text : String) : Except ConfigError (SettingValue τ) :=
  match kind with
  | .truth => .ok (.plain (.bool (affirmations.contains ((trimmed text).map Char.toLower))))
  | .whole => ((Decimal.readInt text).mapError .number).map fun value => .plain (.int value)
  | .fraction =>
    ((Decimal.readNumeral text).mapError .number).map fun value =>
      .plain (.float (Quantity.ofNumeral value))
  | .texts =>
    let parts := (Text.splitAt ',' text.toList).map fun part => trimmed (String.ofList part)
    .ok (.plain (.list ((parts.filter (· ≠ "")).map .text)))
  | .path => readPath home text
  | .text => .ok (.plain (.text text))

/-- A value matched to a kind: a path is read from any value's display, and an integer is a number
with a fraction where one is asked for. -/
def normalize (kind : Kind) (home : Path) : SettingValue τ → Except ConfigError (SettingValue τ)
  | .path given => .ok (.path given)
  | .plain value =>
    match kind, value with
    | .path, value => if value.hasLongInteger then .error .tooLong else readPath home value.display
    | .fraction, .int value =>
      match Quantity.ofInt? value with
      | some value => .ok (.plain (.float value))
      | none => .error .beyondRange
    | _, value => .ok (.plain value)

end Kind

namespace Setting

/-- Whether a value is a text that is not among the choices. -/
def isRefused (choices : List String) : Toml.Value τ → Bool
  | .text text => !choices.contains (text.map Char.toLower)
  | _ => false

/-- A value within the bounds of a setting; `none` if it is not among the choices. -/
def validate? (setting : Setting) : SettingValue τ → Option (SettingValue τ)
  | .path path => some (.path path)
  | .plain value =>
    let value := match setting.bounds? with
      | some bounds => Bounds.fit bounds value
      | none => value
    match setting.choices? with
    | some choices => if isRefused choices value then none else some (.plain value)
    | none => some (.plain value)

end Setting

end DhtRecords
