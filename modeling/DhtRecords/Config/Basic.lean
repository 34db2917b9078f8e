/-
A configuration: a value for every setting. It is loaded from a file, with
the environment taking precedence and the defaults filling up, and saved as a
file that names what differs from the defaults.
-/

import DhtRecords.Config.Reading
import DhtRecords.Text.Utf8
import DhtRecords.Toml.Writer

namespace DhtRecords

/-- A value for every setting. -/
abbrev Config (τ : Type) := Setting → SettingValue τ

namespace SettingValue

variable {τ : Type} [Quantity τ]

/-- What a value looks like in a file. -/
def write : SettingValue τ → String
  | .path file => Toml.writeText file.text
  | .plain value => value.write

/-- Whether two values are equal numbers, texts or paths, or two empty lists: as far as values can
equal a default. -/
def equalsDefault : SettingValue τ → SettingValue τ → Bool
  | .path a, .path b => a = b
  | .plain (.text a), .plain (.text b) => a = b
  | .plain (.list []), .plain (.list []) => true
  | .plain a, .plain b =>
    match asNumber? a, asNumber? b with
    | some a, some b => Quantity.eq a b
    | _, _ => false
  | _, _ => false
where
  /-- The number that a value counts as. -/
  asNumber? : Toml.Value τ → Option τ
    | .bool value => some (Quantity.fraction (if value then 1 else 0) 0)
    | .int value => Quantity.ofInt? value
    | .float value => some value
    | _ => none

end SettingValue

namespace Config

variable {τ α : Type} [Quantity τ]

/-- The configuration of which nothing is said. -/
def ofDefaults (home : Path) : Config τ := Setting.default home

/-- The configuration with another value of a setting. -/
def set (config : Config τ) (setting : Setting) (value : SettingValue τ) : Config τ :=
  fun other => if other = setting then value else config other

/-- The folder for data. -/
def dataDir (config : Config τ) : Path :=
  match config .dataDir with
  | .path path => path
  | .plain value => Path.ofText value.display

/-- The environment variables, by name. -/
abbrev Environment := String → Option String

/-- What the file says of a setting. -/
def inFile (document : Toml.Table τ) (setting : Setting) :
    Except ConfigError (Option (SettingValue τ)) :=
  match document.get? setting.home.name with
  | none => .ok none
  | some (.table entries) => .ok ((Toml.Table.get? entries setting.name).map .plain)
  | some value => .error (.notATable value.typeName)

/-- The value of a setting from the environment or else the file; `none` if neither has one that is
acceptable. -/
def find? (home : Path) (environment : Environment) (document : Toml.Table τ) (setting : Setting) :
    Except ConfigError (Option (SettingValue τ)) := do
  let given ← inFile document setting
  let raw ← match environment setting.variableName with
    | some text => some <$> setting.kind.coerce home text
    | none => pure given
  match raw with
  | none => return none
  | some value => return setting.validate? (← setting.kind.normalize home value)

/-- The configuration of a document and an environment. The settings are looked up one after the
other, so the first wrong one decides the error. -/
def ofDocument (home : Path) (environment : Environment) (document : Toml.Table τ) :
    Except ConfigError (Config τ) := do
  let found ← Setting.all.mapM fun setting => do
    return (setting, ← find? home environment document setting)
  return fun setting => ((found.lookup setting).getD none).getD (Setting.default home setting)

/-- Where the settings are kept. -/
def defaultPath (home : Path) : Path := home ++ Path.ofName Setting.folderName ++ Path.ofName "config.toml"

/-- The document of a file; a missing file says nothing. -/
def readDocument (disk : Disk α) (path : Path) : Except ConfigError (Toml.Table τ) :=
  if disk.holds path then do
    let content ← (disk.read path).mapError .disk
    match Utf8.decode? content with
    | none => throw .notText
    | some text => (Toml.read text).mapError .ofToml
  else .ok []

/-- The configuration of a file and an environment. The place that the data folder's path names, once
its parents are resolved, is made a folder if nothing is there. -/
def load (home : Path) (environment : Environment) (path : Path) (disk : Disk α) :
    Except ConfigError (Config τ × Disk α) := do
  let document ← readDocument disk path
  let config ← ofDocument home environment document
  let data := Path.ofLocation (config.dataDir.locate disk.here)
  let disk ← (disk.makeFolders data).mapError .disk
  return (config, disk)

/-! ### Saving -/

/-- The settings of a section that differ from the defaults. -/
def changed (home : Path) (config : Config τ) (place : Section) : List Setting :=
  (Setting.within place).filter fun setting =>
    !(config setting).equalsDefault (Setting.default home setting)

/-- The lines of a section: none, if nothing differs from the defaults. -/
def sectionLines (home : Path) (config : Config τ) (place : Section) : List String :=
  match changed home config place with
  | [] => []
  | settings =>
    ["[" ++ place.name ++ "]"]
      ++ settings.map (fun setting => setting.name ++ " = " ++ (config setting).write) ++ [""]

/-- What the first line of a file says. -/
def heading : String := "# mutabledht configuration"

/-- The file of a configuration. -/
def write (home : Path) (config : Config τ) : String :=
  "\n".intercalate (heading :: "" :: Section.all.flatMap (sectionLines home config))

/-- Whether a value to be saved has an integer that is too long to be written. -/
def hasLongInteger (home : Path) (config : Config τ) : Bool :=
  Section.all.any fun place => (changed home config place).any fun setting =>
    match config setting with
    | .path _ => false
    | .plain value => value.hasLongInteger

/-- Writes the file of a configuration; its folder is made if it is missing. -/
def save (home : Path) (config : Config τ) (path : Path) (disk : Disk α) :
    Except ConfigError (Disk α) := do
  let disk ← (disk.makeFolders path.parent).mapError .disk
  if hasLongInteger home config then throw .tooLong
  (disk.write path (.bytes (Utf8.encode (config.write home)))).mapError .disk

end Config

end DhtRecords
