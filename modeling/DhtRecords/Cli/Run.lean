/-
Running commands.

Every command prints one JSON value or none. A command that talks to the
overlay opens a node for itself, and closes it however the operation ends.
-/

import DhtRecords.Cli.Command
import DhtRecords.Json
import DhtRecords.Service

namespace DhtRecords.Cli

/-- How a command has ended. -/
structure Outcome where
  exit : Nat := 0
  output : String := ""
  usageError : Option UsageError := none
  /-- What it has died of. -/
  failure : Option Failure := none

/-- What a command line is run with. -/
structure Context where
  /-- The modules that engines come from. -/
  modules : List EngineModule
  environment : Config.Environment

variable {τ ν : Type} [Quantity τ]

namespace Outcome

/-- A value was printed over several lines. -/
def printed (value : Json τ) : Except Failure Outcome :=
  match value.indented with
  | .ok text => .ok { output := text ++ "\n" }
  | .error error => .error (.json error)

/-- An error was printed. -/
def refused (τ : Type) [Quantity τ] (error : OperationError) : Except Failure Outcome :=
  (printed (Json.ofError (τ := τ) error)).map fun outcome => { outcome with exit := 1 }

/-- The command line was wrong. -/
def misused (error : UsageError) : Outcome := { exit := 2, usageError := some error }

/-- The command has died. -/
def died (failure : Failure) : Outcome := { exit := 1, failure := some failure }

end Outcome

/-- The version of the program. -/
def versionLine : String := "mutabledht, version 0.1.0"

/-- How the program is used. -/
def usageLine : String := "Usage: mutabledht [OPTIONS] COMMAND [ARGS]..."

/-- The configuration of the user. -/
def loadConfig (context : Context) : Op τ ν (Config τ) := do
  let world ← get
  match Config.load world.home context.environment (Config.defaultPath world.home) world.disk with
  | .ok (config, disk) =>
    set { world with disk }
    return config
  | .error error => throw (.config error)

/-! ### Settings -/

/-- A key as a section and a setting, before and after its first point. -/
def splitKey? (key : String) : Option (String × String) :=
  match key.toList.dropWhile (· ≠ '.') with
  | [] => none
  | _ :: name => some (String.ofList (key.toList.takeWhile (· ≠ '.')), String.ofList name)

/-- The names of what belongs to a configuration beside its sections. -/
def inherentNames : List String :=
  ["annotations", "dataclass_fields", "dataclass_params", "delattr", "dict", "dir", "doc", "eq",
    "format", "ge", "getattribute", "getstate", "gt", "hash", "init", "init_subclass", "le", "lt",
    "match_args", "module", "ne", "new", "reduce", "reduce_ex", "repr", "setattr", "sizeof", "str",
    "subclasshook"].map fun name => "__" ++ name ++ "__"

/-- The name of the description of a configuration, which has the sections for its settings. -/
def descriptionName : String := "__class__"

/-- The setting of a key, or why there is none. What belongs to a configuration beside its sections has
no settings to look for, and those of its description cannot be set. -/
def findSetting (key place name : String) : Except Failure (Except UsageError Setting) :=
  match Section.ofName? place with
  | some found => .ok (((Setting.ofName? found name).map .ok).getD (.error (.unknownKey key)))
  | none =>
    if inherentNames.contains place then .error .mistypedSetting
    else if place ≠ descriptionName then .ok (.error (.unknownSection place))
    else if (Section.ofName? name).isSome then .error .mistypedSetting
    else .ok (.error (.unknownKey key))

/-- The value that a string has for a setting. A string that is no number or names nobody, or is not
among the choices, is an error of usage. -/
def readSetting (home : Path) (key : String) (setting : Setting) (value : String) :
    Except Failure (Except UsageError (SettingValue τ)) :=
  match setting.kind.coerce home value with
  | .error (.number error) => .ok (.error (.invalidValue key error.message))
  | .error (.disk error) => .ok (.error (.invalidValue key error.message))
  | .error error => .error (.config error)
  | .ok coerced =>
    match setting.validate? coerced with
    | none => .ok (.error (.invalidValue key value))
    | some value => .ok (.ok value)

/-- Saves the configuration with another value of a setting. -/
def saveSetting (config : Config τ) (key : String) (setting : Setting) (value : SettingValue τ) :
    Op τ ν Outcome := do
  let world ← get
  match (config.set setting value).save world.home (Config.defaultPath world.home) world.disk with
  | .error error => throw (.config error)
  | .ok disk =>
    set { world with disk }
    match (Json.object [(key, Json.ofSetting value)]).compact with
    | .ok text => return { output := text ++ "\n" }
    | .error error => throw (.json error)

/-- Sets a setting. -/
def setConfig (context : Context) (key value : String) : Op τ ν Outcome := do
  match splitKey? key with
  | none => return .misused .keyFormat
  | some (place, name) =>
    let config ← loadConfig context
    match findSetting key place name with
    | .error failure => throw failure
    | .ok (.error error) => return .misused error
    | .ok (.ok setting) =>
      match readSetting (← get).home key setting value with
      | .error failure => throw failure
      | .ok (.error error) => return .misused error
      | .ok (.ok value) => saveSetting config key setting value

/-- Prints the configuration. -/
def showConfig (context : Context) : Op τ ν Outcome := do
  let config ← loadConfig context
  Outcome.printed (Json.ofConfig config)

/-! ### Keys -/

/-- Prints a fresh pair. -/
def generateKeys : Op τ ν Outcome := do
  let pair ← modifyGet Mutable.generatePair
  Outcome.printed <| Json.object (τ := τ)
    [("public_key", .text (Hex.encode pair.publicKey)), ("private_key", .text (Hex.encode pair.seed))]

/-- The node's own pair, which is generated if there is none. -/
def ownPair (config : Config τ) : Op τ ν KeyPair := do
  let world ← get
  let world := if KeyPair.hasFile config.dataDir world.disk then world
    else { world with keysGenerated := world.keysGenerated + 1 }
  match KeyPair.ensure config.dataDir (world.freshKeys world.keysGenerated) world.disk with
  | .ok (pair, disk) =>
    set { world with disk }
    return pair
  | .error error =>
    set world
    throw (.keyFile error)

/-- Prints the node's own public key. -/
def showKeys (context : Context) : Op τ ν Outcome := do
  let pair ← ownPair (← loadConfig context)
  Outcome.printed <| Json.object (τ := τ)
    [("public_key", .text (Hex.encode pair.publicKey)), ("fingerprint", .text pair.fingerprint)]

/-! ### Items -/

/-- Whether nothing is set. -/
def isUnset : SettingValue τ → Bool
  | .path _ => false
  | .plain (.bool value) => !value
  | .plain (.int value) => value = 0
  | .plain (.float value) => Quantity.eq value Quantity.zero
  | .plain (.text value) => value.isEmpty
  | .plain (.moment _) => false
  | .plain (.list items) => items.isEmpty
  | .plain (.table entries) => entries.isEmpty

/-- The constructor of engines that is set. -/
def findEngine (context : Context) (value : SettingValue τ) : Except EngineSpecError String :=
  match value with
  | .plain (.text spec) => EngineSpec.resolve context.modules spec
  | .plain value => .error (.notText value.typeName)
  | .path _ => .error (.notText "Path")

/-- The constructor of engines that is set, or why no node can be opened without one. -/
def chooseEngine (context : Context) (config : Config τ) :
    Except Failure (Except OperationError String) :=
  if isUnset (config .engineFactory) then
    .ok (.error
      ⟨.engineUnavailable, "No engine configured; set session.engine_factory in config.toml"⟩)
  else match findEngine context (config .engineFactory) with
    | .ok name => .ok (.ok name)
    | .error .relative => .error (.spec .relative)
    | .error error =>
      .ok (.error ⟨.engineUnavailable, "Cannot load engine factory: " ++ error.message⟩)

/-- The settings that no command goes by, whatever they are. -/
def unusedSettings : List Setting :=
  [.readinessPollInterval, .putCooldown, .lockSweepEvery, .fetchTimeout, .headerRetries, .totalSlots,
    .headerIssueDelay, .chunkIssueDelay, .headerSettle, .chunkSettle]

/-- The settings that commands go by; how often stamps are swept must be a number all the same. -/
def settingsOf? (home : Path) (config : Config τ) : Option (Settings τ) :=
  (Settings.asNumber? (config .lockSweepEvery)).bind fun _ =>
    Settings.ofConfig? <| unusedSettings.foldl
      (fun config setting => config.set setting (Setting.default home setting)) config

variable [Overlay τ ν]

/-- Opens a node with a store in the data folder. A node that cannot start is closed again. -/
def openNode (config : Config τ) : Op τ ν Unit := do
  let world ← get
  match Store.openIn config.dataDir world.disk with
  | .error error => throw (.store error)
  | .ok (store, disk) =>
    match settingsOf? world.home config with
    | none =>
      set (Service.closeStore { world with disk, store := some store, session := {}, correlator := {} })
      throw .mistypedSetting
    | some settings =>
      match { world with disk }.renew? settings (some store) with
      | none =>
        set { world with disk }
        throw .negativeCapacity
      | some world => set world

/-- Starts the node and does the operation. -/
def attempt (operation : Op τ ν (Json τ)) : Op τ ν Outcome := do
  let timeout := (← get).settings.bootstrapTimeout
  if ← modifyGet (Service.start (some (Quantity.add timeout timeout))) then
    Outcome.printed (← operation)
  else
    let reason := (← get).session.lastError
    Outcome.refused τ
      ⟨.engineUnavailable, if reason.isEmpty then "session did not reach running" else reason⟩

/-- How a command has ended that did an operation and then closed its node. What goes wrong at the end
comes after what was printed. -/
def ending (τ : Type) [Quantity τ] (result : Except Failure Outcome) (closed : Except Failure Unit) :
    Except Failure Outcome :=
  let outcome := match result with
    | .error (.operation error) => Outcome.refused τ error
    | result => result
  match closed, outcome with
  | .ok (), outcome => outcome
  | .error failure, .ok outcome => .ok { outcome with exit := 1, failure := some failure }
  | .error failure, .error _ => .error failure

/-- Does an operation on a node that is opened for it and closed in any case. -/
def serve (context : Context) (operation : Op τ ν (Json τ)) : Op τ ν Outcome := do
  let config ← loadConfig context
  match chooseEngine context config with
  | .error failure => throw failure
  | .ok (.error error) => Outcome.refused τ error
  | .ok (.ok name) =>
    openNode config
    modify fun world => { world with overlay := Overlay.choose τ name world.overlay }
    let result ← modifyGet (attempt operation).run
    let closed ← modifyGet Service.close
    match ending τ result closed with
    | .ok outcome => return outcome
    | .error failure => throw failure

/-- Gets an item. -/
def getItem (publicKey salt : String) : Op τ ν (Json τ) := do
  let item ← Mutable.get publicKey salt
  return .object [
    ("public_key", .text item.publicKey),
    ("salt", .text item.salt),
    ("sequence", .int item.sequence),
    ("value", .text item.value)]

/-- Puts an item. -/
def putItem (value salt : String) (publicKey privateKey : Option String) : Op τ ν (Json τ) := do
  let published ← Mutable.put (Utf8.encode value) salt publicKey privateKey
  return .object [
    ("public_key", .text published.publicKey),
    ("private_key", .text published.privateKey),
    ("salt", .text published.salt),
    ("sequence", .int published.sequence),
    ("value", .text published.value),
    ("message", .text published.message)]

/-! ### Commands -/

/-- Does a command. -/
def execute (context : Context) : Command → Op τ ν Outcome
  | .help => return { output := usageLine ++ "\n" }
  | .incomplete => return { exit := 2 }
  | .version => return { output := versionLine ++ "\n" }
  | .get publicKey salt => serve context (getItem publicKey salt)
  | .put value salt publicKey privateKey =>
    if publicKey.isNone ≠ privateKey.isNone then
      Outcome.refused τ ⟨.invalidArgument, "Supply both --pubkey and --privkey, or neither"⟩
    else serve context (putItem value salt publicKey privateKey)
  | .generateKeys => generateKeys
  | .showKeys => showKeys context
  | .showConfig => showConfig context
  | .setConfig key value => setConfig context key value

/-- The files that a command may read beside that of the settings: the node's keys and the state of its
engine. -/
def filesOf (home : Path) (config : Config τ) : List Path :=
  KeyPair.filePath (KeyPair.keysPath config.dataDir)
    :: ((settingsOf? home config).map Settings.statePath).toList

/-- Runs a command line. -/
def run (context : Context) (words : List String) (world : World τ ν) : Outcome × World τ ν :=
  match Command.parse words with
  | .error error => (.misused error, world)
  | .ok command =>
    match (execute context command).run world with
    | (.ok outcome, world) => (outcome, world)
    | (.error failure, world) => (.died failure, world)

end DhtRecords.Cli
