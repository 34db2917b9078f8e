/-
Settings that are set one at a time.

A command that sets a setting either leaves every file as it was or saves what it has
loaded with another value of that setting (`Sets`). What it has loaded is settled, so
the file is read back as that: with the new value, and with every other one as it was,
whether the file gave it or a variable (`Config.reread_of_save`). Three things are not
as they were. A variable's value is in the file now, a day, a time or a table has become
a text, and a file with a control in a text is not read at all.
-/

import DhtRecords.Proofs.Commands
import DhtRecords.Proofs.Settling

namespace DhtRecords

open Op

namespace Cli

variable {τ ν : Type} [Quantity τ]

/-! ### How the command ends -/

/-- A key consists of the names of a section and a setting. -/
theorem eq_of_splitKey? {key place name : String} (split : splitKey? key = some (place, name)) :
    key = place ++ "." ++ name := by
  unfold splitKey? at split
  split at split
  · cases split
  · next point cs dropped =>
    obtain ⟨rfl, rfl⟩ := Prod.mk.inj (Option.some_inj.mp split)
    have ends : point = '.' := by
      have head := List.head?_dropWhile_not (fun c => decide (c ≠ '.')) key.toList
      rw [dropped] at head
      simpa using head
    have parts := List.takeWhile_append_dropWhile (p := fun c => decide (c ≠ '.')) (l := key.toList)
    rw [dropped, ends] at parts
    rw [← String.toList_inj]
    simpa using parts.symm

/-- A setting that is found has the names that were asked for. -/
theorem names_of_findSetting {key place name : String} {setting : Setting}
    (found : findSetting key place name = .ok (.ok setting)) :
    setting.home.name = place ∧ setting.name = name := by
  unfold findSetting at found
  split at found
  · next section_ known =>
    have home : section_.name = place := by simpa using List.find?_some known
    cases named : Setting.ofName? section_ name with
    | none =>
      rw [named] at found
      cases found
    | some other =>
      rw [named] at found
      obtain rfl := Except.ok.inj (Except.ok.inj found)
      have member := List.mem_of_find?_eq_some named
      exact ⟨(Setting.mem_within.mp member) ▸ home, by simpa using List.find?_some named⟩
  · split at found
    · cases found
    · split at found
      · cases found
      · split at found <;> cases found

/-- How a command that sets a setting ends: every file is as it was, or what was loaded is saved with
another value of the setting. -/
inductive Sets (context : Context) (key text : String) (world : World τ ν) :
    Except Failure Outcome → World τ ν → Prop where
  | refused {result : Except Failure Outcome} {after : World τ ν} (fails : (shown result).exit ≠ 0)
      (kept : after.disk.files = world.disk.files) : Sets context key text world result after
  | saved {config : Config τ} {setting : Setting} {value : SettingValue τ} {loaded disk : Disk (ItemTable τ)}
      {line : String}
      (loads : Config.load world.home context.environment (Config.defaultPath world.home) world.disk
        = .ok (config, loaded))
      (named : key = setting.home.name ++ "." ++ setting.name)
      (reads : readSetting world.home key setting text = .ok (.ok value))
      (saves : (config.set setting value).save world.home (Config.defaultPath world.home) loaded = .ok disk)
      (prints : (Json.object [(key, Json.ofSetting value)]).compact = .ok line) :
      Sets context key text world (.ok { output := line ++ "\n" }) { world with disk }

/-- Loading keeps every file, and makes folders at most. -/
theorem extends_of_load {α : Type} {home path : Path} {environment : Config.Environment} {config : Config τ}
    {disk loaded : Disk α} (loads : Config.load home environment path disk = .ok (config, loaded)) :
    disk.Extends loaded := by
  obtain ⟨document, -, loads⟩ := exists_of_bind_ok loads
  obtain ⟨made, -, loads⟩ := exists_of_bind_ok loads
  obtain ⟨folders, makes, loads⟩ := exists_of_bind_ok loads
  obtain rfl : folders = loaded := congrArg Prod.snd (Except.ok.inj loads)
  exact Disk.extends_of_makeFolders (of_mapError_ok makes)

theorem run_loadConfig (context : Context) (world : World τ ν) : (loadConfig context).run world =
    match Config.load world.home context.environment (Config.defaultPath world.home) world.disk with
    | .ok (config, disk) => (.ok config, { world with disk })
    | .error error => (.error (.config error), world) := by
  rw [loadConfig, run_bind_ok (run_get world)]
  rcases Config.load world.home context.environment (Config.defaultPath world.home) world.disk
    with error | ⟨config, disk⟩ <;> rfl

theorem run_saveSetting {config : Config τ} {key line : String} {setting : Setting} {value : SettingValue τ}
    (prints : (Json.object [(key, Json.ofSetting value)]).compact = .ok line) (world : World τ ν) :
    (saveSetting config key setting value).run world =
      match (config.set setting value).save world.home (Config.defaultPath world.home) world.disk with
      | .ok disk => (.ok { output := line ++ "\n" }, { world with disk })
      | .error error => (.error (.config error), world) := by
  rw [saveSetting, run_bind_ok (run_get world), prints]
  cases (config.set setting value).save world.home (Config.defaultPath world.home) world.disk <;> rfl

/-! ### The value -/

/-- No string spells a day, a time or a table. -/
theorem typed_of_coerce {kind : Kind} {home : Path} {text : String} {value : SettingValue τ}
    (spelt : kind.coerce home text = .ok value) : ¬ value.IsRetyped := by
  have plain {value : SettingValue τ} (none : value.inFile.isRetyped = false) : ¬ value.IsRetyped :=
    ne_true_of_eq_false none
  cases kind with
  | truth => cases spelt; exact plain rfl
  | whole =>
    obtain ⟨number, -, rfl⟩ := of_map_ok spelt
    exact plain rfl
  | fraction =>
    obtain ⟨numeral, -, rfl⟩ := of_map_ok spelt
    exact plain rfl
  | text => cases spelt; exact plain rfl
  | texts =>
    cases spelt
    refine plain ?_
    rw [SettingValue.inFile, Toml.Value.isRetyped, Setting.Admits.hasRetypedItem_texts]
  | path =>
    change Kind.readPath home text = .ok value at spelt
    unfold Kind.readPath at spelt
    dsimp only at spelt
    split at spelt
    · cases spelt
      exact plain rfl
    · cases spelt

theorem typed_of_validate? {setting : Setting} {given value : SettingValue τ}
    (valid : setting.validate? given = some value) (typed : ¬ given.IsRetyped) : ¬ value.IsRetyped := by
  cases given with
  | path file =>
    rw [← Option.some_inj.mp valid]
    exact typed
  | plain given =>
    rw [Setting.plain_of_validate? valid]
    cases setting.bounds? with
    | none => exact typed
    | some bounds => cases bounds <;> cases given <;> exact typed

/-- The value that is read for a setting is what its string spells, once that is accepted. -/
theorem exists_of_readSetting {home : Path} {key text : String} {setting : Setting} {value : SettingValue τ}
    (reads : readSetting home key setting text = .ok (.ok value)) :
    ∃ coerced, setting.kind.coerce home text = .ok coerced ∧ setting.validate? coerced = some value := by
  unfold readSetting at reads
  split at reads
  · cases reads
  · cases reads
  · cases reads
  · next coerced spelt =>
    split at reads
    · cases reads
    · next value' valid => exact ⟨coerced, spelt, Except.ok.inj (Except.ok.inj reads) ▸ valid⟩

/-- A whole number within the bounds of a setting is not too long. -/
theorem isTooLong_of_validate? {setting : Setting} (kind : setting.kind = .whole) {given : Int}
    {value : SettingValue τ} (valid : setting.validate? (.plain (.int given)) = some value) :
    ∃ whole, value = .plain (.int whole) ∧ Decimal.isTooLong whole = false := by
  have short {low high : Nat} (bounds : setting.bounds? = some (.whole low high))
      (most : low ≤ high ∧ high ≤ 1000000) :
      ∃ whole, value = .plain (.int whole) ∧ Decimal.isTooLong whole = false := by
    have same := Setting.plain_of_validate? valid
    rw [bounds, Option.map_some, Option.getD_some, Bounds.fit] at same
    refine ⟨_, same, Decimal.isTooLong_of_lt (lt_of_le_of_lt ?_ (show 1000000 < Nat.pow 2 64 by decide))⟩
    split_ifs <;> omega
  cases setting <;> first | exact short rfl (by decide) | cases kind

/-- A value that a string spells for a setting has a text, once it is accepted. -/
theorem prints_of_validate? {home : Path} {text : String} {setting : Setting}
    {coerced value : SettingValue τ} (spelt : setting.kind.coerce home text = .ok coerced)
    (valid : setting.validate? coerced = some value) : (Json.ofSetting value).Prints := by
  generalize same : setting.kind = kind at spelt
  cases kind with
  | truth =>
    cases spelt
    rw [Setting.eq_of_validate? valid id]
    exact Json.prints_bool _
  | whole =>
    obtain ⟨number, -, rfl⟩ := of_map_ok spelt
    obtain ⟨whole, rfl, short⟩ := isTooLong_of_validate? same valid
    exact Json.prints_int short
  | fraction =>
    obtain ⟨numeral, -, rfl⟩ := of_map_ok spelt
    rw [Setting.plain_of_validate? valid]
    cases setting.bounds? with
    | none => exact Json.prints_float _
    | some bounds => cases bounds <;> exact Json.prints_float _
  | text =>
    cases spelt
    rw [Setting.eq_of_validate? valid id]
    exact Json.prints_text _
  | texts =>
    cases spelt
    rw [Setting.eq_of_validate? valid id]
    exact Json.prints_texts _
  | path =>
    change Kind.readPath home text = .ok coerced at spelt
    unfold Kind.readPath at spelt
    dsimp only at spelt
    split at spelt
    · cases spelt
      obtain rfl := Option.some_inj.mp valid
      exact Json.prints_text _
    · cases spelt

/-- A value that a string spells for a setting has a text, once it is accepted. -/
theorem exists_compact {home : Path} (key : String) {text : String} {setting : Setting}
    {value : SettingValue τ} (reads : readSetting home key setting text = .ok (.ok value)) :
    ∃ line, (Json.object [(key, Json.ofSetting value)]).compact = .ok line := by
  obtain ⟨coerced, spelt, valid⟩ := exists_of_readSetting reads
  exact Json.prints_object
    (List.forall_mem_singleton.mpr (prints_of_validate? spelt valid)) none

theorem sets_of_setConfig {context : Context} {key text : String} {world after : World τ ν}
    {result : Except Failure Outcome} (ran : (setConfig context key text).run world = (result, after)) :
    Sets context key text world result after := by
  unfold setConfig at ran
  split at ran
  · cases ran
    exact .refused (by decide) rfl
  next place name split =>
  rw [run_bind, run_loadConfig] at ran
  cases loads : (Config.load world.home context.environment (Config.defaultPath world.home) world.disk :
      Except ConfigError (Config τ × Disk (ItemTable τ))) with
  | error error =>
    rw [loads] at ran
    cases ran
    exact .refused (show 1 ≠ 0 by decide) rfl
  | ok made =>
    obtain ⟨config, loaded⟩ := made
    rw [loads] at ran
    dsimp only at ran
    have kept := (extends_of_load loads).files
    split at ran
    · cases ran
      exact .refused (show 1 ≠ 0 by decide) kept
    · cases ran
      exact .refused (show 2 ≠ 0 by decide) kept
    · next setting found =>
      rw [run_bind_ok (run_get _)] at ran
      dsimp only at ran
      split at ran
      · cases ran
        exact .refused (show 1 ≠ 0 by decide) kept
      · cases ran
        exact .refused (show 2 ≠ 0 by decide) kept
      · next value reads =>
        obtain ⟨line, prints⟩ := exists_compact key reads
        rw [run_saveSetting prints] at ran
        dsimp only at ran
        split at ran
        · next disk saves =>
          cases ran
          obtain ⟨home, named⟩ := names_of_findSetting found
          refine .saved loads ?_ reads saves prints
          rw [eq_of_splitKey? split, home, named]
        · cases ran
          exact .refused (show 1 ≠ 0 by decide) kept

end Cli

/-! ### The file -/

namespace Config

section

variable {τ α : Type} [Quantity τ] {home path : Path} {config : Config τ} {disk saved : Disk α}

/-- Saving writes one file, and makes folders at most. -/
theorem exists_of_save (saves : config.save home path disk = .ok saved) :
    ∃ place, saved.find path = .ok place ∧
      saved.files = disk.files.insert place (.bytes (Utf8.encode (config.write home))) ∧
      saved.here = disk.here ∧ disk.folders ⊆ saved.folders := by
  have short := (readDocument_saved saves).1
  obtain ⟨made, makes, saves⟩ := exists_of_bind_ok saves
  have kept := Disk.extends_of_makeFolders (of_mapError_ok makes)
  rw [short] at saves
  obtain ⟨place, found, rfl⟩ := Disk.exists_of_write (of_mapError_ok saves)
  exact ⟨place, found, by rw [kept.files], kept.here, kept.folders⟩

omit [Quantity τ] in
theorem set_self (config : Config τ) (setting : Setting) (value : SettingValue τ) :
    config.set setting value setting = value := if_pos rfl

omit [Quantity τ] in
theorem set_other {setting other : Setting} (differs : other ≠ setting) (value : SettingValue τ) :
    config.set setting value other = config other := if_neg differs

/-- What is loaded for a setting whose variable is not set does not depend on the variables. -/
theorem eq_of_unset {environment environment' : Environment} {document : Toml.Table τ} {config' : Config τ}
    (made : ofDocument home environment document = .ok config)
    (made' : ofDocument home environment' document = .ok config') {setting : Setting}
    (unset : environment setting.variableName = none) (unset' : environment' setting.variableName = none) :
    config' setting = config setting := by
  obtain ⟨found, finds, settles⟩ := ofDocument_eq_ok made setting
  obtain ⟨found', finds', settles'⟩ := ofDocument_eq_ok made' setting
  have same : find? home environment document setting = find? home environment' document setting := by
    rw [find?, find?, unset, unset']
  rw [same, finds'] at finds
  rw [settles, settles', Except.ok.inj finds]

/-- The folder for data that a load makes, from the root on. -/
def dataFolder (config : Config τ) (disk : Disk α) : Path := Path.ofLocation (config.dataDir.locate disk.here)

/-- A document that is loaded is that of the file, and the folder for data is made. -/
theorem exists_of_load {environment : Environment} {loaded : Disk α}
    (loads : load home environment path disk = .ok (config, loaded)) :
    ∃ document, readDocument disk path = .ok document ∧
      ofDocument home environment document = .ok config ∧
      disk.makeFolders (dataFolder config disk) = .ok loaded := by
  obtain ⟨document, read, loads⟩ := exists_of_bind_ok loads
  obtain ⟨made, makes, loads⟩ := exists_of_bind_ok loads
  obtain ⟨folders, folder, loads⟩ := exists_of_bind_ok loads
  obtain ⟨rfl, rfl⟩ := Prod.mk.inj (Except.ok.inj loads)
  exact ⟨document, read, makes, of_mapError_ok folder⟩

end

variable {α : Type} {home : Path} {environment : Environment} {config : Config Float} {setting : Setting}
  {value : SettingValue Float} {before loaded after : Disk α}

/-- How the file reads where no variable is set, once what was loaded has been saved with another value
of a setting. -/
structure Reread (home : Path) (environment : Environment) (before after : Disk α) (config : Config Float)
    (setting : Setting) (value : SettingValue Float) : Prop where
  /-- With a control in a text the file is malformed. -/
  malformed : ¬ IsLegible home (config.set setting value) →
    (load home (fun _ => none) (defaultPath home) after : Except ConfigError (Config Float × Disk α))
      = .error .malformed
  /-- Without one it is loaded, if the folder for data can be made. -/
  loads : IsLegible home (config.set setting value) → ∀ made,
    after.makeFolders ((config.set setting value).dataFolder after) = .ok made →
    load home (fun _ => none) (defaultPath home) after = .ok (restored home (config.set setting value), made)
  /-- That folder is there already, unless it is what was set. -/
  folder : setting ≠ .dataDir → after.makeFolders ((config.set setting value).dataFolder after) = .ok after
  /-- The setting has its new value. -/
  sets : value.Equals (restored home (config.set setting value) setting)
  /-- Every other one has the value that was loaded, unless there is a day, a time or a table in it, for
  which a text was written. -/
  keeps : ∀ other ≠ setting, ¬ (config other).IsRetyped →
    (config other).Equals (restored home (config.set setting value) other)
  /-- That value is what the file gave where no variable is set, unless the setting's own variable is. -/
  unset : ∀ old made, load home (fun _ => none) (defaultPath home) before = .ok (old, made) →
    ∀ other : Setting, environment other.variableName = none → old other = config other

/-- What was loaded and saved with another value of a setting is read back. -/
theorem reread_of_save (normal : home.IsNormal) (rooted : home.root ≠ .relative)
    (loads : load home environment (defaultPath home) before = .ok (config, loaded))
    (settled : setting.Settled home value) (typed : ¬ value.IsRetyped)
    (path : setting = .dataDir → ∃ file, value = .path file)
    (saves : (config.set setting value).save home (defaultPath home) loaded = .ok after)
    (restores : ∀ other, IsWritten home (config.set setting value) other →
      ∀ x ∈ (config.set setting value other).inFile.floats, Toml.Restores x) :
    Reread home environment before after config setting value := by
  obtain ⟨document, read, made, makes⟩ := exists_of_load loads
  have settles : ∀ other, IsWritten home (config.set setting value) other →
      other.Settled home (config.set setting value other) := by
    intro other written
    by_cases same : other = setting
    · rw [same, set_self]
      exact settled
    · rw [IsWritten, set_other same] at written
      rw [set_other same]
      exact settled_of_ofDocument normal rooted made written
  have folder : ∃ file, config.set setting value .dataDir = .path file := by
    by_cases same : Setting.dataDir = setting
    · obtain ⟨file, path⟩ := path same.symm
      exact ⟨file, by rw [← same, set_self, path]⟩
    · rw [set_other same]
      exact dataDir_of_ofDocument normal rooted made
  obtain ⟨file, folder⟩ := folder
  have savable := savable_of_restores restores (readDocument_saved saves).1
  obtain ⟨legible, illegible⟩ := load_of_saved (fun _ => none) savable
    (fun other written => (settles other written).stays) folder (fun _ => rfl) saves
  refine ⟨illegible, legible, fun differs => ?_, ?_, fun other differs plain => ?_, fun old left again => ?_⟩
  · obtain ⟨_, _, _, here, folders⟩ := exists_of_save saves
    have same : (config.set setting value).dataDir = config.dataDir := by
      rw [dataDir, dataDir, set_other differs.symm]
    have there := (Disk.extends_of_makeFolders makes).here
    have again := Disk.makeFolders_again makes (here.trans rfl) folders
    rwa [dataFolder, same, here, there]
  · have equal := @equals_restored _ _ home (config.set setting value) setting
      (by rwa [set_self]) fun written => (settles setting written).valid
    rwa [set_self] at equal
  · have equal := @equals_restored _ _ home (config.set setting value) other
      (by rwa [set_other differs]) fun written => (settles other written).valid
    rwa [set_other differs] at equal
  · intro other unset
    obtain ⟨document', read', made', -⟩ := exists_of_load again
    obtain rfl := Except.ok.inj (read.symm.trans read')
    exact eq_of_unset made made' unset rfl

end Config

namespace Cli

variable {ν : Type} [Overlay Float ν]

/-- What it takes for a setting to be set: the file is loaded, the key names the setting, and the text is
a value of it. The value is shown, and the file is written, with nothing else changed on the disk but for
folders. -/
structure Accepted (context : Context) (key text : String) (world after : World Float ν) (outcome : Outcome)
    (config : Config Float) (setting : Setting) (value : SettingValue Float) : Prop where
  loads : ∃ loaded, Config.load world.home context.environment (Config.defaultPath world.home) world.disk
    = .ok (config, loaded)
  named : key = setting.home.name ++ "." ++ setting.name
  reads : readSetting world.home key setting text = .ok (.ok value)
  shows : ∃ line, (Json.object [(key, Json.ofSetting value)]).compact = .ok line ∧
    outcome = { output := line ++ "\n" }
  writes : ∃ place, after.disk.find (Config.defaultPath world.home) = .ok place ∧
    after.disk.files = world.disk.files.insert place
      (.bytes (Utf8.encode ((config.set setting value).write world.home)))

/-- Setting a setting keeps every file if it is refused. If it is accepted, the file is written from all
that was loaded, what came of variables included; and provided that the numbers in it read back from their
texts, it reads where no variable is set as `Config.Reread` says. -/
theorem setConfig_accounted {context : Context} {words : List String} {key text : String}
    {world after : World Float ν} {outcome : Outcome}
    (parsed : Command.parse words = .ok (.setConfig key text))
    (normal : world.home.IsNormal) (rooted : world.home.root ≠ .relative)
    (ran : run context words world = (outcome, after)) :
    (outcome.exit ≠ 0 → after.disk.files = world.disk.files) ∧
    (outcome.exit = 0 → ∃ config setting value,
      Accepted context key text world after outcome config setting value ∧
      ((∀ other, Config.IsWritten world.home (config.set setting value) other →
          ∀ x ∈ (config.set setting value other).inFile.floats, Toml.Restores x) →
        Config.Reread world.home context.environment world.disk after.disk config setting value)) := by
  rw [run_of_parse parsed, execute] at ran
  generalize ended : (setConfig context key text).run world = ending at ran
  obtain ⟨result, left⟩ := ending
  obtain ⟨rfl, rfl⟩ := Prod.mk.inj ran
  cases sets_of_setConfig ended with
  | refused fails kept => exact ⟨fun _ => kept, fun succeeds => absurd succeeds fails⟩
  | @saved config setting value loaded disk line loads named reads saves prints =>
    obtain ⟨coerced, spelt, valid⟩ := exists_of_readSetting reads
    have matched := Kind.matched_of_coerce normal rooted spelt
    obtain ⟨place, found, files, -⟩ := Config.exists_of_save saves
    refine ⟨fun fails => absurd rfl fails, fun _ => ⟨config, setting, value,
      ⟨⟨loaded, loads⟩, named, reads, ⟨line, prints, rfl⟩, place, found, ?_⟩, fun restores => ?_⟩⟩
    · rw [files, (extends_of_load loads).files]
    · refine Config.reread_of_save normal rooted loads (Setting.settled_of_validate? matched valid)
        (typed_of_validate? valid (typed_of_coerce spelt)) (fun folder => ?_) saves restores
      rw [folder] at matched valid
      exact Setting.exists_path matched valid

/-! ### A timeout of five seconds -/

/-- The number of slots is given by its variable. -/
def fiveSlots : Context where
  modules := []
  environment name := if name = Setting.totalSlots.variableName then some "5" else none

/-- The words that set the timeout of fetches. -/
def timeoutOfFive : List String := ["config", "set", "records.fetch_timeout", "5"]

/-- A world with a home folder in which a file with a name for states has been placed. -/
def furnished? (name : String) : Option (World Float (Simnet Float)) := do
  let home : Path := ⟨.absolute, ["home"]⟩
  let content := Utf8.encode ("[session]\nstate_file = " ++ name ++ "\n")
  let disk ← (({} : Disk (ItemTable Float)).place (Config.defaultPath home) content).toOption
  let settings ← Settings.ofConfig? (Config.ofDefaults home)
  World.fresh? settings { options := .plain } Quantity.zero disk home fun _ => Seconds.pair

@[irreducible] def furnished : World Float (Simnet Float) := (furnished? "\"a b\"").get (by decide +kernel)

/-- The name for states is a day. -/
@[irreducible] def dated : World Float (Simnet Float) := (furnished? "1979-05-27").get (by decide +kernel)

/-- Whether a configuration is written without controls and with numbers that read back. -/
def isReadable (home : Path) (config : Config Float) : Bool :=
  Setting.all.all fun setting => decide (Config.IsWritten home config setting →
    (∀ text ∈ (config setting).inFile.writtenTexts, Toml.IsClean text) ∧
      ∀ x ∈ (config setting).inFile.floats,
        (Decimal.readNumeral (Quantity.exactText x)).map Quantity.ofNumeral = .ok x)

/-- What is loaded is still readable once the timeout is set. -/
theorem isReadable_furnished {config : Config Float} {loaded : Disk (ItemTable Float)}
    {value : SettingValue Float}
    (loads : Config.load furnished.home fiveSlots.environment (Config.defaultPath furnished.home)
      furnished.disk = .ok (config, loaded))
    (reads : readSetting furnished.home "records.fetch_timeout" .fetchTimeout "5" = .ok (.ok value)) :
    isReadable furnished.home (config.set .fetchTimeout value) = true := by
  have readable : ((Config.load furnished.home fiveSlots.environment (Config.defaultPath furnished.home)
        furnished.disk).toOption.bind fun (loaded : Config Float × Disk (ItemTable Float)) =>
      (readSetting furnished.home "records.fetch_timeout" .fetchTimeout "5").toOption.bind fun read =>
        read.toOption.map fun value => isReadable furnished.home (loaded.1.set .fetchTimeout value))
      = some true := by decide +kernel
  rw [loads, reads] at readable
  simpa only [Except.toOption, Option.bind_some, Option.map_some, Option.some_inj] using readable

theorem timeout_accounted :
    Command.parse timeoutOfFive = .ok (.setConfig "records.fetch_timeout" "5") ∧
    furnished.home.IsNormal ∧ furnished.home.root ≠ .relative ∧
    (run fiveSlots timeoutOfFive furnished).1.exit = 0 ∧
    ∃ config value, Config.Reread furnished.home fiveSlots.environment furnished.disk
        (run fiveSlots timeoutOfFive furnished).2.disk config .fetchTimeout value ∧
      Config.load furnished.home (fun _ => none) (Config.defaultPath furnished.home)
          (run fiveSlots timeoutOfFive furnished).2.disk
        = .ok (Config.restored furnished.home (config.set .fetchTimeout value),
          (run fiveSlots timeoutOfFive furnished).2.disk) := by
  have parsed : Command.parse timeoutOfFive = .ok (.setConfig "records.fetch_timeout" "5") := by
    decide
  have normal : furnished.home.IsNormal := by
    have home : furnished.home = Path.ofText "/home" := by decide +kernel
    rw [home]
    exact Path.isNormal_ofText _
  have rooted : furnished.home.root ≠ .relative := by decide +kernel
  have succeeds : (run fiveSlots timeoutOfFive furnished).1.exit = 0 := by decide +kernel
  refine ⟨parsed, normal, rooted, succeeds, ?_⟩
  obtain ⟨config, setting, value, accepted, rereads⟩ :=
    (setConfig_accounted parsed normal rooted Prod.mk.eta.symm).2 succeeds
  have names : ∀ setting ∈ Setting.all, "records.fetch_timeout" = setting.home.name ++ "." ++ setting.name →
      setting = .fetchTimeout := by decide
  obtain rfl := names setting (Setting.mem_all setting) accepted.named
  obtain ⟨loaded, loads⟩ := accepted.loads
  have readable := List.all_eq_true.mp (isReadable_furnished loads accepted.reads)
  have spec (other : Setting) := of_decide_eq_true (readable other (Setting.mem_all other))
  have reread := rereads fun other written => (spec other written).2
  exact ⟨config, value, reread,
    reread.loads (fun other written => (spec other written).1) _ (reread.folder (by decide))⟩

/-- The number of slots that a disk's file gives where no variable is set. -/
def slots (disk : Disk (ItemTable Float)) : Except ConfigError (Option Int) :=
  (Config.load furnished.home (fun _ => none) (Config.defaultPath furnished.home) disk).map
    fun (loaded : Config Float × Disk (ItemTable Float)) => Settings.asWhole? (loaded.1 .totalSlots)

/-- The name for states that a disk's file gives where no variable is set, if that is a text. -/
def stateName (disk : Disk (ItemTable Float)) : Except ConfigError (Option String) :=
  (Config.load furnished.home (fun _ => none) (Config.defaultPath furnished.home) disk).map
    fun (loaded : Config Float × Disk (ItemTable Float)) => Settings.asText? (loaded.1 .stateFile)

/-- When the timeout is set, the number of slots that its variable gives gets into the file; when a file
name with a line end is set, the file is not read any more; and a day that the file gives for another
setting becomes a text. -/
theorem set_unfaithful :
    slots furnished.disk = .ok (some 32) ∧
    ((run fiveSlots timeoutOfFive furnished).1.exit = 0 ∧
      slots (run fiveSlots timeoutOfFive furnished).2.disk = .ok (some 5)) ∧
    (run fiveSlots ["config", "set", "session.state_file", "a\nb"] furnished).1.exit = 0 ∧
    slots (run fiveSlots ["config", "set", "session.state_file", "a\nb"] furnished).2.disk
      = .error .malformed ∧
    (run fiveSlots timeoutOfFive dated).1.exit = 0 ∧ stateName dated.disk = .ok none ∧
    stateName (run fiveSlots timeoutOfFive dated).2.disk = .ok (some "1979-05-27") := by
  decide +kernel

end Cli

end DhtRecords
