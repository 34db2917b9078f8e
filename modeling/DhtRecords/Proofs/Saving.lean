/-
Configurations that are saved and loaded again.

Every line of a configuration's file is read as what it was written for, or is left
open at a control of a text (`line_cases`). If no text that was written has a
control, the file is read as the document of the configuration. Otherwise the first
line with a control makes the file malformed (`load_of_saved`). What is loaded equals
what was saved if every value is of its setting's type, within its bounds and among
its choices (`load_saved`).
-/

import DhtRecords.Proofs.Exact
import DhtRecords.Proofs.Restoring

namespace DhtRecords

variable {τ α : Type} [Quantity τ]

/-! ### Steps that can fail -/

theorem exists_of_bind_ok {ε β γ : Type} {first : Except ε β} {next : β → Except ε γ} {value : γ}
    (made : first >>= next = .ok value) : ∃ middle, first = .ok middle ∧ next middle = .ok value := by
  cases first with
  | error error => cases made
  | ok middle => exact ⟨middle, rfl, made⟩

theorem of_mapError_ok {ε ε' β : Type} {first : Except ε β} {name : ε → ε'} {value : β}
    (made : first.mapError name = .ok value) : first = .ok value := by
  cases first with
  | error error => cases made
  | ok middle => exact congrArg Except.ok (Except.ok.inj made)

/-! ### Files on disks -/

namespace Disk

/-- The folders on the way decide where a path leads. -/
theorem follow_of_folders {disk other : Disk α} (same : other.folders = disk.folders)
    {place target : Location} {parts : List String} (leads : disk.follow place parts = .ok target) :
    other.follow place parts = .ok target := by
  induction parts generalizing place with
  | nil => exact leads
  | cons part parts ih =>
    have folder : other.isFolderAt place = disk.isFolderAt place := by
      rw [isFolderAt, isFolderAt, same]
    rw [follow] at leads ⊢
    rw [folder]
    split at leads
    · next inside =>
      obtain ⟨next, goes, leads⟩ := exists_of_bind_ok leads
      rw [if_pos inside, goes]
      exact ih leads
    · cases leads

/-- A write puts content where the path leads, before and after it. -/
theorem exists_of_write {disk saved : Disk α} {path : Path} {content : FileContent α}
    (written : disk.write path content = .ok saved) :
    ∃ place, saved.find path = .ok place ∧
      saved = { disk with files := disk.files.insert place content } := by
  obtain ⟨place, found, written⟩ := exists_of_bind_ok written
  split at written
  · cases written
  · obtain rfl := Except.ok.inj written
    refine ⟨place, ?_, rfl⟩
    generalize after : ({ disk with files := disk.files.insert place content } : Disk α) = saved
    have same : saved.folders = disk.folders := by rw [← after]
    have start : saved.start path = disk.start path := by rw [← after]; rfl
    unfold find at found ⊢
    split at found
    · cases found
    · rw [start]
      exact follow_of_folders same found

/-- A file that has been written is there, and is read as what was written. -/
theorem read_written {disk saved : Disk α} {path : Path} {content : Bytes}
    (written : disk.write path (.bytes content) = .ok saved) :
    saved.holds path = true ∧ saved.read path = .ok content := by
  obtain ⟨place, again, after⟩ := exists_of_write written
  have present : saved.files.get? place = some (.bytes content) := by
    rw [after]
    simp [Entries.get?_insert]
  constructor
  · simp [holds, leadsTo, again, isFileAt, Entries.contains, present]
  · simp only [read, again, present, bind, Except.bind]
    rfl

end Disk

/-! ### Values -/

namespace Setting.Admits

variable {setting : Setting} {value : SettingValue τ}

omit [Quantity τ] in
theorem itemFloats_texts (items : List String) :
    Toml.Value.itemFloats (items.map (.text : String → Toml.Value τ)) = [] := by
  induction items with
  | nil => rfl
  | cons item items ih => rw [List.map_cons, Toml.Value.itemFloats, ih]; rfl

/-- An admitted value has no numbers but itself. -/
theorem eq_of_mem_floats (admits : setting.Admits value) {x : τ} (member : x ∈ value.inFile.floats) :
    value = .plain (.float x) := by
  cases admits with
  | texts =>
    rw [SettingValue.inFile, Toml.Value.floats, itemFloats_texts] at member
    cases member
  | fraction =>
    rw [SettingValue.inFile, Toml.Value.floats] at member
    rw [List.mem_singleton.mp member]
  | _ => cases member

/-- An admitted value has no texts further within. -/
theorem texts_eq (admits : setting.Admits value) : value.texts = value.inFile.writtenTexts := by
  cases admits with
  | texts =>
    rename_i items _
    rw [SettingValue.texts_list, SettingValue.inFile, Toml.Value.writtenTexts]
    induction items with
    | nil => rfl
    | cons item items ih => rw [List.map_cons, Toml.Value.itemTexts, ← ih]; rfl
  | _ => rfl

end Setting.Admits

/-! ### Lines -/

namespace Config

variable {home : Path} {config : Config τ}

/-- The lines of the file with what they state. -/
def lines (home : Path) (config : Config τ) : List (List Char × Toml.Statement τ) :=
  (heading.toList, .blank) :: (blocks home config).flatMap Toml.Block.lines

theorem intercalate_fileOf (lines : List (List Char)) :
    ['\n'].intercalate (lines ++ [[]]) = Toml.fileOf lines := by
  induction lines with
  | nil => rfl
  | cons line lines ih =>
    have more : lines ++ [[]] ≠ [] := List.append_ne_nil_of_right_ne_nil _ (List.cons_ne_nil _ _)
    rw [List.cons_append, List.intercalate_cons_of_ne_nil more, ih]
    simp [Toml.fileOf]

/-- A blank line and the lines of the sections are the same as those of the blocks, each of which has a
blank line in front, and a blank line. -/
theorem sectionLines_eq (places : List Section) :
    ("" :: places.flatMap (sectionLines home config)).map String.toList
      = (((places.filter fun place => changed home config place ≠ []).map (block home config)).flatMap
          Toml.Block.lines).map Prod.fst ++ [[]] := by
  induction places with
  | nil => rfl
  | cons place places ih =>
    cases differing : changed home config place with
    | nil =>
      have none : sectionLines home config place = [] := by rw [sectionLines, differing]
      rw [List.flatMap_cons, none, List.nil_append, ih, List.filter_cons_of_neg (by simp [differing])]
    | cons first others =>
      have written : sectionLines home config place = ["[" ++ place.name ++ "]"]
          ++ (first :: others).map (fun setting => setting.name ++ " = " ++ (config setting).write) ++ [""] := by
        rw [sectionLines, differing]
      rw [List.flatMap_cons, written, List.filter_cons_of_pos (by simp [differing])]
      simp only [List.map_cons, List.flatMap_cons, List.map_append, List.append_assoc] at ih ⊢
      rw [← ih]
      simp [Toml.Block.lines, block, differing, Toml.headLine, Toml.entryLine, Function.comp_def]

/-- The file consists of its lines. -/
theorem toList_write (home : Path) (config : Config τ) :
    (config.write home).toList = Toml.fileOf ((lines home config).map Prod.fst) := by
  rw [write, String.toList_intercalate, List.map_cons, sectionLines_eq, lines, blocks, List.map_cons,
    ← List.cons_append]
  exact intercalate_fileOf _

/-- The lines are statements that make the document. -/
theorem foldlM_lines (home : Path) (config : Config τ) :
    ∃ made : Toml.Document τ, ((lines home config).map Prod.snd).foldlM Toml.Document.follow? {}
        = some made ∧ made.data = document home config := by
  have tables : ∀ block ∈ blocks home config, (block.table.map Prod.fst).Nodup := by
    intro block member
    obtain ⟨place, -, rfl⟩ := List.mem_map.mp member
    exact nodup_block home config place
  obtain ⟨made, follows, data⟩ := Toml.foldlM_blocks Toml.Plain.empty (nodup_blocks home config) tables
  refine ⟨made, ?_, data⟩
  rw [lines, List.map_cons, List.foldlM_cons]
  exact follows

/-- The line of a setting that is written. -/
theorem mem_lines {setting : Setting} (written : IsWritten home config setting) :
    ∃ statement, (Toml.entryLine setting.name (config setting).write.toList, statement)
      ∈ lines home config := by
  have member : setting ∈ changed home config setting.home := mem_changed.mpr ⟨rfl, written⟩
  refine ⟨.entry [setting.name] (config setting).inFile.filed, List.mem_cons_of_mem _ ?_⟩
  refine List.mem_flatMap.mpr ⟨block home config setting.home, List.mem_map_of_mem ?_, ?_⟩
  · simp [Section.mem_all, List.ne_nil_of_mem member]
  · refine List.mem_cons_of_mem _ (List.mem_cons_of_mem _ ?_)
    exact List.mem_map_of_mem (List.mem_map_of_mem member)

/-- Whether no text of the file has a control. -/
def IsClean (home : Path) (config : Config τ) : Prop :=
  ∀ setting, IsWritten home config setting → (config setting).IsClean

/-- Whether no text of the file has a control, however deep within a list it stands. -/
def IsLegible (home : Path) (config : Config τ) : Prop :=
  ∀ setting, IsWritten home config setting → ∀ text ∈ (config setting).inFile.writtenTexts, Toml.IsClean text

/-- What a configuration must be for its file to be read back as far as it goes: what is written is told
by its texts. -/
abbrev Savable (home : Path) (config : Config τ) : Prop :=
  ∀ setting, IsWritten home config setting → Toml.Tells (config setting).inFile

/-- A configuration whose numbers read back from their texts and in which no integer is too long is
savable. -/
theorem savable_of_restores
    (restores : ∀ setting, IsWritten home config setting → ∀ x ∈ (config setting).inFile.floats,
      Toml.Restores x)
    (short : hasLongInteger home config = false) : Savable home config := by
  intro setting written
  refine Toml.tells_of_restores _ (restores setting written) ?_
  have places := List.any_eq_false.mp short setting.home (Section.mem_all _)
  have settings := List.any_eq_false.mp (Bool.eq_false_iff.mpr places) setting
    (mem_changed.mpr ⟨rfl, written⟩)
  cases value : config setting with
  | path file => simp [SettingValue.inFile, Toml.Value.hasLongInteger]
  | plain plain =>
    rw [value] at settings
    exact Bool.eq_false_iff.mpr settings

namespace Savable

/-- A line is read as what it states, or is the line of a value that has a control. -/
theorem line_cases (savable : Savable home config) {line : List Char × Toml.Statement τ}
    (member : line ∈ lines home config) :
    Toml.States line.1 line.2 ∨ ∃ setting, IsWritten home config setting ∧
      ¬ (∀ text ∈ (config setting).inFile.writtenTexts, Toml.IsClean text) ∧
      line.1 = Toml.entryLine setting.name (config setting).write.toList := by
  rcases List.mem_cons.mp member with rfl | inside
  · exact .inl (Toml.states_comment (Toml.clean_of_any rfl))
  obtain ⟨block, among, inside⟩ := List.mem_flatMap.mp inside
  obtain ⟨place, -, rfl⟩ := List.mem_map.mp among
  rcases List.mem_cons.mp inside with rfl | inside
  · exact .inl Toml.states_blank
  rcases List.mem_cons.mp inside with rfl | inside
  · exact .inl (Toml.states_head (Section.isName_name place))
  obtain ⟨entry, among, rfl⟩ := List.mem_map.mp inside
  obtain ⟨setting, changed, rfl⟩ := List.mem_map.mp among
  have written := (mem_changed.mp changed).2
  by_cases clean : ∀ text ∈ (config setting).inFile.writtenTexts, Toml.IsClean text
  · refine .inl (Toml.states_entry (Setting.isName_name setting) ?_)
    rw [SettingValue.write_inFile]
    exact (savable setting written).reads clean
  · exact .inr ⟨setting, written, clean, rfl⟩

/-- The written form of a value with a control is left open before one. -/
theorem breaks (savable : Savable home config) {setting : Setting} (written : IsWritten home config setting)
    (unclean : ¬ ∀ text ∈ (config setting).inFile.writtenTexts, Toml.IsClean text) :
    Toml.Breaks τ (config setting).write.toList := by
  rw [SettingValue.write_inFile]
  exact (savable setting written).breaks unclean

/-- The line of a value with a control is not read. -/
theorem not_states (savable : Savable home config) {setting : Setting}
    (written : IsWritten home config setting)
    (unclean : ¬ ∀ text ∈ (config setting).inFile.writtenTexts, Toml.IsClean text)
    (statement : Toml.Statement τ) :
    ¬ Toml.States (Toml.entryLine setting.name (config setting).write.toList) statement := by
  obtain ⟨before, control, after, same, -, controls⟩ := savable.breaks written unclean
  intro states
  have clean := states.clean control (by simp [Toml.entryLine, same])
  rw [controls] at clean
  cases clean

/-- A file without controls is read as the document of the configuration. -/
theorem read_clean (savable : Savable home config) (legible : IsLegible home config) :
    Toml.read (config.write home) = .ok (document home config) := by
  have states : ∀ line ∈ lines home config, Toml.States line.1 line.2 := fun line member =>
    (savable.line_cases member).resolve_right fun ⟨setting, written, unclean, _⟩ =>
      unclean (legible setting written)
  obtain ⟨made, follows, data⟩ := foldlM_lines home config
  rw [← data]
  exact Toml.read_fileOf states follows (toList_write home config)

/-- A file with a control is malformed: all lines in front of the first such line are read. -/
theorem read_unclean (savable : Savable home config) (illegible : ¬ IsLegible home config) :
    (Toml.read (config.write home) : Except Toml.ReadError (Toml.Table τ)) = .error .malformed := by
  classical
  have stopped : ¬ ∀ line ∈ lines home config, Toml.States line.1 line.2 := by
    intro all
    refine illegible fun setting written => ?_
    by_contra control
    obtain ⟨statement, member⟩ := mem_lines written
    exact savable.not_states written control statement (all _ member)
  obtain ⟨before, first, after, parts, states, stops⟩ := Toml.exists_first stopped
  obtain ⟨setting, written, unclean, line⟩ := (savable.line_cases (parts ▸ by simp)).resolve_left stops
  obtain ⟨leading, control, rest, value, opens, controls⟩ := savable.breaks written unclean
  obtain ⟨made, follows, -⟩ := foldlM_lines home config
  rw [parts, List.map_append, List.foldlM_append] at follows
  obtain ⟨middle, follows, -⟩ := Option.bind_eq_some_iff.mp follows
  have shape : (config.write home).toList = Toml.fileOf (before.map Prod.fst)
      ++ (Toml.entryLine setting.name leading ++ control :: (rest ++ '\n' ::
        Toml.fileOf (after.map Prod.fst))) := by
    rw [toList_write, parts, List.map_append, List.map_cons, line, value]
    simp [Toml.fileOf, Toml.entryLine]
  exact Toml.read_opens states follows (Setting.isName_name setting) opens controls shape

end Savable

/-! ### Loading -/

/-- The data folder of what is loaded is that of what was saved. -/
theorem dataDir_restored {file : Path} (path : config .dataDir = .path file) :
    (restored home config).dataDir = config.dataDir := by
  by_cases written : IsWritten home config .dataDir
  · rw [dataDir, restored, if_pos written, path, dataDir, path]
    rfl
  · have equal : (config .dataDir).equalsDefault (.path (home ++ Path.ofName Setting.folderName)) = true :=
      eq_true_of_ne_false written
    rw [path] at equal
    rw [dataDir, restored, if_neg written, dataDir, path]
    exact (of_decide_eq_true equal).symm

/-- What equals a default has a control only if the default has. -/
theorem isClean_of_equalsDefault {value default : SettingValue τ}
    (equal : value.equalsDefault default = true) (clean : default.IsClean) : value.IsClean := by
  unfold SettingValue.equalsDefault at equal
  split at equal
  · rw [of_decide_eq_true equal]
    exact clean
  · rw [of_decide_eq_true equal]
    exact clean
  · exact SettingValue.isClean_of_texts rfl
  · next number _ _ _ =>
    cases number with
    | bool => exact SettingValue.isClean_of_texts rfl
    | int => exact SettingValue.isClean_of_texts rfl
    | float => exact SettingValue.isClean_of_texts rfl
    | text => cases equal
    | moment => cases equal
    | list => cases equal
    | table => cases equal
  · cases equal

/-- The defaults have no controls, but for the path of the home folder. -/
theorem isClean_default {home : Path} {setting : Setting} (other : setting ≠ .dataDir) :
    (Setting.default home setting : SettingValue τ).IsClean := by
  cases setting <;> first
    | exact absurd rfl other
    | exact SettingValue.isClean_text.mpr (by decide)
    | exact SettingValue.isClean_of_texts rfl

/-- With a home folder whose path has no control, no text of the file has one just if no text of the
configuration has. -/
theorem isClean_iff (folder : (Setting.default home .dataDir : SettingValue τ).IsClean) :
    IsClean home config ↔ ∀ setting, (config setting).IsClean := by
  refine ⟨fun clean setting => ?_, fun clean setting _ => clean setting⟩
  by_cases written : IsWritten home config setting
  · exact clean setting written
  · refine isClean_of_equalsDefault (eq_true_of_ne_false written) ?_
    by_cases first : setting = .dataDir
    · exact first ▸ folder
    · exact isClean_default first

/-- What a file that has been saved is read as. -/
theorem readDocument_saved {path : Path} {disk saved : Disk α}
    (written : config.save home path disk = .ok saved) :
    hasLongInteger home config = false ∧
      (readDocument saved path : Except ConfigError (Toml.Table τ))
        = (Toml.read (config.write home)).mapError .ofToml := by
  obtain ⟨disk, -, written⟩ := exists_of_bind_ok written
  cases long : hasLongInteger home config with
  | true =>
    rw [long] at written
    cases written
  | false =>
    rw [long] at written
    obtain ⟨holds, read⟩ := Disk.read_written (of_mapError_ok written)
    refine ⟨rfl, ?_⟩
    rw [readDocument, if_pos holds, read]
    simp only [Except.mapError, bind, Except.bind, Utf8.decode?_encode]

/-- A savable configuration is saved, and loaded if no text of the file has a control and the data folder
can be made; with a control the file is malformed. -/
theorem load_of_saved (environment : Environment) {path : Path} {disk saved : Disk α}
    (savable : Savable home config)
    (stays : ∀ setting, IsWritten home config setting → setting.Stays home (config setting))
    {file : Path} (folder : config .dataDir = .path file)
    (unset : ∀ setting : Setting, environment setting.variableName = none)
    (written : config.save home path disk = .ok saved) :
    (IsLegible home config → ∀ after,
      saved.makeFolders (Path.ofLocation (config.dataDir.locate saved.here)) = .ok after →
      load home environment path saved = .ok (restored home config, after)) ∧
    (¬ IsLegible home config → (load home environment path saved :
      Except ConfigError (Config τ × Disk α)) = .error .malformed) := by
  obtain ⟨-, document⟩ := readDocument_saved written
  refine ⟨fun legible after made => ?_, fun illegible => ?_⟩
  · rw [savable.read_clean legible] at document
    rw [load, document]
    simp only [Except.mapError, bind, Except.bind, ofDocument_document stays unset,
      dataDir_restored folder, made]
    rfl
  · rw [savable.read_unclean illegible] at document
    rw [load, document]
    rfl

/-- The data folder of an admitted configuration is a path. -/
theorem exists_dataDir (admits : Setting.dataDir.Admits (config .dataDir)) :
    ∃ file, config .dataDir = .path file := by
  generalize config .dataDir = value at admits
  cases admits with
  | path => exact ⟨_, rfl⟩
  | text kind => cases kind
  | texts kind => cases kind
  | truth kind => cases kind
  | whole kind => cases kind
  | fraction kind => cases kind

/-- A configuration is saved and loaded. What is loaded equals what was saved if no text of the file
has a control, and if the data folder can be made; otherwise the file is malformed. -/
theorem load_saved (environment : Environment) {path : Path} {disk saved : Disk α}
    (admitted : ∀ setting : Setting, setting.Admits (config setting))
    (restores : ∀ (setting : Setting) x, config setting = .plain (.float x) →
      (Decimal.readNumeral (Quantity.exactText x)).map Quantity.ofNumeral = .ok x)
    (unset : ∀ setting : Setting, environment setting.variableName = none)
    (written : config.save home path disk = .ok saved) :
    (IsClean home config → ∀ after,
      saved.makeFolders (Path.ofLocation (config.dataDir.locate saved.here)) = .ok after →
      ∃ loaded, load home environment path saved = .ok (loaded, after) ∧
        ∀ setting, (config setting).Equals (loaded setting)) ∧
    (¬ IsClean home config → (load home environment path saved :
      Except ConfigError (Config τ × Disk α)) = .error .malformed) ∧
    ((Setting.default home .dataDir : SettingValue τ).IsClean →
      (IsClean home config ↔ ∀ setting, (config setting).IsClean)) := by
  have savable : Savable home config := savable_of_restores
    (fun setting _ x member => restores setting x ((admitted setting).eq_of_mem_floats member))
    (readDocument_saved written).1
  have same : IsLegible home config ↔ IsClean home config := forall_congr' fun setting => by
    rw [SettingValue.IsClean, (admitted setting).texts_eq]
  obtain ⟨file, folder⟩ := exists_dataDir (admitted .dataDir)
  obtain ⟨loads, malformed⟩ := load_of_saved environment savable
    (fun setting _ => (admitted setting).stays home) folder unset written
  rw [same] at loads malformed
  refine ⟨fun clean after made => ⟨restored home config, loads clean after made, fun setting => ?_⟩,
    malformed, isClean_iff⟩
  exact equals_restored (admitted setting).typed fun _ => (admitted setting).validate?

/-- The defaults with another cooldown, two nodes to start from and a name of the state's file. -/
def named (content : String) : Config Seconds :=
  (((ofDefaults ⟨.absolute, ["home"]⟩).set .putCooldown (.plain (.float ⟨12⟩))).set .bootstrapNodes
    (.plain (.list (["a:1", "b:2"].map .text)))).set .stateFile (.plain (.text content))

theorem admits_named (content : String) (setting : Setting) : setting.Admits (named content setting) := by
  cases setting
  case dataDir => exact .path rfl (by decide) (by decide)
  case logLevel => exact .text rfl (by decide +kernel)
  case bootstrapNodes => exact .texts rfl
  case engineFactory => exact .text rfl (by decide)
  case listenInterfaces => exact .text rfl (by decide)
  case stateFile => exact .text rfl nofun
  all_goals first
    | exact .whole rfl rfl (by decide) (by decide)
    | exact .fraction rfl rfl (by decide) (by decide)

theorem restores_named (content : String) (setting : Setting) (x : Seconds)
    (float : named content setting = .plain (.float x)) :
    (Decimal.readNumeral (Quantity.exactText x)).map Quantity.ofNumeral = .ok x := by
  cases setting <;> cases float <;> decide

/-- A file of twelve seconds, two nodes and a name with a quote, a backslash and a tabulator is loaded;
with a line end in the name it is malformed. -/
theorem named_loaded :
    (∃ (saved after : Disk Unit) (loaded : Config Seconds),
      (named "a\"\\\tb").save ⟨.absolute, ["home"]⟩ ⟨.absolute, ["c.toml"]⟩ {} = .ok saved ∧
      load ⟨.absolute, ["home"]⟩ (fun _ => none) ⟨.absolute, ["c.toml"]⟩ saved = .ok (loaded, after) ∧
      ∀ setting, (named "a\"\\\tb" setting).Equals (loaded setting)) ∧
    ∃ saved : Disk Unit,
      (named "a\nb").save ⟨.absolute, ["home"]⟩ ⟨.absolute, ["c.toml"]⟩ {} = .ok saved ∧
      (load ⟨.absolute, ["home"]⟩ (fun _ => none) ⟨.absolute, ["c.toml"]⟩ saved :
        Except ConfigError (Config Seconds × Disk Unit)) = .error .malformed := by
  constructor
  · have written : (named "a\"\\\tb").save ⟨.absolute, ["home"]⟩ ⟨.absolute, ["c.toml"]⟩
        ({} : Disk Unit) = .ok _ := rfl
    have clean : IsClean ⟨.absolute, ["home"]⟩ (named "a\"\\\tb") := fun setting _ => by
      cases setting <;> decide
    obtain ⟨loaded, read, same⟩ :=
      (load_saved (fun _ => none) (admits_named _) (restores_named _) (fun _ => rfl) written).1 clean _ rfl
    exact ⟨_, _, loaded, written, read, same⟩
  · have written : (named "a\nb").save ⟨.absolute, ["home"]⟩ ⟨.absolute, ["c.toml"]⟩
        ({} : Disk Unit) = .ok _ := rfl
    have unclean : ¬ IsClean ⟨.absolute, ["home"]⟩ (named "a\nb") := fun clean =>
      absurd (clean .stateFile rfl) (by decide)
    exact ⟨_, written,
      (load_saved (fun _ => none) (admits_named _) (restores_named _) (fun _ => rfl) written).2.1 unclean⟩

end Config

end DhtRecords
