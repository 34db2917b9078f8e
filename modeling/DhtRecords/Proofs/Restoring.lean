/-
Settings that are looked up in the document of a configuration.

The document has a table for each section that differs from the defaults, and in it
the values that do (`Config.document`), with days, times and tables as texts. If what
the file has of every value is normalized to that value (`Setting.Stays`), the settings
of the document are those of the configuration, validated once more, with the defaults
in place of what equals them (`ofDocument_document`). A value of a setting's type, within its bounds and
among its choices (`Setting.Admits`), is such a value and stays as it is.
-/

import DhtRecords.Config.Basic
import DhtRecords.Proofs.Sections
import Mathlib.Data.List.Nodup

namespace DhtRecords

variable {τ : Type}

/-! ### Values of settings -/

namespace SettingValue

/-- The value as a file has it: a path is a text there. -/
def inFile : SettingValue τ → Toml.Value τ
  | .path file => .text file.text
  | .plain value => value

/-- The texts of a value: that of a path, and those among a list's items. -/
def texts : SettingValue τ → List String
  | .path file => [file.text]
  | .plain (.text content) => [content]
  | .plain (.list items) => items.filterMap fun
    | .text content => some content
    | _ => none
  | .plain _ => []

/-- Whether the texts of a value have no control but tabulators. -/
def IsClean (value : SettingValue τ) : Prop := ∀ text ∈ value.texts, Toml.IsClean text

instance (value : SettingValue τ) : Decidable value.IsClean :=
  List.decidableBAll Toml.IsClean value.texts

/-- Whether a value has a day, a time or a table in it, for which a text is written. -/
def IsRetyped (value : SettingValue τ) : Prop := value.inFile.isRetyped = true

instance (value : SettingValue τ) : Decidable value.IsRetyped :=
  inferInstanceAs (Decidable (_ = true))

theorem isClean_of_texts {value : SettingValue τ} (none : value.texts = []) : value.IsClean := by
  rw [IsClean, none]
  exact List.forall_mem_nil _

theorem texts_list (items : List String) :
    (SettingValue.plain (.list (items.map .text)) : SettingValue τ).texts = items := by
  rw [texts, List.filterMap_map]
  exact List.filterMap_some

theorem isClean_text {content : String} :
    (.plain (.text content) : SettingValue τ).IsClean ↔ Toml.IsClean content :=
  List.forall_mem_singleton

variable [Quantity τ]

theorem write_inFile (value : SettingValue τ) : value.write = value.inFile.write := by
  cases value with
  | path file => rw [write, inFile, Toml.Value.write]
  | plain value => rfl

/-- A value as it comes out of a file: days, times and tables are texts there. -/
def filed : SettingValue τ → SettingValue τ
  | .path file => .path file
  | .plain value => .plain value.filed

theorem filed_of_typed {value : SettingValue τ} (typed : ¬ value.IsRetyped) : value.filed = value := by
  cases value with
  | path file => rfl
  | plain value =>
    rw [filed, Toml.Value.filed_of_typed]
    exact eq_false_of_ne_true typed

/-- Whether two values are the same, or equal as numbers. -/
def Equals (value other : SettingValue τ) : Prop := value = other ∨ value.equalsDefault other = true

end SettingValue

/-- A path from the root is read as it is. -/
theorem Kind.readPath_text (home : Path) {file : Path} (rooted : file.root ≠ .relative)
    (normal : Path.ofText file.text = file) :
    (Kind.readPath home file.text : Except ConfigError (SettingValue τ)) = .ok (.path file) := by
  have same : Path.expandHome? home file = some file := by
    unfold Path.expandHome?
    split
    · next relative _ => exact absurd relative rooted
    · rfl
  rw [Kind.readPath, normal]
  simp only [same]

variable [Quantity τ]

namespace Setting

/-- The values of a setting's type that are within its bounds and among its choices, and the paths that
are normalized and start at the root. A truth value is a whole number, on which there are no bounds. -/
inductive Admits (setting : Setting) : SettingValue τ → Prop where
  | path {file : Path} (kind : setting.kind = .path) (rooted : file.root ≠ .relative)
      (normal : Path.ofText file.text = file) : Admits setting (.path file)
  | text {content : String} (kind : setting.kind = .text)
      (chosen : ∀ choices, setting.choices? = some choices → content.map Char.toLower ∈ choices) :
      Admits setting (.plain (.text content))
  | texts {items : List String} (kind : setting.kind = .texts) :
      Admits setting (.plain (.list (items.map .text)))
  | truth {value : Bool} (kind : setting.kind = .whole) : Admits setting (.plain (.bool value))
  | whole {low high : Nat} {value : Int} (kind : setting.kind = .whole)
      (bounds : setting.bounds? = some (.whole low high)) (least : low ≤ value) (most : value ≤ high) :
      Admits setting (.plain (.int value))
  | fraction {low high : Nat} {exponent : Int} {value : τ} (kind : setting.kind = .fraction)
      (bounds : setting.bounds? = some (.fraction low high exponent))
      (least : Quantity.lt value (Quantity.fraction low exponent) = false)
      (most : Quantity.lt (Quantity.fraction high exponent) value = false) :
      Admits setting (.plain (.float value))

/-- Whether what a file has of a value is matched to the setting's kind as that value. -/
def Stays (home : Path) (setting : Setting) (value : SettingValue τ) : Prop :=
  setting.kind.normalize home (.plain value.inFile.filed) = .ok value.filed

/-- A value that fits and is not refused stays. -/
theorem validate?_plain {setting : Setting} {value : Toml.Value τ}
    (fits : ∀ bounds, setting.bounds? = some bounds → bounds.fit value = value)
    (accepted : ∀ choices, setting.choices? = some choices → isRefused choices value = false) :
    setting.validate? (.plain value) = some (.plain value) := by
  unfold Setting.validate?
  cases bounds : setting.bounds? with
  | none =>
    cases choices : setting.choices? with
    | none => rfl
    | some words => simp [accepted words choices]
  | some range =>
    cases choices : setting.choices? with
    | none => simp [fits range bounds]
    | some words => simp [fits range bounds, accepted words choices]

namespace Admits

variable {setting : Setting} {value : SettingValue τ}

omit [Quantity τ] in
theorem hasRetypedItem_texts (items : List String) :
    Toml.Value.hasRetypedItem (items.map (.text : String → Toml.Value τ)) = false := by
  induction items with
  | nil => rfl
  | cons item items ih => rw [List.map_cons, Toml.Value.hasRetypedItem, ih]; rfl

theorem typed (admits : setting.Admits value) : ¬ value.IsRetyped := by
  have none : value.inFile.isRetyped = false := by
    cases admits with
    | texts => rw [SettingValue.inFile, Toml.Value.isRetyped, hasRetypedItem_texts]
    | _ => rfl
  rw [SettingValue.IsRetyped, none]
  exact Bool.false_ne_true

theorem stays (admits : setting.Admits value) (home : Path) : setting.Stays home value := by
  have typed := admits.typed
  rw [Stays, SettingValue.filed_of_typed typed,
    Toml.Value.filed_of_typed _ (eq_false_of_ne_true typed)]
  cases admits with
  | path kind rooted normal =>
    rw [kind, SettingValue.inFile, Kind.normalize]
    exact Kind.readPath_text home rooted normal
  | text kind => rw [kind]; rfl
  | texts kind => rw [kind]; rfl
  | truth kind => rw [kind]; rfl
  | whole kind => rw [kind]; rfl
  | fraction kind => rw [kind]; rfl

/-- A value within the bounds and among the choices stays. -/
theorem validate? (admits : setting.Admits value) : setting.validate? value = some value := by
  cases admits with
  | path => rfl
  | text kind chosen =>
    refine validate?_plain (fun bounds _ => by cases bounds <;> rfl) fun choices found => ?_
    simp [isRefused, chosen choices found]
  | texts kind => exact validate?_plain (fun bounds _ => by cases bounds <;> rfl) fun _ _ => rfl
  | truth kind => exact validate?_plain (fun bounds _ => by cases bounds <;> rfl) fun _ _ => rfl
  | whole kind bounds least most =>
    refine validate?_plain (fun fitted found => ?_) fun _ _ => rfl
    obtain rfl := Option.some_inj.mp (bounds.symm.trans found)
    rw [Bounds.fit, if_neg (Int.not_lt.mpr least), if_neg (Int.not_lt.mpr most)]
  | fraction kind bounds least most =>
    refine validate?_plain (fun fitted found => ?_) fun _ _ => rfl
    obtain rfl := Option.some_inj.mp (bounds.symm.trans found)
    simp [Bounds.fit, clamp, least, most]

end Admits

theorem mem_all (setting : Setting) : setting ∈ all := by
  cases setting <;> decide

theorem nodup_names : (all.map name).Nodup := by decide

theorem name_injective : Function.Injective name := fun setting other same =>
  List.inj_on_of_nodup_map nodup_names (mem_all setting) (mem_all other) same

theorem isName_name (setting : Setting) : Toml.IsName setting.name := by
  cases setting <;> exact ⟨by decide, List.all_eq_true.mp rfl⟩

theorem mem_within {setting : Setting} {place : Section} : setting ∈ within place ↔ setting.home = place := by
  simp [within, mem_all]

end Setting

namespace Section

theorem mem_all (place : Section) : place ∈ all := by
  cases place <;> decide

theorem nodup_names : (all.map name).Nodup := by decide

theorem name_injective : Function.Injective name := fun place other same =>
  List.inj_on_of_nodup_map nodup_names (mem_all place) (mem_all other) same

theorem isName_name (place : Section) : Toml.IsName place.name := by
  cases place <;> exact ⟨by decide, List.all_eq_true.mp rfl⟩

end Section

/-! ### The document of a configuration -/

namespace Config

variable {home : Path} {config : Config τ}

/-- The setting is in the file. -/
def IsWritten (home : Path) (config : Config τ) (setting : Setting) : Prop :=
  (config setting).equalsDefault (Setting.default home setting) = false

instance (home : Path) (config : Config τ) (setting : Setting) :
    Decidable (IsWritten home config setting) :=
  inferInstanceAs (Decidable (_ = false))

theorem mem_changed {setting : Setting} {place : Section} :
    setting ∈ changed home config place ↔ setting.home = place ∧ IsWritten home config setting := by
  simp [changed, IsWritten, Setting.mem_within]

/-- The section of a place in the file. -/
def block (home : Path) (config : Config τ) (place : Section) : Toml.Block τ where
  name := place.name
  entries := (changed home config place).map fun setting =>
    (setting.name, (config setting).write.toList, (config setting).inFile.filed)

/-- The sections of a file: those that differ from the defaults. -/
def blocks (home : Path) (config : Config τ) : List (Toml.Block τ) :=
  (Section.all.filter fun place => changed home config place ≠ []).map (block home config)

/-- What the file of a configuration is read as. -/
def document (home : Path) (config : Config τ) : Toml.Table τ :=
  (blocks home config).map fun block => (block.name, .table block.table)

theorem nodup_blocks (home : Path) (config : Config τ) :
    ((blocks home config).map Toml.Block.name).Nodup := by
  rw [blocks, List.map_map]
  exact Section.nodup_names.sublist (List.filter_sublist.map Section.name)

theorem table_block (place : Section) :
    (block home config place).table
      = (changed home config place).map fun setting => (setting.name, (config setting).inFile.filed) := by
  rw [Toml.Block.table, block, List.map_map]
  rfl

theorem nodup_block (home : Path) (config : Config τ) (place : Section) :
    ((block home config place).table.map Prod.fst).Nodup := by
  rw [table_block, List.map_map]
  exact Setting.nodup_names.sublist ((List.filter_sublist.trans List.filter_sublist).map Setting.name)

/-- The document has a table for a place where something differs from the defaults. -/
theorem get?_document (place : Section) :
    (document home config).get? place.name
      = if changed home config place = [] then none else some (.table (block home config place).table) := by
  rw [document, blocks, List.map_map]
  refine (Toml.Table.get?_map Section.name_injective _ _ place).trans ?_
  simp [Section.mem_all]

/-- The document has the values that differ from the defaults. -/
theorem inFile_document (setting : Setting) :
    inFile (document home config) setting
      = .ok (if IsWritten home config setting then some (.plain (config setting).inFile.filed) else none) := by
  rw [inFile, get?_document]
  split
  · next absent =>
    rw [if_neg]
    rintro written
    split at absent
    · next none => exact List.ne_nil_of_mem (mem_changed.mpr ⟨rfl, written⟩) none
    · cases absent
  · next entries present =>
    split at present
    · cases present
    · obtain rfl := Toml.Value.table.inj (Option.some_inj.mp present)
      rw [table_block, Toml.Table.get?_map Setting.name_injective]
      by_cases written : IsWritten home config setting
      · rw [if_pos written, if_pos (mem_changed.mpr ⟨rfl, written⟩)]
        rfl
      · rw [if_neg written, if_neg fun member => written (mem_changed.mp member).2]
        rfl
  · next value other present =>
    split at present
    · cases present
    · exact absurd (Option.some_inj.mp present).symm (other _)

/-- The value of a setting that is loaded: what equals the default or is no longer accepted becomes the
default. -/
def restored (home : Path) (config : Config τ) : Config τ := fun setting =>
  (if IsWritten home config setting then setting.validate? (config setting).filed else none).getD
    (Setting.default home setting)

/-- A value of which nothing becomes a text and which stays acceptable is loaded, or else one that equals
it. -/
theorem equals_restored {setting : Setting} (typed : ¬ (config setting).IsRetyped)
    (valid : IsWritten home config setting → setting.validate? (config setting) = some (config setting)) :
    (config setting).Equals (restored home config setting) := by
  unfold restored
  split
  · next written =>
    rw [SettingValue.filed_of_typed typed, valid written]
    exact .inl rfl
  · next equal => exact .inr (eq_true_of_ne_false equal)

theorem find?_document {setting : Setting}
    (stays : IsWritten home config setting → setting.Stays home (config setting))
    {environment : Environment} (unset : environment setting.variableName = none) :
    find? home environment (document home config) setting
      = .ok (if IsWritten home config setting then setting.validate? (config setting).filed else none) := by
  unfold find?
  rw [inFile_document, unset]
  split
  · next written =>
    change (setting.kind.normalize home (.plain (config setting).inFile.filed) >>= fun value =>
      Except.ok (setting.validate? value)) = _
    rw [stays written]
    rfl
  · rfl

/-- The settings of the document are those that are loaded. -/
theorem ofDocument_document
    (stays : ∀ setting, IsWritten home config setting → setting.Stays home (config setting))
    {environment : Environment} (unset : ∀ setting : Setting, environment setting.variableName = none) :
    ofDocument home environment (document home config) = .ok (restored home config) := by
  have found : (fun setting => do
      return (setting, ← find? home environment (document home config) setting) :
        Setting → Except ConfigError (Setting × Option (SettingValue τ)))
      = fun setting => pure (setting, if IsWritten home config setting
          then setting.validate? (config setting).filed else none) := by
    funext setting
    rw [find?_document (stays setting) (unset setting)]
    rfl
  unfold ofDocument
  rw [found, List.mapM_pure]
  refine congrArg Except.ok (funext fun setting => ?_)
  rw [List.lookup_graph _ (Setting.mem_all setting), Option.getD_some, restored]

end Config

end DhtRecords
