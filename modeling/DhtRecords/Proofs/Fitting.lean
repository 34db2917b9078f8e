/-
Settings that are loaded, and their bounds.

A number that is given for a setting is moved into the setting's bounds, whether
the environment or the file gives it: a float for a whole number and an infinity
too. A setting of which nothing is said has a default, and defaults are within
their bounds (`loaded_within`). Only numbers are compared with bounds: a truth
value, a text, a day, a time, a list or a table that the file gives stays what it is.
The environment gives numbers only. The float that is no number is neither below nor
above anything, so it is loaded as it is given, out of all bounds (`loaded_undefined`).

Floats are compared by their signs, exponents and mantissas, so of two that are
numbers one is at most the other (`Binary64.le_of_not_lt`).
-/

import DhtRecords.Proofs.Saving

namespace DhtRecords

/-! ### Floats -/

namespace Binary64

open Float.Model

/-- Compared the other way round, two floats are in the opposite order. -/
theorem compare_swap : ∀ x y : UnpackedFloat, y.compare x = (x.compare y).map Ordering.swap
  | .finite s m e _, .finite t n f _ => by
    have sizes : (compare f e).then (compare n m) = ((compare e f).then (compare m n)).swap := by
      rw [Ordering.swap_then, ← Std.OrientedCmp.eq_swap, ← Std.OrientedCmp.eq_swap]
    cases s <;> cases t
    · exact congrArg (fun sizes : Ordering => some sizes.swap) sizes
    · rfl
    · rfl
    · exact congrArg some sizes
  | .infinity s, .infinity t => by cases s <;> cases t <;> rfl
  | .infinity s, .zero _ | .infinity s, .finite .. => by cases s <;> rfl
  | .zero _, .infinity t | .finite .., .infinity t => by cases t <;> rfl
  | .zero _, .finite t .. => by cases t <;> rfl
  | .finite s .., .zero _ => by cases s <;> rfl
  | .zero _, .zero _ => rfl
  | .notANumber, y => by cases y <;> rfl
  | x, .notANumber => by cases x <;> rfl

/-- Floats have an order unless one of them is no number. -/
theorem isNone_compare : ∀ x y : UnpackedFloat, (x.compare y).isNone = (x.isNaN || y.isNaN)
  | .finite s .., .finite t .. => by cases s <;> cases t <;> rfl
  | .infinity s, .infinity t => by cases s <;> cases t <;> rfl
  | .infinity s, .zero _ | .infinity s, .finite .. => by cases s <;> rfl
  | .zero _, .infinity t | .finite .., .infinity t => by cases t <;> rfl
  | .zero _, .finite t .. => by cases t <;> rfl
  | .finite s .., .zero _ => by cases s <;> rfl
  | .zero _, .zero _ => rfl
  | .notANumber, y => by cases y <;> rfl
  | x, .notANumber => by cases x <;> rfl

/-- The order of two floats, if they have one. -/
def order (x y : Float) : Option Ordering := x.toModel.unpack.compare y.toModel.unpack

theorem lt_iff {x y : Float} : x < y ↔ order x y = some .lt := by
  change decide (x.toModel.unpack.lt y.toModel.unpack = true) = true ↔ _
  simp [UnpackedFloat.lt, order]

theorem le_iff {x y : Float} : x ≤ y ↔ order x y = some .lt ∨ order x y = some .eq := by
  change decide (x.toModel.unpack.le y.toModel.unpack = true) = true ↔ _
  rw [decide_eq_true_iff, UnpackedFloat.le, order]
  rcases x.toModel.unpack.compare y.toModel.unpack with _ | _ | _ | _ <;> simp

theorem isNone_order (x y : Float) : (order x y).isNone = (x.isNaN || y.isNaN) := isNone_compare _ _

/-- Floats that are in order are numbers. -/
theorem isNaN_of_le {x y : Float} (ordered : x ≤ y) : x.isNaN = false ∧ y.isNaN = false := by
  have none := isNone_order x y
  rcases le_iff.mp ordered with less | equal
  · rwa [less, Option.isNone_some, eq_comm, Bool.or_eq_false_iff] at none
  · rwa [equal, Option.isNone_some, eq_comm, Bool.or_eq_false_iff] at none

/-- A number that is not below another one is at least that. -/
theorem le_of_not_lt {x y : Float} (number : x.isNaN = false) (number' : y.isNaN = false)
    (reaches : ¬ x < y) : y ≤ x := by
  have swapped : order y x = (order x y).map Ordering.swap := compare_swap _ _
  cases found : order x y with
  | none =>
    have some := isNone_order x y
    rw [found, number, number'] at some
    cases some
  | some ordering =>
    rw [found] at swapped
    cases ordering with
    | lt => exact absurd (lt_iff.mpr found) reaches
    | eq => exact le_iff.mpr (.inr swapped)
    | gt => exact le_iff.mpr (.inl swapped)

theorem le_refl {x : Float} (number : x.isNaN = false) : x ≤ x := by
  refine le_of_not_lt number number fun less => ?_
  have swapped : order x x = (order x x).map Ordering.swap := compare_swap _ _
  rw [lt_iff.mp less] at swapped
  cases swapped

/-- The float of an integer is a number. -/
theorem isNaN_of_ofInt? {value : Int} {x : Float} (found : ofInt? value = some x) : x.isNaN = false := by
  obtain ⟨finite, same⟩ := Option.ite_none_right_eq_some.mp found
  obtain rfl := Option.some_inj.mp same
  change (ofRatio (value < 0) ⟨value.natAbs, 1⟩).toModel.unpack.isFinite = true at finite
  change (ofRatio (value < 0) ⟨value.natAbs, 1⟩).toModel.unpack.isNaN = false
  generalize (ofRatio (value < 0) ⟨value.natAbs, 1⟩).toModel.unpack = unpacked at finite ⊢
  cases unpacked with
  | notANumber => cases finite
  | infinity _ | zero _ | finite _ _ _ _ => rfl

end Binary64

/-- A number that is moved into bounds is within them. -/
theorem clamp_within {low high x : Float} (ordered : low ≤ high) (number : x.isNaN = false) :
    low ≤ clamp low high x ∧ clamp low high x ≤ high := by
  obtain ⟨lower, upper⟩ := Binary64.isNaN_of_le ordered
  unfold clamp
  split
  · exact ⟨Binary64.le_refl lower, ordered⟩
  · next reaches =>
    split
    · exact ⟨ordered, Binary64.le_refl upper⟩
    · next keeps =>
      exact ⟨Binary64.le_of_not_lt number lower fun less => reaches (decide_eq_true less),
        Binary64.le_of_not_lt upper number fun less => keeps (decide_eq_true less)⟩

theorem of_map_ok {ε β γ : Type} {first : Except ε β} {name : β → γ} {value : γ}
    (made : first.map name = .ok value) : ∃ middle, first = .ok middle ∧ name middle = value := by
  cases first with
  | error error => cases made
  | ok middle => exact ⟨middle, rfl, Except.ok.inj made⟩

theorem ok_of_toOption {ε β : Type} {made : Except ε β} {value : β} (found : made.toOption = some value) :
    made = .ok value := by
  cases made with
  | error error => cases found
  | ok middle => exact congrArg Except.ok (Option.some_inj.mp found)

/-- What a key is looked up as in a table of computed values is its computed value. -/
theorem lookup_of_mapM {κ β ε : Type} [BEq κ] [LawfulBEq κ] {compute : κ → Except ε β} {keys : List κ}
    {pairs : List (κ × β)} (computed : (keys.mapM fun key => do return (key, ← compute key)) = .ok pairs)
    {key : κ} (member : key ∈ keys) :
    ∃ value, compute key = .ok value ∧ pairs.lookup key = some value := by
  induction keys generalizing pairs with
  | nil => cases member
  | cons first keys ih =>
    rw [List.mapM_cons] at computed
    obtain ⟨pair, head, computed⟩ := exists_of_bind_ok computed
    obtain ⟨tail, rest, computed⟩ := exists_of_bind_ok computed
    obtain ⟨value, computes, head⟩ := exists_of_bind_ok head
    obtain rfl := Except.ok.inj head
    obtain rfl := Except.ok.inj computed
    by_cases same : key = first
    · rw [same]
      exact ⟨value, computes, List.lookup_cons_self⟩
    · obtain ⟨other, computes, known⟩ := ih rest ((List.mem_cons.mp member).resolve_left same)
      refine ⟨other, computes, ?_⟩
      rw [List.lookup_cons, beq_false_of_ne same]
      exact known

/-! ### Values -/

namespace Toml.Value

/-- A whole number, or a fraction; truth values are none. -/
def IsNumeric {τ : Type} : Value τ → Prop
  | int _ | float _ => True
  | _ => False

/-- A number; the float that is no number is none. -/
def IsNumber : Value Float → Prop
  | int _ => True
  | float value => value.isNaN = false
  | _ => False

end Toml.Value

/-- Where a fraction is asked for, an integer becomes one, unless it is beyond the range. -/
theorem Kind.normalize_int {τ : Type} [Quantity τ] (home : Path) (value : Int) :
    fraction.normalize home (.plain (.int value) : SettingValue τ) =
      match (Quantity.ofInt? value : Option τ) with
      | some x => .ok (.plain (.float x))
      | none => .error .beyondRange := rfl

namespace Bounds

/-- A number no lower and no higher than the bounds. Between fractions it is a fraction. -/
def Within : Bounds → Toml.Value Float → Prop
  | whole low high, .int value => low ≤ value ∧ value ≤ high
  | whole low high, .float value => Quantity.fraction low 0 ≤ value ∧ value ≤ Quantity.fraction high 0
  | fraction low high exponent, .float value =>
    Quantity.fraction low exponent ≤ value ∧ value ≤ Quantity.fraction high exponent
  | _, _ => False

/-- The kind of the values between the bounds. -/
def kind : Bounds → Kind
  | whole .. => .whole
  | fraction .. => .fraction

/-- The lower bound is at most the upper one, also when both are floats. -/
def Ordered : Bounds → Prop
  | whole low high => low ≤ high ∧ (Quantity.fraction low 0 : Float) ≤ Quantity.fraction high 0
  | fraction low high exponent =>
    (Quantity.fraction low exponent : Float) ≤ Quantity.fraction high exponent

instance (bounds : Bounds) (value : Toml.Value Float) : Decidable (bounds.Within value) := by
  unfold Within
  split <;> infer_instance

instance (bounds : Bounds) : Decidable bounds.Ordered := by
  unfold Ordered
  split <;> infer_instance

variable {bounds : Bounds} {home : Path}

/-- A number of the bounds' kind is moved into them. -/
theorem within_fit (ordered : bounds.Ordered) {given : Toml.Value Float} (number : given.IsNumber)
    {value : SettingValue Float} (matched : bounds.kind.normalize home (.plain given) = .ok value) :
    ∃ plain, value = .plain plain ∧ bounds.Within (bounds.fit plain) := by
  cases bounds with
  | whole low high =>
    cases given with
    | int given =>
      refine ⟨.int given, (Except.ok.inj matched).symm, ?_⟩
      have ordered := ordered.1
      simp only [fit, Within]
      split_ifs <;> omega
    | float given => exact ⟨.float given, (Except.ok.inj matched).symm, clamp_within ordered.2 number⟩
    | _ => cases number
  | fraction low high exponent =>
    cases given with
    | int given =>
      rw [kind, Kind.normalize_int] at matched
      split at matched
      · next x found =>
        exact ⟨.float x, (Except.ok.inj matched).symm,
          clamp_within ordered (Binary64.isNaN_of_ofInt? found)⟩
      · cases matched
    | float given => exact ⟨.float given, (Except.ok.inj matched).symm, clamp_within ordered number⟩
    | _ => cases number

/-- What is no number stays what it is. -/
theorem fit_other {given : Toml.Value Float} (other : ¬ given.IsNumeric) :
    bounds.kind.normalize home (.plain given) = .ok (.plain given) ∧ bounds.fit given = given := by
  cases bounds <;> cases given <;> first | exact ⟨rfl, rfl⟩ | exact absurd trivial other

/-- The float that is no number stays what it is, and is within no bounds. -/
theorem fit_undefined {x : Float} (undefined : x.isNaN = true) :
    bounds.kind.normalize home (.plain (.float x)) = .ok (.plain (.float x)) ∧
      bounds.fit (.float x) = .float x ∧ ¬ bounds.Within (.float x) := by
  have unordered {low : Float} : ¬ low ≤ x := fun ordered =>
    Bool.false_ne_true ((Binary64.isNaN_of_le ordered).2.symm.trans undefined)
  have stays (low high : Float) : clamp low high x = x := by
    have none (y : Float) : (Binary64.order x y).isNone = true ∧ (Binary64.order y x).isNone = true := by
      rw [Binary64.isNone_order, Binary64.isNone_order, undefined, Bool.true_or, Bool.or_true]
      exact ⟨rfl, rfl⟩
    have reaches : ¬ Quantity.lt x low = true := fun less => by
      have ordered := Binary64.lt_iff.mp (of_decide_eq_true less)
      have unordered := (none low).1
      rw [ordered] at unordered
      cases unordered
    have keeps : ¬ Quantity.lt high x = true := fun less => by
      have ordered := Binary64.lt_iff.mp (of_decide_eq_true less)
      have unordered := (none high).2
      rw [ordered] at unordered
      cases unordered
    rw [clamp, if_neg reaches, if_neg keeps]
  cases bounds with
  | whole low high => exact ⟨rfl, congrArg Toml.Value.float (stays _ _), fun within => unordered within.1⟩
  | fraction low high exponent =>
    exact ⟨rfl, congrArg Toml.Value.float (stays _ _), fun within => unordered within.1⟩

/-- A text of the environment spells a number. -/
theorem numeric_of_coerce {text : String} {value : SettingValue Float}
    (spelt : bounds.kind.coerce home text = .ok value) :
    ∃ plain, value = .plain plain ∧ plain.IsNumeric := by
  cases bounds with
  | whole =>
    obtain ⟨number, -, rfl⟩ := of_map_ok spelt
    exact ⟨.int number, rfl, trivial⟩
  | fraction =>
    obtain ⟨numeral, -, rfl⟩ := of_map_ok spelt
    exact ⟨.float (Quantity.ofNumeral numeral), rfl, trivial⟩

end Bounds

/-! ### Settings -/

namespace Setting

variable {setting : Setting} {bounds : Bounds}

theorem kind_of_bounds (numeric : setting.bounds? = some bounds) : setting.kind = bounds.kind := by
  cases setting <;> cases numeric <;> rfl

theorem ordered_of_bounds (numeric : setting.bounds? = some bounds) : bounds.Ordered := by
  cases setting <;> cases numeric <;> decide

/-- A setting with bounds has no choices. -/
theorem validate?_numeric (numeric : setting.bounds? = some bounds) (value : Toml.Value Float) :
    setting.validate? (.plain value) = some (.plain (bounds.fit value)) := by
  cases setting <;> cases numeric <;> rfl

/-- Every default is within its bounds. -/
theorem default_within (numeric : setting.bounds? = some bounds) (home : Path) :
    ∃ plain, (setting.default home : SettingValue Float) = .plain plain ∧ bounds.Within plain := by
  cases setting <;> cases numeric <;> exact ⟨_, rfl, by decide⟩

end Setting

/-! ### Configurations -/

namespace Config

section

variable {τ : Type} [Quantity τ] {home : Path} {environment : Environment} {document : Toml.Table τ}
  {setting : Setting}

/-- What is given for a setting: the value that its variable spells, or else what the file says. -/
def given? (home : Path) (environment : Environment) (document : Toml.Table τ) (setting : Setting) :
    Except ConfigError (Option (SettingValue τ)) :=
  match environment setting.variableName with
  | some text => (setting.kind.coerce home text).map some
  | none => inFile document setting

/-- What is found for a setting is what is given for it, matched to its kind and validated. -/
theorem find?_eq_ok {found : Option (SettingValue τ)}
    (finds : find? home environment document setting = .ok found) :
    ∃ given, given? home environment document setting = .ok given ∧
      match given with
      | none => found = none
      | some value => ∃ matched, setting.kind.normalize home value = .ok matched ∧
          found = setting.validate? matched := by
  obtain ⟨written, inside, finds⟩ := exists_of_bind_ok finds
  have staged : ∃ given, given? home environment document setting = .ok given ∧
      (match given with
        | none => pure none
        | some value => do return setting.validate? (← setting.kind.normalize home value)) = Except.ok found := by
    unfold given?
    cases set : environment setting.variableName with
    | none =>
      rw [set] at finds
      exact ⟨written, inside, finds⟩
    | some text =>
      rw [set] at finds
      exact exists_of_bind_ok finds
  obtain ⟨given, gives, finds⟩ := staged
  refine ⟨given, gives, ?_⟩
  cases given with
  | none => exact (Except.ok.inj finds).symm
  | some value =>
    obtain ⟨matched, matching, finds⟩ := exists_of_bind_ok finds
    exact ⟨matched, matching, (Except.ok.inj finds).symm⟩

/-- Every setting of a document is what is found for it, or its default. -/
theorem ofDocument_eq_ok {config : Config τ} (made : ofDocument home environment document = .ok config)
    (setting : Setting) : ∃ found, find? home environment document setting = .ok found ∧
      config setting = found.getD (setting.default home) := by
  obtain ⟨pairs, collected, made⟩ := exists_of_bind_ok made
  obtain rfl := Except.ok.inj made
  obtain ⟨found, finds, known⟩ := lookup_of_mapM collected (Setting.mem_all setting)
  exact ⟨found, finds, congrArg (fun known => (Option.getD known none).getD (setting.default home)) known⟩

end

variable {home : Path} {environment : Environment} {document : Toml.Table Float} {setting : Setting}
  {bounds : Bounds}

/-- What is given for a setting with bounds is a value as files have them, and a number if its variable
is set. -/
theorem given?_numeric (numeric : setting.bounds? = some bounds) {given : Option (SettingValue Float)}
    (gives : given? home environment document setting = .ok given) :
    ∃ plain, given = Option.map .plain plain ∧
      ∀ value ∈ plain, ¬ value.IsNumeric → environment setting.variableName = none := by
  unfold given? at gives
  split at gives
  · obtain ⟨value, spelt, rfl⟩ := of_map_ok gives
    rw [Setting.kind_of_bounds numeric] at spelt
    obtain ⟨plain, rfl, number⟩ := Bounds.numeric_of_coerce spelt
    refine ⟨some plain, rfl, ?_⟩
    rintro _ ⟨⟩ other
    exact absurd number other
  · next unset =>
    unfold inFile at gives
    split at gives
    · exact ⟨none, (Except.ok.inj gives).symm, nofun⟩
    · exact ⟨_, (Except.ok.inj gives).symm, fun _ _ _ => unset⟩
    · cases gives

/-- Of a configuration that is loaded, every setting with bounds is a number within them, unless what is
given for it is no number. What the file gives and is neither a whole number nor a fraction stays what
it is. -/
theorem loaded_within {α : Type} {path : Path} {disk after : Disk α} {config : Config Float}
    (loaded : load home environment path disk = .ok (config, after))
    (numeric : setting.bounds? = some bounds) :
    ∃ document given, readDocument disk path = .ok document ∧
      given? home environment document setting = .ok (Option.map .plain given) ∧
      ((∀ value ∈ given, value.IsNumber) →
        ∃ value, config setting = .plain value ∧ bounds.Within value) ∧
      ∀ value ∈ given, ¬ value.IsNumeric →
        environment setting.variableName = none ∧ config setting = .plain value := by
  obtain ⟨document, read, loaded⟩ := exists_of_bind_ok loaded
  obtain ⟨made, makes, loaded⟩ := exists_of_bind_ok loaded
  obtain ⟨disk, -, loaded⟩ := exists_of_bind_ok loaded
  obtain rfl : made = config := congrArg Prod.fst (Except.ok.inj loaded)
  obtain ⟨found, finds, settles⟩ := ofDocument_eq_ok makes setting
  obtain ⟨given, gives, outcome⟩ := find?_eq_ok finds
  obtain ⟨plain, rfl, unset⟩ := given?_numeric numeric gives
  refine ⟨document, plain, read, gives, fun numbers => ?_, fun value member other => ?_⟩
  · cases plain with
    | none =>
      obtain rfl : found = none := outcome
      rw [settles]
      exact Setting.default_within numeric home
    | some value =>
      obtain ⟨matched, matching, rfl⟩ := outcome
      rw [Setting.kind_of_bounds numeric] at matching
      obtain ⟨fitting, rfl, within⟩ :=
        Bounds.within_fit (Setting.ordered_of_bounds numeric) (numbers value rfl) matching
      rw [Setting.validate?_numeric numeric] at settles
      exact ⟨_, settles, within⟩
  · obtain rfl := Option.mem_def.mp member
    obtain ⟨matched, matching, rfl⟩ := outcome
    obtain ⟨stays, keeps⟩ := @Bounds.fit_other bounds home value other
    rw [Setting.kind_of_bounds numeric, stays] at matching
    obtain rfl := Except.ok.inj matching
    rw [Setting.validate?_numeric numeric, keeps] at settles
    exact ⟨unset value rfl other, settles⟩

/-- The float that is no number is loaded as it is given, whatever the bounds are. -/
theorem loaded_undefined {α : Type} {path : Path} {disk after : Disk α} {config : Config Float}
    (loaded : load home environment path disk = .ok (config, after))
    (numeric : setting.bounds? = some bounds) :
    ∃ document, readDocument disk path = .ok document ∧ ∀ x : Float, x.isNaN = true →
      given? home environment document setting = .ok (some (.plain (.float x))) →
      config setting = .plain (.float x) ∧ ¬ bounds.Within (.float x) := by
  obtain ⟨document, read, loaded⟩ := exists_of_bind_ok loaded
  obtain ⟨made, makes, loaded⟩ := exists_of_bind_ok loaded
  obtain ⟨disk, -, loaded⟩ := exists_of_bind_ok loaded
  obtain rfl : made = config := congrArg Prod.fst (Except.ok.inj loaded)
  refine ⟨document, read, fun x undefined gives => ?_⟩
  obtain ⟨found, finds, settles⟩ := ofDocument_eq_ok makes setting
  obtain ⟨given, gives', outcome⟩ := find?_eq_ok finds
  obtain rfl := Except.ok.inj (gives.symm.trans gives')
  obtain ⟨matched, matching, rfl⟩ := outcome
  obtain ⟨stays, keeps, outside⟩ := @Bounds.fit_undefined bounds home x undefined
  rw [Setting.kind_of_bounds numeric, stays] at matching
  obtain rfl := Except.ok.inj matching
  rw [Setting.validate?_numeric numeric, keeps] at settles
  exact ⟨settles, outside⟩

/-- A timeout that a variable says is infinite is loaded as one within its bounds. -/
theorem infinity_fitted : ∃ (config : Config Float) (after : Disk Unit),
    load ⟨.absolute, ["home"]⟩
      (fun name => if name = "MUTABLEDHT_RECORDS_FETCH_TIMEOUT" then some "inf" else none)
      ⟨.absolute, ["c.toml"]⟩ {} = .ok (config, after) ∧
    Setting.bounds? .fetchTimeout = some (.fraction 1 60000 (-2)) ∧
    ∃ value, config .fetchTimeout = .plain value ∧ (Bounds.fraction 1 60000 (-2)).Within value := by
  have loads : (load ⟨.absolute, ["home"]⟩
      (fun name => if name = "MUTABLEDHT_RECORDS_FETCH_TIMEOUT" then some "inf" else none)
      ⟨.absolute, ["c.toml"]⟩ {} : Except ConfigError (Config Float × Disk Unit)).toOption.isSome = true := by
    decide +kernel
  obtain ⟨⟨config, after⟩, made⟩ := Option.isSome_iff_exists.mp loads
  have loaded := ok_of_toOption made
  have numeric : Setting.bounds? .fetchTimeout = some (.fraction 1 60000 (-2)) := rfl
  obtain ⟨document, given, -, gives, within, -⟩ := loaded_within loaded numeric
  refine ⟨config, after, loaded, numeric, within ?_⟩
  have infinite : given? ⟨.absolute, ["home"]⟩
      (fun name => if name = "MUTABLEDHT_RECORDS_FETCH_TIMEOUT" then some "inf" else none)
      document .fetchTimeout = .ok (some (.plain (.float (Binary64.infinity false)))) := by
    have name : Setting.variableName .fetchTimeout = "MUTABLEDHT_RECORDS_FETCH_TIMEOUT" := by decide +kernel
    have numeral : Decimal.readNumeral "inf" = .ok (.infinite false) := by decide
    rw [given?, name]
    change ((Decimal.readNumeral "inf").mapError ConfigError.number |>.map fun numeral =>
      SettingValue.plain (.float (Quantity.ofNumeral numeral))).map some = _
    rw [numeral]
    rfl
  rw [infinite] at gives
  cases given with
  | none => cases gives
  | some value =>
    obtain rfl := SettingValue.plain.inj (Option.some_inj.mp (Except.ok.inj gives))
    rintro _ ⟨⟩
    change (Binary64.infinity false).isNaN = false
    decide

/-- The text that a setting is, if it is one. -/
def textOf? (setting : Setting) (config : Config Float) : Option String :=
  match config setting with
  | .plain (.text text) => some text
  | _ => none

theorem textOf?_eq_some {setting : Setting} {config : Config Float} {text : String}
    (found : config.textOf? setting = some text) : config setting = .plain (.text text) := by
  unfold textOf? at found
  split at found
  · next same => rw [same, Option.some_inj.mp found]
  · cases found

/-- A number of slots that the file gives as a text is loaded as that text. -/
theorem text_kept : ∃ (config : Config Float) (after : Disk Unit),
    load ⟨.absolute, ["home"]⟩ (fun _ => none) ⟨.absolute, ["c.toml"]⟩
      { files := ⟨[(["c.toml"], .bytes (Utf8.encode "[records]\ntotal_slots = \"many\"\n"))]⟩ }
        = .ok (config, after) ∧
    Setting.bounds? .totalSlots = some (.whole 1 1024) ∧ config .totalSlots = .plain (.text "many") ∧
    ¬ ∃ value, config .totalSlots = .plain value ∧ (Bounds.whole 1 1024).Within value := by
  have loads : ((load ⟨.absolute, ["home"]⟩ (fun _ => none) ⟨.absolute, ["c.toml"]⟩
      { files := ⟨[(["c.toml"], .bytes (Utf8.encode "[records]\ntotal_slots = \"many\"\n"))]⟩ } :
        Except ConfigError (Config Float × Disk Unit)).toOption.bind fun made =>
          made.1.textOf? .totalSlots) = some "many" := by
    decide +kernel
  obtain ⟨⟨config, after⟩, made, found⟩ := Option.bind_eq_some_iff.mp loads
  have kept := textOf?_eq_some found
  refine ⟨config, after, ok_of_toOption made, rfl, kept, ?_⟩
  rintro ⟨value, same, within⟩
  obtain rfl := SettingValue.plain.inj (kept.symm.trans same)
  exact within

end Config

end DhtRecords
