/-
Values that stay what they are.

What is found for a setting has been matched to the setting's kind and fitted into
its bounds. Fitted once more it is the same (`Bounds.fit_again`), and what a file has
of it is matched to the kind as that value (`Kind.Matched.stays`), so nothing is lost
if it is saved and found again (`Setting.Settled`). That is so for every setting of a
configuration that was loaded and differs from its default (`Config.settled_of_ofDocument`).
-/

import DhtRecords.Proofs.Fitting
import DhtRecords.Proofs.Paths

namespace DhtRecords

/-! ### Kinds -/

namespace Kind

section

variable {τ : Type} {kind : Kind} {home : Path}

/-- Whether a value is one of those that a kind has: a path in which nothing is left to expand, or a value
of another kind, which is no whole number where a fraction is asked for. -/
inductive Matched (kind : Kind) (home : Path) : SettingValue τ → Prop where
  | path {file : Path} (path : kind = .path) (normal : file.IsNormal)
      (expanded : Path.expandHome? home file = some file) : Matched kind home (.path file)
  | plain {value : Toml.Value τ} (other : kind ≠ .path)
      (fraction : kind = .fraction → ∀ whole, value ≠ .int whole) : Matched kind home (.plain value)

variable [Quantity τ]

theorem normalize_of_matched {value : SettingValue τ} (matched : kind.Matched home value) :
    kind.normalize home value = .ok value := by
  cases matched with
  | path => rfl
  | @plain value other fraction =>
    cases kind with
    | path => exact absurd rfl other
    | fraction => cases value <;> first | exact absurd rfl (fraction rfl _) | rfl
    | _ => rfl

variable (normal : home.IsNormal) (rooted : home.root ≠ .relative)

include normal rooted

omit [Quantity τ] in
theorem matched_of_readPath {text : String} {value : SettingValue τ}
    (read : readPath home text = .ok value) : Matched .path home value := by
  unfold readPath at read
  dsimp only at read
  split at read
  · next found expanded =>
    obtain rfl := Except.ok.inj read
    obtain ⟨normal, again⟩ := Path.expandHome?_again normal rooted (Path.isNormal_ofText text) expanded
    exact .path rfl normal again
  · cases read

theorem matched_of_coerce {text : String} {value : SettingValue τ}
    (spelt : kind.coerce home text = .ok value) : kind.Matched home value := by
  cases kind with
  | path => exact matched_of_readPath normal rooted spelt
  | truth => cases spelt; exact .plain nofun nofun
  | texts => cases spelt; exact .plain nofun nofun
  | text => cases spelt; exact .plain nofun nofun
  | whole =>
    obtain ⟨number, -, rfl⟩ := of_map_ok spelt
    exact .plain nofun nofun
  | fraction =>
    obtain ⟨numeral, -, rfl⟩ := of_map_ok spelt
    exact .plain nofun nofun

theorem matched_of_normalize {given : Toml.Value τ} {value : SettingValue τ}
    (normalized : kind.normalize home (.plain given) = .ok value) : kind.Matched home value := by
  cases kind with
  | path =>
    change (if given.hasLongInteger then _ else _) = _ at normalized
    split at normalized
    · cases normalized
    · exact matched_of_readPath normal rooted normalized
  | fraction =>
    cases given with
    | int whole =>
      rw [normalize_int] at normalized
      split at normalized
      · cases normalized
        exact .plain nofun nofun
      · cases normalized
    | _ => cases normalized; exact .plain nofun nofun
  | _ => cases normalized; exact .plain nofun nofun

end

end Kind

/-- A value that is an integer in a file is one. -/
theorem Toml.Value.eq_int_of_filed {τ : Type} [Quantity τ] {value : Toml.Value τ} {whole : Int}
    (filed : value.filed = .int whole) : value = .int whole := by
  cases value <;> rw [Toml.Value.filed] at filed <;> cases filed
  rfl

/-- What a file has of a value of a kind is matched to the kind as that value. -/
theorem Kind.Matched.stays {τ : Type} [Quantity τ] {setting : Setting} {home : Path} {value : SettingValue τ}
    (matched : setting.kind.Matched home value) : setting.Stays home value := by
  rw [Setting.Stays]
  cases matched with
  | @path file path normal expanded =>
    have read : (readPath home file.text : Except ConfigError (SettingValue τ)) = .ok (.path file) := by
      rw [readPath, Path.ofText_text normal]
      simp only [expanded]
    rw [path, SettingValue.inFile, Toml.Value.filed, normalize]
    exact read
  | @plain value other fraction =>
    exact normalize_of_matched (.plain other fun kind whole filed =>
      fraction kind whole (Toml.Value.eq_int_of_filed filed))

/-! ### Bounds -/

theorem Binary64.not_lt_of_le {x y : Float} (ordered : x ≤ y) : ¬ y < x := by
  intro less
  have swapped : order y x = (order x y).map Ordering.swap := compare_swap _ _
  rw [lt_iff.mp less] at swapped
  rcases le_iff.mp ordered with below | equal
  · rw [below] at swapped
    cases swapped
  · rw [equal] at swapped
    cases swapped

/-- A number that is moved into bounds is not moved again; the float that is no number is never moved. -/
theorem clamp_again {low high : Float} (ordered : low ≤ high) (x : Float) :
    clamp low high (clamp low high x) = clamp low high x := by
  have stays {y : Float} (least : ¬ y < low) (most : ¬ high < y) : clamp low high y = y := by
    have reaches : ¬ Quantity.lt y low = true := fun less => least (of_decide_eq_true less)
    have keeps : ¬ Quantity.lt high y = true := fun less => most (of_decide_eq_true less)
    rw [clamp, if_neg reaches, if_neg keeps]
  obtain ⟨lower, upper⟩ := Binary64.isNaN_of_le ordered
  have moved : clamp low high x = low ∨ clamp low high x = high ∨
      clamp low high x = x ∧ ¬ x < low ∧ ¬ high < x := by
    unfold clamp
    split
    · exact .inl rfl
    · next least =>
      split
      · exact .inr (.inl rfl)
      · next most =>
        exact .inr (.inr ⟨rfl, fun less => least (decide_eq_true less),
          fun less => most (decide_eq_true less)⟩)
  rcases moved with low | high | ⟨same, least, most⟩
  · rw [low]
    exact stays (Binary64.not_lt_of_le (Binary64.le_refl lower)) (Binary64.not_lt_of_le ordered)
  · rw [high]
    exact stays (Binary64.not_lt_of_le ordered) (Binary64.not_lt_of_le (Binary64.le_refl upper))
  · rw [same]
    exact stays least most

namespace Bounds

theorem fit_again {bounds : Bounds} (ordered : bounds.Ordered) (value : Toml.Value Float) :
    bounds.fit (bounds.fit value) = bounds.fit value := by
  cases bounds with
  | whole low high =>
    cases value with
    | int value =>
      have ordered := ordered.1
      simp only [fit]
      split_ifs <;> first | rfl | omega
    | float x => exact congrArg Toml.Value.float (clamp_again ordered.2 x)
    | _ => rfl
  | fraction low high exponent =>
    cases value with
    | float x => exact congrArg Toml.Value.float (clamp_again ordered x)
    | _ => rfl

theorem eq_int_of_fit {τ : Type} [Quantity τ] {bounds : Bounds} {value : Toml.Value τ} {whole : Int}
    (fitted : bounds.fit value = .int whole) : ∃ other, value = .int other := by
  cases bounds <;> cases value <;> first | exact ⟨_, rfl⟩ | cases fitted

end Bounds

/-! ### Settings -/

namespace Setting

variable {setting : Setting} {home : Path} {value : SettingValue Float}

/-- A value that is accepted is fitted into the bounds, if there are any. -/
theorem plain_of_validate? {τ : Type} [Quantity τ] {given : Toml.Value τ} {value : SettingValue τ}
    (valid : setting.validate? (.plain given) = some value) :
    value = .plain ((setting.bounds?.map fun bounds => bounds.fit given).getD given) := by
  unfold validate? at valid
  generalize setting.bounds? = bounds at valid ⊢
  generalize setting.choices? = choices at valid
  cases bounds <;> cases choices <;> first
    | exact (Option.some_inj.mp valid).symm
    | exact (Option.some_inj.mp (Option.ite_none_left_eq_some.mp valid).2).symm

/-- What is no number is accepted as it is. -/
theorem eq_of_validate? {τ : Type} [Quantity τ] {given : Toml.Value τ} {value : SettingValue τ}
    (valid : setting.validate? (.plain given) = some value) (other : ¬ given.IsNumeric) :
    value = .plain given := by
  rw [plain_of_validate? valid]
  cases setting.bounds? with
  | none => rfl
  | some bounds => cases bounds <;> cases given <;> first | rfl | exact absurd trivial other

/-- Whether a value is found again once it has been saved. -/
structure Settled (home : Path) (setting : Setting) (value : SettingValue Float) : Prop where
  stays : setting.Stays home value
  valid : setting.validate? value = some value

/-- A value of a setting's kind is settled once it is fitted into the bounds and accepted. -/
theorem matched_of_validate? {given : SettingValue Float} (matched : setting.kind.Matched home given)
    (valid : setting.validate? given = some value) :
    setting.kind.Matched home value ∧ setting.validate? value = some value := by
  cases matched with
  | path path normal expanded =>
    obtain rfl := Option.some_inj.mp valid
    exact ⟨.path path normal expanded, rfl⟩
  | @plain given other fraction =>
    cases numeric : setting.bounds? with
    | some bounds =>
      rw [validate?_numeric numeric] at valid
      obtain rfl := Option.some_inj.mp valid
      refine ⟨.plain other fun kind whole same => ?_, ?_⟩
      · obtain ⟨whole, same⟩ := Bounds.eq_int_of_fit same
        exact fraction kind whole same
      · rw [validate?_numeric numeric, Bounds.fit_again (ordered_of_bounds numeric)]
    | none =>
      have same := plain_of_validate? valid
      rw [numeric, Option.map_none, Option.getD_none] at same
      rw [same] at valid ⊢
      exact ⟨.plain other fraction, valid⟩

theorem settled_of_validate? {given : SettingValue Float} (matched : setting.kind.Matched home given)
    (valid : setting.validate? given = some value) : setting.Settled home value :=
  have ⟨matched, valid⟩ := matched_of_validate? matched valid
  ⟨matched.stays, valid⟩

/-- What is accepted for the data folder is a path. -/
theorem exists_path {given : SettingValue Float} (matched : Kind.path.Matched home given)
    (valid : dataDir.validate? given = some value) : ∃ file, value = .path file := by
  cases matched with
  | path =>
    obtain rfl := Option.some_inj.mp valid
    exact ⟨_, rfl⟩
  | plain other => exact absurd rfl other

/-- Every default equals itself, so it is not written. -/
theorem equalsDefault_default (home : Path) (setting : Setting) :
    (setting.default home : SettingValue Float).equalsDefault (setting.default home) = true := by
  have others : ∀ setting ∈ all.tail,
      (setting.default ⟨.relative, []⟩ : SettingValue Float).equalsDefault (setting.default ⟨.relative, []⟩)
        = true := by decide
  by_cases folder : setting = .dataDir
  · subst folder
    exact decide_eq_true rfl
  · have elsewhere : (setting.default home : SettingValue Float) = setting.default ⟨.relative, []⟩ := by
      cases setting <;> first | rfl | exact absurd rfl folder
    rw [elsewhere]
    exact others setting ((List.mem_cons.mp (mem_all setting)).resolve_left folder)

end Setting

/-! ### Configurations -/

namespace Config

variable {home : Path} {environment : Environment} {document : Toml.Table Float} {setting : Setting}
  (normal : home.IsNormal) (rooted : home.root ≠ .relative)

include normal rooted

/-- What is found for a setting has been matched to its kind and then accepted. -/
theorem matched_of_find? {value : SettingValue Float}
    (finds : find? home environment document setting = .ok (some value)) :
    ∃ given, setting.kind.Matched home given ∧ setting.validate? given = some value := by
  obtain ⟨given, gives, outcome⟩ := find?_eq_ok finds
  cases given with
  | none => cases outcome
  | some given =>
    obtain ⟨matched, matching, valid⟩ := outcome
    refine ⟨matched, ?_, valid.symm⟩
    unfold given? at gives
    split at gives
    · obtain ⟨coerced, spelt, same⟩ := of_map_ok gives
      obtain rfl := Option.some_inj.mp same
      have fits := Kind.matched_of_coerce normal rooted spelt
      rw [Kind.normalize_of_matched fits] at matching
      exact Except.ok.inj matching ▸ fits
    · obtain ⟨plain, rfl⟩ : ∃ plain, given = .plain plain := by
        unfold inFile at gives
        split at gives
        · cases gives
        · obtain ⟨plain, -, same⟩ := Option.map_eq_some_iff.mp (Except.ok.inj gives)
          exact ⟨plain, same.symm⟩
        · cases gives
      exact Kind.matched_of_normalize normal rooted matching

/-- What is loaded and differs from its default is settled. -/
theorem settled_of_ofDocument {config : Config Float}
    (made : ofDocument home environment document = .ok config)
    (written : IsWritten home config setting) : setting.Settled home (config setting) := by
  obtain ⟨found, finds, settles⟩ := ofDocument_eq_ok made setting
  cases found with
  | none =>
    rw [IsWritten, settles, Option.getD_none, Setting.equalsDefault_default] at written
    cases written
  | some value =>
    obtain ⟨given, matched, valid⟩ := matched_of_find? normal rooted finds
    rw [settles]
    exact Setting.settled_of_validate? matched valid

/-- The data folder that is loaded is a path. -/
theorem dataDir_of_ofDocument {config : Config Float}
    (made : ofDocument home environment document = .ok config) : ∃ file, config .dataDir = .path file := by
  obtain ⟨found, finds, settles⟩ := ofDocument_eq_ok made .dataDir
  cases found with
  | none => exact ⟨_, settles⟩
  | some value =>
    obtain ⟨given, matched, valid⟩ := matched_of_find? normal rooted finds
    rw [settles]
    exact Setting.exists_path matched valid

end Config

end DhtRecords
