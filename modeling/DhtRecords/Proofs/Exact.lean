/-
Numbers that add up exactly.

`ExactQuantity` says that the numbers of a type are rational numbers and that
its operations are theirs: clock readings are taken as such where a statement
is about when something happens. Whole seconds (`Seconds`) are an instance, and
`Seconds.world` is a small world to try statements on.
-/

import DhtRecords.Proofs.Continuity
import DhtRecords.Simnet
import Mathlib.Algebra.Order.Archimedean.Basic
import Mathlib.Data.Rat.Floor
import Mathlib.Tactic.Linarith

namespace DhtRecords

/-- The numbers of a type stand for rational numbers and are added up and compared as these. -/
class ExactQuantity (τ : Type) [Quantity τ] where
  value : τ → ℚ
  value_zero : value Quantity.zero = 0
  value_add : ∀ a b, value (Quantity.add a b) = value a + value b
  value_sub : ∀ a b, value (Quantity.sub a b) = value a - value b
  lt_iff : ∀ a b, Quantity.lt a b = true ↔ value a < value b
  eq_iff : ∀ a b, Quantity.eq a b = true ↔ value a = value b
  ceil?_eq : ∀ a, Quantity.ceil? a = some ⌈value a⌉

namespace ExactQuantity

attribute [simp] value_zero value_add value_sub lt_iff eq_iff ceil?_eq

variable {τ ν : Type} [Quantity τ] [ExactQuantity τ]

@[simp] theorem lt_eq_false_iff (a b : τ) : Quantity.lt a b = false ↔ value b ≤ value a := by
  rw [← Bool.not_eq_true, lt_iff, not_lt]

@[simp] theorem atLeast_iff (a b : τ) :
    Quantity.atLeast a b = true ↔ value b ≤ value a := by
  rw [Quantity.atLeast, Bool.or_eq_true, lt_iff, eq_iff, le_iff_lt_or_eq, @eq_comm _ (value b)]

@[simp] theorem value_later (a b : τ) : value (Quantity.later a b) = max (value a) (value b) := by
  unfold Quantity.later
  split
  · next less => rw [max_eq_right ((lt_iff a b).mp less).le]
  · next notLess => rw [max_eq_left (not_lt.mp (mt (lt_iff a b).mpr notLess))]

theorem le_foldl_later (readings : List τ) (start : τ) :
    value start ≤ value (readings.foldl Quantity.later start) := by
  induction readings generalizing start with
  | nil => exact le_refl _
  | cons reading rest ih =>
    have first : value start ≤ value (Quantity.later start reading) := by simp
    exact first.trans (ih _)

end ExactQuantity

/-- No clock goes back on its own. -/
theorem World.Continues.clock_le {τ ν : Type} [Quantity τ] [ExactQuantity τ]
    {before after : World τ ν} (continues : before.Continues after) :
    ExactQuantity.value before.clock ≤ ExactQuantity.value after.clock := by
  obtain ⟨readings, clock⟩ := continues.clock
  rw [clock]
  exact ExactQuantity.le_foldl_later readings before.clock

/-! ### Whole seconds -/

/-- Times and durations in whole seconds. -/
structure Seconds where
  count : Int
  deriving DecidableEq, Repr

namespace Seconds

/-- The whole seconds of a numeral; what has no digits counts as nought. -/
def ofNumeral : Numeral → Seconds
  | .finite negative digits exponent =>
    let scaled : Int := (digits * 10 ^ exponent.toNat / 10 ^ (-exponent).toNat : Nat)
    ⟨if negative then -scaled else scaled⟩
  | _ => ⟨0⟩

/-- The numeral of a number of seconds. -/
def toNumeral (time : Seconds) : Numeral := .finite (time.count < 0) time.count.natAbs 0

instance : Quantity Seconds where
  add a b := ⟨a.count + b.count⟩
  sub a b := ⟨a.count - b.count⟩
  lt a b := a.count < b.count
  eq a b := a.count = b.count
  ofInt? count := some ⟨count⟩
  ofNumeral := ofNumeral
  shortest := toNumeral
  rounded _ := toNumeral
  ceil? time := some time.count

instance : ExactQuantity Seconds where
  value time := time.count
  value_zero := by decide
  value_add a b := by simp [Quantity.add]
  value_sub a b := by simp [Quantity.sub]
  lt_iff a b := by simp [Quantity.lt]
  eq_iff a b := by simp [Quantity.eq]
  ceil?_eq a := by simp [Quantity.ceil?]

/-- Settings in whole seconds. -/
def settings : Settings Seconds where
  dataDir := ⟨.absolute, []⟩
  stateFile := "state"
  engineFactory := "simnet:create"
  readinessPollInterval := ⟨1⟩
  bootstrapTimeout := ⟨30⟩
  livenessInterval := some ⟨5⟩
  joinTimeout := some ⟨10⟩
  putCooldown := ⟨10⟩
  lockSweepEvery := 2
  submissionLogSize := 4
  fetchTimeout := ⟨3⟩
  headerRetries := some 1
  totalSlots := 4
  maxChunkSize := some (.whole (.int 4))
  getTimeout := some ⟨3⟩
  putAckTimeout := some ⟨3⟩
  headerIssueDelay := ⟨0⟩
  chunkIssueDelay := ⟨0⟩
  headerSettle := ⟨2⟩
  chunkSettle := ⟨2⟩

/-- A pair of keys. -/
def pair : KeyPair where
  seed := List.replicate 32 7
  publicKey := [
    234, 74, 108, 99, 226, 156, 82, 10, 190, 245, 80, 123, 19, 46, 197, 249,
    149, 71, 118, 174, 190, 190, 123, 146, 66, 30, 234, 105, 20, 70, 210, 44]
  seed_length := rfl
  publicKey_eq := by decide +kernel

/-- An overlay in which all goes well, with one engine and these items. -/
def net (items : Entries (Bytes × String) Simnet.Item) : Simnet Seconds where
  options := .plain
  items := items
  engines := ⟨[(1, { running := true, hasHandler := true })]⟩

/-- A world in which a session runs that engine. -/
def world (items : Entries (Bytes × String) Simnet.Item) : World Seconds (Simnet Seconds) where
  settings := settings
  clock := ⟨0⟩
  overlay := net items
  engines := 1
  correlator := { running := true }
  session := { state := .running, engine := some 1, bootstrapped := true, signalled := true }
  ledger := { cooldown := settings.putCooldown, sweepEvery := 2, capacity := 4 }
  freshKeys _ := pair

end Seconds

end DhtRecords
