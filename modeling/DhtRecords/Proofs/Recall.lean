/-
What a ledger remembers of the submissions that were let through.

A ledger forgets: stamps are swept once they hold nothing back, and released if
nothing was put. `Recalls` is what it keeps nevertheless: the stamp of a record
is its latest admission, and a record without a stamp has only admissions that
hold nothing back any more. Stamping, sweeping, releasing and the passing of
time keep it, and `Recalls.remaining?_eq` reads the answer of a ledger off the
admissions alone.
-/

import DhtRecords.Ledger
import DhtRecords.Proofs.Exact
import DhtRecords.Proofs.Tables

namespace DhtRecords

open ExactQuantity (value)

/-! ### Admissions -/

/-- A submission of a record that was let through, at a moment. -/
structure Admission (τ : Type) where
  key : RecordKey
  moment : τ
  deriving DecidableEq, Repr

namespace Admission

variable {τ : Type}

/-- The moment at which a record was let through last; the latest admission comes first. -/
def last? (admitted : List (Admission τ)) (key : RecordKey) : Option τ :=
  (admitted.find? (·.key = key)).map (·.moment)

@[simp] theorem last?_nil (key : RecordKey) : last? ([] : List (Admission τ)) key = none := rfl

@[simp] theorem last?_cons (admission : Admission τ) (admitted : List (Admission τ))
    (key : RecordKey) :
    last? (admission :: admitted) key =
      if admission.key = key then some admission.moment else last? admitted key := by
  simp only [last?, List.find?_cons]
  split <;> simp_all

/-- Admissions of other records do not count. -/
theorem last?_filter (admitted : List (Admission τ)) (key : RecordKey) :
    last? (admitted.filter (·.key = key)) key = last? admitted key := by
  simp [last?, List.find?_filter]

theorem last?_append_of_ne {quiet : List (Admission τ)} {key : RecordKey}
    (others : ∀ admission ∈ quiet, admission.key ≠ key) (admitted : List (Admission τ)) :
    last? (quiet ++ admitted) key = last? admitted key := by
  have absent : quiet.find? (·.key = key) = none :=
    List.find?_eq_none.mpr fun admission member => by simpa using others admission member
  rw [last?, List.find?_append, absent, Option.none_or, last?]

variable [Quantity τ] [ExactQuantity τ]

/-- Whether admissions are ordered by their moments, the latest first, none later than now. -/
structure Ordered (admitted : List (Admission τ)) (now : τ) : Prop where
  sorted : admitted.Pairwise fun late early => value early.moment ≤ value late.moment
  past : ∀ admission ∈ admitted, value admission.moment ≤ value now

namespace Ordered

variable {admitted : List (Admission τ)} {now : τ}

theorem later (ordered : Ordered admitted now) {after : τ} (forward : value now ≤ value after) :
    Ordered admitted after :=
  ⟨ordered.sorted, fun admission member => (ordered.past admission member).trans forward⟩

theorem cons (ordered : Ordered admitted now) (key : RecordKey) :
    Ordered (⟨key, now⟩ :: admitted) now := by
  refine ⟨List.pairwise_cons.mpr ⟨ordered.past, ordered.sorted⟩, ?_⟩
  intro admission member
  rcases List.mem_cons.mp member with rfl | member
  · exact le_refl _
  · exact ordered.past admission member

/-- Some admission of a record is recent exactly if the last one is. -/
theorem recent_iff (ordered : Ordered admitted now) (key : RecordKey) (bound : ℚ) :
    (∃ admission ∈ admitted, admission.key = key ∧ value now - value admission.moment < bound) ↔
      ∃ last, last? admitted key = some last ∧ value now - value last < bound := by
  constructor
  · rintro ⟨admission, member, isKey, recent⟩
    cases found : admitted.find? (·.key = key) with
    | none => exact absurd isKey (by simpa using List.find?_eq_none.mp found admission member)
    | some latest =>
      refine ⟨latest.moment, by simp [last?, found], ?_⟩
      obtain ⟨before, after, split, none⟩ := (List.find?_eq_some_iff_append.mp found).2
      have newest : value admission.moment ≤ value latest.moment := by
        rw [split] at member
        rcases List.mem_append.mp member with early | late
        · exact absurd isKey (by simpa using none admission early)
        · rcases List.mem_cons.mp late with rfl | late
          · exact le_refl _
          · have sorted := ordered.sorted
            rw [split, List.pairwise_append] at sorted
            exact List.rel_of_pairwise_cons sorted.2.1 late
      linarith
  · rintro ⟨last, found, recent⟩
    obtain ⟨admission, first, rfl⟩ := Option.map_eq_some_iff.mp found
    exact ⟨admission, List.mem_of_find?_eq_some first, by simpa using List.find?_some first, recent⟩

end Ordered

end Admission

/-! ### Remembering -/

namespace Ledger

variable {τ : Type} [Quantity τ] [ExactQuantity τ]

/-- Whether a ledger remembers all admissions, the latest first, that can still hold a record back. -/
structure Recalls (ledger : Ledger τ) (admitted : List (Admission τ)) (now : τ) : Prop where
  nodup : ledger.stamps.keys.Nodup
  ordered : Admission.Ordered admitted now
  stamped : ∀ key last, ledger.stamps.get? key = some last → Admission.last? admitted key = some last
  unstamped : ∀ key last, ledger.stamps.get? key = none → Admission.last? admitted key = some last →
    value ledger.cooldown ≤ value now - value last

/-- How long a record is held back after admissions, if it is: what a ledger that never forgets
would say. -/
def heldBackAfter? (cooldown : τ) (admitted : List (Admission τ)) (key : RecordKey) (now : τ) :
    Option τ :=
  (Admission.last? admitted key).bind fun last =>
    if Quantity.lt (elapsed now last) cooldown then
      some (Quantity.sub cooldown (elapsed now last))
    else none

/-- The whole seconds for which a record is held back, in terms of rational numbers. -/
theorem map_ceil_heldBackAfter? (cooldown : τ) (admitted : List (Admission τ)) (key : RecordKey)
    (now : τ) :
    (heldBackAfter? cooldown admitted key now).map (fun rest => ⌈value rest⌉) =
      (Admission.last? admitted key).bind fun last =>
        if value now - value last < value cooldown then
          some ⌈value cooldown - (value now - value last)⌉
        else none := by
  unfold heldBackAfter?
  cases Admission.last? admitted key with
  | none => rfl
  | some last =>
    simp only [Option.bind_some, elapsed, ExactQuantity.lt_iff, ExactQuantity.value_sub]
    split <;> simp

omit [ExactQuantity τ] in
theorem cooldown_release (ledger : Ledger τ) (key : RecordKey) (moment : τ) :
    (ledger.release key moment).cooldown = ledger.cooldown := by
  unfold release
  split
  · split <;> rfl
  · rfl

theorem stamps_stamp_release (ledger : Ledger τ) (key : RecordKey) (now : τ) :
    ((ledger.stamp key now).release key now).stamps = (ledger.stamps.insert key now).erase key := by
  simp [Ledger.release, Ledger.stamp, Entries.get?_insert]

/-- A stamp that is taken and released again is gone, whatever it has replaced. -/
theorem get?_stamp_release (ledger : Ledger τ) (key other : RecordKey) (now : τ) :
    ((ledger.stamp key now).release key now).stamps.get? other
      = if other = key then none else ledger.stamps.get? other := by
  rw [stamps_stamp_release, Entries.get?_erase, Entries.get?_insert]
  split <;> rfl

namespace Recalls

variable {ledger : Ledger τ} {admitted : List (Admission τ)} {now : τ}

/-- Forgetting makes no difference. -/
theorem remaining?_eq (recalls : ledger.Recalls admitted now) (key : RecordKey) :
    ledger.remaining? key now = heldBackAfter? ledger.cooldown admitted key now := by
  unfold remaining? heldBackAfter?
  cases held : ledger.stamps.get? key with
  | some last => rw [recalls.stamped key last held]; rfl
  | none =>
    cases latest : Admission.last? admitted key with
    | none => rfl
    | some last =>
      have expired := recalls.unstamped key last held latest
      have notLess : ¬ value now - value last < value ledger.cooldown := not_lt.mpr expired
      simp [elapsed, notLess]

/-- A ledger without stamps remembers that nothing was let through. -/
theorem nil (fresh : ledger.stamps = {}) (now : τ) : ledger.Recalls [] now := by
  refine ⟨?_, ⟨List.Pairwise.nil, by simp⟩, ?_, by simp⟩
  · rw [fresh]; exact List.nodup_nil
  · intro key last held
    rw [fresh] at held
    cases held

/-- What a ledger remembers rests on its stamps and its cooldown. -/
theorem congr (recalls : ledger.Recalls admitted now) {other : Ledger τ}
    (stamps : other.stamps = ledger.stamps) (cooldown : other.cooldown = ledger.cooldown) :
    other.Recalls admitted now := by
  refine ⟨?_, recalls.ordered, ?_, ?_⟩
  · rw [stamps]; exact recalls.nodup
  · rw [stamps]; exact recalls.stamped
  · rw [stamps, cooldown]; exact recalls.unstamped

theorem later (recalls : ledger.Recalls admitted now) {after : τ} (forward : value now ≤ value after) :
    ledger.Recalls admitted after := by
  refine ⟨recalls.nodup, recalls.ordered.later forward, recalls.stamped, ?_⟩
  intro key last held latest
  have expired := recalls.unstamped key last held latest
  linarith

theorem stamp (recalls : ledger.Recalls admitted now) (key : RecordKey) :
    (ledger.stamp key now).Recalls (⟨key, now⟩ :: admitted) now := by
  refine ⟨Entries.nodup_keys_insert recalls.nodup key now, recalls.ordered.cons key, ?_, ?_⟩
  · intro other last held
    rw [Ledger.stamp, Entries.get?_insert] at held
    rw [Admission.last?_cons]
    by_cases same : other = key
    · simpa [same] using held
    · rw [if_neg same] at held
      rw [if_neg (Ne.symm same)]
      exact recalls.stamped other last held
  · intro other last held latest
    rw [Ledger.stamp, Entries.get?_insert] at held
    rw [Admission.last?_cons] at latest
    by_cases same : other = key
    · simp [same] at held
    · rw [if_neg same] at held
      rw [if_neg (Ne.symm same)] at latest
      exact recalls.unstamped other last held latest

/-- A stamp that is taken and released again leaves nothing behind, if the record was not held back. -/
theorem stamp_release (recalls : ledger.Recalls admitted now) {key : RecordKey}
    (free : ledger.remaining? key now = none) :
    ((ledger.stamp key now).release key now).Recalls admitted now := by
  have cooldown : ((ledger.stamp key now).release key now).cooldown = ledger.cooldown :=
    cooldown_release _ key now
  refine ⟨?_, recalls.ordered, ?_, ?_⟩
  · rw [stamps_stamp_release]
    exact Entries.nodup_keys_erase (Entries.nodup_keys_insert recalls.nodup key now) key
  · intro other last held
    rw [get?_stamp_release] at held
    split at held
    · cases held
    · exact recalls.stamped other last held
  · intro other last held latest
    rw [get?_stamp_release] at held
    rw [cooldown]
    split at held
    · next same =>
      subst same
      rw [recalls.remaining?_eq, heldBackAfter?, latest] at free
      simpa [elapsed] using free
    · exact recalls.unstamped other last held latest

theorem sweep (recalls : ledger.Recalls admitted now) : (ledger.sweep now).Recalls admitted now := by
  have nodup : (ledger.sweep now).stamps.keys.Nodup := Entries.nodup_keys_filter recalls.nodup _
  have swept (key : RecordKey) (last : τ) : (ledger.sweep now).stamps.get? key = some last ↔
      ledger.stamps.get? key = some last ∧ value now - value last < value ledger.cooldown := by
    rw [Entries.get?_eq_some_iff nodup, Entries.get?_eq_some_iff recalls.nodup]
    simp [Ledger.sweep, isExpired, elapsed, ← Bool.not_eq_true]
  refine ⟨nodup, recalls.ordered, ?_, ?_⟩
  · intro key last held
    exact recalls.stamped key last ((swept key last).mp held).1
  · intro key last gone latest
    cases held : ledger.stamps.get? key with
    | none => exact recalls.unstamped key last held latest
    | some stamp =>
      have same : stamp = last := Option.some_inj.mp ((recalls.stamped key stamp held).symm.trans latest)
      subst same
      by_contra recent
      have kept := (swept key stamp).mpr ⟨held, not_le.mp recent⟩
      rw [gone] at kept
      cases kept

end Recalls

end Ledger

end DhtRecords
