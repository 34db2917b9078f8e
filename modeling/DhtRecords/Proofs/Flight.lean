/-
Results in flight.

An engine's answer to a lookup is in flight until it is due. `World.flight`
lists what is in flight about an item, by time, and `World.latest?` is the last
that was accepted. As time passes what is in flight comes down one after the
other and nothing else changes (`Drains`).
-/

import DhtRecords.Proofs.Exact
import DhtRecords.Proofs.Hearing
import Mathlib.Algebra.Order.Floor.Semiring

namespace DhtRecords

open ExactQuantity (value)

/-- The info hash of the item that an alert brings a result of. -/
def Alert.key? : Alert → Option String
  | .result owner salt _ _ _ => some (infoHash owner salt)
  | _ => none

variable {τ ν : Type}

/-- What an event brings about an item when an engine's alert is handed over. -/
def Pending.carried? (key : String) (pending : Pending τ ν) : Option (τ × Alert) :=
  match pending.event with
  | .emission _ alert => if alert.key? = some key then some (pending.time, alert) else none
  | _ => none

namespace World

/-- What is in flight about an item, with the times at which it is due. -/
def flight (key : String) (world : World τ ν) : List (τ × Alert) :=
  world.queue.filterMap (Pending.carried? key)

/-- The last alert about an item that was accepted and not forgotten. -/
def latest? (key : String) (world : World τ ν) : Option Alert :=
  (world.correlator.results.get? key).map LookupResult.alert

/-! ### The queue -/

variable [Quantity τ]

/-- An event that brings nothing of an item may be due whenever. -/
theorem flight_schedule_silent {key : String} {delay : τ} {event : Event ν} {world : World τ ν}
    (silent : Pending.carried? key ⟨Quantity.add world.clock delay, event⟩ = none) :
    (world.schedule delay event).flight key = world.flight key := by
  unfold flight schedule
  generalize (⟨Quantity.add world.clock delay, event⟩ : Pending τ ν) = pending at silent ⊢
  simp only
  induction world.queue with
  | nil => simp [insertPending, silent]
  | cons first rest ih =>
    unfold insertPending
    split
    · rw [List.filterMap_cons, silent]
    · rw [List.filterMap_cons, List.filterMap_cons, ih]

theorem flight_schedule (key : String) (delay : τ) (event : Event ν) (world : World τ ν) :
    ((world.schedule delay event).flight key).Perm
      ((Pending.carried? key ⟨Quantity.add world.clock delay, event⟩).toList ++ world.flight key) := by
  have perm := (insertPending_perm ⟨Quantity.add world.clock delay, event⟩ world.queue).filterMap
    (Pending.carried? key)
  rw [List.filterMap_cons] at perm
  unfold flight schedule
  cases carried : Pending.carried? key ⟨Quantity.add world.clock delay, event⟩ with
  | none => simpa [carried] using perm
  | some entry => simpa [carried] using perm

variable [ExactQuantity τ]

/-- Whether what is due is ordered by time. -/
def Sorted (queue : List (Pending τ ν)) : Prop :=
  queue.Pairwise fun first second => value first.time ≤ value second.time

theorem sorted_insertPending {queue : List (Pending τ ν)} (sorted : Sorted queue)
    (pending : Pending τ ν) : Sorted (insertPending pending queue) := by
  induction queue with
  | nil => exact List.pairwise_singleton _ _
  | cons first rest ih =>
    unfold insertPending
    obtain ⟨least, others⟩ := List.pairwise_cons.mp sorted
    split
    · next earlier =>
      have before : value pending.time < value first.time := (ExactQuantity.lt_iff _ _).mp earlier
      refine List.pairwise_cons.mpr ⟨?_, sorted⟩
      intro other member
      rcases List.mem_cons.mp member with rfl | member
      · exact before.le
      · exact before.le.trans (least other member)
    · next later =>
      refine List.pairwise_cons.mpr ⟨?_, ih others⟩
      intro other member
      rcases List.mem_cons.mp ((insertPending_perm pending rest).mem_iff.mp member) with rfl | member
      · simpa using later
      · exact least other member

/-! ### Coming down -/

/-- Whether about an item, from one world to a later one, alerts that were in flight have come down, the
first of them first, and nothing else has happened. -/
def Drains (key : String) (before after : World τ ν) : Prop :=
  ∃ landed, before.flight key = landed ++ after.flight key ∧
    after.latest? key = (landed.getLast?.map Prod.snd).or (before.latest? key)

omit [Quantity τ] [ExactQuantity τ] in
theorem Drains.of_eq {key : String} {before after : World τ ν}
    (flight : after.flight key = before.flight key)
    (latest : after.latest? key = before.latest? key) : Drains key before after :=
  ⟨[], by simp [flight], by simp [latest]⟩

omit [Quantity τ] [ExactQuantity τ] in
theorem Drains.trans {key : String} {first second third : World τ ν} (left : Drains key first second)
    (right : Drains key second third) : Drains key first third := by
  obtain ⟨early, earlyFlight, earlyLatest⟩ := left
  obtain ⟨late, lateFlight, lateLatest⟩ := right
  refine ⟨early ++ late, ?_, ?_⟩
  · rw [earlyFlight, lateFlight, List.append_assoc]
  · rw [lateLatest, earlyLatest, List.getLast?_append]
    cases late.getLast? with
    | none => simp
    | some entry => simp

section Drains

omit [Quantity τ] [ExactQuantity τ]

variable {key : String} {before after : World τ ν}

theorem Drains.mem_flight (drains : Drains key before after) {entry : τ × Alert}
    (flying : entry ∈ after.flight key) : entry ∈ before.flight key := by
  obtain ⟨landed, came, -⟩ := drains
  rw [came]
  exact List.mem_append_right _ flying

/-- What is the latest was so before, or was in flight. -/
theorem Drains.latest?_cases (drains : Drains key before after) {alert : Alert}
    (latest : after.latest? key = some alert) :
    before.latest? key = some alert ∨ ∃ entry ∈ before.flight key, entry.2 = alert := by
  obtain ⟨landed, came, last⟩ := drains
  rw [last] at latest
  cases down : landed.getLast? with
  | none =>
    rw [down] at latest
    exact .inl latest
  | some entry =>
    rw [down] at latest
    cases latest
    refine .inr ⟨entry, ?_, rfl⟩
    rw [came]
    exact List.mem_append_left _ (List.mem_of_getLast? down)

theorem Drains.isSome_latest? (drains : Drains key before after)
    (known : (before.latest? key).isSome = true) : (after.latest? key).isSome = true := by
  obtain ⟨landed, -, last⟩ := drains
  rw [last]
  cases landed.getLast? with
  | none => exact known
  | some entry => rfl

/-- What was in flight still is, or something has come down. -/
theorem Drains.mem_flight_or (drains : Drains key before after) {entry : τ × Alert}
    (flying : entry ∈ before.flight key) :
    entry ∈ after.flight key ∨ (after.latest? key).isSome = true := by
  obtain ⟨landed, came, last⟩ := drains
  rw [came] at flying
  rcases List.mem_append.mp flying with down | still
  · right
    obtain ⟨entry, here⟩ :=
      Option.isSome_iff_exists.mp (List.getLast?_isSome.mpr (List.ne_nil_of_mem down))
    rw [last, here]
    rfl
  · exact .inl still

end Drains

end World

end DhtRecords
