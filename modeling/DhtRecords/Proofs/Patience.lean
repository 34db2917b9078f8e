/-
Waits that come to an end, and programs that need only enough patience.

A wait is bounded by the world's patience, which has no counterpart outside of
the library: what counts is what happens with enough of it. `Ends` is a wait
without such a bound, one step after the other. `EndsIn` says how a program ends
and to which world it leads for all sufficient patience, `Yields` that it has a
result.
-/

import DhtRecords.Lifecycle
import DhtRecords.Proofs.Programs

namespace DhtRecords

variable {τ ν α β : Type}

namespace World

/-- The world with another patience. -/
def withPatience (patience : Nat) (world : World τ ν) : World τ ν := { world with patience }

variable [Quantity τ] [Overlay τ ν]

omit [Overlay τ ν] in
@[simp] theorem due?_withPatience (patience : Nat) (world : World τ ν) :
    (world.withPatience patience).due? = world.due? := rfl

/-- Whether a wait, if it has enough patience, leads from one world to another: what is due is handled
until the condition holds or nothing is due before the deadline. -/
inductive Ends (deadline : τ) (condition : World τ ν → Bool) : World τ ν → World τ ν → Prop
  | holds {world : World τ ν} : condition world = true → Ends deadline condition world world
  | idle {world : World τ ν} : condition world = false →
      (∀ due, world.due? = some due → Quantity.lt deadline due.time = true) →
      Ends deadline condition world (world.advance deadline)
  | step {world after : World τ ν} {due : Due τ ν} : condition world = false →
      world.due? = some due → Quantity.lt deadline due.time = false →
      (∀ patience, (world.withPatience patience).handle due
        = (world.handle due).withPatience patience) →
      Ends deadline condition (world.handle due) after → Ends deadline condition world after

theorem runFor_of_ends {deadline : τ} {condition : World τ ν → Bool}
    (steady : ∀ patience world, condition (world.withPatience patience) = condition world)
    {world after : World τ ν} (ends : Ends deadline condition world after) :
    ∃ enough, ∀ fuel ≥ enough, ∀ patience,
      runFor fuel deadline condition (world.withPatience patience) = after.withPatience patience := by
  induction ends with
  | holds holds =>
    refine ⟨1, fun fuel enough patience => ?_⟩
    obtain ⟨fuel, rfl⟩ := Nat.exists_eq_succ_of_ne_zero (Nat.ne_of_gt enough)
    rw [runFor, steady, if_pos holds]
  | @idle world fails late =>
    refine ⟨1, fun fuel enough patience => ?_⟩
    obtain ⟨fuel, rfl⟩ := Nat.exists_eq_succ_of_ne_zero (Nat.ne_of_gt enough)
    rw [runFor, steady, if_neg (by simp [fails]), due?_withPatience]
    cases next : world.due? with
    | none => rfl
    | some due =>
      simp only
      rw [if_pos (late due next)]
      rfl
  | step fails next inTime commutes _ ih =>
    obtain ⟨enough, rest⟩ := ih
    refine ⟨enough + 1, fun fuel more patience => ?_⟩
    obtain ⟨fuel, rfl⟩ := Nat.exists_eq_succ_of_ne_zero (n := fuel) (by omega)
    rw [runFor, steady, if_neg (by simp [fails]), due?_withPatience, next]
    simp only
    rw [if_neg (by simp [inTime]), commutes]
    exact rest fuel (by omega) patience

end World

namespace Op

variable {program : Op τ ν α} {next : α → Op τ ν β} {world middle after : World τ ν}

/-- Whether a program, if there is enough patience, ends in a certain way and leads to a world. -/
def EndsIn (program : Op τ ν α) (world : World τ ν) (outcome : Except Failure α) (after : World τ ν) :
    Prop :=
  ∃ enough, ∀ patience ≥ enough,
    program.run (world.withPatience patience) = (outcome, after.withPatience patience)

/-- Whether a program, if there is enough patience, has a result and leads to a world. -/
abbrev Yields (program : Op τ ν α) (world : World τ ν) (result : α) (after : World τ ν) : Prop :=
  EndsIn program world (.ok result) after

namespace EndsIn

theorem pure (result : α) (world : World τ ν) :
    Yields (pure result : Op τ ν α) world result world :=
  ⟨0, fun _ _ => rfl⟩

theorem modify {change : World τ ν → World τ ν}
    (commutes : ∀ patience, change (world.withPatience patience)
      = (change world).withPatience patience) :
    Yields (modify change) world ⟨⟩ (change world) :=
  ⟨0, fun patience _ => by rw [run_modify, commutes]⟩

theorem modifyGet {step : World τ ν → α × World τ ν} {result : α}
    (enough : ∃ enough, ∀ patience ≥ enough,
      step (world.withPatience patience) = (result, after.withPatience patience)) :
    Yields (modifyGet step) world result after := by
  obtain ⟨enough, steps⟩ := enough
  exact ⟨enough, fun patience more => by rw [run_modifyGet, steps patience more]⟩

/-- A program without waits yields what it runs to. -/
theorem of_run {result : α}
    (run : ∀ patience, program.run (world.withPatience patience)
      = (.ok result, after.withPatience patience)) : Yields program world result after :=
  ⟨0, fun patience _ => run patience⟩

theorem throw (failure : Failure) (world : World τ ν) :
    EndsIn (throw failure : Op τ ν α) world (.error failure) world :=
  ⟨0, fun _ _ => rfl⟩

theorem bind {result : α} {last : Except Failure β} (first : Yields program world result middle)
    (rest : EndsIn (next result) middle last after) : EndsIn (program >>= next) world last after := by
  obtain ⟨enough, first⟩ := first
  obtain ⟨more, rest⟩ := rest
  refine ⟨max enough more, fun patience sufficient => ?_⟩
  rw [run_bind_ok (first patience (Nat.le_trans (Nat.le_max_left _ _) sufficient))]
  exact rest patience (Nat.le_trans (Nat.le_max_right _ _) sufficient)

/-- A program ends with the failure of its first step. -/
theorem bind_error {failure : Failure} (first : EndsIn program world (.error failure) after) :
    EndsIn (program >>= next) world (.error failure) after := by
  obtain ⟨enough, first⟩ := first
  refine ⟨enough, fun patience sufficient => ?_⟩
  rw [run_bind, first patience sufficient]

/-- A program may make something of its result. -/
theorem map {outcome : Except Failure α} (first : EndsIn program world outcome after) (change : α → β) :
    EndsIn (program >>= fun result => Pure.pure (change result)) world (outcome.map change) after := by
  cases outcome with
  | ok result => exact .bind first (.pure _ _)
  | error failure => exact .bind_error first

/-- A program that goes by what it finds in the world, but not by its patience. -/
theorem get_bind {next : World τ ν → Op τ ν β} {last : Except Failure β}
    (steady : ∀ patience, next (world.withPatience patience) = next world)
    (rest : EndsIn (next world) world last after) :
    EndsIn (MonadState.get >>= next) world last after := by
  obtain ⟨enough, rest⟩ := rest
  refine ⟨enough, fun patience more => ?_⟩
  rw [run_bind_ok (run_get _), steady]
  exact rest patience more

end EndsIn

end Op

end DhtRecords
