/-
How programs on worlds run, and relations that they keep.

`run_bind` and its companions take the run of a program apart at its first
step. `Keeps` says that a program, however it ends, leaves a world that stands
in a given relation to the one it began with; for a reflexive and transitive
relation the steps of a program can be looked at one by one.
-/

import DhtRecords.World
import Mathlib.Order.Defs.Unbundled

namespace DhtRecords.Op

variable {τ ν α β : Type}

/-! ### Runs -/

@[simp] theorem run_pure (result : α) (world : World τ ν) :
    (pure result : Op τ ν α).run world = (.ok result, world) := rfl

@[simp] theorem run_throw (failure : Failure) (world : World τ ν) :
    (throw failure : Op τ ν α).run world = (.error failure, world) := rfl

@[simp] theorem run_get (world : World τ ν) :
    (get : Op τ ν (World τ ν)).run world = (.ok world, world) := rfl

@[simp] theorem run_modify (change : World τ ν → World τ ν) (world : World τ ν) :
    (modify change : Op τ ν PUnit).run world = (.ok ⟨⟩, change world) := rfl

@[simp] theorem run_modifyGet (step : World τ ν → α × World τ ν) (world : World τ ν) :
    (modifyGet step : Op τ ν α).run world = (.ok (step world).1, (step world).2) := rfl

theorem run_bind (program : Op τ ν α) (next : α → Op τ ν β) (world : World τ ν) :
    (program >>= next).run world =
      match program.run world with
      | (.ok result, world) => (next result).run world
      | (.error failure, world) => (.error failure, world) := by
  change ExceptT.bind program next world = _
  simp only [ExceptT.bind, ExceptT.mk, bind, StateT.bind, ExceptT.bindCont, ExceptT.run]
  rcases program world with ⟨_ | _, _⟩ <;> rfl

/-- A program goes on after a step that has a result. -/
theorem run_bind_ok {program : Op τ ν α} {next : α → Op τ ν β} {world world' : World τ ν}
    {result : α} (step : program.run world = (.ok result, world')) :
    (program >>= next).run world = (next result).run world' := by
  rw [run_bind, step]

/-- A program that has a result has one for each of its steps. -/
theorem run_bind_eq_ok {program : Op τ ν α} {next : α → Op τ ν β} {world after : World τ ν}
    {result : β} (run : (program >>= next).run world = (.ok result, after)) :
    ∃ middle world', program.run world = (.ok middle, world') ∧
      (next middle).run world' = (.ok result, after) := by
  rw [run_bind] at run
  split at run
  · next middle world' step => exact ⟨middle, world', step, run⟩
  · cases run

/-- A program may make something of its result. -/
theorem run_map (program : Op τ ν α) (change : α → β) (world : World τ ν) :
    (program >>= fun result => pure (change result)).run world =
      ((program.run world).1.map change, (program.run world).2) := by
  rw [run_bind]
  rcases program.run world with ⟨_ | _, _⟩ <;> rfl

theorem run_ask [Quantity τ] [Overlay τ ν] (engine : EngineId) (call : EngineCall)
    (world : World τ ν) :
    (ask engine call : Op τ ν _).run world =
      match world.ask engine call with
      | (.ok answer, world) => (.ok answer, world)
      | (.error fault, world) => (.error (.engine fault), world) := by
  rw [ask, run_bind, run_modifyGet]
  rcases world.ask engine call with ⟨_ | _, _⟩ <;> rfl

/-! ### Relations that programs keep -/

/-- Whether a program, however it ends, leaves a world that stands in a relation to the one it began
with. -/
def Keeps (R : World τ ν → World τ ν → Prop) (program : Op τ ν α) : Prop :=
  ∀ world, R world (program.run world).2

namespace Keeps

variable {R : World τ ν → World τ ν → Prop}

theorem of_run {program : Op τ ν α} (keeps : Keeps R program) {world after : World τ ν}
    {outcome : Except Failure α} (run : program.run world = (outcome, after)) : R world after := by
  have kept := keeps world
  rwa [run] at kept

theorem modify {change : World τ ν → World τ ν} (kept : ∀ world, R world (change world)) :
    Keeps R (modify change) := kept

theorem modifyGet {step : World τ ν → α × World τ ν} (kept : ∀ world, R world (step world).2) :
    Keeps R (modifyGet step) := kept

/-- A program may go by what it finds in the world. -/
theorem get_bind {next : World τ ν → Op τ ν β} (rest : ∀ world, Keeps R (next world)) :
    Keeps R (MonadState.get >>= next) := fun world => rest world world

/-- What comes first may be known to keep a relation in that world alone. -/
theorem run_bind_keeps [IsTrans (World τ ν) R] {program : Op τ ν α} {next : α → Op τ ν β}
    {world : World τ ν} (first : R world (program.run world).2) (rest : ∀ result, Keeps R (next result)) :
    R world ((program >>= next).run world).2 := by
  rw [run_bind]
  split
  · next result world' run =>
    rw [run] at first
    exact trans_of R first (rest result world')
  · next failure world' run => rwa [run] at first

theorem bind [IsTrans (World τ ν) R] {program : Op τ ν α} {next : α → Op τ ν β}
    (first : Keeps R program) (rest : ∀ result, Keeps R (next result)) :
    Keeps R (program >>= next) :=
  fun world => run_bind_keeps (first world) rest

/-- A program that makes something of its result keeps what it keeps without. -/
theorem map {program : Op τ ν α} (keeps : Keeps R program) (change : α → β) :
    Keeps R (program >>= fun result => Pure.pure (change result)) := by
  intro world
  rw [run_map]
  exact keeps world

variable [Std.Refl R]

theorem pure (result : α) : Keeps R (pure result : Op τ ν α) := fun world => refl_of R world

theorem lift (result : Except Failure α) : Keeps R (liftM result : Op τ ν α) := fun world => refl_of R world

theorem throw (failure : Failure) : Keeps R (throw failure : Op τ ν α) :=
  fun world => refl_of R world

/-- The call of an engine keeps what its step on worlds keeps, whether it fails or not. -/
theorem ask [IsTrans (World τ ν) R] [Quantity τ] [Overlay τ ν] {engine : EngineId} {call : EngineCall}
    (kept : ∀ world, R world (world.ask engine call).2) :
    Keeps R (ask engine call : Op τ ν call.Answer) := by
  refine .bind (.modifyGet kept) fun outcome => ?_
  cases outcome with
  | ok answer => exact .pure answer
  | error fault => exact .throw _

end Keeps

end DhtRecords.Op
