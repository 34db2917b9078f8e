/-
What holds of all that tasks and callers do.

A relation that holds of whatever a task does at one go, as long as it is not
asked to stop (`Toiling`), holds of looking after an engine and of bringing a
session up. One that holds of every change, and of every event that is due
(`Ongoing`), holds of tasks that go on, of time passing, and of callers who wait
for a session or make sure of it.
-/

import DhtRecords.Proofs.Passing

namespace DhtRecords

variable {τ ν : Type} [Quantity τ] [Overlay τ ν]

namespace World

open Op Session

/-! ### Tasks at work -/

/-- Whether a relation holds of what a task does at one go that has begun to work at a moment. Unless it is
asked to stop, it installs an engine and tells that its session is running. -/
structure Toiling (id : TaskId) (begun : τ) (R : World τ ν → World τ ν → Prop) : Prop
    extends Tending R where
  bootstraps : ∀ since, since = none ∨ since = some begun → Keeps R (bootstrap runQueue since)
  installs : ∀ engine world, world.isStopRequested id = false → R world (world.install engine).2
  readies : ∀ world, world.isStopRequested id = false → R world world.ready

section

variable {R : World τ ν → World τ ν → Prop} [Std.Refl R] [IsTrans (World τ ν) R] {id : TaskId} {begun : τ}
  (toiling : Toiling id begun R)

include toiling

theorem Toiling.watches : Keeps R (watch : Op τ ν Unit) := by
  intro world
  unfold watch
  rw [run_bind_ok (run_get world)]
  split
  · exact refl_of R world
  · next engine installed =>
    refine Keeps.run_bind_keeps (checkRunning_keeps toiling.toTending installed) fun running => ?_
    split
    · exact .bind (recover_keeps toiling.toTending (toiling.bootstraps none (.inl rfl))) fun _ => .pure _
    · exact .pure _

/-- A task that has got an engine brings its session up, if it is not asked to stop. -/
theorem Toiling.bringsUp (engine : EngineId) {world : World τ ν}
    (unasked : world.isStopRequested id = false) : R world ((bringUp id engine begun).run world).2 := by
  have last : Keeps R (do
      if (← get).isStopRequested id then return false
      modify ready
      return true : Op τ ν Bool) := by
    intro world
    rw [run_bind_ok (run_get world)]
    split
    · exact refl_of R world
    · next unasked => exact toiling.readies world (eq_false_of_ne_true unasked)
  have rest : Keeps R (do
      let _ ← Session.loadState
      if ← bootstrap runQueue (some begun) then
        if !(← get).isStopRequested id then
          let _ ← Session.saveState
      if (← get).isStopRequested id then return false
      modify ready
      return true : Op τ ν Bool) := by
    refine .bind (loadState_keeps toiling.toTending) fun _ =>
      .bind (toiling.bootstraps (some begun) (.inr rfl)) fun joined => ?_
    split
    · refine .get_bind fun world => ?_
      split
      · exact .bind (saveState_keeps toiling.toTending) fun _ => last
      · exact last
    · exact last
  refine Keeps.run_bind_keeps (toiling.installs engine world unasked) fun heard => ?_
  cases heard with
  | ok heard => exact rest
  | error fault => exact .throw _

end

/-- What the overlay has done when it was asked for an engine: the session may have been stopped. -/
def asked (world : World τ ν) : World τ ν :=
  let reaction : Reaction τ ν Bool := Overlay.build (world.engines + 1) world.overlay
  ((world.react (world.engines + 1) reaction).afterStop reaction.stops reaction.restarts reaction.outcome).2

/-- There may be no engine, and else it is built after that. -/
theorem build_eq (world : World τ ν) : (∃ fault, world.build = (.error fault, world.asked)) ∨
    world.build = (.ok none, world.asked) ∨
      world.build = (.ok (some (world.engines + 1)), world.asked.built (world.engines + 1)) := by
  unfold build asked
  dsimp only
  split
  · next step => exact .inl ⟨_, by rw [step]⟩
  · next step => exact .inr (.inl (by rw [step]))
  · next step => exact .inr (.inr (by rw [step]; rfl))

/-! ### Time passing -/

section

variable {R : World τ ν → World τ ν → Prop} [Std.Refl R] [IsTrans (World τ ν) R]
  (advances : ∀ time world, R world (world.advance time)) (givesUp : ∀ world, R world world.giveUp)

include advances givesUp

/-- Whatever holds of events that are due holds of a task's wait. -/
theorem runQueue_keeps (performs : ∀ world next rest, world.queue = next :: rest →
      R world (({ world with queue := rest }.advance next.time).perform next.event))
    (deadline : τ) (condition : World τ ν → Bool) (world : World τ ν) :
    R world (world.runQueue deadline condition) := by
  have runs (fuel : Nat) (world : World τ ν) : R world (world.runQueueFor fuel deadline condition) := by
    induction fuel generalizing world with
    | zero => exact trans_of R (advances deadline world) (givesUp _)
    | succ fuel ih =>
      unfold runQueueFor
      split
      · exact refl_of R world
      · split
        · exact advances deadline world
        · next next rest queue =>
          split
          · exact advances deadline world
          · exact trans_of R (performs world next rest queue) (ih _)
  exact runs _ world

/-- Whatever holds of what is due holds of a caller's wait. -/
theorem run_keeps (handles : ∀ world due, world.due? = some due → R world (world.handle due))
    (deadline : τ) (condition : World τ ν → Bool) (world : World τ ν) :
    R world (world.run deadline condition) := by
  have runs (fuel : Nat) (world : World τ ν) : R world (world.runFor fuel deadline condition) := by
    induction fuel generalizing world with
    | zero => exact trans_of R (advances deadline world) (givesUp _)
    | succ fuel ih =>
      unfold runFor
      split
      · exact refl_of R world
      · split
        · exact advances deadline world
        · next due next =>
          split
          · exact advances deadline world
          · exact trans_of R (handles world due next) (ih _)
  exact runs _ world

omit advances in
/-- Whatever holds of time passing holds of a wait for the running state. -/
theorem waitUntilRunning_keeps (runs : ∀ deadline condition world, R world (world.run deadline condition))
    (timeout : Option τ) (world : World τ ν) : R world (waitUntilRunning timeout world).2 := by
  have waits (fuel : Nat) (deadline : Option τ) (world : World τ ν) :
      R world (waitUntilRunningFor fuel deadline world).2 := by
    induction fuel generalizing world with
    | zero => exact givesUp world
    | succ fuel ih =>
      rcases waitUntilRunningFor_cases fuel deadline world with ⟨same, -⟩ | same | ⟨-, limit, same⟩ <;>
        rw [same]
      · exact refl_of R world
      · exact refl_of R world
      · have waited := runs limit (·.session.signalled) world
        split
        · exact waited
        · exact trans_of R waited (ih _)
  exact waits _ _ world

end

/-! ### Whatever goes on -/

/-- Whether a relation holds of every change of a world, and of all that may be due. -/
structure Ongoing (R : World τ ν → World τ ν → Prop) : Prop extends Tending R where
  joins : ∀ world, R world { world with session := { world.session with bootstrapped := true } }
  advances : ∀ time world, R world (world.advance time)
  givesUp : ∀ world, R world world.giveUp
  performs : ∀ world next rest, world.queue = next :: rest →
    R world (({ world with queue := rest }.advance next.time).perform next.event)
  builds : ∀ world, R world world.build.2
  installs : ∀ engine world, R world (world.install engine).2
  readies : ∀ world, R world world.ready
  fails : ∀ reason world, R world (world.failed reason)
  aborts : ∀ engine world, R world (world.tell engine .abort)
  /-- No task is told to go on that was asked to stop. -/
  modifies : ∀ id change world,
    (∀ task, task.stopRequested = true → (change task).stopRequested = true) →
      R world (world.modifyTask id change)

section

variable {R : World τ ν → World τ ν → Prop} [Std.Refl R] [IsTrans (World τ ν) R] (ongoing : Ongoing R)

namespace Ongoing

include ongoing

theorem runsQueue (deadline : τ) (condition : World τ ν → Bool) (world : World τ ν) :
    R world (world.runQueue deadline condition) :=
  runQueue_keeps ongoing.advances ongoing.givesUp ongoing.performs deadline condition world

theorem toiling (id : TaskId) (begun : τ) : Toiling id begun R where
  toTending := ongoing.toTending
  bootstraps since _ := bootstrap_keeps ongoing.joins ongoing.runsQueue since
  installs engine world _ := ongoing.installs engine world
  readies world _ := ongoing.readies world

omit [Std.Refl R] [IsTrans (World τ ν) R] in
theorem finishes (id : TaskId) (world : World τ ν) : R world (world.finish id) :=
  ongoing.modifies id _ world fun _ asked => asked

omit [Std.Refl R] [IsTrans (World τ ν) R] in
theorem parks (id : TaskId) (phase : Phase) (interval : τ) (world : World τ ν) :
    R world (world.park id phase interval) :=
  ongoing.modifies id _ world fun _ asked => by split <;> exact asked

omit [Std.Refl R] in
theorem finishesFailed (id : TaskId) (reason : String) (world : World τ ν) :
    R world (if world.isStopRequested id then world.finish id else (world.failed reason).finish id) := by
  split
  · exact ongoing.finishes id world
  · exact trans_of R (ongoing.fails reason world) (ongoing.finishes id _)

omit [Std.Refl R] in
theorem parksWatching (id : TaskId) (world : World τ ν) : R world (world.parkWatching id) := by
  unfold parkWatching
  split
  · exact ongoing.parks id _ _ world
  · exact ongoing.finishesFailed id _ world

theorem startsEngine (id : TaskId) (world : World τ ν) : R world (world.startEngine id) := by
  have built := ongoing.builds world
  unfold startEngine
  dsimp only
  split
  · next step =>
    rw [step] at built
    exact trans_of R built (ongoing.finishesFailed id _ _)
  · next step =>
    rw [step] at built
    exact trans_of R built (ongoing.finishesFailed id _ _)
  · next engine middle step =>
    rw [step] at built
    split
    · exact trans_of R built (trans_of R (ongoing.aborts engine middle) (ongoing.finishes id _))
    · next unasked =>
      have up := trans_of R built
        ((ongoing.toiling id world.clock).bringsUp engine (eq_false_of_ne_true unasked))
      split
      · next step =>
        rw [step] at up
        exact trans_of R up (ongoing.finishesFailed id _ _)
      · next step =>
        rw [step] at up
        exact trans_of R up (ongoing.finishes id _)
      · next step =>
        rw [step] at up
        exact trans_of R up (ongoing.parksWatching id _)

/-- A task that goes on does nothing else. -/
theorem resumes (id : TaskId) (world : World τ ν) : R world (world.resume id) := by
  unfold resume
  split
  · exact refl_of R world
  · split
    · exact ongoing.finishes id world
    · have started : R world (world.modifyTask id fun task => { task with phase := .active }) :=
        ongoing.modifies id _ world fun _ asked => asked
      dsimp only
      split
      · split
        · exact trans_of R started (ongoing.startsEngine id _)
        · exact ongoing.parks id _ _ world
      · have watched := trans_of R started ((ongoing.toiling id world.clock).watches _)
        split
        · next step =>
          rw [step] at watched
          exact trans_of R watched (ongoing.finishesFailed id _ _)
        · next step =>
          rw [step] at watched
          exact trans_of R watched (ongoing.parksWatching id _)
      · exact refl_of R world

theorem handles (world : World τ ν) (due : Due τ ν) (next : world.due? = some due) :
    R world (world.handle due) := by
  cases due with
  | event first rest => exact ongoing.performs world first rest (queue_of_due? next)
  | task id time => exact trans_of R (ongoing.advances time world) (ongoing.resumes id _)

theorem runs (deadline : τ) (condition : World τ ν → Bool) (world : World τ ν) :
    R world (world.run deadline condition) :=
  run_keeps ongoing.advances ongoing.givesUp ongoing.handles deadline condition world

/-! ### Callers -/

theorem waitsUntilRunning (timeout : Option τ) (world : World τ ν) :
    R world (waitUntilRunning timeout world).2 :=
  waitUntilRunning_keeps ongoing.givesUp ongoing.runs timeout world

theorem bootstraps (since : Option τ) : Keeps R (bootstrap World.run since) :=
  bootstrap_keeps ongoing.joins ongoing.runs since

theorem recovers : Keeps R (recover World.run) :=
  recover_keeps ongoing.toTending (ongoing.bootstraps none)

theorem ensuresRunning : Keeps R (ensureRunning : Op τ ν (Option ErrorKind)) :=
  ensureRunning_keeps ongoing.toTending (ongoing.bootstraps none)

end Ongoing

end

end World

end DhtRecords
