/-
Shutting down from anywhere.

Wherever a session has got to, its engine is heard or was let go of, and a stop
takes it to its end (`Stops`). What a task still does that is stopped in the course
of its work leaves the session there, or comes before the end of the stop
(`stop_complete`). One thing is left to be wished for: a session takes note of a
bootstrap even if it is stopped, and does not give that up when it is stopped once
more (`belated_left`).
-/

import DhtRecords.Proofs.Leftovers

namespace DhtRecords

open Relation (ReflTransGen)

variable {τ ν : Type} [Quantity τ] [Overlay τ ν]

namespace World

/-! ### Stops -/

/-- Whether a session is stopped completely; the correlator, too, unless the stop had begun before the
session was started. Only one that was stopped before may still be taken to have joined the overlay.
Another stop changes nothing. -/
structure Stopped (world after : World τ ν) : Prop where
  state : after.session.state = .stopped
  engine : after.session.engine = none
  task : after.session.task = none
  deaf : after.correlator.running = false ∨ Overtaken after.journal
  bootstrapped : after.session.bootstrapped = true ↔
    world.session.state = .stopped ∧ world.session.bootstrapped = true
  again : Session.stop after = (.ok (), after)

/-- What a stop does. One that finds the session stopped does nothing. Any other sees to the engine and lets
go of it, waits for the session's task while others go on, and comes to its end, unless that takes time and
the settings do not say how much it may take. -/
structure Stops (world : World τ ν) : Prop where
  idle : world.session.state = .stopped → Session.stop world = (.ok (), world)
  leaves : world.session.state ≠ .stopped → Leaves world world.leave.2
  released : ∀ engine, world.session.state ≠ .stopped → world.session.engine = some engine →
    Released world.leave.2.journal engine
  waits : world.session.state ≠ .stopped → (Session.stop world).1 = .ok () →
    ∃ waited, Turns world.leave.2 waited ∧ (Session.stop world).2 = waited.closed ∧
      ((∀ duration, (Overlay.join world.leave.2.overlay : Join τ) ≠ .lasts duration) →
        waited = world.leave.2)
  ends : (Session.stop world).1 = .ok () ∨ (Session.stop world).2 = world.leave.2 ∧
    ¬ world.settings.Timed ∧ ∃ duration, (Overlay.join world.leave.2.overlay : Join τ) = .lasts duration
  stopped : (Session.stop world).1 = .ok () → Stopped world (Session.stop world).2

/-- How a caller's stop goes on when it has begun to wait. -/
theorem stop_cases (obedient : Obedient τ ν) {world : World τ ν}
    (unhalted : ∀ pending ∈ world.queue, pending.event ≠ .halt) (due : world.session.state ≠ .stopped) :
    (∃ waited, Session.stop world = (.ok (), waited.closed) ∧ Turns world.leave.2 waited ∧
      ((∀ duration, (Overlay.join world.leave.2.overlay : Join τ) ≠ .lasts duration) →
        waited = world.leave.2)) ∨
      (∃ failure, Session.stop world = (.error failure, world.leave.2)) ∧ ¬ world.settings.Timed ∧
        ∃ duration, (Overlay.join world.leave.2.overlay : Join τ) = .lasts duration := by
  have due : ¬ (world.session.state = .stopped ∧ world.session.task = none) := fun stopped => due stopped.1
  have goes := Goes.leave due unhalted
  have told := leave_told obedient world
  unfold Session.stop stopBy
  rw [if_neg due]
  rcases leave : world.leave with ⟨failure | time, left⟩ <;> rw [leave] at goes told
  · rcases told with prompt | ⟨lasts, ⟨time, prompt⟩ | ⟨-, untimed⟩⟩
    · cases prompt
    · cases prompt
    · exact .inr ⟨⟨failure, rfl⟩, untimed, lasts⟩
  · cases time with
    | none => exact .inl ⟨left, rfl, .refl, fun _ => rfl⟩
    | some time =>
      have lasts := (told.resolve_left (by simp)).1
      refine .inl ⟨_, rfl, (ongoing_goes.runs _ _ left goes.1).2, fun prompt => ?_⟩
      obtain ⟨duration, lasts⟩ := lasts
      exact absurd lasts (prompt duration)

theorem stopped_of_attached {world after : World τ ν} (attached : Attached after)
    (state : after.session.state = .stopped) (bootstrapped : after.session.bootstrapped = true ↔
      world.session.state = .stopped ∧ world.session.bootstrapped = true) : Stopped world after := by
  obtain ⟨engine, task, deaf⟩ := attached.silent state
  exact ⟨state, engine, task, deaf, bootstrapped, if_pos ⟨state, task⟩⟩

/-- A session whose engine obeys is stopped completely. -/
theorem Attached.stops (obedient : Obedient τ ν) {world : World τ ν} (attached : Attached world)
    (unhalted : ∀ pending ∈ world.queue, pending.event ≠ .halt) : Stops world := by
  by_cases stopped : world.session.state = .stopped
  · have same := attached.stop_of_stopped stopped
    refine ⟨fun _ => same, fun due => absurd stopped due, fun _ due => absurd stopped due,
      fun due => absurd stopped due, .inl (by rw [same]), fun _ => ?_⟩
    rw [same]
    exact stopped_of_attached attached stopped (by simp [stopped])
  · obtain ⟨begun, left, leaves⟩ := leave_obeyed obedient world
    have leaves : Leaves world world.leave.2 := by rwa [left]
    have due : ¬ (world.session.state = .stopped ∧ world.session.task = none) :=
      fun ended => stopped ended.1
    rcases stop_cases obedient unhalted stopped with
      ⟨waited, stops, turns, prompt⟩ | ⟨⟨failure, stops⟩, untimed, lasts⟩
    · refine ⟨fun state => absurd state stopped, fun _ => leaves,
        fun engine _ installed => attached.released leaves installed, fun _ _ => ⟨waited, turns, ?_, prompt⟩,
        .inl ?_, fun _ => ?_⟩ <;> rw [stops]
      have course : Turns world waited.closed :=
        (ReflTransGen.single (.leave due)).trans (turns.tail (.close waited))
      exact stopped_of_attached (Turns.attached obedient course attached) rfl (by simp [closed, stopped])
    · refine ⟨fun state => absurd state stopped, fun _ => leaves,
        fun engine _ installed => attached.released leaves installed, fun _ ok => ?_,
        .inr ⟨by rw [stops], untimed, lasts⟩, fun ok => ?_⟩ <;> rw [stops] at ok <;> cases ok

/-- A caller's stop is made up of turns, too. -/
theorem goes_stop (world : World τ ν) : Goes world (Session.stop world).2 :=
  stopBy_keeps Goes.leave (fun world => .of_same (.close world) rfl)
    fun _ world => (ongoing_goes.runs _ _ world).trans (.of_same (.close _) rfl)

end World

namespace Session

open World Op

/-! ### Wherever a session has got to -/

/-- Whether callers lead from one world to another, who also take the steps of their requests one by one:
they let pass what is due next, check the engine, take its state from the file, keep it there, wait for the
bootstrap, or stop the session and wait for its task. So whenever a task goes on, it does so in such a
world. -/
inductive Visits (first : World τ ν) : World τ ν → Prop
  | refl : Visits first first
  | runs {middle world : World τ ν} : Visits first middle → Runs middle world → Visits first world
  | handle {world : World τ ν} {due : Due τ ν} :
      world.due? = some due → Visits first world → Visits first (world.handle due)
  | check {world : World τ ν} (engine : EngineId) :
      Visits first world → Visits first (world.checkRunning engine).2
  | loadState {world : World τ ν} : Visits first world → Visits first (Session.loadState.run world).2
  | saveState {world : World τ ν} : Visits first world → Visits first world.saveState.2
  | bootstrap {world : World τ ν} (since : Option τ) :
      Visits first world → Visits first ((Session.bootstrap World.run since).run world).2
  | leave {world : World τ ν} : ¬ (world.session.state = .stopped ∧ world.session.task = none) →
      Visits first world → Visits first world.leave.2
  | close {world : World τ ν} : Visits first world → Visits first world.closed

theorem Request.goes (request : Request τ) (world : World τ ν) : Goes world (request.serve world) := by
  cases request with
  | start => exact .start world
  | stop => exact goes_stop world
  | waitUntilRunning timeout => exact ongoing_goes.waitsUntilRunning timeout world
  | ensureRunning => exact ongoing_goes.ensuresRunning world
  | recover => exact ongoing_goes.recovers world
  | sleep duration => exact ongoing_goes.runs _ _ world

theorem Runs.goes {first world : World τ ν} (runs : Runs first world) : Goes first world := by
  induction runs with
  | refl => exact .refl first
  | request request _ ih => exact ih.trans (request.goes _)
  | plan delay other _ _ ih => exact ih.trans (.idle (.schedule delay _ other) rfl)
  | happen other _ _ ih => exact ih.trans (.perform other _)
  | files disk _ ih => exact ih.trans (.idle (.disk disk _) rfl)

theorem Visits.goes {first world : World τ ν} (visits : Visits first world) : Goes first world := by
  induction visits with
  | refl => exact .refl first
  | runs _ runs ih => exact ih.trans runs.goes
  | handle next _ ih => exact ih.trans (ongoing_goes.handles _ _ next)
  | check engine _ ih => exact ih.trans (.consult engine rfl (by simp) _)
  | loadState _ ih => exact ih.trans (loadState_keeps ongoing_goes.toTending _)
  | saveState _ ih => exact ih.trans (.saveState _)
  | bootstrap since _ ih => exact ih.trans (ongoing_goes.bootstraps since _)
  | leave due _ ih => exact ih.trans (.leave due)
  | close _ ih => exact ih.trans (.of_same (.close _) rfl)

theorem Visits.upkeep {first world : World τ ν} (visits : Visits first world) : Upkeep first world := by
  have sub (before after : World τ ν) (meanwhile : Meanwhile before after) : Upkeep before after :=
    meanwhile.upkeep
  induction visits with
  | refl => exact .refl first
  | runs _ runs ih => exact ih.trans runs.upkeep
  | handle next _ ih => exact ih.trans (upkeep_handle next)
  | check engine _ ih => exact ih.trans (meanwhile_consult engine rfl _).upkeep
  | loadState _ ih => exact ih.trans (loadState_keeps (.of_meanwhile sub) _)
  | saveState _ ih => exact ih.trans (Meanwhile.of_idles (idles_saveState _)).upkeep
  | bootstrap since _ ih => exact ih.trans (bootstrap_keeps_of_meanwhile sub upkeep_run since _)
  | leave due _ ih => exact ih.trans (meanwhile_leave due).upkeep
  | close _ ih => exact ih.trans (meanwhile_close _).upkeep

omit [Quantity τ] [Overlay τ ν] in
theorem Unstarted.attached {world : World τ ν} (unstarted : Unstarted world) : Attached world where
  heard engine installed := by simp [unstarted.session] at installed
  deaf stopping := by simp [unstarted.session] at stopping
  silent _ := ⟨by rw [unstarted.session], by rw [unstarted.session], .inl unstarted.deaf⟩

theorem obedient_placid : Obedient Seconds Placid := fun _ _ _ _ _ => rfl

/-- A session that is going to be stopped while its task waits for the bootstrap. -/
def halfway : World Seconds Placid := Request.start.serve ((untouched ⟨⟩ {}).schedule ⟨3⟩ .stop)

/-- A session that has joined the overlay, and was stopped a second ago. -/
def dismissed : World Seconds Placid :=
  (Request.sleep ⟨1⟩).serve (Request.stop.serve (((Request.sleep ⟨5⟩).serve
    (Request.start.serve (untouched ⟨⟩ {}))).perform (.alert (.bootstrap "bootstrap done"))))

theorem runs_dismissed : Runs (untouched ⟨⟩ {}) dismissed := by
  unfold dismissed
  exact .request _ (.request _ (.happen (by simp) (by simp) (.request _ (.request _ .refl))))

/-- What comes of waiting until it has joined the overlay since it was started. -/
def belated : World Seconds Placid := ((Session.bootstrap World.run (some ⟨0⟩)).run dismissed).2

end Session

end DhtRecords
