/-
What goes on without the doing of a background task.

Events, the waits in which only events are handled, and the checks of an engine
lead from a sound world to a sound one by the steps of no task, `Meanwhile`. What
callers and tasks do to keep a session running is made up of these and of waits,
so it stays within any relation that holds of them (`recover_keeps`,
`ensureRunning_keeps`).
-/

import DhtRecords.Proofs.Soundness

namespace DhtRecords

variable {τ ν : Type} [Quantity τ] [Overlay τ ν]

namespace World

/-! ### Stopping and checking -/

/-- Whether a relation holds of the changes that a stop is made up of until it waits for the session's
task. -/
structure Tidying (R : World τ ν → World τ ν → Prop) : Prop where
  asks : ∀ engine (call : EngineCall) world, call.isUpkeep = true → R world (world.ask engine call).2
  disks : ∀ disk world, R world { world with disk }
  tasks : ∀ tasks world, R world { world with tasks }
  silences : ∀ world, R world (world.hear false)
  moves : ∀ world, R world (world.moveTo .stopping)

section

variable {R : World τ ν → World τ ν → Prop} [Std.Refl R] [IsTrans (World τ ν) R] (tidying : Tidying R)

include tidying

theorem Tidying.saves (world : World τ ν) : R world world.saveState.2 := by
  unfold saveState
  split
  · exact refl_of R world
  · next engine _ =>
    have asked := tidying.asks engine .saveState world rfl
    split
    · next step => rwa [step] at asked
    · next step =>
      rw [step] at asked
      split <;> exact trans_of R asked (tidying.disks _ _)

omit [Std.Refl R] in
theorem Tidying.shuts (engine : EngineId) (world : World τ ν) : R world (world.shutDown engine) := by
  have configured := tidying.asks engine (.configure false 0) world rfl
  unfold shutDown
  split
  · next step => rwa [step] at configured
  · next step =>
    rw [step] at configured
    exact trans_of R configured (tidying.asks engine .abort _ rfl)

theorem Tidying.stops (engine : Option EngineId) (world : World τ ν) :
    R world (world.stopCorrelator engine).2 := by
  unfold stopCorrelator
  split
  · cases engine with
    | none => exact tidying.silences world
    | some engine => exact trans_of R (tidying.silences world) (tidying.asks engine (.setHandler false) _ rfl)
  · exact refl_of R world

omit [Std.Refl R] [IsTrans (World τ ν) R] in
theorem Tidying.joins (world : World τ ν) : R world world.joinTask := by
  obtain ⟨tasks, -, joined⟩ := world.joinTask_eq
  rw [joined]
  exact tidying.tasks tasks world

/-- Whatever holds of what a stop is made up of holds of its beginning. -/
theorem Tidying.leaves (world : World τ ν) : R world world.leave.2 := by
  have asked : R world (world.moveTo .stopping).requestStop := by
    obtain ⟨tasks, -, requested⟩ := (world.moveTo .stopping).requestStop_eq
    rw [requested]
    exact trans_of R (tidying.moves world) (tidying.tasks tasks _)
  have ends {engine : Option EngineId} {shut left : World τ ν} {result : Except EngineFault Unit}
      (reached : R world shut) (step : shut.stopCorrelator engine = (result, left)) :
      R world left ∧ R world left.joinTask := by
    have silenced := trans_of R reached (tidying.stops engine shut)
    rw [step] at silenced
    exact ⟨silenced, trans_of R silenced (tidying.joins _)⟩
  have saved : R world (if world.session.state = SessionState.running then
      (world.moveTo .stopping).requestStop.saveState.2 else (world.moveTo .stopping).requestStop) := by
    split
    · exact trans_of R asked (tidying.saves _)
    · exact asked
  unfold leave
  cases world.session.engine with
  | none =>
    dsimp only
    split
    · next step => exact (ends asked step).2
    · next step => exact (ends asked step).1
  | some engine =>
    have shut := trans_of R saved (tidying.shuts engine _)
    dsimp only
    split
    · next step => exact (ends shut step).2
    · next step => exact (ends shut step).1

end

/-- What comes after an answer: nothing, or the session is stopped, and may be started again. -/
theorem afterStop_cases {α : Type} (stops restarts : Bool) (answer : Except EngineFault α)
    (world : World τ ν) : world.afterStop stops restarts answer = (answer, world) ∨
      (world.afterStop stops restarts answer).2 = world.stop.2 ∨
      restarts = true ∧ (world.afterStop stops restarts answer).2 = Session.start world.stop.2 := by
  unfold afterStop
  split
  · right
    split
    · next stopped => exact .inl (by rw [stopped])
    · next stopped =>
      rw [stopped]
      cases restarts with
      | false => exact .inl rfl
      | true => exact .inr ⟨rfl, rfl⟩
  · exact .inl rfl

/-- Whatever holds of stops and of starts holds of what comes after an answer. -/
theorem afterStop_keeps {R : World τ ν → World τ ν → Prop} [Std.Refl R] [IsTrans (World τ ν) R]
    (halts : ∀ world, R world world.stop.2) (starts : ∀ world, R world (Session.start world)) {α : Type}
    (stops restarts : Bool) (answer : Except EngineFault α) (world : World τ ν) :
    R world (world.afterStop stops restarts answer).2 := by
  rcases afterStop_cases stops restarts answer world with same | same | ⟨-, same⟩ <;> rw [same]
  · exact refl_of R world
  · exact halts world
  · exact trans_of R (halts world) (starts _)

theorem meanwhile_afterStop {α : Type} (stops restarts : Bool) (answer : Except EngineFault α)
    (world : World τ ν) : Meanwhile world (world.afterStop stops restarts answer).2 :=
  afterStop_keeps meanwhile_stop meanwhile_start stops restarts answer world

theorem meanwhile_consult (engine : EngineId) {call : EngineCall} (upkeep : call.isUpkeep = true)
    (world : World τ ν) : Meanwhile world (world.consult engine call).2 :=
  (Meanwhile.of_idles (idles_ask engine upkeep world)).trans (meanwhile_afterStop _ _ _ _)

/-! ### Steps that nothing is heard in -/

/-- Whether the correlator has heard nothing, and holds what it has held. -/
def Retains (before after : World τ ν) : Prop :=
  after.correlator = { before.correlator with running := after.correlator.running }

omit [Quantity τ] [Overlay τ ν] in
theorem Retains.results {before after : World τ ν} (retains : Retains before after) :
    after.correlator.results = before.correlator.results := by rw [retains]

omit [Quantity τ] [Overlay τ ν] in
theorem Retains.log {before after : World τ ν} (retains : Retains before after) :
    after.correlator.log = before.correlator.log := by rw [retains]

omit [Quantity τ] [Overlay τ ν] in
theorem Retains.trans {first second third : World τ ν} (left : Retains first second)
    (right : Retains second third) : Retains first third := by
  rw [Retains, right, left]

instance : Std.Refl (Retains (τ := τ) (ν := ν)) := ⟨fun _ => rfl⟩

instance : IsTrans (World τ ν) Retains := ⟨fun _ _ _ => .trans⟩

omit [Overlay τ ν] in
theorem retains_react {α : Type} (engine : EngineId) (reaction : Reaction τ ν α) (world : World τ ν) :
    Retains world (world.react engine reaction) := by
  have scheduled (alerts : List (τ × Alert)) (start : World τ ν) :
      Retains start (alerts.foldl
        (fun world entry => world.schedule entry.1 (.emission engine entry.2)) start) := by
    induction alerts generalizing start with
    | nil => rfl
    | cons alert rest ih => exact ih _
  exact scheduled reaction.alerts _

theorem retains_ask (engine : EngineId) (call : EngineCall) (world : World τ ν) :
    Retains world (world.ask engine call).2 :=
  retains_react engine _ _

theorem tidying_retains : Tidying (Retains (τ := τ) (ν := ν)) :=
  ⟨fun engine call world _ => retains_ask engine call world, fun _ _ => rfl, fun _ _ => rfl, fun _ => rfl,
    fun _ => rfl⟩

theorem retains_stop (world : World τ ν) : Retains world world.stop.2 :=
  stopBy_keeps (fun _ => tidying_retains.leaves world) (fun _ => rfl) fun _ _ => rfl

omit [Quantity τ] [Overlay τ ν] in
theorem retains_start (world : World τ ν) : Retains world (Session.start world) := by
  unfold Session.start
  split <;> rfl

theorem retains_consult (engine : EngineId) (call : EngineCall) (world : World τ ν) :
    Retains world (world.consult engine call).2 :=
  trans_of Retains (retains_ask engine call world) (afterStop_keeps retains_stop retains_start _ _ _ _)

/-! ### Events -/

theorem meanwhile_perform {event : Event ν} (other : event ≠ .halt) (world : World τ ν) :
    Meanwhile world (world.perform event) := by
  cases event with
  | alert alert => exact .of_idles (.single (.deliver alert world))
  | emission engine alert =>
    simp only [perform]
    split
    · exact .of_idles (.single (.deliver alert world))
    · exact .refl world
  | announcement alert =>
    simp only [perform]
    split
    · exact .refl world
    · exact .of_idles (.single (.schedule _ world (by simp)))
  | start => exact meanwhile_start world
  | stop => exact meanwhile_stop world
  | close => exact meanwhile_close world
  | halt => exact absurd rfl other
  | overlay change => exact .of_idles (.single (.overlay _ world))
  | readiness change => exact .of_idles (.single (.readiness _ world))

/-- What is done with the first event of the queue. In a sound world it is not that the correlator alone
is stopped. -/
theorem meanwhile_event {world : World τ ν} {next : Pending τ ν} {rest : List (Pending τ ν)}
    (queue : world.queue = next :: rest) :
    Meanwhile world (({ world with queue := rest }.advance next.time).perform next.event) := by
  have taken : Idles world ({ world with queue := rest }.advance next.time) :=
    .tail (.single (.dequeue queue)) (.advance next.time _)
  by_cases halt : next.event = .halt
  · rw [halt]
    have unsound : ¬ world.Sound := fun sound =>
      sound.unhalted next (by rw [queue]; exact List.mem_cons_self) halt
    refine ⟨.trans (.of_idles rfl taken) ?_, fun sound _ => absurd sound unsound⟩
    simp only [perform, stopCorrelator]
    split
    · exact .single rfl (.silence _) fun sound _ => absurd sound unsound
    · exact .refl _
  · exact (Meanwhile.of_idles taken).trans (meanwhile_perform halt _)

theorem meanwhile_runQueueFor (fuel : Nat) (deadline : τ) (condition : World τ ν → Bool)
    (world : World τ ν) : Meanwhile world (world.runQueueFor fuel deadline condition) := by
  induction fuel generalizing world with
  | zero => exact .of_idles (.tail (.single (.advance deadline world)) (.giveUp _))
  | succ fuel ih =>
    unfold runQueueFor
    split
    · exact .refl world
    · split
      · exact .of_idles (.single (.advance deadline world))
      · next queue =>
        split
        · exact .of_idles (.single (.advance deadline world))
        · exact (meanwhile_event queue).trans (ih _)

theorem meanwhile_runQueue (deadline : τ) (condition : World τ ν → Bool) (world : World τ ν) :
    Meanwhile world (world.runQueue deadline condition) :=
  meanwhile_runQueueFor _ _ _ world

end World

/-! ### Keeping a session running -/

namespace Session

open World Op

variable {R : World τ ν → World τ ν → Prop}

/-- Whether a relation holds of what is done for the session's engine at one go: of the calls in the course
of which it may stop its session, and of keeping its state in the file. -/
structure Tending (R : World τ ν → World τ ν → Prop) : Prop where
  checks : ∀ engine world, world.session.engine = some engine → R world (world.consult engine .isRunning).2
  loads : ∀ engine blob world, world.session.engine = some engine →
    R world (world.consult engine (.loadState blob)).2
  saves : ∀ world, R world world.saveState.2

theorem Tending.of_consults (consults : ∀ engine (call : EngineCall) world, call.isUpkeep = true →
    R world (world.consult engine call).2) (saves : ∀ world, R world world.saveState.2) : Tending R where
  checks engine world _ := consults engine .isRunning world rfl
  loads engine blob world _ := consults engine (.loadState blob) world rfl
  saves := saves

theorem Tending.of_meanwhile (sub : ∀ before after, Meanwhile before after → R before after) : Tending R :=
  .of_consults (fun engine _ world upkeep => sub _ _ (meanwhile_consult engine upkeep world))
    fun world => sub _ _ (.of_idles (idles_saveState world))

theorem tending_retains : Tending (Retains (τ := τ) (ν := ν)) :=
  .of_consults (fun engine call world _ => retains_consult engine call world) tidying_retains.saves

theorem run_checkRunning_snd (engine : EngineId) (world : World τ ν) :
    ((checkRunning engine).run world).2 = (world.consult engine .isRunning).2 := by
  change _ = (world.checkRunning engine).2
  unfold checkRunning
  rw [run_bind, run_modifyGet]
  rcases world.checkRunning engine with ⟨fault | answer, after⟩ <;> rfl

omit [Overlay τ ν] in
/-- Whatever holds of waits, and of taking note that the engine has joined the overlay, holds of waiting
for that. -/
theorem bootstrap_keeps [IsTrans (World τ ν) R] [Std.Refl R] {waiter : Waiter τ ν}
    (joins : ∀ world, R world { world with session := { world.session with bootstrapped := true } })
    (waits : ∀ deadline condition world, R world (waiter deadline condition world))
    (since : Option τ) : Keeps R (bootstrap waiter since) := by
  refine .get_bind fun world => .bind (.modify fun world => waits _ _ world) fun _ =>
    .get_bind fun world => ?_
  split
  · exact .bind (.modify joins) fun _ => .pure _
  · exact .pure _

theorem bootstrap_keeps_of_meanwhile [IsTrans (World τ ν) R] [Std.Refl R] {waiter : Waiter τ ν}
    (sub : ∀ before after, Meanwhile before after → R before after)
    (waits : ∀ deadline condition world, R world (waiter deadline condition world))
    (since : Option τ) : Keeps R (bootstrap waiter since) :=
  bootstrap_keeps (fun world => sub _ _ (.of_idles (.single (.joined world)))) waits since

variable [Std.Refl R] [IsTrans (World τ ν) R] (tending : Tending R)

include tending

omit [Std.Refl R] [IsTrans (World τ ν) R] in
theorem checkRunning_keeps {engine : EngineId} {world : World τ ν}
    (installed : world.session.engine = some engine) : R world ((checkRunning engine).run world).2 := by
  rw [run_checkRunning_snd]
  exact tending.checks engine world installed

theorem loadState_keeps : Keeps R (loadState : Op τ ν Bool) := by
  intro world
  unfold loadState
  rw [run_bind_ok (run_get world)]
  split
  · exact refl_of R world
  · next engine installed =>
    split
    · exact refl_of R world
    · exact refl_of R world
    · exact refl_of R world
    · refine Keeps.run_bind_keeps (tending.loads engine _ world installed) fun outcome => ?_
      split
      · exact .pure _
      · split
        · exact .pure _
        · exact .throw _

omit [Std.Refl R] [IsTrans (World τ ν) R] in
theorem saveState_keeps : Keeps R (saveState : Op τ ν Bool) :=
  .modifyGet tending.saves

/-- Whatever holds of what is done for an engine and of waiting for a bootstrap holds of its recovery. -/
theorem recover_keeps {waiter : Waiter τ ν} (bootstraps : Keeps R (bootstrap waiter none)) :
    Keeps R (recover waiter) := by
  intro world
  unfold recover
  rw [run_bind_ok (run_get world)]
  split
  · exact refl_of R world
  · next engine installed =>
    refine Keeps.run_bind_keeps (checkRunning_keeps tending installed) fun running => ?_
    split
    · exact .pure _
    · refine .bind (loadState_keeps tending) fun loaded => ?_
      split
      · exact .pure _
      · refine .bind bootstraps fun joined => ?_
        split
        · exact .bind (saveState_keeps tending) fun _ => .pure _
        · exact .pure _

/-- It also holds of making sure of a session. -/
theorem ensureRunning_keeps (bootstraps : Keeps R (bootstrap World.run none)) :
    Keeps R (ensureRunning : Op τ ν (Option ErrorKind)) := by
  intro world
  unfold ensureRunning
  rw [run_bind_ok (run_get world)]
  dsimp only
  split
  · next engine installed _ =>
    refine Keeps.run_bind_keeps (checkRunning_keeps tending installed) fun running => ?_
    split
    · exact .pure _
    · refine .bind (recover_keeps tending bootstraps) fun recovered => ?_
      split
      · exact .pure _
      · exact .pure _
  · exact refl_of R world

end Session

end DhtRecords
