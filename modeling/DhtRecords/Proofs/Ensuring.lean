/-
What it means that a session was ensured.

A session is `Usable` if it has an engine and is neither down nor on its way
there. It stays so as long as it is not `Interrupted`: that is, stopped, or failed
(`Upkeep.endures`). Making sure of a session comes to a good end in one of four
ways, each with evidence of its own that there is an engine to call (`Revived`):
the engine has answered that it is running, at once or when it was asked again; it
has taken its state from the file; or it has reported that it has joined the overlay
since (`ensured`). The last two say nothing of what the engine would answer.
-/

import DhtRecords.Proofs.Exact
import DhtRecords.Proofs.Lifetimes

namespace DhtRecords

variable {τ ν : Type}

namespace World

/-! ### Calls -/

section

variable [Quantity τ]

theorem react_eq {α : Type} (engine : EngineId) (reaction : Reaction τ ν α) (world : World τ ν) :
    ∃ queue, world.react engine reaction = { world with overlay := reaction.overlay, queue } := by
  have scheduled (alerts : List (τ × Alert)) (start : World τ ν) : ∃ queue,
      alerts.foldl (fun world entry => world.schedule entry.1 (.emission engine entry.2)) start =
        { start with queue } := by
    induction alerts generalizing start with
    | nil => exact ⟨_, rfl⟩
    | cons alert rest ih =>
      obtain ⟨queue, same⟩ := ih (start.schedule alert.1 (.emission engine alert.2))
      exact ⟨queue, same⟩
  obtain ⟨queue, same⟩ := scheduled reaction.alerts { world with overlay := reaction.overlay }
  exact ⟨queue, same⟩

/-- A call changes no more than the overlay, what is due, and the journal. -/
theorem ask_eq [Overlay τ ν] (engine : EngineId) (call : EngineCall) (world : World τ ν) :
    ∃ queue, (world.ask engine call).2 = { world with
      overlay := (Overlay.ask (τ := τ) engine call world.overlay).overlay
      journal := .called engine call (isFailure (world.ask engine call).1) :: world.journal
      queue } := by
  obtain ⟨queue, same⟩ := react_eq engine (Overlay.ask (τ := τ) engine call world.overlay)
    (world.note (.called engine call (isFailure (world.ask engine call).1)))
  exact ⟨queue, same⟩

end

end World

/-! ### Usable sessions -/

/-- Whether it is that a session begins to stop or is stopped, or has failed. -/
def Occurrence.interrupts : Occurrence τ → Bool
  | .moved _ .stopping => true
  | .moved _ .stopped => true
  | .moved _ .error => true
  | _ => false

namespace World

/-- Whether a session has an engine, and is not down. -/
def Usable (world : World τ ν) : Prop :=
  world.session.engine ≠ none ∧ Session.isDown world.session.state = false

/-- Whether a session has begun to stop, or has failed, from one world to a later one. -/
def Interrupted (before after : World τ ν) : Prop :=
  (after.journal.take (after.journal.length - before.journal.length)).any Occurrence.interrupts = true

instance (before after : World τ ν) : Decidable (Interrupted before after) :=
  inferInstanceAs (Decidable (_ = true))

theorem interrupted_iff_of_append {before after : World τ ν} {fresh : List (Occurrence τ)}
    (journal : after.journal = fresh ++ before.journal) :
    Interrupted before after ↔ fresh.any Occurrence.interrupts = true := by
  rw [Interrupted, journal]
  simp

theorem Interrupted.mono {first before after last : World τ ν}
    (interrupted : Interrupted before after) (early : first.journal <:+ before.journal)
    (within : before.journal <:+ after.journal) (late : after.journal <:+ last.journal) :
    Interrupted first last := by
  obtain ⟨old, oldJournal⟩ := early
  obtain ⟨fresh, journal⟩ := within
  obtain ⟨new, newJournal⟩ := late
  have noted := (interrupted_iff_of_append journal.symm).mp interrupted
  have journal : last.journal = (new ++ fresh ++ old) ++ first.journal := by
    rw [← newJournal, ← journal, ← oldJournal]
    simp only [List.append_assoc]
  rw [interrupted_iff_of_append journal, List.any_append, List.any_append, noted]
  simp

/-- Whether a journal has grown, and a usable session has stayed so unless it was interrupted. -/
structure Endures (before after : World τ ν) : Prop where
  suffix : before.journal <:+ after.journal
  usable : Usable before → Interrupted before after ∨ Usable after

namespace Endures

theorem refl (world : World τ ν) : Endures world world := ⟨List.suffix_refl _, .inr⟩

theorem trans {first second third : World τ ν} (left : Endures first second)
    (right : Endures second third) : Endures first third := by
  refine ⟨left.suffix.trans right.suffix, fun usable => ?_⟩
  obtain ⟨old, oldJournal⟩ := left.suffix
  obtain ⟨new, newJournal⟩ := right.suffix
  have journal : third.journal = (new ++ old) ++ first.journal := by
    rw [← newJournal, ← oldJournal, List.append_assoc]
  rw [interrupted_iff_of_append journal, List.any_append, Bool.or_eq_true]
  rcases left.usable usable with interrupted | usable
  · exact .inl (.inr ((interrupted_iff_of_append oldJournal.symm).mp interrupted))
  · exact (right.usable usable).imp_left
      fun interrupted => .inl ((interrupted_iff_of_append newJournal.symm).mp interrupted)

instance : Std.Refl (Endures (τ := τ) (ν := ν)) := ⟨refl⟩

instance : IsTrans (World τ ν) Endures := ⟨fun _ _ _ => trans⟩

theorem of_eq {before after : World τ ν} (suffix : before.journal <:+ after.journal)
    (state : after.session.state = before.session.state)
    (engine : after.session.engine = before.session.engine) : Endures before after := by
  refine ⟨suffix, fun usable => .inr ?_⟩
  rw [Usable, state, engine]
  exact usable

/-- A session may go on to another state. -/
theorem moveTo {state : SessionState} (world : World τ ν)
    (fine : Occurrence.interrupts (.moved world.session.state state : Occurrence τ) = true ∨
      Session.isDown state = false) : Endures world (world.moveTo state) := by
  refine ⟨⟨[_], rfl⟩, fun usable => ?_⟩
  rcases fine with interrupts | up
  · refine .inl ((interrupted_iff_of_append (List.singleton_append).symm).mpr ?_)
    rw [List.any_cons, interrupts, Bool.true_or]
  · exact .inr ⟨usable.1, up⟩

end Endures

section

variable [Quantity τ] [Overlay τ ν]

omit [Overlay τ ν] in
theorem Idles.endures {before after : World τ ν} (idles : Idles before after) :
    Endures before after := by
  obtain ⟨fresh, journal, -⟩ := idles.continues.journal
  exact .of_eq ⟨fresh, journal.symm⟩ idles.around.same.1 idles.around.same.2.1

theorem Step.endures {actor : Option TaskId} {before after : World τ ν}
    (step : Step actor before after) : Endures before after := by
  cases step with
  | idle idle => exact Idles.endures (.single idle)
  | start down =>
    rw [start_eq down]
    refine ⟨⟨[_], rfl⟩, fun usable => ?_⟩
    have up := usable.2
    cases state : before.session.state <;> simp [state, Session.isUp, Session.isDown] at down up
  | stop =>
    obtain ⟨tasks, -, requested⟩ := (before.moveTo .stopping).requestStop_eq
    rw [requested]
    exact (Endures.moveTo before (.inl rfl)).trans (.of_eq (List.suffix_refl _) rfl rfl)
  | join =>
    obtain ⟨tasks, -, joined⟩ := before.joinTask_eq
    rw [joined]
    exact .of_eq (List.suffix_refl _) rfl rfl
  | close =>
    refine ⟨⟨[_], rfl⟩, fun _ => .inl ((interrupted_iff_of_append (List.singleton_append).symm).mpr ?_)⟩
    simp [Occurrence.interrupts]
  | build => exact .of_eq ⟨[_], rfl⟩ rfl rfl
  | install engine => exact ⟨List.suffix_refl _, fun usable => .inr ⟨by simp [installed], usable.2⟩⟩
  | bootstrap => exact .moveTo before (.inr rfl)
  | run => exact (Endures.moveTo before (.inr rfl)).trans (.of_eq (List.suffix_refl _) rfl rfl)
  | fail reason =>
    have noted : Endures before
        { before with session := { before.session with lastError := reason } } :=
      .of_eq (List.suffix_refl _) rfl rfl
    exact (noted.trans (.moveTo _ (.inl rfl))).trans (.of_eq (List.suffix_refl _) rfl rfl)
  | _ => exact .of_eq (List.suffix_refl _) rfl rfl

/-- A usable session stays so unless it is stopped or fails. -/
theorem Upkeep.endures {before after : World τ ν} (upkeep : Upkeep before after) :
    Endures before after :=
  upkeep.course.invariant (Endures before) (fun _ _ _ _ step endures => endures.trans step.endures)
    (.refl before)

/-! ### Checks -/

omit [Quantity τ] [Overlay τ ν] in
theorem Usable.due {world : World τ ν} (usable : Usable world) :
    ¬ (world.session.state = .stopped ∧ world.session.task = none) := by
  rintro ⟨stopped, -⟩
  have up := usable.2
  simp [stopped, Session.isDown] at up

/-- A stop interrupts a usable session, even if it does not come to its end. -/
theorem interrupted_stop {world : World τ ν} (usable : Usable world) :
    Interrupted world world.stop.2 := by
  refine ((meanwhile_stop world).upkeep.endures.usable usable).resolve_right fun still => ?_
  exact Bool.false_ne_true (still.2.symm.trans (isDown_stop world))

/-- Unless it is interrupted by that, a usable session is left alone when its engine is asked. -/
theorem consult_cases {engine : EngineId} {call : EngineCall} {world after : World τ ν}
    {answer : Except EngineFault call.Answer} (usable : Usable world)
    (consulted : world.consult engine call = (answer, after)) :
    Interrupted world after ∨ world.ask engine call = (answer, after) := by
  obtain ⟨queue, asked⟩ := ask_eq engine call world
  have still : Usable (world.ask engine call).2 := by
    rw [asked]
    exact usable
  have grown : world.journal <:+ (world.ask engine call).2.journal := by
    rw [asked]
    exact ⟨[_], rfl⟩
  have halted (last : World τ ν) (later : (world.ask engine call).2.stop.2.journal <:+ last.journal) :
      Interrupted world last :=
    (interrupted_stop still).mono grown (meanwhile_stop _).upkeep.endures.suffix later
  unfold consult at consulted
  dsimp only at consulted
  rcases afterStop_cases (Overlay.ask (τ := τ) engine call world.overlay).stops
    (Overlay.ask (τ := τ) engine call world.overlay).restarts (world.ask engine call).1
    (world.ask engine call).2 with same | same | ⟨-, same⟩ <;> rw [consulted] at same
  · exact .inr same.symm
  · have stopped : after = (world.ask engine call).2.stop.2 := same
    exact .inl (halted after (stopped ▸ List.suffix_refl _))
  · refine .inl (halted after ?_)
    rw [show after = _ from same]
    exact (meanwhile_start _).upkeep.endures.suffix

end

end World

/-! ### Good ends -/

namespace Session

open World Op

variable [Quantity τ] [Overlay τ ν]

/-- Whether an engine was found in order, and how: the world in which its session was to be made sure of
and the one in which that was done. -/
inductive Revived (world : World τ ν) (engine : EngineId) : World τ ν → Prop
  /-- The engine has answered that it is running. -/
  | running {after : World τ ν} :
    world.ask engine .isRunning = (.ok true, after) → Revived world engine after
  /-- It has answered so when it was asked again. -/
  | again {denied after : World τ ν} :
    world.ask engine .isRunning = (.ok false, denied) →
    denied.ask engine .isRunning = (.ok true, after) → Revived world engine after
  /-- It has taken its state from the file, which is not empty. -/
  | reloaded {denied silent after : World τ ν} {blob : Bytes} :
    world.ask engine .isRunning = (.ok false, denied) →
    denied.ask engine .isRunning = (.ok false, silent) →
    world.disk.read world.settings.statePath = .ok blob → blob ≠ [] →
    silent.ask engine (.loadState blob) = (.ok (), after) → Revived world engine after
  /-- It has reported since that it has joined the overlay. -/
  | rejoined {denied silent after : World τ ν} :
    world.ask engine .isRunning = (.ok false, denied) →
    denied.ask engine .isRunning = (.ok false, silent) →
    (after.correlator.event? .bootstrap world.clock).isSome = true →
    after.session.bootstrapped = true → Revived world engine after

theorem run_checkRunning_eq_ok {engine : EngineId} {world after : World τ ν} {answer : Bool}
    (run : (checkRunning engine).run world = (.ok answer, after)) :
    world.checkRunning engine = (.ok answer, after) := by
  rw [checkRunning, run_bind, run_modifyGet] at run
  rcases check : world.checkRunning engine with ⟨fault | answer', checked⟩ <;> rw [check] at run <;>
    cases run
  rfl

theorem ensureRunning_cases {world after : World τ ν}
    (run : ensureRunning.run world = (.ok none, after)) :
    ∃ engine, world.session.engine = some engine ∧ isDown world.session.state = false ∧
      (world.checkRunning engine = (.ok true, after) ∨
        ∃ denied, world.checkRunning engine = (.ok false, denied) ∧
          (recover World.run).run denied = (.ok true, after)) := by
  unfold ensureRunning at run
  rw [run_bind_ok (run_get world)] at run
  dsimp only at run
  split at run
  · next engine installed up =>
    refine ⟨engine, installed, up, ?_⟩
    obtain ⟨running, checked, checking, run⟩ := run_bind_eq_ok run
    have checking := run_checkRunning_eq_ok checking
    cases running with
    | true =>
      cases run
      exact .inl checking
    | false =>
      obtain ⟨recovered, last, recovering, run⟩ := run_bind_eq_ok run
      cases recovered <;> cases run
      exact .inr ⟨checked, checking, recovering⟩
  · cases run

theorem recover_cases {waiter : Waiter τ ν} {engine : EngineId} {world after : World τ ν}
    (installed : world.session.engine = some engine)
    (run : (recover waiter).run world = (.ok true, after)) :
    world.checkRunning engine = (.ok true, after) ∨
      ∃ silent, world.checkRunning engine = (.ok false, silent) ∧
        (loadState.run silent = (.ok true, after) ∨
          ∃ unloaded joined, loadState.run silent = (.ok false, unloaded) ∧
            (bootstrap waiter none).run unloaded = (.ok true, joined) ∧ after = joined.saveState.2) := by
  unfold recover at run
  rw [run_bind_ok (run_get world), installed] at run
  obtain ⟨running, checked, checking, run⟩ := run_bind_eq_ok run
  have checking := run_checkRunning_eq_ok checking
  cases running with
  | true =>
    cases run
    exact .inl checking
  | false =>
    refine .inr ⟨checked, checking, ?_⟩
    obtain ⟨loaded, unloaded, loading, run⟩ := run_bind_eq_ok run
    cases loaded with
    | true =>
      cases run
      exact .inl loading
    | false =>
      obtain ⟨joins, joined, joining, run⟩ := run_bind_eq_ok run
      cases joins <;> cases run
      exact .inr ⟨unloaded, joined, loading, joining, rfl⟩

/-- A state that is taken comes from the file. -/
theorem loadState_cases {engine : EngineId} {world after : World τ ν} {loaded : Bool}
    (installed : world.session.engine = some engine)
    (run : loadState.run world = (.ok loaded, after)) :
    loaded = false ∧ after = world ∨
      ∃ blob answer, world.disk.read world.settings.statePath = .ok blob ∧ blob ≠ [] ∧
        world.consult engine (.loadState blob) = (answer, after) ∧ (loaded = true → answer = .ok ()) := by
  unfold loadState at run
  rw [run_bind_ok (run_get world), installed] at run
  dsimp only at run
  split at run
  · cases run
  · cases run
    exact .inl ⟨rfl, rfl⟩
  · cases run
    exact .inl ⟨rfl, rfl⟩
  · next blob filled stored =>
    rw [run_bind_ok (run_modifyGet _ world)] at run
    rcases told : world.consult engine (.loadState blob) with ⟨fault | answer, taken⟩ <;>
      rw [told] at run
    · dsimp only at run
      split at run
      · cases run
        exact .inr ⟨blob, _, stored, filled, told, nofun⟩
      · cases run
    · cases run
      exact .inr ⟨blob, _, stored, filled, told, fun _ => rfl⟩

omit [Overlay τ ν] in
/-- A bootstrap that is waited for to its end is logged, and noted by the session. -/
theorem bootstrap_cases {waiter : Waiter τ ν} {world after : World τ ν}
    (run : (bootstrap waiter none).run world = (.ok true, after)) :
    (after.correlator.event? .bootstrap world.clock).isSome = true ∧
      after.session.bootstrapped = true := by
  unfold bootstrap at run
  rw [run_bind_ok (run_get world), run_bind_ok (run_modify _ world), run_bind_ok (run_get _)] at run
  split at run
  · next logged =>
    rw [run_bind_ok (run_modify _ _)] at run
    cases run
    exact ⟨logged, rfl⟩
  · cases run

/-- Keeping the engine's state changes neither the correlator nor the session. -/
theorem saveState_same (world : World τ ν) :
    world.saveState.2.correlator = world.correlator ∧ world.saveState.2.session = world.session := by
  unfold World.saveState
  split
  · exact ⟨rfl, rfl⟩
  · next engine _ =>
    obtain ⟨queue, asked⟩ := ask_eq engine .saveState world
    have same : (world.ask engine .saveState).2.correlator = world.correlator ∧
        (world.ask engine .saveState).2.session = world.session := by
      rw [asked]
      exact ⟨rfl, rfl⟩
    split
    · next told => rwa [told] at same
    · next told =>
      rw [told] at same
      split <;> exact same

/-- What is left alone when an engine is asked. -/
theorem same_of_ask {engine : EngineId} {call : EngineCall} {world asked : World τ ν}
    {answer : Except EngineFault call.Answer} (told : world.ask engine call = (answer, asked)) :
    asked.session = world.session ∧ asked.disk = world.disk ∧ asked.settings = world.settings ∧
      asked.clock = world.clock ∧ world.journal <:+ asked.journal := by
  obtain ⟨queue, same⟩ := ask_eq engine call world
  rw [told] at same
  dsimp only at same
  rw [same]
  exact ⟨rfl, rfl, rfl, rfl, ⟨[_], rfl⟩⟩

/-- If a session was not interrupted since, its engine has just been asked. -/
theorem asked_of_calm {engine : EngineId} {call : EngineCall} (upkeep : call.isUpkeep = true)
    {world consulted last : World τ ν} {answer : Except EngineFault call.Answer} (usable : Usable world)
    (consults : world.consult engine call = (answer, consulted))
    (later : consulted.journal <:+ last.journal) (calm : ¬ Interrupted world last) :
    world.ask engine call = (answer, consulted) := by
  have grown := (meanwhile_consult engine upkeep world).upkeep.endures.suffix
  rw [consults] at grown
  exact (consult_cases usable consults).resolve_left fun interrupted =>
    calm (interrupted.mono (List.suffix_refl _) grown later)

/-- The ways in which a session that is not interrupted is recovered. -/
theorem recovered_cases {engine : EngineId} {world after : World τ ν} (usable : Usable world)
    (installed : world.session.engine = some engine)
    (run : (recover World.run).run world = (.ok true, after)) (calm : ¬ Interrupted world after) :
    world.ask engine .isRunning = (.ok true, after) ∨
      ∃ silent, world.ask engine .isRunning = (.ok false, silent) ∧
        ((∃ blob, world.disk.read world.settings.statePath = .ok blob ∧ blob ≠ [] ∧
            silent.ask engine (.loadState blob) = (.ok (), after)) ∨
          (after.correlator.event? .bootstrap world.clock).isSome = true ∧
            after.session.bootstrapped = true) := by
  rcases recover_cases installed run with checked | ⟨silent, checked, course⟩
  · exact .inl (asked_of_calm rfl usable checked (List.suffix_refl _) calm)
  have tending : Tending (Endures (τ := τ) (ν := ν)) := .of_meanwhile fun _ _ meanwhile => meanwhile.upkeep.endures
  have rests {unloaded joined : World τ ν} (joining : (bootstrap World.run none).run unloaded = (.ok true, joined)) :
      unloaded.journal <:+ joined.saveState.2.journal :=
    (((bootstrap_keeps_of_meanwhile (fun _ _ meanwhile => meanwhile.upkeep.endures)
      (fun _ _ world => (upkeep_run _ _ world).endures) none).of_run joining).trans
      (tending.saves joined)).suffix
  have later : silent.journal <:+ after.journal := by
    rcases course with loading | ⟨unloaded, joined, loading, joining, rfl⟩
    · exact ((loadState_keeps tending).of_run loading).suffix
    · exact ((loadState_keeps tending).of_run loading).suffix.trans (rests joining)
  have asked := asked_of_calm rfl usable checked later calm
  refine .inr ⟨silent, asked, ?_⟩
  obtain ⟨session, disk, settings, clock, grown⟩ := same_of_ask asked
  have still : silent.session.engine = some engine := session ▸ installed
  have usable' : Usable silent := by
    rw [Usable, session]
    exact usable
  have calm' : ¬ Interrupted silent after := fun interrupted =>
    calm (interrupted.mono grown later (List.suffix_refl _))
  rcases course with loading | ⟨unloaded, joined, loading, joining, rfl⟩
  · rcases loadState_cases still loading with ⟨unloaded, -⟩ | ⟨blob, answer, stored, filled, told, accepted⟩
    · cases unloaded
    · rw [disk, settings] at stored
      obtain rfl := accepted rfl
      exact .inl ⟨blob, stored, filled, asked_of_calm rfl usable' told (List.suffix_refl _) calm'⟩
  · obtain ⟨logged, noted⟩ := bootstrap_cases joining
    have kept : unloaded.clock = silent.clock := by
      rcases loadState_cases still loading with ⟨-, rfl⟩ | ⟨blob, answer, -, -, told, -⟩
      · rfl
      · exact (same_of_ask (asked_of_calm rfl usable' told (rests joining) calm')).2.2.2.1
    rw [kept, clock] at logged
    obtain ⟨correlator, session⟩ := saveState_same joined
    exact .inr ⟨by rwa [correlator], by rwa [session]⟩

/-- A session that was made sure of has an engine that was found in order, and is not down, unless it was
stopped or has failed in the course of it. -/
theorem ensured {world after : World τ ν} (run : ensureRunning.run world = (.ok none, after)) :
    ∃ engine, world.session.engine = some engine ∧ isDown world.session.state = false ∧
      (Interrupted world after ∨ Usable after ∧ Revived world engine after) := by
  obtain ⟨engine, installed, up, course⟩ := ensureRunning_cases run
  refine ⟨engine, installed, up, ?_⟩
  have usable : Usable world := ⟨by simp [installed], up⟩
  have endures := (upholds_ensureRunning fun _ _ upkeep => upkeep.endures).of_run run
  refine or_iff_not_imp_left.mpr fun calm => ⟨(endures.usable usable).resolve_left calm, ?_⟩
  rcases course with checked | ⟨denied, checked, recovering⟩
  · exact .running (asked_of_calm rfl usable checked (List.suffix_refl _) calm)
  have recovers : Endures denied after :=
    (recover_keeps (.of_meanwhile fun _ _ meanwhile => meanwhile.upkeep.endures)
      (bootstrap_keeps_of_meanwhile (fun _ _ meanwhile => meanwhile.upkeep.endures)
        (fun _ _ world => (upkeep_run _ _ world).endures) none)).of_run recovering
  have first := asked_of_calm rfl usable checked recovers.suffix calm
  obtain ⟨session, disk, settings, clock, grown⟩ := same_of_ask first
  have calm' : ¬ Interrupted denied after := fun interrupted =>
    calm (interrupted.mono grown recovers.suffix (List.suffix_refl _))
  rcases recovered_cases (by rwa [Usable, session]) (session ▸ installed) recovering calm' with
    second | ⟨silent, second, ⟨blob, stored, filled, told⟩ | ⟨logged, noted⟩⟩
  · exact .again first second
  · rw [disk, settings] at stored
    exact .reloaded first second stored filled told
  · rw [clock] at logged
    exact .rejoined first second logged noted

/-- An engine that has stopped, and whose state file is gone, is going to report that it has joined the
overlay; it does not begin to run by that. -/
def dozing : World Seconds (Simnet Seconds) :=
  let running := (Request.sleep ⟨5⟩).serve (Request.start.serve (untouched { options := .plain } {}))
  let stopped := running.perform (.overlay fun net =>
    net.modifyEngine 1 fun engine => { engine with running := false })
  { stopped with disk := {} }.schedule ⟨1⟩ (.emission 1 (.bootstrap "bootstrap done"))

/-- What making sure of that session leads to. -/
def roused : Except Failure (Option ErrorKind) × World Seconds (Simnet Seconds) :=
  ensureRunning.run dozing

theorem roused_ensured : roused.1 = .ok none ∧ Usable roused.2 ∧ Revived dozing 1 roused.2 := by
  have course : roused.1.toOption = some none ∧ dozing.session.engine = some 1 ∧
      ¬ Interrupted dozing roused.2 := by
    decide
  obtain ⟨told, installed, calm⟩ := course
  rcases run : roused with ⟨failure | outcome, after⟩ <;> rw [run] at told calm <;> cases told
  obtain ⟨engine, installed', -, found⟩ := ensured run
  obtain rfl := Option.some_inj.mp (installed'.symm.trans installed)
  exact ⟨rfl, found.resolve_left calm⟩

/-- A session is made sure of, although its engine does not run. -/
theorem roused_idle : Runs (untouched { options := .plain } {}) dozing ∧
    roused.1.toOption = some none ∧ roused.2.session.engine = some 1 ∧
    ((roused.2.ask 1 .isRunning).1).toOption = some false := by
  refine ⟨.plan _ (by simp) (by simp) (.files _ (.happen (by simp) (by simp) (.request _ (.request _ .refl)))), ?_⟩
  decide

end Session

end DhtRecords
