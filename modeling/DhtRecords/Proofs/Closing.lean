/-
The end of a session.

If engines do as they are told (`Obedient`), all that a stop does until it waits
for the session's task is known (`leave_obeyed`): the engine is seen to and let go
of, and what was called is noted (`leaving`). A session's engine is heard unless it
was let go of (`Attached`), wherever the session has got to: whatever happens to it
is made up of turns that are taken at one go, `Turn`, and each of them keeps that
(`Turns.attached`). All that tasks and callers do is made up of turns
(`ongoing_goes`).
-/

import DhtRecords.Proofs.Ensuring
import DhtRecords.Proofs.Toil

namespace DhtRecords

open Relation (ReflTransGen)

variable {τ ν : Type}

/-- Whether the settings say how long a stop may wait for its session's task. -/
def Settings.Timed [Quantity τ] (settings : Settings τ) : Prop :=
  ∃ timeout, settings.joinTimeout = some timeout ∧ Quantity.atLeast timeout timeout = true

namespace World

/-! ### Engines that obey -/

/-- Whether engines obey every call that keeps them going or ends them; but they may refuse a state. -/
def Obedient (τ ν : Type) [Overlay τ ν] : Prop :=
  ∀ engine (call : EngineCall) (overlay : ν), call.isUpkeep = true → (∀ blob, call ≠ .loadState blob) →
    isFailure (Overlay.ask (τ := τ) engine call overlay).outcome = false

/-- What a stop notes until it waits for the session's task, in order. -/
def leaving (world : World τ ν) : List (Occurrence τ) :=
  let calls (engine : EngineId) : List (Occurrence τ) :=
    (if world.session.state = .running then [.called engine .saveState false] else []) ++
      [.called engine (.configure false 0) false, .called engine .abort false] ++
      if world.correlator.running then [.called engine (.setHandler false) false] else []
  .moved world.session.state .stopping :: world.session.engine.elim [] calls

/-- What a stop has done when it begins to wait for the session's task. The disk changes only if the session
was running: then the engine's state is kept. -/
structure Leaves (world left : World τ ν) : Prop where
  settings : left.settings = world.settings
  session : left.session = { world.session with state := .stopping }
  correlator : left.correlator = { world.correlator with running := false }
  journal : left.journal = world.leaving.reverse ++ world.journal
  disk : world.session.state ≠ .running → left.disk = world.disk

/-- Whether engines were called, the last call first, and the session and the correlator were left alone.
The disk may only have changed if an engine was to give its state. -/
structure Tells (calls : List (Occurrence τ)) (before after : World τ ν) : Prop where
  settings : after.settings = before.settings
  session : after.session = before.session
  correlator : after.correlator = before.correlator
  journal : after.journal = calls ++ before.journal
  disk : (∀ engine, .called engine .saveState false ∉ calls) → after.disk = before.disk

namespace Tells

variable {calls early late : List (Occurrence τ)} {before middle after : World τ ν}

theorem refl (world : World τ ν) : Tells [] world world := ⟨rfl, rfl, rfl, rfl, fun _ => rfl⟩

theorem trans (left : Tells early before middle) (right : Tells late middle after) :
    Tells (late ++ early) before after where
  settings := right.settings.trans left.settings
  session := right.session.trans left.session
  correlator := right.correlator.trans left.correlator
  journal := by rw [right.journal, left.journal, List.append_assoc]
  disk unsaved := by
    rw [right.disk fun engine member => unsaved engine (List.mem_append_left _ member),
      left.disk fun engine member => unsaved engine (List.mem_append_right _ member)]

theorem hear (tells : Tells calls before after) (running : Bool) :
    Tells calls (before.hear running) (after.hear running) :=
  ⟨tells.settings, tells.session, by rw [World.hear, World.hear, tells.correlator], tells.journal, tells.disk⟩

end Tells

section

variable [Quantity τ] [Overlay τ ν] (obedient : Obedient τ ν)

include obedient

theorem tells_ask (engine : EngineId) (call : EngineCall) (upkeep : call.isUpkeep = true)
    (other : ∀ blob, call ≠ .loadState blob) (world : World τ ν) :
    ∃ answer after, world.ask engine call = (.ok answer, after) ∧
      Tells [.called engine call false] world after := by
  obtain ⟨queue, asked⟩ := ask_eq engine call world
  have told : isFailure (world.ask engine call).1 = false := obedient engine call world.overlay upkeep other
  rw [told] at asked
  rcases answered : world.ask engine call with ⟨fault | answer, after⟩ <;> rw [answered] at told asked
  · cases told
  · refine ⟨answer, after, rfl, ?_⟩
    rw [show after = _ from asked]
    exact ⟨rfl, rfl, rfl, rfl, fun _ => rfl⟩

theorem tells_saveState {engine : EngineId} {world : World τ ν}
    (installed : world.session.engine = some engine) :
    Tells [.called engine .saveState false] world world.saveState.2 := by
  obtain ⟨blob, after, asked, tells⟩ := tells_ask obedient engine .saveState rfl (by simp) world
  have saved (disk : Disk (ItemTable τ)) :
      Tells [.called engine .saveState false] world { after with disk } :=
    ⟨tells.settings, tells.session, tells.correlator, tells.journal,
      fun unsaved => absurd List.mem_cons_self (unsaved engine)⟩
  unfold saveState
  rw [installed]
  dsimp only
  rw [asked]
  dsimp only
  split <;> exact saved _

theorem tells_shutDown (engine : EngineId) (world : World τ ν) :
    Tells [.called engine .abort false, .called engine (.configure false 0) false] world
      (world.shutDown engine) := by
  obtain ⟨_, middle, configured, left⟩ :=
    tells_ask obedient engine (.configure false 0) rfl (by simp) world
  obtain ⟨_, after, aborted, ended⟩ := tells_ask obedient engine .abort rfl (by simp) middle
  unfold shutDown tell
  rw [configured]
  dsimp only
  rw [aborted]
  exact left.trans ended

/-- An engine that was running is to give its state before it is shut down. -/
theorem tells_seeTo (engine : EngineId) (previous : SessionState) {world : World τ ν}
    (installed : world.session.engine = some engine) :
    Tells ([.called engine .abort false, .called engine (.configure false 0) false] ++
        if previous = .running then [.called engine .saveState false] else [])
      world ((if previous = .running then world.saveState.2 else world).shutDown engine) := by
  split
  · exact (tells_saveState obedient installed).trans (tells_shutDown obedient engine _)
  · exact tells_shutDown obedient engine world

/-- The correlator takes nothing more, and an engine that it has heard lets go of its handler. -/
theorem tells_stopCorrelator (engine : Option EngineId) (world : World τ ν) :
    ∃ after, world.stopCorrelator engine = (.ok (), after) ∧
      Tells (engine.elim [] fun engine =>
        if world.correlator.running then [.called engine (.setHandler false) false] else [])
        (world.hear false) after := by
  unfold stopCorrelator
  split
  · next on =>
    cases engine with
    | none => exact ⟨_, rfl, .refl _⟩
    | some engine =>
      obtain ⟨_, after, asked, tells⟩ :=
        tells_ask obedient engine (.setHandler false) rfl (by simp) (world.hear false)
      exact ⟨after, asked, tells⟩
  · next off =>
    have same : world.hear false = world := by
      rw [← eq_false_of_ne_true off]
      rfl
    refine ⟨world, rfl, ?_⟩
    rw [same]
    cases engine with
    | none => exact .refl world
    | some engine => exact .refl world

/-- All that a stop does until it waits for the session's task. -/
theorem leave_obeyed (world : World τ ν) : ∃ after : World τ ν, world.leave = (after.joinTime, after.joinTask) ∧
    Leaves world after.joinTask := by
  obtain ⟨tasks, -, requested⟩ := (world.moveTo .stopping).requestStop_eq
  have ends {calls : List (Occurrence τ)} {after : World τ ν}
      (tells : Tells calls ((world.moveTo .stopping).requestStop.hear false) after)
      (noted : world.leaving.reverse = calls ++ [.moved world.session.state .stopping])
      (unsaved : world.session.state ≠ .running → ∀ engine, .called engine .saveState false ∉ calls) :
      Leaves world after.joinTask := by
    obtain ⟨tasks', -, joined⟩ := after.joinTask_eq
    rw [requested] at tells
    rw [joined]
    refine ⟨tells.settings, tells.session, tells.correlator, ?_, fun idle => tells.disk (unsaved idle)⟩
    rw [noted, List.append_assoc]
    exact tells.journal
  unfold leave
  cases installed : world.session.engine with
  | none =>
    obtain ⟨after, silenced, tells⟩ := tells_stopCorrelator obedient none
      (world.moveTo .stopping).requestStop
    dsimp only
    rw [silenced]
    exact ⟨after, rfl, ends tells (by simp [leaving, installed]) (by simp)⟩
  | some engine =>
    have installed' : (world.moveTo .stopping).requestStop.session.engine = some engine := by
      rw [requested]
      exact installed
    have sees := tells_seeTo obedient engine world.session.state installed'
    obtain ⟨after, silenced, tells⟩ := tells_stopCorrelator obedient (some engine)
      ((if world.session.state = .running then (world.moveTo .stopping).requestStop.saveState.2
        else (world.moveTo .stopping).requestStop).shutDown engine)
    have listening : ((if world.session.state = .running then
        (world.moveTo .stopping).requestStop.saveState.2
        else (world.moveTo .stopping).requestStop).shutDown engine).correlator.running =
          world.correlator.running := by
      rw [sees.correlator, requested]
      rfl
    rw [listening] at tells
    dsimp only
    rw [silenced]
    refine ⟨after, rfl, ends ((sees.hear false).trans tells) ?_ fun idle other member => ?_⟩
    · simp only [leaving, installed, Option.elim_some]
      split <;> split <;> rfl
    · rw [if_neg idle, Option.elim_some] at member
      split at member <;> simp at member

/-- A stop whose engine obeys waits for no time, or as long as the settings say, if they do. -/
theorem leave_told (world : World τ ν) : world.leave.1 = .ok none ∨
    (∃ duration, (Overlay.join world.leave.2.overlay : Join τ) = .lasts duration) ∧
      ((∃ time, world.leave.1 = .ok (some time)) ∨
        (∃ failure, world.leave.1 = .error failure) ∧ ¬ world.settings.Timed) := by
  obtain ⟨after, left, leaves⟩ := leave_obeyed obedient world
  obtain ⟨tasks, -, joined⟩ := after.joinTask_eq
  have settings := leaves.settings
  rw [joined] at settings
  rw [left, joined, ← settings]
  unfold joinTime
  split
  · next duration _ join =>
    have untimed (untold : ∀ timeout, after.settings.joinTimeout = some timeout →
        Quantity.atLeast timeout timeout ≠ true) : ¬ after.settings.Timed :=
      fun ⟨timeout, told, defined⟩ => untold timeout told defined
    refine .inr ⟨⟨duration, join⟩, ?_⟩
    split
    · next absent => exact .inr ⟨⟨_, rfl⟩, untimed (by simp [absent])⟩
    · next timeout told =>
      split
      · exact .inl ⟨_, rfl⟩
      · next undefined => exact .inr ⟨⟨_, rfl⟩, untimed (by simp [told, undefined])⟩
  · exact .inl rfl

/-! ### Turns -/

omit obedient

/-- What happens to a session at one go. -/
inductive Turn : World τ ν → World τ ν → Prop
  /-- Something goes on around the session of which nothing is noted. -/
  | idle {before after : World τ ν} :
      Idle before after → after.journal = before.journal → Turn before after
  | deliver (alert : Alert) (world : World τ ν) : Turn world (world.deliver alert)
  /-- An engine was called, but not to take its handler. -/
  | call (engine : EngineId) {call : EngineCall} (failed : Bool) (world : World τ ν) :
      call.isUpkeep = true → call ≠ .setHandler true → Turn world (world.note (.called engine call failed))
  | start (world : World τ ν) : Turn world (Session.start world)
  /-- A stop goes up to the wait for the session's task. -/
  | leave {world : World τ ν} :
      ¬ (world.session.state = .stopped ∧ world.session.task = none) → Turn world world.leave.2
  | close (world : World τ ν) : Turn world world.closed
  /-- Tasks go to work, wait, or end. -/
  | tasks (tasks : List (Task τ)) (world : World τ ν) : Turn world { world with tasks }
  | build (engine : EngineId) (world : World τ ν) : Turn world (world.built engine)
  | install (engine : EngineId) (world : World τ ν) : Turn world (world.install engine).2
  | run (world : World τ ν) : Turn world world.ready
  | fail (reason : String) (world : World τ ν) : Turn world (world.failed reason)

/-- What happens to a session in the course of time. -/
abbrev Turns : World τ ν → World τ ν → Prop := ReflTransGen Turn

/-! ### Sessions and their engines -/

omit [Quantity τ] [Overlay τ ν] in
/-- Whether an engine was told to let go of its handler, and has not been given one since. -/
def Released (journal : List (Occurrence τ)) (engine : EngineId) : Prop :=
  ∃ late early, journal = late ++ .called engine (.setHandler false) false :: early ∧
    ∀ failed, .called engine (.setHandler true) failed ∉ late

omit [Quantity τ] [Overlay τ ν] in
theorem Released.append {journal : List (Occurrence τ)} {engine : EngineId} (released : Released journal engine)
    (fresh : List (Occurrence τ)) (kept : ∀ failed, .called engine (.setHandler true) failed ∉ fresh) :
    Released (fresh ++ journal) engine := by
  obtain ⟨late, early, rfl, unset⟩ := released
  refine ⟨fresh ++ late, early, (List.append_assoc ..).symm, fun failed member => ?_⟩
  exact (List.mem_append.mp member).elim (kept failed) (unset failed)

/-- Whether a session's engine is heard, or was let go of; whether the correlator is stopped when the session
is stopping; and whether there is neither an engine nor a task when it is stopped, and the correlator is
stopped, too, unless that stop came too late. -/
structure Attached (world : World τ ν) : Prop where
  heard : ∀ engine, world.session.engine = some engine →
    world.correlator.running = true ∨ Released world.journal engine
  deaf : world.session.state = .stopping → world.correlator.running = false
  silent : world.session.state = .stopped → world.session.engine = none ∧ world.session.task = none ∧
    (world.correlator.running = false ∨ Overtaken world.journal)

namespace Attached

variable {before after : World τ ν}

omit [Quantity τ] [Overlay τ ν] in
/-- Whatever is noted around a session but for handlers, its engine stays heard. -/
theorem around (attached : Attached before) (around : Around before after)
    (kept : ∀ engine, Released before.journal engine → Released after.journal engine) : Attached after := by
  obtain ⟨state, engine, task, -⟩ := around.same
  obtain ⟨fresh, journal, -⟩ := around.journal
  have late (overtaken : Overtaken before.journal) : Overtaken after.journal :=
    overtaken.of_suffix ⟨fresh, journal.symm⟩
  refine ⟨fun other installed => ?_, ?_, ?_⟩
  · rw [engine] at installed
    rw [around.listening]
    exact (attached.heard other installed).imp_right (kept other)
  · rw [state, around.listening]
    exact attached.deaf
  · rw [state, engine, task, around.listening]
    exact fun stopped => ⟨(attached.silent stopped).1, (attached.silent stopped).2.1,
      (attached.silent stopped).2.2.imp_right late⟩

omit [Quantity τ] [Overlay τ ν] in
/-- In a state in which the session is neither stopping nor stopped its engine has to be heard, and that is
all. -/
theorem of_heard (heard : ∀ engine, after.session.engine = some engine →
    after.correlator.running = true ∨ Released after.journal engine)
    (state : after.session.state ≠ .stopping ∧ after.session.state ≠ .stopped) : Attached after :=
  ⟨heard, fun stopping => absurd stopping state.1, fun stopped => absurd stopped state.2⟩

/-- A stopped session is not stopped once more. -/
theorem stop_of_stopped (attached : Attached before) (stopped : before.session.state = .stopped) :
    Session.stop before = (.ok (), before) :=
  if_pos ⟨stopped, (attached.silent stopped).2.1⟩

omit [Overlay τ ν] [Quantity τ] in
/-- A stop lets go of the engine, if that had not been let go of before. -/
theorem released (attached : Attached before) (leaves : Leaves before after) {engine : EngineId}
    (installed : before.session.engine = some engine) : Released after.journal engine := by
  rw [leaves.journal]
  rcases attached.heard engine installed with on | released
  · refine ⟨[], .called engine .abort false :: .called engine (.configure false 0) false ::
      ((if before.session.state = .running then [.called engine .saveState false] else []) ++
        [.moved before.session.state .stopping]) ++ before.journal, ?_, by simp⟩
    simp only [leaving, installed, Option.elim_some, on, if_true]
    split <;> simp
  · refine released.append _ fun failed member => ?_
    rw [List.mem_reverse, leaving, installed, Option.elim_some, List.mem_cons] at member
    rcases member with same | member
    · cases same
    · split at member <;> split at member <;> simp at member

end Attached

include obedient

theorem Attached.leave {before : World τ ν} (attached : Attached before) : Attached before.leave.2 := by
  obtain ⟨shut, left, leaves⟩ := leave_obeyed obedient before
  rw [left]
  refine ⟨fun engine installed => .inr (attached.released leaves ?_), fun _ => ?_, fun stopped => ?_⟩
  · rwa [leaves.session] at installed
  · rw [leaves.correlator]
  · rw [leaves.session] at stopped
    cases stopped

/-- An engine that obeys is heard once it is installed. -/
theorem attached_install (engine : EngineId) (world : World τ ν) : Attached (world.install engine).2 := by
  obtain ⟨_, heard, asked, tells⟩ := tells_ask obedient engine (.setHandler true) rfl (by simp)
    ((world.installed engine).hear true)
  have installed : world.install engine = (.ok (), heard.moveTo .bootstrapping) := by
    rw [install_eq, show (world.installed engine).startCorrelator engine = _ from asked]
  rw [installed]
  refine .of_heard (fun _ _ => .inl ?_) (by simp [moveTo])
  exact congrArg (·.running) tells.correlator

omit obedient [Quantity τ] [Overlay τ ν] in
theorem Attached.close {before : World τ ν} (attached : Attached before) : Attached before.closed := by
  refine ⟨by simp [World.closed], by simp [World.closed, moveTo], fun _ => ⟨rfl, rfl, ?_⟩⟩
  by_cases timely : Overtaken before.closed.journal
  · exact .inr timely
  · rcases state_of_closed timely with stopping | stopped
    · exact .inl (attached.deaf stopping)
    · exact (attached.silent stopped).2.2.imp_right fun late => late.of_suffix (List.suffix_cons _ _)

theorem Turn.attached {before after : World τ ν} (turn : Turn before after)
    (attached : Attached before) : Attached after := by
  have moved (state : SessionState) (engine : EngineId) (released : Released before.journal engine) :
      Released (.moved before.session.state state :: before.journal) engine :=
    released.append [.moved before.session.state state] (by simp)
  cases turn with
  | idle idle same => exact attached.around idle.around fun _ released => same ▸ released
  | deliver alert =>
    refine attached.around (Idle.deliver alert before).around fun engine released => ?_
    unfold World.deliver
    split
    · exact released.append [.accepted alert before.clock] (by simp)
    · exact released
  | @call engine call failed _ upkeep other =>
    refine attached.around (Idle.called engine failed before upkeep).around fun target released => ?_
    refine released.append [.called engine call failed] fun failed' member => other ?_
    exact (Occurrence.called.inj (List.mem_singleton.mp member)).2.1.symm
  | start =>
    cases down : Session.isUp before.session.state with
    | true => rwa [show Session.start before = before from if_pos down]
    | false =>
      rw [start_eq down]
      exact .of_heard (fun engine installed => (attached.heard engine installed).imp_right (moved _ engine))
        (by simp)
  | leave => exact attached.leave obedient
  | close => exact attached.close
  | tasks => exact ⟨attached.heard, attached.deaf, attached.silent⟩
  | build engine =>
    have kept (target : EngineId) (released : Released before.journal target) :
        Released (.built engine :: before.journal) target :=
      released.append [.built engine] (by simp)
    exact ⟨fun target installed => (attached.heard target installed).imp_right (kept target),
      attached.deaf, fun stopped => ⟨(attached.silent stopped).1, (attached.silent stopped).2.1,
        (attached.silent stopped).2.2.imp_right fun late => late.of_suffix (List.suffix_cons _ _)⟩⟩
  | install engine => exact attached_install obedient engine before
  | run =>
    exact .of_heard (fun engine installed => (attached.heard engine installed).imp_right (moved _ engine))
      (by simp [ready, moveTo])
  | fail =>
    exact .of_heard (fun engine installed => (attached.heard engine installed).imp_right (moved _ engine))
      (by simp [failed, moveTo])

theorem Turns.attached {before after : World τ ν} (turns : Turns before after)
    (attached : Attached before) : Attached after := by
  induction turns with
  | refl => exact attached
  | tail _ turn ih => exact turn.attached obedient ih

/-! ### What is made up of turns -/

omit obedient

/-- Whether one world comes of another by turns, if nothing is due there that stops the correlator alone;
then nothing is so afterwards. -/
def Goes (before after : World τ ν) : Prop :=
  (∀ pending ∈ before.queue, pending.event ≠ .halt) →
    (∀ pending ∈ after.queue, pending.event ≠ .halt) ∧ Turns before after

namespace Goes

theorem refl (world : World τ ν) : Goes world world := fun unhalted => ⟨unhalted, .refl⟩

theorem trans {first second third : World τ ν} (left : Goes first second) (right : Goes second third) :
    Goes first third := by
  intro unhalted
  obtain ⟨unhalted, early⟩ := left unhalted
  obtain ⟨unhalted, late⟩ := right unhalted
  exact ⟨unhalted, ReflTransGen.trans early late⟩

instance : Std.Refl (Goes (τ := τ) (ν := ν)) := ⟨refl⟩

instance : IsTrans (World τ ν) Goes := ⟨fun _ _ _ => trans⟩

variable {before after world : World τ ν}

theorem of_same (turn : Turn before after) (queue : after.queue = before.queue) : Goes before after :=
  fun unhalted => ⟨queue ▸ unhalted, .single turn⟩

theorem idle (idle : Idle before after) (same : after.journal = before.journal) : Goes before after :=
  fun unhalted => ⟨idle.around.unhalted unhalted, .single (.idle idle same)⟩

theorem deliver (alert : Alert) (world : World τ ν) : Goes world (world.deliver alert) :=
  fun unhalted => ⟨(Idle.deliver alert world).around.unhalted unhalted, .single (.deliver alert world)⟩

theorem react {α : Type} (engine : EngineId) (reaction : Reaction τ ν α) (world : World τ ν) :
    Goes world (world.react engine reaction) := by
  have scheduled (alerts : List (τ × Alert)) (start : World τ ν) :
      Goes start (alerts.foldl
        (fun world entry => world.schedule entry.1 (.emission engine entry.2)) start) := by
    induction alerts generalizing start with
    | nil => exact .refl start
    | cons alert rest ih => exact (idle (.schedule alert.1 start (by simp)) rfl).trans (ih _)
  exact (idle (.overlay reaction.overlay world) rfl).trans (scheduled reaction.alerts _)

theorem ask (engine : EngineId) {call : EngineCall} (upkeep : call.isUpkeep = true)
    (other : call ≠ .setHandler true) (world : World τ ν) : Goes world (world.ask engine call).2 :=
  trans (of_same (.call engine _ world upkeep other) rfl) (react engine _ _)

theorem saveState (world : World τ ν) : Goes world world.saveState.2 := by
  unfold World.saveState
  split
  · exact .refl world
  · next engine _ =>
    have asked : Goes world (world.ask engine .saveState).2 := ask engine rfl (by simp) world
    split
    · next step => rwa [step] at asked
    · next step =>
      rw [step] at asked
      split <;> exact asked.trans (idle (.disk _ _) rfl)

theorem leave (due : ¬ (world.session.state = .stopped ∧ world.session.task = none)) :
    Goes world world.leave.2 := by
  intro unhalted
  obtain ⟨shut, after, tidied, -, silenced, ending⟩ := leave_cases world
  obtain ⟨tasks, -, requested⟩ := (world.moveTo .stopping).requestStop_eq
  rw [requested] at tidied
  have unhalted : ∀ pending ∈ after.queue, pending.event ≠ .halt :=
    silenced.around.unhalted (tidied.around.unhalted unhalted)
  refine ⟨?_, .single (.leave due)⟩
  rcases ending with left | ⟨fault, left⟩ <;> rw [left]
  · obtain ⟨tasks, -, joined⟩ := after.joinTask_eq
    rw [joined]
    exact unhalted
  · exact unhalted

theorem stop (world : World τ ν) : Goes world world.stop.2 :=
  stopBy_keeps leave (fun world => of_same (.close world) rfl)
    fun _ world => idle (.schedule _ world (by simp)) rfl

theorem start (world : World τ ν) : Goes world (Session.start world) := by
  cases down : Session.isUp world.session.state with
  | true =>
    rw [show Session.start world = world from if_pos down]
    exact .refl world
  | false =>
    refine of_same (.start world) ?_
    rw [start_eq down]
    rfl

theorem consult (engine : EngineId) {call : EngineCall} (upkeep : call.isUpkeep = true)
    (other : call ≠ .setHandler true) (world : World τ ν) : Goes world (world.consult engine call).2 :=
  (ask engine upkeep other world).trans (afterStop_keeps stop start _ _ _ _)

theorem perform {event : Event ν} (other : event ≠ .halt) (world : World τ ν) :
    Goes world (world.perform event) := by
  cases event with
  | alert alert => exact deliver alert world
  | emission engine alert =>
    simp only [World.perform]
    split
    · exact deliver alert world
    · exact .refl world
  | announcement alert =>
    simp only [World.perform]
    split
    · exact .refl world
    · exact idle (.schedule _ world (by simp)) rfl
  | start => exact start world
  | stop => exact stop world
  | close => exact of_same (.close world) rfl
  | halt => exact absurd rfl other
  | overlay change => exact idle (.overlay _ world) rfl
  | readiness change => exact idle (.readiness _ world) rfl

theorem asked (world : World τ ν) : Goes world world.asked :=
  (react (world.engines + 1) _ world).trans (afterStop_keeps stop start _ _ _ _)

theorem build (world : World τ ν) : Goes world world.build.2 := by
  rcases build_eq world with ⟨fault, build⟩ | build | build <;> rw [build]
  · exact asked world
  · exact asked world
  · exact (asked world).trans (of_same (.build _ _) rfl)

theorem install (engine : EngineId) (world : World τ ν) : Goes world (world.install engine).2 := by
  intro unhalted
  refine ⟨?_, .single (.install engine world)⟩
  have listened : Idles ((world.installed engine).hear true)
      ((world.installed engine).startCorrelator engine).2 := idles_ask engine rfl _
  have unhalted := listened.around.unhalted unhalted
  rw [install_eq]
  split <;> next step => rwa [step] at unhalted

end Goes

/-- All that tasks and callers do is made up of turns. -/
theorem ongoing_goes : Ongoing (Goes (τ := τ) (ν := ν)) where
  checks engine world _ := .consult engine rfl (by simp) world
  loads engine blob world _ := .consult engine rfl (by simp) world
  saves := .saveState
  joins world := .idle (.joined world) rfl
  advances time world := .idle (.advance time world) rfl
  givesUp world := .idle (.giveUp world) rfl
  performs world next rest queue := by
    intro unhalted
    have taken : Goes world ({ world with queue := rest }.advance next.time) :=
      (Goes.idle (.dequeue queue) rfl).trans (.idle (.advance next.time _) rfl)
    have other := unhalted next (by rw [queue]; exact List.mem_cons_self)
    exact taken.trans (.perform other _) unhalted
  builds := .build
  installs := .install
  readies world := .of_same (.run world) rfl
  fails reason world := .of_same (.fail reason world) rfl
  aborts engine world := .ask engine rfl (by simp) world
  modifies id change world _ := .of_same (.tasks _ world) rfl

end

end World

end DhtRecords
