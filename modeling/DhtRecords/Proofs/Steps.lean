/-
The steps of a session.

What happens to a session is made up of steps that are taken at one go: those of
callers, who start and stop it, those of its background tasks, and whatever goes
on around it and leaves it alone (`Idle`). `Step` lists them, each with the task
whose step it is, if it is one's.

`Consistent` and `Lawful` say what is to hold at every moment and of every step.
`Sound` is the invariant behind them. It holds whenever no operation of the
session is in progress, and a course of steps that begins in a sound world and
`Leads` to another one keeps the laws on the way.
-/

import DhtRecords.Lifecycle
import DhtRecords.Proofs.Programs
import Mathlib.Logic.Relation

namespace DhtRecords

variable {τ ν : Type}

/-- The engine that was built, if it is that what has happened. -/
def Occurrence.built? : Occurrence τ → Option EngineId
  | .built engine => some engine
  | _ => none

/-- Whether it is a change of a session: an engine was built, or the state has changed. -/
def Occurrence.isChange : Occurrence τ → Bool
  | .built _ => true
  | .moved _ _ => true
  | _ => false

/-- Whether it is that an engine was told to end. -/
def Occurrence.aborts (engine : EngineId) : Occurrence τ → Bool
  | .called told .abort _ => told == engine
  | _ => false

/-- Whether it is that a stop came to its end in a session that was neither stopping nor stopped. -/
def Occurrence.overtakes : Occurrence τ → Bool
  | .moved state .stopped => state ≠ .stopping && state ≠ .stopped
  | _ => false

/-- Whether a call keeps an engine going: it neither looks an item up nor puts one. -/
def EngineCall.isUpkeep : EngineCall → Bool
  | .lookup _ _ => false
  | .put _ _ _ => false
  | _ => true

/-- Whether a task has not finished and is not asked to stop. -/
def Task.isLive (task : Task τ) : Bool := task.phase ≠ .finished && !task.stopRequested

/-- The ways in which a session may go from one state to another. -/
inductive SessionState.MayBecome : SessionState → SessionState → Prop
  | start : MayBecome .stopped .starting
  | install : MayBecome .starting .bootstrapping
  | run : MayBecome .bootstrapping .running
  | fail {state : SessionState} : Session.isUp state = true → MayBecome state .error
  | restart : MayBecome .error .starting
  | stop {state : SessionState} : state ≠ .stopped → MayBecome state .stopping
  | close : MayBecome .stopping .stopped

theorem Correlator.running_receive (correlator : Correlator τ) (moment : τ) (alert : Alert) :
    (correlator.receive moment alert).running = correlator.running := by
  unfold Correlator.receive
  split
  · cases alert <;> rfl
  · rfl

namespace World

/-! ### Steps -/

/-- The session has failed for a reason. -/
def failed (reason : String) (world : World τ ν) : World τ ν :=
  { world with session := { world.session with lastError := reason } }.moveTo .error

/-- The session is running, and those who wait for that are told. -/
def ready (world : World τ ν) : World τ ν :=
  let world := world.moveTo .running
  { world with session := { world.session with signalled := true } }

/-- The world with a correlator that takes alerts, or drops them. -/
def hear (running : Bool) (world : World τ ν) : World τ ν :=
  { world with correlator := { world.correlator with running } }

/-- The world after an engine was built. -/
def built (engine : EngineId) (world : World τ ν) : World τ ν :=
  { world.note (.built engine) with engines := engine }

/-- The session has got an engine. -/
def installed (engine : EngineId) (world : World τ ν) : World τ ν :=
  { world with session := { world.session with engine := some engine } }

/-- Whether a task is at work. -/
def IsAtWork (world : World τ ν) (id : TaskId) : Prop :=
  ∃ task, world.tasks[id]? = some task ∧ task.phase = .active

/-- Whether a task is at work and not asked to stop. -/
structure IsFree (world : World τ ν) (id : TaskId) : Prop where
  atWork : world.IsAtWork id
  unasked : world.isStopRequested id = false

section

variable [Quantity τ]

/-- What goes on around a session and leaves its state, its engine and its tasks alone. -/
inductive Idle : World τ ν → World τ ν → Prop
  | advance (time : τ) (world : World τ ν) : Idle world (world.advance time)
  | dequeue {world : World τ ν} {next : Pending τ ν} {rest : List (Pending τ ν)} :
      world.queue = next :: rest → Idle world { world with queue := rest }
  | schedule (delay : τ) {event : Event ν} (world : World τ ν) :
      event ≠ .halt → Idle world (world.schedule delay event)
  | overlay (overlay : ν) (world : World τ ν) : Idle world { world with overlay }
  | readiness (readiness : Option Readiness) (world : World τ ν) : Idle world { world with readiness }
  | disk (disk : Disk (ItemTable τ)) (world : World τ ν) : Idle world { world with disk }
  | called (engine : EngineId) {call : EngineCall} (failed : Bool) (world : World τ ν) :
      call.isUpkeep = true → Idle world (world.note (.called engine call failed))
  | deliver (alert : Alert) (world : World τ ν) : Idle world (world.deliver alert)
  | joined (world : World τ ν) :
      Idle world { world with session := { world.session with bootstrapped := true } }
  | giveUp (world : World τ ν) : Idle world world.giveUp

variable [Overlay τ ν]

/-- One step, and the background task whose step it is, if it is one's. -/
inductive Step : Option TaskId → World τ ν → World τ ν → Prop
  | idle {before after : World τ ν} : Idle before after → Step none before after
  | start {world : World τ ν} :
      Session.isUp world.session.state = false → Step none world (Session.start world)
  | stop {world : World τ ν} :
      ¬ (world.session.state = .stopped ∧ world.session.task = none) →
      Step none world (world.moveTo .stopping).requestStop
  /-- The correlator stops. -/
  | silence (world : World τ ν) : Step none world (world.hear false)
  | join {world : World τ ν} : world.session.state = .stopping → Step none world world.joinTask
  /-- A stop comes to its end, which may be in any state of the session. -/
  | close (world : World τ ν) : Step none world world.closed
  /-- A task that waited is at work. -/
  | begin (id : TaskId) (world : World τ ν) :
      Step (some id) world (world.modifyTask id fun task => { task with phase := .active })
  | build {id : TaskId} {world : World τ ν} :
      world.IsAtWork id → Step (some id) world (world.built (world.engines + 1))
  | install (engine : EngineId) {id : TaskId} {world : World τ ν} :
      world.IsFree id → Step (some id) world (world.installed engine)
  /-- The correlator begins to take alerts. -/
  | listen {id : TaskId} {world : World τ ν} :
      world.IsFree id → Step (some id) world (world.hear true)
  | bootstrap {id : TaskId} {world : World τ ν} :
      world.IsFree id → Step (some id) world (world.moveTo .bootstrapping)
  | run {id : TaskId} {world : World τ ν} : world.IsFree id → Step (some id) world world.ready
  | fail (reason : String) {id : TaskId} {world : World τ ν} :
      world.IsFree id → Step (some id) world ((world.failed reason).finish id)
  | finish (id : TaskId) (world : World τ ν) : Step (some id) world (world.finish id)
  | park (id : TaskId) (phase : Phase) (interval : τ) (world : World τ ν) :
      Step (some id) world (world.park id phase interval)

end

/-! ### Around a session -/

theorem insertPending_perm [Quantity τ] (pending : Pending τ ν) (queue : List (Pending τ ν)) :
    (insertPending pending queue).Perm (pending :: queue) := by
  induction queue with
  | nil => exact .refl _
  | cons first rest ih =>
    unfold insertPending
    split
    · exact .refl _
    · exact (ih.cons first).trans (.swap pending first rest)

/-- Whether a journal has grown, but not by an engine that was built. -/
def Records (before after : List (Occurrence τ)) : Prop :=
  ∃ fresh, after = fresh ++ before ∧ ∀ engine, .built engine ∉ fresh

namespace Records

theorem refl (journal : List (Occurrence τ)) : Records journal journal :=
  ⟨[], rfl, fun _ => List.not_mem_nil⟩

theorem trans {first second third : List (Occurrence τ)} (left : Records first second)
    (right : Records second third) : Records first third := by
  obtain ⟨old, rfl, oldBuilt⟩ := left
  obtain ⟨new, rfl, newBuilt⟩ := right
  refine ⟨new ++ old, (List.append_assoc ..).symm, fun engine member => ?_⟩
  exact (List.mem_append.mp member).elim (newBuilt engine) (oldBuilt engine)

theorem cons {occurrence : Occurrence τ} (other : ∀ engine, occurrence ≠ .built engine)
    (journal : List (Occurrence τ)) : Records journal (occurrence :: journal) :=
  ⟨[occurrence], rfl, fun engine member => other engine (List.mem_singleton.mp member).symm⟩

end Records

/-- Whether a session is left alone from one world to another: it has no new engine, and what is due
besides is not that the correlator alone is stopped. -/
structure Around (before after : World τ ν) : Prop where
  session : after.session = { before.session with bootstrapped := after.session.bootstrapped }
  tasks : after.tasks = before.tasks
  listening : after.correlator.running = before.correlator.running
  queue : ∀ pending ∈ after.queue, pending ∈ before.queue ∨ pending.event ≠ .halt
  engines : after.engines = before.engines
  journal : Records before.journal after.journal

namespace Around

theorem refl (world : World τ ν) : Around world world :=
  ⟨rfl, rfl, rfl, fun _ member => .inl member, rfl, .refl _⟩

theorem trans {first second third : World τ ν} (left : Around first second)
    (right : Around second third) : Around first third := by
  refine ⟨?_, right.tasks.trans left.tasks, right.listening.trans left.listening, ?_,
    right.engines.trans left.engines, left.journal.trans right.journal⟩
  · rw [right.session, left.session]
  · intro pending member
    rcases right.queue pending member with member | other
    · exact left.queue pending member
    · exact .inr other

variable {before after : World τ ν}

/-- The session is the same but for having joined the overlay. -/
theorem same (around : Around before after) :
    after.session.state = before.session.state ∧ after.session.engine = before.session.engine ∧
      after.session.task = before.session.task ∧
      after.session.signalled = before.session.signalled := by
  rw [around.session]
  exact ⟨rfl, rfl, rfl, rfl⟩

theorem unhalted (around : Around before after)
    (unhalted : ∀ pending ∈ before.queue, pending.event ≠ .halt) :
    ∀ pending ∈ after.queue, pending.event ≠ .halt := by
  intro pending member
  exact (around.queue pending member).elim (unhalted pending) id

end Around

theorem Idle.around [Quantity τ] {before after : World τ ν} (idle : Idle before after) :
    Around before after := by
  cases idle with
  | dequeue queue =>
    refine { Around.refl before with queue := ?_ }
    intro pending member
    exact .inl (by rw [queue]; exact List.mem_cons_of_mem _ member)
  | schedule delay _ other =>
    refine { Around.refl before with queue := ?_ }
    intro pending member
    rcases List.mem_cons.mp ((insertPending_perm _ _).mem_iff.mp member) with rfl | member
    · exact .inr other
    · exact .inl member
  | called engine failed upkeep =>
    exact { Around.refl before with journal := .cons (by simp) _ }
  | deliver alert =>
    have listening := before.correlator.running_receive before.clock alert
    unfold World.deliver
    split
    · exact { Around.refl before with listening := listening, journal := .cons (by simp) _ }
    · exact { Around.refl before with listening := listening }
  | joined => exact { Around.refl before with session := rfl }
  | _ => exact { Around.refl before with }

/-- What goes on around a session for a while. -/
abbrev Idles [Quantity τ] : World τ ν → World τ ν → Prop := Relation.ReflTransGen Idle

theorem Idles.around [Quantity τ] {before after : World τ ν} (idles : Idles before after) :
    Around before after := by
  induction idles with
  | refl => exact .refl before
  | tail _ idle ih => exact ih.trans idle.around

section

variable [Quantity τ]

theorem idles_react {α : Type} (engine : EngineId) (reaction : Reaction τ ν α) (world : World τ ν) :
    Idles world (world.react engine reaction) := by
  have scheduled (alerts : List (τ × Alert)) (start : World τ ν) :
      Idles start (alerts.foldl
        (fun world entry => world.schedule entry.1 (.emission engine entry.2)) start) := by
    induction alerts generalizing start with
    | nil => exact .refl
    | cons alert rest ih => exact .head (.schedule alert.1 start (by simp)) (ih _)
  exact .head (.overlay reaction.overlay world) (scheduled reaction.alerts _)

theorem journal_react {α : Type} (engine : EngineId) (reaction : Reaction τ ν α)
    (world : World τ ν) : (world.react engine reaction).journal = world.journal := by
  have scheduled (alerts : List (τ × Alert)) (start : World τ ν) :
      (alerts.foldl (fun world entry => world.schedule entry.1 (.emission engine entry.2))
        start).journal = start.journal := by
    induction alerts generalizing start with
    | nil => rfl
    | cons alert rest ih => exact ih _
  exact scheduled reaction.alerts _

variable [Overlay τ ν]

theorem idles_ask (engine : EngineId) {call : EngineCall} (upkeep : call.isUpkeep = true)
    (world : World τ ν) : Idles world (world.ask engine call).2 :=
  .head (.called engine _ world upkeep) (idles_react engine _ _)

/-- A call is noted, and whether it has failed. -/
theorem journal_ask (engine : EngineId) (call : EngineCall) (world : World τ ν) :
    (world.ask engine call).2.journal
      = .called engine call (isFailure (world.ask engine call).1) :: world.journal :=
  journal_react engine _ _

theorem idles_saveState (world : World τ ν) : Idles world world.saveState.2 := by
  unfold saveState
  split
  · exact .refl
  · next engine _ =>
    have asked : Idles world (world.ask engine .saveState).2 := idles_ask engine rfl world
    split
    · next step => rwa [step] at asked
    · next step =>
      rw [step] at asked
      split
      · exact asked.tail (.disk _ _)
      · exact asked.tail (.disk _ _)

theorem idles_shutDown (engine : EngineId) (world : World τ ν) :
    Idles world (world.shutDown engine) := by
  have configured : Idles world (world.ask engine (.configure false 0)).2 :=
    idles_ask engine rfl world
  unfold shutDown
  split
  · next step => rwa [step] at configured
  · next step =>
    rw [step] at configured
    exact configured.trans (idles_ask engine rfl _)

end

/-! ### Laws -/

/-- Whether a task is live. -/
def IsLive (world : World τ ν) (id : TaskId) : Prop :=
  ∃ task, world.tasks[id]? = some task ∧ task.isLive = true

/-- Whether a session is in order: it has at most one live task, an engine that is heard whenever it is
bootstrapping or running, and neither when it is stopped. -/
structure Consistent (world : World τ ν) : Prop where
  single : ∀ first second, world.IsLive first → world.IsLive second → first = second
  served : world.session.state = .bootstrapping ∨ world.session.state = .running →
    world.session.engine ≠ none ∧ world.correlator.running = true
  silent : world.session.state = .stopped →
    world.session.engine = none ∧ world.correlator.running = false

/-- Whether a session is started before a stop of it has come to its end. -/
def Rushes (before after : World τ ν) : Prop :=
  before.session.state = .stopping ∧ after.session.state = .starting

/-- Whether a step keeps the laws: the state changes as it may, unless the session is started too early,
and the session stays in order. -/
structure Lawful (before after : World τ ν) : Prop where
  moves : after.session.state = before.session.state ∨
    before.session.state.MayBecome after.session.state ∨ Rushes before after
  consistent : before.Consistent → after.Consistent

/-- Whether the session's state, its engine and what is said of its failure stay the same. -/
structure Stays (before after : World τ ν) : Prop where
  state : after.session.state = before.session.state
  lastError : after.session.lastError = before.session.lastError
  engine : after.session.engine = before.session.engine

/-! ### Tasks -/

theorem getElem?_modifyTask (id : TaskId) (change : Task τ → Task τ) (world : World τ ν)
    (other : TaskId) :
    (world.modifyTask id change).tasks[other]? =
      (world.tasks[other]?).map fun task => if id = other then change task else task := by
  simp only [modifyTask, List.getElem?_modify]
  rfl

theorem IsLive.of_tasks {before after : World τ ν} (tasks : after.tasks = before.tasks) {id : TaskId}
    (live : after.IsLive id) : before.IsLive id := by
  obtain ⟨task, found, live⟩ := live
  exact ⟨task, by rwa [tasks] at found, live⟩

/-- A change that makes no task live makes none live. -/
theorem IsLive.of_modifyTask {world : World τ ν} {id other : TaskId} {change : Task τ → Task τ}
    (tame : ∀ task, world.tasks[id]? = some task → (change task).isLive = true → task.isLive = true)
    (live : (world.modifyTask id change).IsLive other) : world.IsLive other := by
  obtain ⟨task, found, live⟩ := live
  rw [getElem?_modifyTask] at found
  obtain ⟨old, place, rfl⟩ := Option.map_eq_some_iff.mp found
  refine ⟨old, place, ?_⟩
  split at live
  · next same =>
    subst same
    exact tame old place live
  · exact live

/-! ### What steps leave alone -/

/-- A session that is not up gets a new task when it is started. -/
theorem start_eq {world : World τ ν} (down : Session.isUp world.session.state = false) :
    Session.start world = { world.note (.moved world.session.state .starting) with
      session := { world.session with
        state := .starting, lastError := "", signalled := false, task := some world.tasks.length }
      tasks := world.tasks ++ [{ wake := world.clock }] } :=
  if_neg (ne_true_of_eq_false down)

/-- Asking a task to stop changes nothing but that task. -/
theorem requestStop_eq (world : World τ ν) : ∃ tasks, tasks.length = world.tasks.length ∧
    world.requestStop = { world with tasks } := by
  unfold requestStop
  split
  · exact ⟨_, List.length_modify .., rfl⟩
  · exact ⟨_, rfl, rfl⟩

theorem joinTask_eq [Overlay τ ν] (world : World τ ν) : ∃ tasks, tasks.length = world.tasks.length ∧
    world.joinTask = { world with tasks } := by
  unfold joinTask
  split
  · split
    · exact ⟨_, rfl, rfl⟩
    · exact ⟨_, List.length_modify .., rfl⟩
  · exact ⟨_, rfl, rfl⟩

theorem isStopRequested_modifyTask {id other : TaskId} {change : Task τ → Task τ} {world : World τ ν}
    (keeps : ∀ task, task.stopRequested = true → (change task).stopRequested = true)
    (asked : world.isStopRequested id = true) :
    (world.modifyTask other change).isStopRequested id = true := by
  obtain ⟨task, found, asked⟩ := (Option.any_eq_true _ _).mp asked
  rw [isStopRequested, getElem?_modifyTask, found, Option.map_some, Option.any_some]
  split
  · exact keeps task asked
  · exact asked

/-- A task that is asked to stop stays so. -/
theorem Step.isStopRequested [Quantity τ] [Overlay τ ν] {actor : Option TaskId} {before after : World τ ν}
    (step : Step actor before after) {id : TaskId} (asked : before.isStopRequested id = true) :
    after.isStopRequested id = true := by
  cases step with
  | idle idle =>
    rw [World.isStopRequested, idle.around.tasks]
    exact asked
  | start down =>
    obtain ⟨task, found, asked⟩ := (Option.any_eq_true _ _).mp asked
    rw [start_eq down, World.isStopRequested,
      List.getElem?_append_left (List.getElem?_eq_some_iff.mp found).1, found]
    exact asked
  | stop =>
    unfold requestStop
    split
    · exact isStopRequested_modifyTask (fun _ _ => rfl) asked
    · exact asked
  | join =>
    unfold joinTask
    split
    · split
      · exact asked
      · refine isStopRequested_modifyTask (fun task asked => ?_) asked
        split <;> exact asked
    · exact asked
  | begin | finish => exact isStopRequested_modifyTask (fun _ asked => asked) asked
  | fail => exact isStopRequested_modifyTask (fun _ asked => asked) asked
  | park =>
    refine isStopRequested_modifyTask (fun task asked => ?_) asked
    split <;> exact asked
  | _ => exact asked

/-- No step of a task that is asked to stop changes the session. -/
theorem Step.stays [Quantity τ] [Overlay τ ν] {id : TaskId} {before after : World τ ν}
    (step : Step (some id) before after) (asked : before.isStopRequested id = true) :
    Stays before after := by
  have bound (free : before.IsFree id) : False := by simp [free.unasked] at asked
  cases step with
  | install _ free | listen free | bootstrap free | run free | fail _ free => exact (bound free).elim
  | begin | build | finish | park => exact ⟨rfl, rfl, rfl⟩

/-- Whether no more than the session, tasks, the number of engines and whether the correlator is running
have changed, and no more than such changes were noted. -/
def Alters (before after : World τ ν) : Prop :=
  ∃ session tasks engines running noted, after = { before with
      session, tasks, engines, correlator := { before.correlator with running }
      journal := noted ++ before.journal } ∧
    ∀ occurrence ∈ noted, occurrence.isChange = true

theorem Step.apart [Quantity τ] [Overlay τ ν] {actor : Option TaskId} {before after : World τ ν}
    (step : Step actor before after) : Idle before after ∨ Alters before after := by
  cases step with
  | idle idle => exact .inl idle
  | start down =>
    rw [start_eq down]
    exact .inr ⟨_, _, _, _, [.moved before.session.state .starting], rfl, by simp [Occurrence.isChange]⟩
  | stop =>
    obtain ⟨tasks, -, requested⟩ := (before.moveTo .stopping).requestStop_eq
    rw [requested]
    exact .inr ⟨_, _, _, _, [.moved before.session.state .stopping], rfl, by simp [Occurrence.isChange]⟩
  | join =>
    obtain ⟨tasks, -, joined⟩ := before.joinTask_eq
    rw [joined]
    exact .inr ⟨_, _, _, _, [], rfl, nofun⟩
  | close =>
    exact .inr ⟨_, _, _, _, [.moved before.session.state .stopped], rfl, by simp [Occurrence.isChange]⟩
  | build => exact .inr ⟨_, _, _, _, [.built (before.engines + 1)], rfl, by simp [Occurrence.isChange]⟩
  | bootstrap =>
    exact .inr ⟨_, _, _, _, [.moved before.session.state .bootstrapping], rfl,
      by simp [Occurrence.isChange]⟩
  | run =>
    exact .inr ⟨_, _, _, _, [.moved before.session.state .running], rfl, by simp [Occurrence.isChange]⟩
  | fail =>
    exact .inr ⟨_, _, _, _, [.moved before.session.state .error], rfl, by simp [Occurrence.isChange]⟩
  | _ => exact .inr ⟨_, _, _, _, [], rfl, nofun⟩

end World

end DhtRecords
