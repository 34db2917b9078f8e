/-
What a task does that is stopped in the course of its work.

A task that goes on may be stopped while it waits for the bootstrap, while it
asks its engine whether that is running or gives it its state, and while it gets
an engine. Until then its session is its own and is up (`Undisturbed`). If the stop
comes to its end at once, the task finds neither an engine nor a correlator that
takes alerts from then on, and leaves what the stop has left (`Disturbed`): it ends
an engine that comes too late, and that is all, but for one thing. If it goes on to
wait for a bootstrap, one that was noted since it has gone to work counts
(`Rests`). If the stop waits, then it is for the task, which has ended by the time
(`Astray`). A task goes through these in this order, whatever it does (`toiling_bears`).
-/

import DhtRecords.Proofs.Closing

namespace DhtRecords

open Relation (ReflTransGen)

variable {τ ν : Type}

/-- Whether it is that a session begins to stop. -/
def Occurrence.isStop : Occurrence τ → Bool
  | .moved _ .stopping => true
  | _ => false

namespace World

/-! ### Being stopped -/

/-- How often a session has begun to stop. -/
def stopCount (world : World τ ν) : Nat := world.journal.countP Occurrence.isStop

/-- Whether a task has finished. -/
def HasFinished (world : World τ ν) (id : TaskId) : Prop :=
  ∃ task, world.tasks[id]? = some task ∧ task.phase = .finished

/-- Whether nothing that was noted was taken back, and no request to stop, either. -/
structure Follows (before after : World τ ν) : Prop where
  suffix : before.journal <:+ after.journal
  asked : ∀ id, before.isStopRequested id = true → after.isStopRequested id = true

section

variable [Quantity τ] [Overlay τ ν]

theorem Course.follows {actors : Set (Option TaskId)} {condition : Prop} {before after : World τ ν}
    (course : Course actors condition before after) : Follows before after where
  suffix := course.suffix
  asked id := course.invariant (·.isStopRequested id = true) fun _ _ _ _ step => step.isStopRequested

/-- Installing an engine, which may not take its handler. -/
theorem install_cases (engine : EngineId) (world : World τ ν) :
    ∃ heard, Idles ((world.installed engine).hear true) heard ∧
      ((∃ fault, world.install engine = (.error fault, heard)) ∨
        world.install engine = (.ok (), heard.moveTo .bootstrapping)) := by
  refine ⟨((world.installed engine).startCorrelator engine).2, idles_ask engine rfl _, ?_⟩
  rw [install_eq]
  rcases (world.installed engine).startCorrelator engine with ⟨fault | _, heard⟩
  · exact .inl ⟨fault, rfl⟩
  · exact .inr rfl

theorem follows_install (engine : EngineId) (world : World τ ν) : Follows world (world.install engine).2 := by
  obtain ⟨heard, listened, ending⟩ := install_cases engine world
  have follows := (Meanwhile.of_idles listened).course.follows
  rcases ending with ⟨fault, installed⟩ | installed <;> rw [installed]
  · exact ⟨follows.suffix, follows.asked⟩
  · exact ⟨follows.suffix.trans (List.suffix_cons _ _), follows.asked⟩

/-- Whether a session has been left as it was, with its correlator and its files. An engine that was built
late was ended. The session may only be taken to have joined the overlay if it was before, or if the
correlator has noted that at or after one of some moments; a wait that was given up says nothing of it. -/
structure Rests (moments : List τ) (before after : World τ ν) : Prop where
  session : after.session = { before.session with bootstrapped := after.session.bootstrapped }
  correlator : after.correlator = before.correlator
  disk : after.disk = before.disk
  journal : after.journal = before.journal ∨
    ∃ engine, after.journal = .called engine .abort false :: .built engine :: before.journal
  joined : after.session.bootstrapped = true → before.session.bootstrapped = true ∨
    ∃ moment ∈ moments, (before.correlator.event? .bootstrap moment).isSome = true ∨ after.stalled = true

omit [Overlay τ ν] in
theorem Rests.refl {moments : List τ} (world : World τ ν) : Rests moments world world :=
  ⟨rfl, rfl, rfl, .inl rfl, .inl⟩

omit [Overlay τ ν] in
theorem Rests.of_same {moments : List τ} {before after last : World τ ν} (rests : Rests moments before after)
    (session : last.session = after.session) (correlator : last.correlator = after.correlator)
    (disk : last.disk = after.disk) (journal : last.journal = after.journal)
    (stalled : after.stalled = true → last.stalled = true) : Rests moments before last where
  session := by rw [session, ← rests.session]
  correlator := correlator.trans rests.correlator
  disk := disk.trans rests.disk
  journal := by rw [journal]; exact rests.journal
  joined joined := by
    rw [session] at joined
    exact (rests.joined joined).imp_right fun ⟨moment, member, noted⟩ =>
      ⟨moment, member, noted.imp_right stalled⟩

/-- Whether a session has just been stopped that was a task's until then, and at once; it may have been
started again. -/
def Halted (id : TaskId) (first world : World τ ν) : Prop :=
  ∃ middle, Turns first middle ∧ middle.session.task = some id ∧ middle.leave.1 = .ok none ∧
    (world = middle.stop.2 ∨ world = Session.start middle.stop.2)

/-- Whether a session has begun to stop that was a task's until then, and the stop has not come to its end
at once. -/
def Lingers (id : TaskId) (first : World τ ν) : Prop :=
  ∃ middle, Turns first middle ∧ middle.session.task = some id ∧ middle.leave.1 ≠ .ok none

/-- Whether a task that goes on from a first world finds its session as it has to be: it is its own, up,
and was not stopped. -/
structure Undisturbed (id : TaskId) (first world : World τ ν) : Prop where
  turns : Turns first world
  unhalted : ∀ pending ∈ world.queue, pending.event ≠ .halt
  unstopped : world.stopCount = first.stopCount
  own : world.session.task = some id
  up : Session.isUp world.session.state = true
  task : ∃ task, world.tasks[id]? = some task ∧ task.stopRequested = false

/-- Whether a task that goes on from a first world has been stopped, and its session left as that has left
it. No time has passed since, unless a wait was given up. -/
structure Disturbed (id : TaskId) (first world : World τ ν) : Prop where
  engine : world.session.engine = none
  deaf : world.correlator.running = false
  asked : world.isStopRequested id = true
  halted : ∃ halt, Halted id first halt ∧ Rests [first.clock, halt.clock] halt world ∧
    (world.clock = halt.clock ∨ world.stalled = true)

/-- Whether a stop that has begun before the session was started has come to its end, or one that has begun
since a task has gone to work does not come to its end before the task. -/
def Astray (id : TaskId) (first world : World τ ν) : Prop :=
  Overtaken world.journal ∨ Lingers id first ∧ world.isStopRequested id = true

/-- Whether a task that goes on is in one of these situations. -/
def Underway (id : TaskId) (first world : World τ ν) : Prop :=
  Undisturbed id first world ∨ Disturbed id first world ∨ Astray id first world

/-- What comes of a task that goes on: its session was not stopped, or rests after that; or the task has
ended before the stop. -/
def Concluded (id : TaskId) (first world : World τ ν) : Prop :=
  Overtaken world.journal ∨ world.stopCount = first.stopCount ∨
    (∃ halt, Halted id first halt ∧ Rests [first.clock, halt.clock] halt world) ∨
    Lingers id first ∧ world.HasFinished id

variable {id : TaskId} {first world : World τ ν}

theorem Astray.follow {after : World τ ν} (astray : Astray id first world) (follows : Follows world after) :
    Astray id first after :=
  astray.imp (·.of_suffix follows.suffix) fun ⟨lingers, asked⟩ => ⟨lingers, follows.asked id asked⟩

omit [Overlay τ ν] in
theorem Idle.stopCount {before after : World τ ν} (idle : Idle before after) :
    after.stopCount = before.stopCount := by
  cases idle with
  | deliver alert =>
    unfold World.deliver
    split <;> simp [World.stopCount, note, Occurrence.isStop]
  | called => simp [World.stopCount, note, Occurrence.isStop]
  | _ => rfl

omit [Overlay τ ν] in
theorem Idles.stopCount {before after : World τ ν} (idles : Idles before after) :
    after.stopCount = before.stopCount := by
  induction idles with
  | refl => rfl
  | tail _ idle ih => exact idle.stopCount.trans ih

/-- Whoever stops a session asks its task to stop. -/
theorem isStopRequested_stop {task : Task τ} (own : world.session.task = some id)
    (found : world.tasks[id]? = some task) : world.stop.2.isStopRequested id = true := by
  have asked : (world.moveTo .stopping).requestStop.isStopRequested id = true := by
    have found' : (world.moveTo .stopping).tasks[id]? = some task := found
    rw [isStopRequested, getElem?_requestStop, found']
    simp [moveTo, note, own]
  obtain ⟨shut, after, tidied, -, silenced, ending⟩ := leave_cases world
  have tasks : after.tasks = (world.moveTo .stopping).requestStop.tasks :=
    silenced.around.tasks.trans tidied.around.tasks
  have asked : world.leave.2.isStopRequested id = true := by
    rcases ending with left | ⟨fault, left⟩ <;> rw [left]
    · have state : after.session.state = .stopping := by
        have stopping := (left_of_leave world).1
        obtain ⟨tasks, -, joined⟩ := after.joinTask_eq
        rwa [left, joined] at stopping
      exact (Step.join state).isStopRequested (by rwa [isStopRequested, tasks])
    · rwa [isStopRequested, tasks]
  unfold stop stopBy
  rw [if_neg (by simp [own])]
  rcases leave : world.leave with ⟨failure | time, left⟩ <;> rw [leave] at asked
  · exact asked
  · cases time with
    | none => exact asked
    | some time => exact asked

/-! ### Undisturbed tasks -/

namespace Undisturbed

variable (undisturbed : Undisturbed id first world)

include undisturbed

theorem isStopRequested : world.isStopRequested id = false := by
  obtain ⟨task, found, unasked⟩ := undisturbed.task
  simp [World.isStopRequested, found, unasked]

theorem idles {after : World τ ν} (goes : Goes world after) (idles : Idles world after) :
    Undisturbed id first after := by
  have around := idles.around
  obtain ⟨state, -, own, -⟩ := around.same
  obtain ⟨unhalted, turns⟩ := goes undisturbed.unhalted
  exact {
    turns := undisturbed.turns.trans turns
    unhalted
    unstopped := idles.stopCount.trans undisturbed.unstopped
    own := own.trans undisturbed.own
    up := by rw [state]; exact undisturbed.up
    task := by rw [around.tasks]; exact undisturbed.task }

theorem idle {after : World τ ν} (idle : Idle world after) (same : after.journal = world.journal) :
    Undisturbed id first after :=
  undisturbed.idles (.idle idle same) (.single idle)

/-- A session that is stopped in the course of its task's work is disturbed from then on, unless the stop
takes time. -/
theorem halts {halt : World τ ν} (stopped : halt = world.stop.2 ∨ halt = Session.start world.stop.2) :
    Disturbed id first halt ∧ Halted id first halt ∧ halt.correlator.log = world.correlator.log ∨
      Astray id first halt := by
  obtain ⟨task, found, -⟩ := undisturbed.task
  have asked : halt.isStopRequested id = true := by
    have asked := isStopRequested_stop undisturbed.own found
    rcases stopped with rfl | rfl
    · exact asked
    · exact (meanwhile_start _).course.follows.asked id asked
  by_cases prompt : world.leave.1 = .ok none
  · have halted : Halted id first halt := ⟨world, undisturbed.turns, undisturbed.own, prompt, stopped⟩
    have log : halt.correlator.log = world.correlator.log := by
      rcases stopped with rfl | rfl
      · exact (retains_stop world).log
      · exact ((retains_stop world).trans (retains_start _)).log
    have ended : world.stop.2 = world.leave.2.closed := by
      unfold stop stopBy
      rw [if_neg (by simp [undisturbed.own])]
      rcases leave : world.leave with ⟨result, left⟩
      rw [leave] at prompt
      obtain rfl : result = .ok none := prompt
      rfl
    have off := (left_of_leave world).2
    rw [ended] at stopped
    refine .inl ⟨⟨?_, ?_, asked, halt, halted, .refl halt, .inl rfl⟩, halted, log⟩
    · rcases stopped with rfl | rfl
      · rfl
      · rw [start_eq rfl]
        rfl
    · rcases stopped with rfl | rfl
      · exact off
      · rw [start_eq rfl]
        exact off
  · exact .inr (.inr ⟨⟨world, undisturbed.turns, undisturbed.own, prompt⟩, asked⟩)

theorem installs (engine : EngineId) : Undisturbed id first (world.install engine).2 := by
  obtain ⟨unhalted, turns⟩ := Goes.install engine world undisturbed.unhalted
  obtain ⟨heard, listened, ending⟩ := install_cases engine world
  have around := listened.around
  have own : heard.session.task = some id := around.same.2.2.1.trans undisturbed.own
  have count : heard.stopCount = first.stopCount := listened.stopCount.trans undisturbed.unstopped
  have task : ∃ task, heard.tasks[id]? = some task ∧ task.stopRequested = false := by
    rw [around.tasks]
    exact undisturbed.task
  rcases ending with ⟨fault, installed⟩ | installed <;> rw [installed] at unhalted turns ⊢
  · exact ⟨undisturbed.turns.trans turns, unhalted, count, own,
      (congrArg Session.isUp around.same.1).trans undisturbed.up, task⟩
  · exact ⟨undisturbed.turns.trans turns, unhalted, count, own, rfl, task⟩

theorem readies : Undisturbed id first world.ready :=
  { undisturbed with turns := undisturbed.turns.tail (.run world), up := rfl }

theorem afterStop {α : Type} (stops restarts : Bool) (answer : Except EngineFault α) :
    Undisturbed id first (world.afterStop stops restarts answer).2 ∨
      (Disturbed id first (world.afterStop stops restarts answer).2 ∧
        Halted id first (world.afterStop stops restarts answer).2) ∨
      Astray id first (world.afterStop stops restarts answer).2 := by
  have ends {halt : World τ ν} (stopped : halt = world.stop.2 ∨ halt = Session.start world.stop.2) :
      (Disturbed id first halt ∧ Halted id first halt) ∨ Astray id first halt :=
    (undisturbed.halts stopped).imp_left fun ⟨disturbed, halted, _⟩ => ⟨disturbed, halted⟩
  rcases afterStop_cases stops restarts answer world with same | stopped | ⟨-, stopped⟩
  · rw [same]
    exact .inl undisturbed
  · exact .inr (ends (.inl stopped))
  · exact .inr (ends (.inr stopped))

/-- A session may be stopped in the course of a call of its engine. -/
theorem consult (engine : EngineId) {call : EngineCall} (upkeep : call.isUpkeep = true)
    (other : call ≠ .setHandler true) : Underway id first (world.consult engine call).2 :=
  ((undisturbed.idles (.ask engine upkeep other world) (idles_ask engine upkeep world)).afterStop
    _ _ _).imp_right (·.imp_left And.left)

/-! ### Waiting -/

/-- An event goes on around a session, or stops it. -/
theorem performs {event : Event ν} (other : event ≠ .halt) :
    Undisturbed id first (world.perform event) ∨ world.perform event = world.stop.2 ∨
      Astray id first (world.perform event) := by
  cases event with
  | alert alert => exact .inl (undisturbed.idles (.deliver alert world) (.single (.deliver alert world)))
  | emission engine alert =>
    simp only [perform]
    split
    · exact .inl (undisturbed.idles (.deliver alert world) (.single (.deliver alert world)))
    · exact .inl undisturbed
  | announcement alert =>
    simp only [perform]
    split
    · exact .inl undisturbed
    · exact .inl (undisturbed.idle (.schedule _ world (by simp)) rfl)
  | start =>
    rw [show world.perform .start = world from if_pos undisturbed.up]
    exact .inl undisturbed
  | stop => exact .inr (.inl rfl)
  | close =>
    -- A stop that had begun before the session was started comes to its end.
    refine .inr (.inr (.inl ?_))
    by_contra timely
    have up := undisturbed.up
    rcases state_of_closed timely with state | state <;> rw [state] at up <;> cases up
  | halt => exact absurd rfl other
  | overlay change => exact .inl (undisturbed.idle (.overlay _ world) rfl)
  | readiness change => exact .inl (undisturbed.idle (.readiness _ world) rfl)

end Undisturbed

/-- What a wait for the bootstrap ends with. -/
def joins (since : τ) (world : World τ ν) : Bool :=
  (world.correlator.event? .bootstrap since).isSome || !world.correlator.running

/-- Nobody waits for a bootstrap after a stop. -/
theorem waits_of_deaf (deaf : world.correlator.running = false) (fuel : Nat) (deadline since : τ) :
    world.runQueueFor fuel deadline (joins since) = world ∨
      world.runQueueFor fuel deadline (joins since) = (world.advance deadline).giveUp := by
  cases fuel with
  | zero => exact .inr rfl
  | succ fuel =>
    unfold runQueueFor
    exact .inl (if_pos (by simp [joins, deaf]))

theorem Disturbed.waits (disturbed : Disturbed id first world) (fuel : Nat) (deadline since : τ) :
    Disturbed id first (world.runQueueFor fuel deadline (joins since)) := by
  rcases waits_of_deaf disturbed.deaf fuel deadline since with same | same <;> rw [same]
  · exact disturbed
  · obtain ⟨engine, deaf, asked, halt, halted, rests, -⟩ := disturbed
    exact ⟨engine, deaf, asked, halt, halted, rests.of_same rfl rfl rfl rfl fun _ => rfl, .inr rfl⟩

/-- A stop ends the wait for the bootstrap, which then has not come. -/
theorem Undisturbed.waits (undisturbed : Undisturbed id first world) (fuel : Nat)
    (deadline since : τ) :
    Undisturbed id first (world.runQueueFor fuel deadline (joins since)) ∨
      (Disturbed id first (world.runQueueFor fuel deadline (joins since)) ∧
        (world.runQueueFor fuel deadline (joins since)).correlator.event? .bootstrap since = none) ∨
      Astray id first (world.runQueueFor fuel deadline (joins since)) := by
  have advanced (world : World τ ν) (undisturbed : Undisturbed id first world) :
      Undisturbed id first (world.advance deadline) := undisturbed.idle (.advance deadline world) rfl
  induction fuel generalizing world with
  | zero => exact .inl ((advanced world undisturbed).idle (.giveUp _) rfl)
  | succ fuel ih =>
    unfold runQueueFor
    split
    · exact .inl undisturbed
    · next waiting =>
      split
      · exact .inl (advanced world undisturbed)
      · next next rest queue =>
        split
        · exact .inl (advanced world undisturbed)
        · have taken := (undisturbed.idle (.dequeue queue) rfl).idle (.advance next.time _) rfl
          have other := undisturbed.unhalted next (by rw [queue]; exact List.mem_cons_self)
          have strays {world : World τ ν} (astray : Astray id first world) :
              Astray id first (world.runQueueFor fuel deadline (joins since)) :=
            astray.follow (meanwhile_runQueueFor fuel deadline (joins since) world).course.follows
          rcases taken.performs other with undisturbed' | stopped | astray
          · exact ih undisturbed'
          · rcases taken.halts (.inl stopped) with ⟨disturbed, -, log⟩ | astray
            · refine .inr (.inl ⟨disturbed.waits fuel deadline since, ?_⟩)
              have unjoined : world.correlator.event? .bootstrap since = none := by
                simpa [joins] using (Bool.or_eq_false_iff.mp (eq_false_of_ne_true waiting)).1
              rw [Correlator.event?] at unjoined ⊢
              rcases waits_of_deaf disturbed.deaf fuel deadline since with same | same <;> rw [same]
              · rwa [log]
              · exact (congrArg (List.find? _) log).trans unjoined
            · exact .inr (.inr (strays astray))
          · exact .inr (.inr (strays astray))

/-! ### What a task does -/

omit [Overlay τ ν] in
/-- A bootstrap is noted if it has come when the wait for it ends. -/
theorem bootstrap_run (waiter : Waiter τ ν) (since : Option τ) {world waited : World τ ν}
    (waits : world.wait waiter world.settings.bootstrapTimeout (joins (since.getD world.clock)) = waited) :
    (waited.correlator.event? .bootstrap (since.getD world.clock)).isSome = true ∧
        (Session.bootstrap waiter since).run world =
          (.ok true, { waited with session := { waited.session with bootstrapped := true } }) ∨
      (Session.bootstrap waiter since).run world = (.ok false, waited) := by
  subst waits
  unfold Session.bootstrap
  rw [Op.run_bind_ok (Op.run_get world), Op.run_bind_ok (Op.run_modify _ world),
    Op.run_bind_ok (Op.run_get _)]
  split
  · next logged => exact .inl ⟨logged, rfl⟩
  · exact .inr rfl

/-- A task's own wait for a bootstrap may be ended by a stop, and then there was none. -/
theorem Undisturbed.bootstraps (undisturbed : Undisturbed id first world) (since : Option τ) :
    Underway id first ((Session.bootstrap runQueue since).run world).2 := by
  let waited := world.wait runQueue world.settings.bootstrapTimeout (joins (since.getD world.clock))
  have waits : Undisturbed id first waited ∨ (Disturbed id first waited ∧
      waited.correlator.event? .bootstrap (since.getD world.clock) = none) ∨ Astray id first waited :=
    undisturbed.waits _ _ _
  have noted (waited : World τ ν) :
      Idle waited { waited with session := { waited.session with bootstrapped := true } } := .joined waited
  rcases bootstrap_run runQueue since (Eq.refl waited) with ⟨logged, run⟩ | run <;> rw [run] <;>
    rcases waits with undisturbed' | ⟨disturbed, unlogged⟩ | astray
  · exact .inl (undisturbed'.idle (noted waited) rfl)
  · rw [unlogged] at logged
    cases logged
  · exact .inr (.inr (astray.follow (Meanwhile.of_idles (.single (noted waited))).course.follows))
  · exact .inl undisturbed'
  · exact .inr (.inl disturbed)
  · exact .inr (.inr astray)

/-- A task that was stopped takes a bootstrap for its own that was noted since it has gone to work, or at
that moment. -/
theorem Disturbed.bootstraps (disturbed : Disturbed id first world) {since : Option τ}
    (own : since = none ∨ since = some first.clock) :
    Disturbed id first ((Session.bootstrap runQueue since).run world).2 := by
  obtain ⟨engine, deaf, asked, halt, halted, rests, passed⟩ := disturbed
  have joined {waited : World τ ν} (same : waited = world ∨ waited.stalled = true)
      (logged : (waited.correlator.event? .bootstrap (since.getD world.clock)).isSome = true)
      (kept : waited.correlator = world.correlator) : ∃ moment ∈ [first.clock, halt.clock],
        (halt.correlator.event? .bootstrap moment).isSome = true ∨ waited.stalled = true := by
    rcases same with rfl | stalled
    · rw [kept, rests.correlator] at logged
      rcases own with rfl | rfl
      · rcases passed with clock | stalled
        · exact ⟨halt.clock, by simp, .inl (by rwa [Option.getD_none, clock] at logged)⟩
        · exact ⟨halt.clock, by simp, .inr stalled⟩
      · exact ⟨first.clock, by simp, .inl logged⟩
    · exact ⟨first.clock, by simp, .inr stalled⟩
  rcases bootstrap_run runQueue since (Eq.refl (world.wait runQueue _ _)) with ⟨logged, run⟩ | run <;>
    rw [run] <;>
    rcases waits_of_deaf deaf world.patience (Quantity.add world.clock
      (Quantity.later Quantity.zero world.settings.bootstrapTimeout)) (since.getD world.clock) with
      same | same <;>
    rw [show world.wait runQueue _ _ = _ from same] at *
  · refine ⟨engine, deaf, asked, halt, halted, { rests with
      session := congrArg (fun session => { session with bootstrapped := true }) rests.session
      joined := fun _ => .inr (@joined world (.inl rfl) logged rfl) }, passed⟩
  · refine ⟨engine, deaf, asked, halt, halted, { rests with
      session := congrArg (fun session => { session with bootstrapped := true }) rests.session
      joined := fun _ => .inr (joined (.inr rfl) logged rfl) }, .inr rfl⟩
  · exact ⟨engine, deaf, asked, halt, halted, rests, passed⟩
  · exact ⟨engine, deaf, asked, halt, halted, rests.of_same rfl rfl rfl rfl fun _ => rfl, .inr rfl⟩

/-- What a task that is underway is in after it was in one of these situations. -/
def Bears (id : TaskId) (first before after : World τ ν) : Prop :=
  Underway id first before → Underway id first after

instance : Std.Refl (Bears (τ := τ) (ν := ν) id first) := ⟨fun _ underway => underway⟩

instance : IsTrans (World τ ν) (Bears id first) := ⟨fun _ _ _ left right => right ∘ left⟩

omit [Quantity τ] in
/-- Without an engine there is nothing to keep. -/
theorem saveState_of_gone [Quantity τ] (gone : world.session.engine = none) : world.saveState.2 = world := by
  rw [saveState, gone]

/-- Whatever a task does that has gone to work on a first world, it stays underway. -/
theorem toiling_bears (id : TaskId) (first : World τ ν) : Toiling id first.clock (Bears id first) where
  checks engine world installed underway := by
    rcases underway with undisturbed | disturbed | astray
    · exact undisturbed.consult engine rfl (by simp)
    · exact nomatch disturbed.engine.symm.trans installed
    · exact .inr (.inr (astray.follow (meanwhile_consult engine rfl world).course.follows))
  loads engine blob world installed underway := by
    rcases underway with undisturbed | disturbed | astray
    · exact undisturbed.consult engine rfl (by simp)
    · exact nomatch disturbed.engine.symm.trans installed
    · exact .inr (.inr (astray.follow (meanwhile_consult engine rfl world).course.follows))
  saves world underway := by
    rcases underway with undisturbed | disturbed | astray
    · exact .inl (undisturbed.idles (.saveState world) (idles_saveState world))
    · rw [saveState_of_gone disturbed.engine]
      exact .inr (.inl disturbed)
    · exact .inr (.inr (astray.follow (Meanwhile.of_idles (idles_saveState world)).course.follows))
  bootstraps since own world underway := by
    rcases underway with undisturbed | disturbed | astray
    · exact undisturbed.bootstraps since
    · exact .inr (.inl (disturbed.bootstraps own))
    · have goesOn : Op.Keeps Meanwhile (Session.bootstrap runQueue since : Op τ ν Bool) :=
        Session.bootstrap_keeps_of_meanwhile (fun _ _ step => step) meanwhile_runQueue since
      exact .inr (.inr (astray.follow (goesOn world).course.follows))
  installs engine world unasked underway := by
    rcases underway with undisturbed | disturbed | astray
    · exact .inl (undisturbed.installs engine)
    · exact nomatch disturbed.asked.symm.trans unasked
    · exact .inr (.inr (astray.follow (follows_install engine world)))
  readies world unasked underway := by
    rcases underway with undisturbed | disturbed | astray
    · exact .inl undisturbed.readies
    · exact nomatch disturbed.asked.symm.trans unasked
    · exact .inr (.inr (astray.follow ⟨List.suffix_cons _ _, fun _ asked => asked⟩))

/-! ### Getting an engine -/

theorem Undisturbed.built (undisturbed : Undisturbed id first world) (engine : EngineId) :
    Undisturbed id first (world.built engine) :=
  { undisturbed with turns := undisturbed.turns.tail (.build engine world) }

/-- A session may be stopped while its task asks for an engine. -/
theorem Undisturbed.asks (undisturbed : Undisturbed id first world) : Undisturbed id first world.asked ∨
    (Disturbed id first world.asked ∧ Halted id first world.asked) ∨ Astray id first world.asked :=
  (undisturbed.idles (.react (world.engines + 1) _ world) (idles_react (world.engines + 1) _ world)).afterStop
    _ _ _

/-! ### How a task ends -/

/-- What a task does to itself when it is through: it ends if it was asked to stop. -/
theorem Underway.concludes (underway : Underway id first world) (change : Task τ → Task τ)
    (ends : ∀ task, task.stopRequested = true → (change task).phase = .finished) :
    Concluded id first (world.modifyTask id change) := by
  rcases underway with undisturbed | ⟨-, -, -, halt, halted, rests, -⟩ | late | ⟨lingers, asked⟩
  · exact .inr (.inl undisturbed.unstopped)
  · exact .inr (.inr (.inl ⟨halt, halted, rests.of_same rfl rfl rfl rfl fun stalled => stalled⟩))
  · exact .inl late
  · obtain ⟨task, found, asked⟩ := (Option.any_eq_true _ _).mp asked
    refine .inr (.inr (.inr ⟨lingers, change task, ?_, ends task asked⟩))
    rw [getElem?_modifyTask, found, Option.map_some, if_pos rfl]

theorem Underway.finishes (underway : Underway id first world) : Concluded id first (world.finish id) :=
  underway.concludes _ fun _ _ => rfl

/-- A task that fails is its session's failure unless it was stopped. -/
theorem Underway.fails (underway : Underway id first world) (reason : String) :
    Concluded id first
      (if world.isStopRequested id then world.finish id else (world.failed reason).finish id) := by
  split
  · exact underway.finishes
  · next unasked =>
    rcases underway with undisturbed | disturbed | late | ⟨-, asked⟩
    · exact .inr (.inl undisturbed.unstopped)
    · exact absurd disturbed.asked unasked
    · exact .inl (late.of_suffix (List.suffix_cons _ _))
    · exact absurd asked unasked

theorem Underway.parks (underway : Underway id first world) :
    Concluded id first (world.parkWatching id) := by
  unfold parkWatching
  split
  · exact underway.concludes _ fun task asked => by rw [if_pos asked]
  · exact underway.fails _

variable (obedient : Obedient τ ν)

include obedient

/-- An engine that comes after a stop is ended. -/
theorem discards_of_halted (halted : Halted id first world)
    (engine : EngineId) :
    Concluded id first (((world.built engine).tell engine .abort).finish id) := by
  obtain ⟨_, ended, asked, tells⟩ := tells_ask obedient engine .abort rfl (by simp) (world.built engine)
  rw [tell, asked]
  have session : (ended.finish id).session = world.session := tells.session
  refine .inr (.inr (.inl ⟨world, halted, ?_⟩))
  exact {
    session := by rw [session]
    correlator := tells.correlator
    disk := tells.disk (by simp)
    journal := .inr ⟨engine, tells.journal⟩
    joined := fun joined => .inl (session ▸ joined) }

theorem Undisturbed.startsEngine (undisturbed : Undisturbed id first world)
    (begun : world.clock = first.clock) : Concluded id first (world.startEngine id) := by
  have asks := undisturbed.asks
  have underway : Underway id first world.asked := asks.imp_right (·.imp_left And.left)
  unfold startEngine
  rcases build_eq world with ⟨fault, built⟩ | built | built <;> rw [built] <;> dsimp only
  · exact underway.fails _
  · exact underway.fails _
  obtain ⟨engine, number⟩ : ∃ engine, engine = world.engines + 1 := ⟨_, rfl⟩
  rw [← number]
  have same : (world.asked.built engine).isStopRequested id = world.asked.isStopRequested id := rfl
  have noted : Follows world.asked (world.asked.built engine) :=
    ⟨List.suffix_cons _ _, fun _ asked => asked⟩
  split
  · next flagged =>
    rcases asks with undisturbed | ⟨disturbed, halted⟩ | astray
    · rw [same, undisturbed.isStopRequested] at flagged
      cases flagged
    · exact discards_of_halted obedient halted engine
    · have told : Idles (world.asked.built engine) ((world.asked.built engine).tell engine .abort) :=
        idles_ask engine rfl _
      have astray := (astray.follow noted).follow (Meanwhile.of_idles told).course.follows
      exact Underway.finishes (.inr (.inr astray))
  · next unflagged =>
    have unasked := eq_false_of_ne_true unflagged
    have underway : Underway id first (world.asked.built engine) := by
      rcases asks with undisturbed | ⟨disturbed, -⟩ | astray
      · exact .inl (undisturbed.built engine)
      · exact nomatch disturbed.asked.symm.trans unasked
      · exact .inr (.inr (astray.follow noted))
    rw [begun]
    have brought := (toiling_bears id first).bringsUp engine unasked underway
    rcases run : (bringUp id engine first.clock).run (world.asked.built engine) with
      ⟨failure | running, after⟩ <;> rw [run] at brought
    · exact brought.fails _
    · cases running with
      | false => exact brought.finishes
      | true => exact brought.parks

omit obedient in
/-- A task that is asked to stop before it goes on ends, and that is all. -/
theorem rests_of_isStopRequested (asked : world.isStopRequested id = true) :
    Rests [] world (world.resume id) ∧ (world.resume id).HasFinished id := by
  obtain ⟨task, found, asked⟩ := (Option.any_eq_true _ _).mp asked
  rw [resume, found]
  dsimp only
  rw [if_pos asked]
  refine ⟨(Rests.refl world).of_same rfl rfl rfl rfl fun stalled => stalled, { task with phase := .finished }, ?_, rfl⟩
  rw [finish, getElem?_modifyTask, found, Option.map_some, if_pos rfl]

/-- A task that goes on in a sound world concludes. -/
theorem resume_concludes (id : TaskId) (sound : world.Sound) : Concluded id world (world.resume id) := by
  have same (tasks : List (Task τ)) : Concluded id world { world with tasks } := .inr (.inl rfl)
  unfold resume
  split
  · exact same _
  · next task found =>
    split
    · exact same _
    · next unasked =>
      have undisturbed (waits : task.phase ≠ .finished) : Undisturbed id world
          (world.modifyTask id fun task => { task with phase := .active }) := by
        obtain ⟨own, up, -⟩ := sound.live id task found (by simp [Task.isLive, waits, unasked])
        refine ⟨.single (.tasks _ world), sound.unhalted, rfl, own, up,
          { task with phase := .active }, ?_, eq_false_of_ne_true unasked⟩
        rw [getElem?_modifyTask, found, Option.map_some, if_pos rfl]
      dsimp only
      split
      · next polling =>
        split
        · exact (undisturbed (by simp [polling])).startsEngine obedient rfl
        · exact same _
      · next watching =>
        have watched := (toiling_bears id world).watches _ (.inl (undisturbed (by simp [watching])))
        rcases run : watch.run (world.modifyTask id fun task => { task with phase := .active }) with
          ⟨failure | ⟨⟩, after⟩ <;> rw [run] at watched
        · exact watched.fails _
        · exact watched.parks
      · exact same _

end

end World

end DhtRecords
