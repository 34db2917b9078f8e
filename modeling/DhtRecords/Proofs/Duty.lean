/-
Background tasks at work.

A task at work that comes back from a wait is asked to stop, or finds its session
in the state in which it left it (`Meanwhile.onDuty`). So each of its steps
keeps the laws and leads on, with the engines that it gets accounted for.
-/

import DhtRecords.Proofs.Upkeep

namespace DhtRecords

open Relation (ReflTransGen)

variable {τ ν : Type}

namespace World

/-! ### Tasks -/

/-- Whether a task is at work, and is asked to stop unless its session is in a state. -/
def IsEngaged (world : World τ ν) (id : TaskId) (state : SessionState) : Prop :=
  ∃ task, world.tasks[id]? = some task ∧ task.phase = .active ∧
    (task.stopRequested = true ∨ world.session.task = some id ∧ world.session.state = state)

/-- Whether a task is engaged in a sound world. -/
structure OnDuty (id : TaskId) (state : SessionState) (world : World τ ν) : Prop where
  sound : world.Sound
  engaged : world.IsEngaged id state

namespace OnDuty

variable {id : TaskId} {state : SessionState} {world : World τ ν}

/-- A task that is not asked to stop is its session's. -/
theorem state_of_unasked (duty : OnDuty id state world) (unasked : world.isStopRequested id = false) :
    world.session.task = some id ∧ world.session.state = state := by
  obtain ⟨task, found, -, requested | engaged⟩ := duty.engaged
  · simp [isStopRequested, found, requested] at unasked
  · exact engaged

theorem manned (duty : OnDuty id state world) (free : world.IsFree id) : Manned (some id) world :=
  (duty.state_of_unasked free.unasked).1 ▸ duty.sound.manned

end OnDuty

/-- A sound world stays sound when a task is changed, unless that makes it live or lets it wait in the
wrong state. -/
theorem Sound.modifyTask {world : World τ ν} (sound : world.Sound) {id : TaskId}
    {change : Task τ → Task τ}
    (tame : ∀ task, world.tasks[id]? = some task → (change task).isLive = true →
      task.isLive = true ∧ ((change task).phase = .polling → world.session.state = .starting) ∧
        ((change task).phase = .watching → world.session.state = .running)) :
    Sound (world.modifyTask id change) := by
  refine { sound with live := fun other task found live => ?_, known := fun other own => ?_,
                      accounted := sound.accounted.carry (.refl _) rfl }
  · rw [getElem?_modifyTask] at found
    obtain ⟨old, place, rfl⟩ := Option.map_eq_some_iff.mp found
    split at live
    · next same =>
      subst same
      obtain ⟨wasLive, polling, watching⟩ := tame old place live
      obtain ⟨own, up, -⟩ := sound.live id old place wasLive
      rw [if_pos rfl]
      exact ⟨own, up, polling, watching⟩
    · next other =>
      simp only [if_neg other]
      exact sound.live _ old place live
  · simp only [World.modifyTask, List.length_modify]
    exact sound.known other own

theorem getElem?_requestStop (world : World τ ν) (id : TaskId) :
    world.requestStop.tasks[id]? = (world.tasks[id]?).map fun task =>
      if world.session.task = some id then { task with stopRequested := true } else task := by
  unfold requestStop
  split
  · next own installed => simp only [getElem?_modifyTask, installed, Option.some_inj]
  · next absent => simp [absent]

variable [Quantity τ] [Overlay τ ν]

/-! ### While others go on -/

/-- A task at work is not affected by what others do, but for being asked to stop; if it is not, then its
session is left in its state unless that is overtaken. -/
theorem Step.beside {before after : World τ ν} (step : Step none before after) {id : TaskId}
    {task : Task τ} (found : before.tasks[id]? = some task) (active : task.phase = .active) :
    ∃ task', after.tasks[id]? = some task' ∧ task'.phase = .active ∧ (task'.stopRequested = true ∨
      task' = task ∧ (Session.isUp before.session.state = true → before.session.task = some id →
        ¬ Overtaken after.journal →
        after.session.state = before.session.state ∧ after.session.task = some id)) := by
  cases step with
  | idle idle =>
    obtain ⟨state, -, own, -⟩ := idle.around.same
    exact ⟨task, by rw [idle.around.tasks, found], active,
      .inr ⟨rfl, fun _ same _ => ⟨state, own.trans same⟩⟩⟩
  | start down =>
    refine ⟨task, ?_, active, .inr ⟨rfl, fun up => ?_⟩⟩
    · rw [start_eq down, List.getElem?_append_left (List.getElem?_eq_some_iff.mp found).1]
      exact found
    · rw [down] at up
      cases up
  | stop due =>
    have there : (before.moveTo .stopping).tasks[id]? = some task := found
    rw [getElem?_requestStop, there]
    by_cases own : before.session.task = some id
    · exact ⟨{ task with stopRequested := true }, congrArg some (if_pos own), active, .inl rfl⟩
    · exact ⟨task, congrArg some (if_neg own), active, .inr ⟨rfl, fun _ same => absurd same own⟩⟩
  | silence => exact ⟨task, found, active, .inr ⟨rfl, fun _ same _ => ⟨rfl, same⟩⟩⟩
  | join stopping =>
    refine ⟨task, ?_, active, .inr ⟨rfl, fun up => ?_⟩⟩
    · unfold joinTask
      split
      · split
        · exact found
        · rw [getElem?_modifyTask, found]
          simp [Task.isWaiting, active]
      · exact found
    · rw [stopping] at up
      cases up
  | close =>
    refine ⟨task, found, active, .inr ⟨rfl, fun up _ timely => ?_⟩⟩
    rcases state_of_closed timely with state | state <;> rw [state] at up <;> cases up

namespace Course

variable {condition : Prop} {before after : World τ ν} {id : TaskId}

theorem isAtWork (course : Course {none} condition before after) (atWork : before.IsAtWork id) :
    after.IsAtWork id := by
  refine course.invariant (·.IsAtWork id) ?_ atWork
  rintro _ rfl first second step ⟨task, found, active⟩
  obtain ⟨task', found', active', -⟩ := step.beside found active
  exact ⟨task', found', active'⟩

omit id in
theorem engines (course : Course {none} condition before after) : after.engines = before.engines := by
  refine course.invariant (·.engines = before.engines)
    (fun actor member first second step same => Eq.trans ?_ same) rfl
  obtain rfl := Set.mem_singleton_iff.mp member
  cases step with
  | idle idle => exact idle.around.engines
  | start down =>
    rw [start_eq down]
    rfl
  | stop due =>
    obtain ⟨tasks, -, requested⟩ := (first.moveTo .stopping).requestStop_eq
    rw [requested]
    rfl
  | join stopping =>
    obtain ⟨tasks, -, joined⟩ := first.joinTask_eq
    rw [joined]
  | _ => rfl

end Course

/-- A task at work that lets others go on is asked to stop, or finds its session in the state in which it
left it. -/
theorem Meanwhile.onDuty {before after : World τ ν} (meanwhile : Meanwhile before after) (id : TaskId)
    (state : SessionState) (up : Session.isUp state = true) :
    Leads {none} (OnDuty id state) (OnDuty id state) before after := by
  refine ⟨meanwhile.course.mono Set.Subset.rfl fun duty _ => duty.sound, fun duty timely =>
    ⟨meanwhile.arrives duty.sound timely, meanwhile.course.invariant
      (fun world => ¬ Overtaken world.journal → world.IsEngaged id state) ?_ (fun _ => duty.engaged) timely⟩⟩
  rintro _ rfl first second step engaged timely
  obtain ⟨task, found, active, engaged⟩ := engaged fun late => timely (late.of_suffix step.suffix)
  obtain ⟨task', found', active', same⟩ := step.beside found active
  refine ⟨task', found', active', same.elim .inl fun ⟨same, stays⟩ => ?_⟩
  rcases engaged with requested | ⟨own, reached⟩
  · exact .inl (same ▸ requested)
  · obtain ⟨kept, own⟩ := stays (by rw [reached]; exact up) own timely
    exact .inr ⟨own, kept.trans reached⟩

/-! ### Steps of tasks -/

namespace Lawful

variable {before after : World τ ν}

omit [Overlay τ ν] [Quantity τ] in
theorem of_same (state : after.session.state = before.session.state)
    (consistent : before.Consistent → after.Consistent) : Lawful before after :=
  ⟨.inl state, consistent⟩

omit [Overlay τ ν] [Quantity τ] in
theorem of_moves (moves : before.session.state.MayBecome after.session.state)
    (consistent : before.Consistent → after.Consistent) : Lawful before after :=
  ⟨.inr (.inl moves), consistent⟩

end Lawful

theorem leads_finish (id : TaskId) (world : World τ ν) :
    Leads {some id} Sound Sound world (world.finish id) := by
  have ended (task : Task τ) : ({ task with phase := .finished } : Task τ).isLive = false := by
    simp [Task.isLive]
  refine ⟨.single rfl (.finish id world) fun _ _ => .of_same rfl fun consistent => ?_,
    fun sound _ => sound.modifyTask fun task _ live => by simp [ended] at live⟩
  exact consistent.mono (fun _ live => live.of_modifyTask fun task _ live => by simp [ended] at live)
    rfl rfl rfl

/-- A task that waited goes to work. -/
theorem leads_begin (id : TaskId) (state : SessionState) {world : World τ ν} {task : Task τ}
    (found : world.tasks[id]? = some task) (waits : task.phase ≠ .finished)
    (reached : task.stopRequested = false → world.Sound → world.session.state = state) :
    Leads {some id} Sound (OnDuty id state) world
      (world.modifyTask id fun task => { task with phase := .active }) := by
  have tame (old : Task τ) (same : world.tasks[id]? = some old)
      (live : ({ old with phase := .active } : Task τ).isLive = true) : old.isLive = true := by
    obtain rfl := Option.some_inj.mp (found.symm.trans same)
    simpa [Task.isLive, waits] using live
  refine ⟨.single rfl (.begin id world) fun _ _ => .of_same rfl fun consistent => ?_,
    fun sound _ => ⟨sound.modifyTask fun old same live => ⟨tame old same live, by simp, by simp⟩, ?_⟩⟩
  · exact consistent.mono (fun _ live => live.of_modifyTask tame) rfl rfl rfl
  · refine ⟨{ task with phase := .active }, ?_, rfl, ?_⟩
    · rw [getElem?_modifyTask, found, Option.map_some, if_pos rfl]
    · by_cases asked : task.stopRequested = true
      · exact .inl asked
      · have live : task.isLive = true := by simp [Task.isLive, waits, asked]
        exact .inr ⟨(sound.live id task found live).1, reached (eq_false_of_ne_true asked) sound⟩

/-- A task waits again unless it is asked to stop. -/
theorem leads_park {id : TaskId} {phase : Phase} {first : World τ ν → Prop} {world : World τ ν}
    (sound : first world → world.Sound)
    (tame : first world → ∀ task, world.tasks[id]? = some task → task.stopRequested = false →
      task.phase ≠ .finished ∧ (phase = .polling → world.session.state = .starting) ∧
        (phase = .watching → world.session.state = .running)) (interval : τ) :
    Leads {some id} first Sound world (world.park id phase interval) := by
  have change (holds : first world) (task : Task τ) (found : world.tasks[id]? = some task)
      (live : (if task.stopRequested then { task with phase := .finished }
        else { task with phase, wake := Quantity.add world.clock interval } : Task τ).isLive = true) :
      task.stopRequested = false ∧ task.isLive = true := by
    split at live
    · simp [Task.isLive] at live
    · next unasked =>
      have unasked := eq_false_of_ne_true unasked
      exact ⟨unasked, by simp [Task.isLive, (tame holds task found unasked).1, unasked]⟩
  refine ⟨.single rfl (.park id phase interval world) fun holds _ =>
    .of_same rfl fun consistent => ?_, fun holds _ => (sound holds).modifyTask fun task found live => ?_⟩
  · exact consistent.mono
      (fun _ live => live.of_modifyTask fun task found live => (change holds task found live).2) rfl rfl rfl
  · obtain ⟨unasked, wasLive⟩ := change holds task found live
    obtain ⟨-, polling, watching⟩ := tame holds task found unasked
    simpa [unasked] using ⟨wasLive, polling, watching⟩

omit [Overlay τ ν] [Quantity τ] in
/-- A session whose task ends by a failure is sound. -/
theorem Manned.sound_failed {id : TaskId} {world : World τ ν} (manned : Manned (some id) world)
    (reason : String) : Sound ((world.failed reason).finish id) := by
  have idle (other : TaskId) : ¬ ((world.failed reason).finish id).IsLive other := by
    intro live
    have ended : (world.failed reason).IsLive other := live.of_modifyTask (by simp [Task.isLive])
    obtain rfl := Option.some_inj.mp (manned.only other (.of_tasks rfl ended))
    obtain ⟨task, found, live⟩ := live
    rw [finish, getElem?_modifyTask] at found
    obtain ⟨old, place, rfl⟩ := Option.map_eq_some_iff.mp found
    simp [Task.isLive] at live
  refine ⟨fun other task found live => absurd ⟨task, found, live⟩ (idle other), ?_, ?_, ?_, ?_, ?_, ?_,
    manned.unhalted, ?_, ?_⟩
  · intro other own
    simp only [finish, World.modifyTask, List.length_modify]
    exact manned.known other own
  · simp [failed, finish, World.modifyTask, moveTo]
  · simp [failed, finish, World.modifyTask, moveTo]
  · simp [failed, finish, World.modifyTask, moveTo]
  · simp [failed, finish, World.modifyTask, moveTo]
  · simp [failed, finish, World.modifyTask, moveTo]
  · exact manned.accounted.carry (.cons (by simp) _) rfl
  · simp [failed, finish, World.modifyTask, moveTo]

/-- The step by which a task ends by a failure. -/
theorem course_fail {id : TaskId} {world : World τ ν} {condition : Prop} (free : world.IsFree id)
    (up : condition → Session.isUp world.session.state = true) (reason : String) :
    Course {some id} condition world ((world.failed reason).finish id) := by
  refine .single rfl (.fail reason free) fun holds _ => .of_moves (.fail (up holds)) fun consistent => ?_
  refine consistent.of_live (fun _ live => ?_) (.inr (.inr rfl))
  have wasLive : (world.failed reason).IsLive _ := live.of_modifyTask (by simp [Task.isLive])
  exact .of_tasks rfl wasLive

/-- A task at work may fail: then its session does, unless the task is asked to stop. -/
theorem leads_failed {id : TaskId} {state : SessionState} (up : Session.isUp state = true)
    {world : World τ ν} (atWork : world.IsAtWork id) (reason : String) :
    Leads {some id} (OnDuty id state) Sound world
      (if world.isStopRequested id then world.finish id else (world.failed reason).finish id) := by
  split
  · exact (leads_finish id world).weaken OnDuty.sound
  · next unasked =>
    have free : world.IsFree id := ⟨atWork, eq_false_of_ne_true unasked⟩
    refine ⟨course_fail free (fun duty => ?_) reason, fun duty _ => (duty.manned free).sound_failed reason⟩
    rw [(duty.state_of_unasked free.unasked).2]
    exact up

/-- A session that is bootstrapping runs in the end. -/
theorem leads_ready {id : TaskId} {world : World τ ν} (free : world.IsFree id) :
    Leads {some id} (OnDuty id .bootstrapping) (OnDuty id .running) world world.ready := by
  have reached (duty : OnDuty id .bootstrapping world) : OnDuty id .running world.ready := by
    obtain ⟨own, state⟩ := duty.state_of_unasked free.unasked
    have sound := duty.sound
    obtain ⟨task, found, active, -⟩ := duty.engaged
    refine ⟨⟨fun other task' found' live => ?_, sound.known, fun _ => sound.served (.inl state), ?_, ?_, ?_,
      ?_, sound.unhalted, sound.accounted.carry (.cons (by simp) _) rfl, ?_⟩,
      task, found, active, .inr ⟨own, rfl⟩⟩
    · have same := duty.manned free |>.only other ⟨task', found', live⟩
      obtain rfl := Option.some_inj.mp same
      obtain rfl := Option.some_inj.mp (found.symm.trans found')
      exact ⟨own, rfl, by simp [active], by simp [active]⟩
    all_goals simp [ready, moveTo]
  refine ⟨.single rfl (.run free) fun duty _ => .of_moves ?_ fun _ => ?_, fun duty _ => reached duty⟩
  · rw [(duty.state_of_unasked free.unasked).2]
    exact .run
  · exact (reached duty).sound.consistent

/-! ### Engines that are built -/

omit [Quantity τ] [Overlay τ ν] in
/-- An engine is accounted for once it is ended, or is that of a session whose former engine has been
seen to. -/
theorem Accounted.of_built {before after : World τ ν} (accounted : before.Accounted)
    (records : Records (before.built (before.engines + 1)).journal after.journal)
    (owned : ∀ engine, after.session.engine = some engine →
      engine = before.engines + 1 ∨ before.session.engine = some engine)
    (kept : ∀ engine, engine = before.engines + 1 ∨ before.session.engine = some engine →
      after.session.engine = some engine ∨ Gone after.journal engine) : after.Accounted := by
  have mem_built (engine : EngineId) : .built engine ∈ after.journal ↔
      engine = before.engines + 1 ∨ .built engine ∈ before.journal := by
    rw [records.mem_built]
    simp [built, note]
  refine ⟨fun engine installed => ?_, fun engine built => ?_⟩
  · exact (mem_built engine).mpr ((owned engine installed).imp_right (accounted.owned engine))
  · rcases (mem_built engine).mp built with same | old
    · exact kept engine (.inl same)
    · rcases accounted.kept engine old with installed | gone
      · exact kept engine (.inr installed)
      · obtain ⟨fresh, same, -⟩ := records
        rw [same]
        exact .inr ((gone.append [.built (before.engines + 1)]).append fresh)

/-- An engine that a task gets too late is ended. -/
theorem leads_discard {id : TaskId} {world : World τ ν} (atWork : world.IsAtWork id) :
    Leads {none, some id} Sound Sound world
      (((world.built (world.engines + 1)).tell (world.engines + 1) .abort).finish id) := by
  have told : Idles (world.built (world.engines + 1))
      ((world.built (world.engines + 1)).tell (world.engines + 1) .abort) :=
    idles_ask _ rfl _
  have around := told.around
  have aborted := aborted_ask (world.engines + 1) (world.built (world.engines + 1))
  have discarded : Leads {none, some id} Sound Sound world
      ((world.built (world.engines + 1)).tell (world.engines + 1) .abort) := by
    refine ⟨.trans (.single (.inr rfl) (.build atWork) fun _ _ => .of_same rfl fun consistent => ?_)
      (.of_idles (.inl rfl) told), fun sound _ => ?_⟩
    · exact consistent.mono (fun _ => .of_tasks rfl) rfl rfl rfl
    · refine sound.of_same around.session around.tasks around.listening (around.unhalted sound.unhalted)
        (sound.accounted.of_built around.journal ?_ ?_) fun engine gone => ?_
      · intro engine installed
        exact .inr (around.same.2.1 ▸ installed)
      · rintro engine (rfl | installed)
        · exact .inr (.inl aborted)
        · exact .inl (around.same.2.1.trans installed)
      · exact (gone.append [.built (world.engines + 1)]).of_records around.journal
  exact discarded.trans ((leads_finish id _).mono (Set.subset_insert _ _))

/-- Whether a session has got a new engine that is heard. -/
structure Equipped (before after : World τ ν) : Prop where
  listened :
    Idles (((before.built (before.engines + 1)).installed (before.engines + 1)).hear true) after

namespace Equipped

variable {id : TaskId} {before after : World τ ν} (equipped : Equipped before after)

include equipped

omit [Overlay τ ν] in
theorem state : after.session.state = before.session.state := equipped.listened.around.same.1

omit [Overlay τ ν] in
theorem engine : after.session.engine = some (before.engines + 1) := equipped.listened.around.same.2.1

omit [Overlay τ ν] in
theorem task : after.session.task = before.session.task := equipped.listened.around.same.2.2.1

omit [Overlay τ ν] in
theorem signalled : after.session.signalled = before.session.signalled :=
  equipped.listened.around.same.2.2.2

omit [Overlay τ ν] in
theorem tasks : after.tasks = before.tasks := equipped.listened.around.tasks

omit [Overlay τ ν] in
theorem isStopRequested : after.isStopRequested id = before.isStopRequested id := by
  simp only [World.isStopRequested, equipped.tasks]

omit [Overlay τ ν] in
theorem isAtWork (atWork : before.IsAtWork id) : after.IsAtWork id := by
  simpa only [IsAtWork, equipped.tasks] using atWork

omit [Overlay τ ν] in
theorem isFree (free : before.IsFree id) : after.IsFree id :=
  ⟨equipped.isAtWork free.atWork, equipped.isStopRequested.trans free.unasked⟩

omit [Overlay τ ν] in
/-- The engine that the session had before has been seen to. -/
theorem accounted (sound : before.Sound) (starting : before.session.state = .starting) :
    after.Accounted := by
  have around := equipped.listened.around
  refine sound.accounted.of_built around.journal ?_ ?_
  · intro engine installed
    rw [equipped.engine] at installed
    exact .inl (Option.some_inj.mp installed).symm
  · rintro engine (rfl | installed)
    · exact .inl equipped.engine
    · exact .inr (((sound.leftover engine installed (.inl starting)).append
        [.built (before.engines + 1)]).of_records around.journal)

omit [Overlay τ ν] in
theorem manned (duty : OnDuty id .starting before) (free : before.IsFree id) : Manned (some id) after := by
  have manned := duty.manned free
  refine ⟨fun other live => manned.only other (.of_tasks equipped.tasks live), ?_,
    equipped.listened.around.unhalted manned.unhalted,
    equipped.accounted duty.sound (duty.state_of_unasked free.unasked).2⟩
  simpa only [equipped.tasks, equipped.task] using manned.known

variable (free : before.IsFree id)

include free

/-- A task gets an engine and installs it. -/
theorem course : Course {none, some id} (OnDuty id .starting before) before after := by
  have starting (duty : OnDuty id .starting before) : before.session.state = .starting :=
    (duty.state_of_unasked free.unasked).2
  have built : Course {none, some id} (OnDuty id .starting before) before
      (before.built (before.engines + 1)) := by
    refine .single (.inr rfl) (.build free.atWork) fun _ _ => .of_same rfl fun consistent => ?_
    exact consistent.mono (fun _ => .of_tasks rfl) rfl rfl rfl
  have still : (before.built (before.engines + 1)).IsFree id := ⟨free.atWork, free.unasked⟩
  have fitted : ((before.built (before.engines + 1)).installed (before.engines + 1)).IsFree id :=
    ⟨free.atWork, free.unasked⟩
  refine built.trans (.trans (.single (.inr rfl) (.install _ still) fun duty _ => ?_)
    (.trans (.single (.inr rfl) (.listen fitted) fun duty _ => ?_)
      (.of_idles (.inl rfl) equipped.listened)))
  · exact .of_same rfl fun consistent =>
      consistent.of_live (fun _ => .of_tasks rfl) (.inl (starting duty))
  · exact .of_same rfl fun consistent =>
      consistent.of_live (fun _ => .of_tasks rfl) (.inl (starting duty))

/-- If the engine does not take its handler, the session fails. -/
theorem leads_failed (reason : String) :
    Leads {none, some id} (OnDuty id .starting) Sound before ((after.failed reason).finish id) := by
  refine ⟨(equipped.course free).trans ((course_fail (equipped.isFree free) (fun duty => ?_) reason).mono
    (Set.subset_insert _ _) fun duty _ => duty), fun duty _ => (equipped.manned duty free).sound_failed reason⟩
  rw [equipped.state, (duty.state_of_unasked free.unasked).2]
  rfl

/-- With an engine that is heard the session begins to bootstrap. -/
theorem leads_bootstrapping :
    Leads {none, some id} (OnDuty id .starting) (OnDuty id .bootstrapping) before
      (after.moveTo .bootstrapping) := by
  have reached (duty : OnDuty id .starting before) :
      OnDuty id .bootstrapping (after.moveTo .bootstrapping) := by
    obtain ⟨own, state⟩ := duty.state_of_unasked free.unasked
    obtain ⟨task, found, active, -⟩ := duty.engaged
    have manned := equipped.manned duty free
    have found : (after.moveTo .bootstrapping).tasks[id]? = some task := by
      rw [← found, ← equipped.tasks]
      rfl
    have own : (after.moveTo .bootstrapping).session.task = some id := equipped.task.trans own
    refine ⟨⟨fun other task' found' live => ?_, manned.known, fun _ => ?_, ?_, ?_, ?_, fun told => ?_,
      manned.unhalted, manned.accounted.carry (.cons (by simp) _) rfl, ?_⟩,
      task, found, active, .inr ⟨own, rfl⟩⟩
    · have same := manned.only other (.of_tasks rfl ⟨task', found', live⟩)
      obtain rfl := Option.some_inj.mp same
      obtain rfl := Option.some_inj.mp (found.symm.trans found')
      exact ⟨own, rfl, by simp [active], by simp [active]⟩
    · exact ⟨ne_of_eq_of_ne equipped.engine (Option.some_ne_none _), equipped.listened.around.listening⟩
    · simp [moveTo]
    · simp [moveTo]
    · simp [moveTo]
    · have told : before.session.signalled = true := equipped.signalled ▸ told
      exact absurd state (duty.sound.told told).1
    · simp [moveTo]
  refine ⟨(equipped.course free).trans (.single (.inr rfl) (.bootstrap (equipped.isFree free))
    fun duty _ => .of_moves ?_ fun _ => (reached duty).sound.consistent), fun duty _ => reached duty⟩
  rw [equipped.state, (duty.state_of_unasked free.unasked).2]
  exact .install

end Equipped

end World

end DhtRecords
