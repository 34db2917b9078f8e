/-
The lifetime of a session.

`Runs` are the runs of a session that callers start, stop and wait for while
events of any kind happen, beginning with a session that was never started
(`Unstarted`). Whatever happens, a task that is asked to stop leaves such a session
alone. The session goes from state to state as it may and stays in order until a
stop comes to its end that the session has overtaken (`Session.runs_orderly`): it
can be started while a stop waits for its task, and whoever waits for the running
state meanwhile is told of it (`sluggish_disordered`). Up to then every engine
that was built is the one that the session has, or was ended, but for two exceptions
(`Session.runs_accounted`).
-/

import DhtRecords.Proofs.Exact

namespace DhtRecords

open Relation (ReflTransGen)

variable {τ ν : Type} [Quantity τ] [Overlay τ ν]

namespace Session

open World

/-! ### Runs -/

/-- What a caller asks of a session. -/
inductive Request (τ : Type) where
  | start
  | stop
  | waitUntilRunning (timeout : Option τ)
  | ensureRunning
  | recover
  /-- To let a time pass. -/
  | sleep (duration : τ)

/-- What a request leads to. -/
def Request.serve : Request τ → World τ ν → World τ ν
  | start, world => Session.start world
  | stop, world => (Session.stop world).2
  | waitUntilRunning timeout, world => (Session.waitUntilRunning timeout world).2
  | ensureRunning, world => (Session.ensureRunning.run world).2
  | recover, world => ((Session.recover World.run).run world).2
  | sleep duration, world => world.sleep duration

/-- Whether a run leads from one world to another. Events happen between requests, or are due at a time
and happen in the course of one; stops come to their end by themselves, and the correlator is not stopped
alone. Files may change between requests, too. -/
inductive Runs (first : World τ ν) : World τ ν → Prop
  | refl : Runs first first
  | request {world : World τ ν} (request : Request τ) :
      Runs first world → Runs first (request.serve world)
  | plan {world : World τ ν} (delay : τ) {event : Event ν} :
      event ≠ .halt → event ≠ .close → Runs first world → Runs first (world.schedule delay event)
  | happen {world : World τ ν} {event : Event ν} :
      event ≠ .halt → event ≠ .close → Runs first world → Runs first (world.perform event)
  | files {world : World τ ν} (disk : Disk (ItemTable τ)) :
      Runs first world → Runs first { world with disk }

/-- Whether a session was never started. -/
structure Unstarted (world : World τ ν) : Prop where
  session : world.session = {}
  tasks : world.tasks = []
  deaf : world.correlator.running = false
  journal : world.journal = []
  unhalted : ∀ pending ∈ world.queue, pending.event ≠ .halt

omit [Quantity τ] [Overlay τ ν] in
theorem Unstarted.sound {world : World τ ν} (unstarted : Unstarted world) : world.Sound where
  live id task found := by simp [unstarted.tasks] at found
  known id own := by simp [unstarted.session] at own
  served state := by simp [unstarted.session] at state
  silent _ := ⟨by rw [unstarted.session], unstarted.deaf⟩
  ended _ := by rw [unstarted.session]
  deaf _ := unstarted.deaf
  told told := by simp [unstarted.session] at told
  unhalted := unstarted.unhalted
  accounted := by
    refine ⟨?_, ?_⟩
    · simp [unstarted.session]
    · simp [unstarted.journal]
  leftover engine installed := by simp [unstarted.session] at installed

omit [Quantity τ] [Overlay τ ν] in
theorem Unstarted.numbered {world : World τ ν} (unstarted : Unstarted world) : world.Numbered := by
  refine ⟨?_, ?_⟩ <;> simp [unstarted.journal]

theorem Request.upkeep (request : Request τ) (world : World τ ν) :
    Upkeep world (request.serve world) := by
  cases request with
  | start => exact (meanwhile_start world).upkeep
  | stop => exact upkeep_stop world
  | waitUntilRunning timeout => exact upkeep_waitUntilRunning timeout world
  | ensureRunning => exact upholds_ensureRunning (fun _ _ upkeep => upkeep) world
  | recover =>
    have sub (before after : World τ ν) (meanwhile : Meanwhile before after) : Upkeep before after := meanwhile.upkeep
    exact recover_keeps (.of_meanwhile sub) (bootstrap_keeps_of_meanwhile sub upkeep_run none) world
  | sleep duration => exact upkeep_sleep duration world

theorem Runs.upkeep {first world : World τ ν} (runs : Runs first world) : Upkeep first world := by
  induction runs with
  | refl => exact .refl first
  | request request _ ih => exact ih.trans (request.upkeep _)
  | plan delay other _ _ ih =>
    exact ih.trans (Meanwhile.of_idles (.single (.schedule delay _ other))).upkeep
  | happen other _ _ ih => exact ih.trans (meanwhile_perform other _).upkeep
  | files disk _ ih => exact ih.trans (Meanwhile.of_idles (.single (.disk disk _))).upkeep

/-! ### Telling those who wait -/

/-- Nobody but a task tells those who wait that the session is running. -/
theorem unsignalled_of_meanwhile {before after : World τ ν} (meanwhile : Meanwhile before after)
    (untold : before.session.signalled = false) : after.session.signalled = false := by
  refine meanwhile.course.invariant (·.session.signalled = false) ?_ untold
  rintro _ rfl first second step untold
  cases step with
  | idle idle => exact idle.around.same.2.2.2.trans untold
  | start down => rw [start_eq down]
  | stop due =>
    obtain ⟨tasks, -, requested⟩ := (first.moveTo .stopping).requestStop_eq
    rw [requested]
    exact untold
  | silence => exact untold
  | join stopping =>
    obtain ⟨tasks, -, joined⟩ := first.joinTask_eq
    rw [joined]
    exact untold
  | close => rfl

omit [Quantity τ] [Overlay τ ν] in
theorem signalled_finishFailed (id : TaskId) (failure : Failure) (world : World τ ν) :
    (world.finishFailed id failure).session.signalled = world.session.signalled := by
  unfold finishFailed
  split <;> rfl

/-- Whether those who wait are told that the session is running only if it is, or if it has just failed
because nothing says how often the engine is looked after. -/
def Truthful (world : World τ ν) : Prop :=
  world.session.signalled = true → world.session.state = .running ∨
    world.session.state = .error ∧ world.settings.livenessInterval = none

omit [Overlay τ ν] in
/-- A running session stays so, or fails for want of an interval. -/
theorem truthful_parkWatching (id : TaskId) {world : World τ ν} (running : world.session.state = .running) :
    Truthful (world.parkWatching id) := by
  intro _
  unfold parkWatching
  split
  · exact .inl running
  · next untimed =>
    unfold finishFailed
    split
    · exact .inl running
    · exact .inr ⟨rfl, untimed⟩

omit [Quantity τ] [Overlay τ ν] in
theorem Truthful.of_untold {world : World τ ν} (untold : world.session.signalled = false) :
    Truthful world := by
  intro told
  rw [untold] at told
  cases told

variable {id : TaskId} {world : World τ ν}

theorem truthful_startEngine (untold : world.session.signalled = false) :
    Truthful (world.startEngine id) := by
  obtain ⟨middle, asked, outcome⟩ := build_cases world
  have silent := unsignalled_of_meanwhile asked untold
  unfold startEngine
  rcases outcome with ⟨fault, built⟩ | built | built <;> rw [built] <;> dsimp only
  · exact .of_untold ((signalled_finishFailed id _ middle).trans silent)
  · split
    · exact .of_untold silent
    · exact .of_untold silent
  split
  · have told : Idles (middle.built (middle.engines + 1))
        ((middle.built (middle.engines + 1)).tell (middle.engines + 1) .abort) :=
      idles_ask _ rfl _
    exact .of_untold (told.around.same.2.2.2.trans silent)
  obtain ⟨heard, listened, ending⟩ :=
    bringUp_cases id (middle.engines + 1) world.clock (middle.built (middle.engines + 1))
  have equipped : Equipped middle heard := ⟨listened⟩
  have deaf : heard.session.signalled = false := equipped.signalled.trans silent
  rcases ending with ⟨failure, ending⟩ | ⟨after, went, ending⟩
  · rw [ending]
    exact .of_untold ((signalled_finishFailed id _ heard).trans deaf)
  have quiet := unsignalled_of_meanwhile went deaf
  rcases ending with ⟨failure, ending⟩ | ⟨-, ending⟩ | ⟨-, ending⟩ <;> rw [ending] <;> dsimp only
  · exact .of_untold ((signalled_finishFailed id _ after).trans quiet)
  · exact .of_untold quiet
  · exact truthful_parkWatching id rfl

theorem truthful_resume (untold : world.session.signalled = false) : Truthful (world.resume id) := by
  unfold resume
  split
  · exact .of_untold untold
  · next task found =>
    split
    · exact .of_untold untold
    · dsimp only
      split
      · split
        · exact truthful_startEngine untold
        · exact .of_untold untold
      · have watched := meanwhile_watch (world.modifyTask id fun task => { task with phase := .active })
        have quiet := unsignalled_of_meanwhile watched untold
        split
        · next step =>
          rw [step] at quiet
          exact .of_untold ((signalled_finishFailed id _ _).trans quiet)
        · next step =>
          rw [step] at quiet
          refine .of_untold ?_
          unfold parkWatching
          split
          · exact quiet
          · exact (signalled_finishFailed id _ _).trans quiet
      · exact .of_untold untold

/-- A wait that begins in a session that is not running ends truthfully. -/
theorem truthful_runFor (fuel : Nat) (deadline : τ) {world : World τ ν} (truthful : Truthful world) :
    Truthful (world.runFor fuel deadline (·.session.signalled)) := by
  induction fuel generalizing world with
  | zero => exact truthful
  | succ fuel ih =>
    unfold runFor
    split
    · exact truthful
    · next untold =>
      have untold := eq_false_of_ne_true untold
      split
      · exact truthful
      · next due next =>
        split
        · exact truthful
        · refine ih ?_
          cases due with
          | event first rest =>
            have queue := queue_of_due? next
            exact .of_untold (unsignalled_of_meanwhile (meanwhile_event queue) untold)
          | task id time =>
            have advanced : (world.advance time).session.signalled = false := untold
            exact truthful_resume advanced

/-- Nothing is waited for that has happened already. -/
theorem session_run_of_told (deadline : τ) {world : World τ ν}
    (told : world.session.signalled = true) :
    (world.run deadline (·.session.signalled)).session = world.session := by
  unfold run
  cases world.patience with
  | zero => rfl
  | succ fuel =>
    unfold runFor
    rw [if_pos told]

/-- Whoever is told that a session is running finds it so, unless a stop has begun that is not over, or the
session has failed because nothing says how often its engine is looked after. -/
theorem state_of_waitUntilRunningFor (fuel : Nat) (deadline : Option τ) {world : World τ ν}
    (sound : world.Sound) (timely : ¬ Overtaken (waitUntilRunningFor fuel deadline world).2.journal)
    (told : (waitUntilRunningFor fuel deadline world).1 = true) :
    (waitUntilRunningFor fuel deadline world).2.session.state = .running ∨
      (waitUntilRunningFor fuel deadline world).2.session.state = .stopping ∨
      (waitUntilRunningFor fuel deadline world).2.session.state = .error ∧
        (waitUntilRunningFor fuel deadline world).2.settings.livenessInterval = none := by
  induction fuel generalizing world with
  | zero => cases told
  | succ fuel ih =>
    rcases waitUntilRunningFor_cases fuel deadline world with
      ⟨same, running⟩ | same | ⟨state, limit, same⟩ <;> rw [same] at told timely ⊢
    · exact .inl running
    · cases told
    · have waited := upkeep_run limit (·.session.signalled) world
      split at told
      · next signalled =>
        rw [if_pos signalled]
        cases before : world.session.signalled with
        | true =>
          rw [session_run_of_told limit before]
          obtain ⟨starting, bootstrapping⟩ := sound.told before
          rcases state with state | state | state
          · exact absurd state starting
          · exact absurd state bootstrapping
          · exact .inr (.inl state)
        | false => exact (truthful_runFor _ _ (.of_untold before) signalled).imp_right .inr
      · next unsignalled =>
        rw [if_neg unsignalled] at timely ⊢
        refine ih (waited.arrives sound fun late => timely (late.of_suffix ?_)) timely told
        exact (upkeep_waitUntilRunningFor fuel deadline _).course.suffix

/-! ### Order -/

/-- Whether a step of one of these actors leads from one world to another, and leaves the session alone if
it is that of a task that is asked to stop; which is never taken back. -/
structure Heeds (actors : Set (Option TaskId)) (before after : World τ ν) : Prop where
  step : ∃ actor ∈ actors, Step actor before after ∧
    ∀ id, actor = some id → before.isStopRequested id = true → Stays before after
  asked : ∀ id, before.isStopRequested id = true → after.isStopRequested id = true

/-- Whether such a step changes the state of the session as it may change, unless it starts the session
too early, and leaves it in order. -/
structure InOrder (actors : Set (Option TaskId)) (before after : World τ ν) : Prop
    extends Heeds actors before after where
  moves : after.session.state = before.session.state ∨
    before.session.state.MayBecome after.session.state ∨ Rushes before after
  consistent : after.Consistent

theorem heeds_of_step {actors : Set (Option TaskId)} {actor : Option TaskId} {before after : World τ ν}
    (member : actor ∈ actors) (step : Step actor before after) : Heeds actors before after := by
  refine ⟨⟨actor, member, step, fun id same asked => ?_⟩, fun id => step.isStopRequested⟩
  subst same
  exact step.stays asked

theorem heeds_of_course {actors : Set (Option TaskId)} {condition : Prop} {before after : World τ ν}
    (course : Course actors condition before after) : ReflTransGen (Heeds actors) before after :=
  ReflTransGen.mono (fun _ _ ⟨_, member, step, _⟩ => heeds_of_step member step) _ _ course

/-- A course is in order until the session is overtaken. -/
theorem inOrder_of_course {actors : Set (Option TaskId)} {condition : Prop} {before after : World τ ν}
    (holds : condition) (course : Course actors condition before after) (consistent : before.Consistent)
    (timely : ¬ Overtaken after.journal) :
    ReflTransGen (InOrder actors) before after ∧ after.Consistent := by
  induction course with
  | refl => exact ⟨.refl, consistent⟩
  | tail _ last ih =>
    obtain ⟨actor, member, step, lawful⟩ := last
    have lawful := lawful holds timely
    obtain ⟨ordered, consistent⟩ := ih fun late => timely (late.of_suffix step.suffix)
    have next := lawful.consistent consistent
    exact ⟨ordered.tail ⟨heeds_of_step member step, lawful.moves, next⟩, next⟩

/-- Whatever callers and events do, no task that is asked to stop changes a session. Until the end of a
stop comes too late, its state changes only as it may, but for a start that comes too early, and it is in
order. Whoever is told that it is running finds it so, unless it is stopping, or has failed because
nothing says how often its engine is looked after. -/
theorem runs_orderly {first world : World τ ν} (unstarted : Unstarted first) (runs : Runs first world) :
    first.Consistent ∧ ReflTransGen (Heeds Set.univ) first world ∧
      (∀ id, ReflTransGen (Heeds {none, some id}) world (world.resume id)) ∧
      (¬ Overtaken world.journal → ReflTransGen (InOrder Set.univ) first world) ∧
      (∀ id, ¬ Overtaken (world.resume id).journal →
        ReflTransGen (InOrder {none, some id}) world (world.resume id)) ∧
      ∀ timeout, ¬ Overtaken (waitUntilRunning timeout world).2.journal →
        (waitUntilRunning timeout world).1 = true →
          (waitUntilRunning timeout world).2.session.state = .running ∨
          (waitUntilRunning timeout world).2.session.state = .stopping ∨
          (waitUntilRunning timeout world).2.session.state = .error ∧
            (waitUntilRunning timeout world).2.settings.livenessInterval = none := by
  have sound := unstarted.sound
  have upkeep := runs.upkeep
  have resumed (id : TaskId) := leads_resume (τ := τ) (ν := ν) id world
  refine ⟨sound.consistent, heeds_of_course upkeep.course, fun id => heeds_of_course (resumed id).course,
    fun timely => (inOrder_of_course sound upkeep.course sound.consistent timely).1, fun id timely => ?_,
    fun timeout timely told => ?_⟩
  · have sound' := upkeep.arrives sound fun late => timely (late.of_suffix (resumed id).course.suffix)
    exact (inOrder_of_course sound' (resumed id).course sound'.consistent timely).1
  · refine state_of_waitUntilRunningFor _ _ (upkeep.arrives sound fun late => timely ?_) timely told
    exact late.of_suffix (upkeep_waitUntilRunning timeout world).course.suffix

/-- An overlay whose engines do as they are told and have nothing to report. -/
structure Placid where

/-- What an engine of such an overlay answers. -/
def Placid.answer : (call : EngineCall) → call.Answer
  | .isRunning => true
  | .saveState => []
  | .lookup _ _ | .put _ _ _ | .configure _ _ | .abort | .loadState _ | .setHandler _ => ()

instance : Overlay Seconds Placid where
  choose _ overlay := overlay
  build _ overlay := { outcome := .ok true, overlay }
  ask _ call overlay := { outcome := .ok (Placid.answer call), overlay }
  delivers _ _ := false
  join _ := .ends

/-- A world in which a session was never started. -/
def untouched (overlay : ν) (disk : Disk (ItemTable Seconds)) : World Seconds ν where
  settings := Seconds.settings
  clock := ⟨0⟩
  overlay := overlay
  disk := disk
  ledger := (Seconds.world {}).ledger
  freshKeys _ := Seconds.pair

omit [Overlay τ ν] in
theorem unstarted_untouched (overlay : ν) (disk : Disk (ItemTable Seconds)) :
    Unstarted (untouched overlay disk) where
  session := rfl
  tasks := rfl
  deaf := rfl
  journal := rfl
  unhalted := by simp [untouched]

/-- A session that is stopped while it bootstraps, and is started again. -/
def interrupted : World Seconds Placid :=
  Request.start.serve
    ((Request.sleep ⟨5⟩).serve (Request.start.serve ((untouched ⟨⟩ {}).schedule ⟨3⟩ .stop)))

theorem interrupted_told : (waitUntilRunning (some ⟨60⟩) interrupted).1 = true ∧
    (waitUntilRunning (some ⟨60⟩) interrupted).2.session.state = .running := by
  have runs : Runs (untouched ⟨⟩ {}) interrupted := by
    unfold interrupted
    exact .request _ (.request _ (.request _ (.plan _ (by simp) (by simp) .refl)))
  have told : (waitUntilRunning (some ⟨60⟩) interrupted).1 = true ∧
      ¬ Overtaken (waitUntilRunning (some ⟨60⟩) interrupted).2.journal ∧
      (waitUntilRunning (some ⟨60⟩) interrupted).2.session.state ≠ .stopping ∧
      (waitUntilRunning (some ⟨60⟩) interrupted).2.session.state ≠ .error := by
    decide
  obtain ⟨told, timely, unstopped, unfailed⟩ := told
  obtain ⟨-, -, -, -, -, found⟩ := runs_orderly (unstarted_untouched _ _) runs
  rcases found _ timely told with running | stopping | ⟨failed, -⟩
  · exact ⟨told, running⟩
  · exact absurd stopping unstopped
  · exact absurd failed unfailed

/-- An overlay like that, but one waits long for tasks to end. -/
structure Sluggish where

instance : Overlay Seconds Sluggish where
  choose _ overlay := overlay
  build _ overlay := { outcome := .ok true, overlay }
  ask _ call overlay := { outcome := .ok (Placid.answer call), overlay }
  delivers _ _ := false
  join _ := .lasts ⟨5⟩

/-- A running session that somebody has begun to stop. -/
def sluggish : World Seconds Sluggish :=
  ((Request.sleep ⟨31⟩).serve (Request.start.serve (untouched ⟨⟩ {}))).perform .stop

/-- What comes of starting the session again at once. -/
def hurried : World Seconds Sluggish := (Request.sleep ⟨9⟩).serve (Request.start.serve sluggish)

/-- While the session is stopping, whoever waits for the running state is told of it. If it is started
then, its task goes on when the stop comes to its end, and runs the session without an engine. -/
theorem sluggish_disordered : Runs (untouched ⟨⟩ {}) sluggish ∧
    (waitUntilRunning (some ⟨1⟩) sluggish).1 = true ∧
    (waitUntilRunning (some ⟨1⟩) sluggish).2.session.state = .stopping ∧
    (Request.start.serve sluggish).session.state = .starting ∧ Overtaken hurried.journal ∧
    hurried.session.state = .running ∧ hurried.session.engine = none := by
  refine ⟨?_, by decide⟩
  unfold sluggish
  exact .happen (by simp) (by simp) (.request _ (.request _ .refl))

/-! ### Engines -/

omit [Quantity τ] [Overlay τ ν] in
/-- An engine that was not ended, did not refuse to leave and was not left behind is the session's. -/
theorem aborted_of_gone {journal : List (Occurrence τ)} {engine : EngineId}
    (gone : Gone journal engine) (obedient : ¬ Refused journal engine)
    (kept : ¬ Abandoned journal engine) : Aborted journal engine :=
  gone.elim id fun other => (other.elim (absurd · obedient) (absurd · kept))

/-- Every engine that was built has a number of its own, and is the session's unless it was ended,
refused to leave the overlay, or was left behind by a start after a failure. Without the latter two, one
engine at most is not ended. But once the end of a stop has come too late, engines may be lost in other
ways. -/
theorem runs_accounted {first world : World τ ν} (unstarted : Unstarted first)
    (runs : Runs first world) :
    (world.journal.filterMap Occurrence.built?).Nodup ∧
      (∀ engine, .built engine ∈ world.journal → world.session.engine = some engine ∨
        Gone world.journal engine ∨ Overtaken world.journal) ∧
      (¬ Overtaken world.journal →
        (∀ engine, ¬ Refused world.journal engine ∧ ¬ Abandoned world.journal engine) →
        ∀ engine other, .built engine ∈ world.journal → .built other ∈ world.journal →
          ¬ Aborted world.journal engine → ¬ Aborted world.journal other → engine = other) := by
  have upkeep := runs.upkeep
  have numbered := upkeep.course.invariant (·.Numbered) (fun _ _ _ _ step => step.numbered) unstarted.numbered
  have accounted (timely : ¬ Overtaken world.journal) := (upkeep.arrives unstarted.sound timely).accounted
  refine ⟨numbered.distinct, fun engine built => ?_,
    fun timely obedient engine other built built' alive alive' => ?_⟩
  · by_cases timely : Overtaken world.journal
    · exact .inr (.inr timely)
    · exact ((accounted timely).kept engine built).imp_right .inl
  have own (engine : EngineId) (built : .built engine ∈ world.journal)
      (alive : ¬ Aborted world.journal engine) : world.session.engine = some engine :=
    ((accounted timely).kept engine built).resolve_right fun gone =>
      alive (aborted_of_gone gone (obedient engine).1 (obedient engine).2)
  exact Option.some_inj.mp ((own engine built alive).symm.trans (own other built' alive'))

/-- A disk with a state over which an engine fails. -/
def spoilt : Disk (ItemTable Seconds) where
  files := ⟨[(["state"], .bytes (Utf8.encode "boom"))]⟩

/-- A session whose engine has failed over its state, and which is started again without that. -/
def restarted : World Seconds (Simnet Seconds) :=
  (Request.sleep ⟨1⟩).serve (Request.start.serve
    { (Request.sleep ⟨1⟩).serve (Request.start.serve (untouched { options := .plain } spoilt)) with
      disk := {} })

theorem runs_restarted : Runs (untouched { options := .plain } spoilt) restarted := by
  unfold restarted
  exact .request _ (.request _ (.files _ (.request _ (.request _ .refl))))

/-- The first engine is left behind, and has not been ended. -/
theorem restarted_gone : .built 1 ∈ restarted.journal ∧ restarted.session.engine = some 2 ∧
    Gone restarted.journal 1 := by
  have built : .built 1 ∈ restarted.journal := by decide
  have second : restarted.session.engine = some 2 := by decide
  refine ⟨built, second, ?_⟩
  have timely : ¬ Overtaken restarted.journal := by decide
  rcases (runs_accounted (unstarted_untouched _ _) runs_restarted).2.1 1 built with own | gone | late
  · rw [second] at own
    cases own
  · exact gone
  · exact absurd late timely

theorem restarted_leaks : ¬ ∀ engine, .built engine ∈ restarted.journal →
    restarted.session.engine = some engine ∨ Aborted restarted.journal engine := by
  intro kept
  have leaked : .built 1 ∈ restarted.journal ∧ restarted.session.engine ≠ some 1 ∧
      ¬ Aborted restarted.journal 1 := by
    decide
  exact (kept 1 leaked.1).elim leaked.2.1 leaked.2.2

end Session

end DhtRecords
