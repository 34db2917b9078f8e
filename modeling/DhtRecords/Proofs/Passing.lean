/-
Time passing for a session.

A task that goes on leads from a sound world to a sound one (`leads_resume`), and
so do the waits in which callers give way to tasks (`upkeep_run`) and all that
callers do to keep a session running.
-/

import DhtRecords.Proofs.Duty

namespace DhtRecords

variable {τ ν : Type} [Overlay τ ν] [Quantity τ]

namespace World

/-! ### Bringing a session up -/

open Session Op

theorem build_cases (world : World τ ν) : ∃ middle, Meanwhile world middle ∧
    ((∃ fault, world.build = (.error fault, middle)) ∨ world.build = (.ok none, middle) ∨
      world.build = (.ok (some (middle.engines + 1)), middle.built (middle.engines + 1))) := by
  let reaction : Reaction τ ν Bool := Overlay.build (world.engines + 1) world.overlay
  have reacted := (Meanwhile.of_idles (idles_react (world.engines + 1) reaction world)).trans
    (meanwhile_afterStop reaction.stops reaction.restarts reaction.outcome _)
  have engines := reacted.course.engines
  refine ⟨_, reacted, ?_⟩
  unfold build
  dsimp only
  split
  · next step => exact .inl ⟨_, by rw [step]⟩
  · next step => exact .inr (.inl (by rw [step]))
  · next step =>
    rw [step] at engines ⊢
    rw [engines]
    exact .inr (.inr rfl)

/-- What becomes of a session that begins to bootstrap: its task fails or is asked to stop, or the session
is ready. -/
def Concludes (id : TaskId) (start : World τ ν) (ending : Except Failure Bool × World τ ν) : Prop :=
  ∃ after, Meanwhile start after ∧ ((∃ failure, ending = (.error failure, after)) ∨
    after.isStopRequested id = true ∧ ending = (.ok false, after) ∨
    after.isStopRequested id = false ∧ ending = (.ok true, after.ready))

theorem Concludes.bind {α : Type} {id : TaskId} {start world : World τ ν} {program : Op τ ν α}
    {next : α → Op τ ν Bool} (begun : Meanwhile start world) (first : Keeps Meanwhile program)
    (rest : ∀ result world, Meanwhile start world → Concludes id start ((next result).run world)) :
    Concludes id start ((program >>= next).run world) := by
  have step := begun.trans (first world)
  rw [run_bind]
  split
  · next result world' run =>
    rw [run] at step
    exact rest result world' step
  · next failure world' run =>
    rw [run] at step
    exact ⟨world', step, .inl ⟨failure, rfl⟩⟩

theorem install_eq (engine : EngineId) (world : World τ ν) :
    world.install engine = match (world.installed engine).startCorrelator engine with
      | (.ok (), world) => (.ok (), world.moveTo .bootstrapping)
      | (.error fault, world) => (.error fault, world) :=
  rfl

theorem bringUp_cases (id : TaskId) (engine : EngineId) (since : τ) (world : World τ ν) :
    ∃ heard, Idles ((world.installed engine).hear true) heard ∧
      ((∃ failure, (bringUp id engine since).run world = (.error failure, heard)) ∨
        Concludes id (heard.moveTo .bootstrapping) ((bringUp id engine since).run world)) := by
  have listened : Idles ((world.installed engine).hear true)
      ((world.installed engine).startCorrelator engine).2 := idles_ask engine rfl _
  refine ⟨_, listened, ?_⟩
  unfold bringUp
  rw [run_bind, run_modifyGet, install_eq]
  rcases (world.installed engine).startCorrelator engine with ⟨fault | -, heard⟩
  · exact .inl ⟨_, rfl⟩
  have last (world : World τ ν) (begun : Meanwhile (heard.moveTo .bootstrapping) world) :
      Concludes id (heard.moveTo .bootstrapping) ((do
        if (← get).isStopRequested id then return false
        modify ready
        return true : Op τ ν Bool).run world) := by
    rw [run_bind, run_get]
    dsimp only
    split
    · next asked => exact ⟨world, begun, .inr (.inl ⟨asked, rfl⟩)⟩
    · next unasked => exact ⟨world, begun, .inr (.inr ⟨eq_false_of_ne_true unasked, rfl⟩)⟩
  have tending : Tending (Meanwhile (τ := τ) (ν := ν)) := .of_meanwhile fun _ _ step => step
  refine .inr (.bind (.refl _) (loadState_keeps tending) fun _ world begun =>
    .bind begun (bootstrap_keeps_of_meanwhile (fun _ _ step => step) meanwhile_runQueue _) fun joined world begun => ?_)
  split
  · refine .bind begun (fun world => .refl world) fun present world begun => ?_
    split
    · exact .bind begun (saveState_keeps tending) fun _ world begun => last world begun
    · exact last world begun
  · exact last world begun

variable {id : TaskId} {world : World τ ν}

theorem leads_parkWatching (atWork : world.IsAtWork id) :
    Leads {some id} (OnDuty id .running) Sound world (world.parkWatching id) := by
  unfold parkWatching
  split
  · refine leads_park OnDuty.sound (fun duty task found unasked => ?_) _
    obtain ⟨-, running⟩ := duty.state_of_unasked (by simp [isStopRequested, found, unasked])
    obtain ⟨task', found', active, -⟩ := duty.engaged
    obtain rfl := Option.some_inj.mp (found'.symm.trans found)
    exact ⟨by simp [active], by simp, fun _ => running⟩
  · exact leads_failed rfl atWork _

/-- What a task does once the node is ready. -/
theorem leads_startEngine (atWork : world.IsAtWork id) :
    Leads {none, some id} (OnDuty id .starting) Sound world (world.startEngine id) := by
  obtain ⟨middle, asked, outcome⟩ := build_cases world
  have there : middle.IsAtWork id := asked.course.isAtWork atWork
  refine Leads.trans ((asked.onDuty id .starting rfl).beside id) ?_
  unfold startEngine
  rcases outcome with ⟨fault, built⟩ | built | built <;> rw [built] <;> dsimp only
  · exact (leads_failed rfl there _).own
  · exact (leads_failed rfl there _).own
  -- An engine that comes after the task was asked to stop is not the session's.
  have same : (middle.built (middle.engines + 1)).isStopRequested id = middle.isStopRequested id := rfl
  rw [same]
  split
  · exact (leads_discard there).weaken OnDuty.sound
  · next unasked =>
    have free : middle.IsFree id := ⟨there, eq_false_of_ne_true unasked⟩
    obtain ⟨heard, listened, ending⟩ :=
      bringUp_cases id (middle.engines + 1) world.clock (middle.built (middle.engines + 1))
    have equipped : Equipped middle heard := ⟨listened⟩
    rcases ending with ⟨failure, ending⟩ | ⟨after, went, ending⟩
    · rw [ending]
      have failed := equipped.leads_failed free failure.message
      dsimp only
      unfold finishFailed
      rw [equipped.isStopRequested, free.unasked]
      exact failed
    · have bootstrapping := equipped.leads_bootstrapping free
      have met := bootstrapping.trans ((went.onDuty id .bootstrapping rfl).beside id)
      have there' : after.IsAtWork id :=
        went.course.isAtWork (equipped.isAtWork there)
      rcases ending with ⟨failure, ending⟩ | ⟨asked, ending⟩ | ⟨unasked, ending⟩ <;>
        rw [ending] <;> dsimp only
      · exact met.trans (leads_failed rfl there' _).own
      · exact met.trans ((leads_finish id after).own.weaken OnDuty.sound)
      · have readied : after.ready.IsAtWork id := there'
        exact (met.trans (leads_ready ⟨there', unasked⟩).own).trans (leads_parkWatching readied).own

omit [Overlay τ ν] [Quantity τ] in
theorem isAtWork_begin {task : Task τ} (found : world.tasks[id]? = some task) :
    (world.modifyTask id fun task => { task with phase := .active }).IsAtWork id := by
  refine ⟨{ task with phase := .active }, ?_, rfl⟩
  rw [getElem?_modifyTask, found, Option.map_some, if_pos rfl]

theorem meanwhile_watch : Keeps Meanwhile (watch : Op τ ν Unit) := by
  have tending : Tending (Meanwhile (τ := τ) (ν := ν)) := .of_meanwhile fun _ _ step => step
  intro world
  unfold watch
  rw [run_bind_ok (run_get world)]
  split
  · exact .refl world
  · next engine installed =>
    refine Keeps.run_bind_keeps (checkRunning_keeps tending installed) fun running => ?_
    split
    · exact .bind (recover_keeps tending (bootstrap_keeps_of_meanwhile (fun _ _ step => step)
        meanwhile_runQueue none)) fun _ => .pure _
    · exact .pure _

/-- A waiting task goes on. -/
theorem leads_resume (id : TaskId) (world : World τ ν) :
    Leads {none, some id} Sound Sound world (world.resume id) := by
  unfold resume
  split
  · exact .refl world
  · next task found =>
    split
    · exact (leads_finish id world).own
    · next unasked =>
      have unasked := eq_false_of_ne_true unasked
      have atWork := isAtWork_begin found
      have live (waits : task.phase ≠ .finished) : task.isLive = true := by
        simp [Task.isLive, waits, unasked]
      dsimp only
      split
      · next polling =>
        have starting (sound : world.Sound) : world.session.state = .starting :=
          (sound.live id task found (live (by simp [polling]))).2.2.1 polling
        split
        · have begun := leads_begin id .starting found (by simp [polling]) fun _ => starting
          exact begun.own.trans (leads_startEngine atWork)
        · refine (leads_park (fun sound => sound) (fun sound other found' _ => ?_) _).own
          obtain rfl := Option.some_inj.mp (found.symm.trans found')
          exact ⟨by simp [polling], fun _ => starting sound, by simp⟩
      · next watching =>
        have begun := leads_begin id .running found (by simp [watching]) fun _ sound =>
          (sound.live id task found (live (by simp [watching]))).2.2.2 watching
        have watched := meanwhile_watch (world.modifyTask id fun task => { task with phase := .active })
        have there := watched.course.isAtWork atWork
        have met := begun.own.trans ((watched.onDuty id .running rfl).beside id)
        split
        · next step =>
          rw [step] at met there
          exact met.trans (leads_failed rfl there _).own
        · next step =>
          rw [step] at met there
          exact met.trans (leads_parkWatching there).own
      · exact .refl world

/-! ### Time passing -/

/-- What callers and all tasks do. -/
abbrev Upkeep (before after : World τ ν) : Prop := Leads Set.univ Sound Sound before after

theorem Meanwhile.upkeep {before after : World τ ν} (meanwhile : Meanwhile before after) :
    Upkeep before after := meanwhile.mono (Set.subset_univ _)

/-- Whatever holds of what goes on around a session, and of the changes of one, holds of upkeep. -/
theorem Upkeep.keeps {R : World τ ν → World τ ν → Prop} [Std.Refl R] [IsTrans (World τ ν) R]
    (idle : ∀ before after, Idle before after → R before after)
    (alters : ∀ before after, Alters before after → R before after) {before after : World τ ν}
    (upkeep : Upkeep before after) : R before after := by
  refine upkeep.course.invariant (R before) (fun _ _ first second step kept => ?_) (refl_of R before)
  exact trans_of R kept (step.apart.elim (idle first second) (alters first second))

omit [Overlay τ ν] in
theorem queue_of_due? {first : Pending τ ν} {rest : List (Pending τ ν)}
    (next : world.due? = some (.event first rest)) : world.queue = first :: rest := by
  unfold due? at next
  split at next
  · cases next
  · cases next
  · next queue earliest =>
    cases next
    exact queue
  · next queue earliest =>
    split at next
    · cases next
    · cases next
      exact queue

theorem upkeep_handle {due : Due τ ν} (next : world.due? = some due) :
    Upkeep world (world.handle due) := by
  cases due with
  | event first rest => exact (meanwhile_event (queue_of_due? next)).upkeep
  | task id time =>
    have advanced : Upkeep world (world.advance time) :=
      (Meanwhile.of_idles (.single (.advance time world))).upkeep
    exact advanced.trans ((leads_resume id _).mono (Set.subset_univ _))

theorem upkeep_runFor (fuel : Nat) (deadline : τ) (condition : World τ ν → Bool) (world : World τ ν) :
    Upkeep world (world.runFor fuel deadline condition) := by
  induction fuel generalizing world with
  | zero => exact (Meanwhile.of_idles (.tail (.single (.advance deadline world)) (.giveUp _))).upkeep
  | succ fuel ih =>
    unfold runFor
    split
    · exact .refl world
    · split
      · exact (Meanwhile.of_idles (.single (.advance deadline world))).upkeep
      · next due next =>
        split
        · exact (Meanwhile.of_idles (.single (.advance deadline world))).upkeep
        · exact (upkeep_handle next).trans (ih _)

theorem upkeep_run (deadline : τ) (condition : World τ ν → Bool) (world : World τ ν) :
    Upkeep world (world.run deadline condition) :=
  upkeep_runFor _ _ _ world

theorem upkeep_sleep (duration : τ) (world : World τ ν) : Upkeep world (world.sleep duration) :=
  upkeep_run _ _ world

/-- A caller who stops a session lets others go on while the session's task is waited for. -/
theorem upkeep_stop (world : World τ ν) : Upkeep world (Session.stop world).2 :=
  stopBy_keeps (fun due => (meanwhile_leave due).upkeep) (fun world => (meanwhile_close world).upkeep)
    fun _ world => (upkeep_run _ _ world).trans (meanwhile_close _).upkeep

end World

/-! ### Callers -/

namespace Session

open World Op

/-- Whatever holds of all that sessions do holds of making sure of one. -/
theorem upholds_ensureRunning {R : World τ ν → World τ ν → Prop} [Std.Refl R] [IsTrans (World τ ν) R]
    (sub : ∀ before after, Upkeep before after → R before after) :
    Keeps R (ensureRunning : Op τ ν (Option ErrorKind)) :=
  ensureRunning_keeps (.of_meanwhile fun _ _ step => sub _ _ step.upkeep)
    (bootstrap_keeps_of_meanwhile (fun _ _ step => sub _ _ step.upkeep)
      (fun _ _ world => sub _ _ (upkeep_run _ _ world)) none)

/-- One round of a wait for the running state: it ends at once, or time passes. -/
theorem waitUntilRunningFor_cases (fuel : Nat) (deadline : Option τ) (world : World τ ν) :
    waitUntilRunningFor (fuel + 1) deadline world = (true, world) ∧ world.session.state = .running ∨
      waitUntilRunningFor (fuel + 1) deadline world = (false, world) ∨
      (world.session.state = .starting ∨ world.session.state = .bootstrapping ∨
        world.session.state = .stopping) ∧
        ∃ limit, waitUntilRunningFor (fuel + 1) deadline world =
          if (world.run limit (·.session.signalled)).session.signalled then
            (true, world.run limit (·.session.signalled))
          else waitUntilRunningFor fuel deadline (world.run limit (·.session.signalled)) := by
  rw [waitUntilRunningFor]
  split
  · next running => exact .inl ⟨rfl, running⟩
  · exact .inr (.inl rfl)
  · exact .inr (.inl rfl)
  · next running failed stopped =>
    dsimp only
    split
    · exact .inr (.inl rfl)
    · refine .inr (.inr ⟨?_, _, rfl⟩)
      cases state : world.session.state <;> simp_all

theorem upkeep_waitUntilRunningFor (fuel : Nat) (deadline : Option τ) (world : World τ ν) :
    Upkeep world (waitUntilRunningFor fuel deadline world).2 := by
  induction fuel generalizing world with
  | zero => exact (Meanwhile.of_idles (.single (.giveUp world))).upkeep
  | succ fuel ih =>
    rcases waitUntilRunningFor_cases fuel deadline world with ⟨same, -⟩ | same | ⟨-, limit, same⟩ <;>
      rw [same]
    · exact .refl world
    · exact .refl world
    · have waited := upkeep_run limit (·.session.signalled) world
      split
      · exact waited
      · exact waited.trans (ih _)

theorem upkeep_waitUntilRunning (timeout : Option τ) (world : World τ ν) :
    Upkeep world (waitUntilRunning timeout world).2 :=
  upkeep_waitUntilRunningFor _ _ world

end Session

end DhtRecords
