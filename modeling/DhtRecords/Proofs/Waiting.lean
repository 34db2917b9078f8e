/-
Waits of an attended session.

Background tasks that look after a running engine ask it and wait again, so there
are only so many rounds of them before a deadline, and only so many events between
two rounds. A wait therefore comes to an end, and leaves either its condition true
or nothing due before its deadline (`Attends.wait`); meanwhile what is in flight of
some items comes down.
-/

import DhtRecords.Proofs.Attendance
import Mathlib.Tactic.FieldSimp
import Mathlib.Tactic.Ring

namespace DhtRecords

open ExactQuantity (value)

variable {τ ν : Type}

/-! ### Rounds of tasks -/

/-- How often a waiting task can go on before a deadline, if it waits for an interval each time. -/
def Task.rounds [Quantity τ] [ExactQuantity τ] (deadline interval : ℚ) (task : Task τ) : Nat :=
  if task.isWaiting then
    if task.stopRequested then 1 else ⌊(deadline - value task.wake) / interval + 1⌋₊
  else 0

namespace World

variable [Quantity τ] [ExactQuantity τ] [Overlay τ ν] {engine : EngineId} {keys : Set String}
  {good : ν → Prop} {world : World τ ν}

omit [ExactQuantity τ] [Overlay τ ν] in
theorem earliestTask_cases {start : TaskId} {tasks : List (Task τ)} {id : TaskId} {time : τ}
    (earliest : earliestTask start tasks = some (id, time)) :
    ∃ index task, id = start + index ∧ tasks[index]? = some task ∧ task.isWaiting = true ∧
      task.wake = time := by
  induction tasks generalizing start id time with
  | nil => cases earliest
  | cons first rest ih =>
    have later (earliest : earliestTask (start + 1) rest = some (id, time)) :
        ∃ index task, id = start + index ∧ (first :: rest)[index]? = some task ∧
          task.isWaiting = true ∧ task.wake = time := by
      obtain ⟨index, task, place, found, waiting, wake⟩ := ih earliest
      refine ⟨index + 1, task, ?_, by simpa using found, waiting, wake⟩
      rw [place, Nat.add_assoc, Nat.add_comm 1 index]
    unfold earliestTask at earliest
    split at earliest
    · next waiting others =>
      split at earliest
      · cases earliest
        exact later others
      · cases earliest
        exact ⟨0, first, rfl, rfl, waiting, rfl⟩
    · next waiting _ =>
      cases earliest
      exact ⟨0, first, rfl, rfl, waiting, rfl⟩
    · exact later earliest

omit [ExactQuantity τ] in
/-- An engine that is running is found to be so. -/
theorem run_checkRunning (running : Running τ engine keys good) (inGood : good world.overlay) :
    (Session.checkRunning engine).run world = (.ok true, (world.ask engine .isRunning).2) := by
  have checked : world.checkRunning engine = (.ok true, (world.ask engine .isRunning).2) := by
    unfold checkRunning consult afterStop
    simp only
    rw [running.stays _ inGood]
    exact Prod.ext (running.outcome _ inGood) rfl
  unfold Session.checkRunning
  rw [Op.run_bind_ok (Op.run_modifyGet _ world), checked]
  rfl

omit [ExactQuantity τ] in
theorem resume_of_stopRequested {id : TaskId} {task : Task τ} (found : world.tasks[id]? = some task)
    (stop : task.stopRequested = true) : world.resume id = world.finish id := by
  unfold resume
  simp [found, stop]

/-- The world in which a task is at work. -/
def begun (id : TaskId) (world : World τ ν) : World τ ν :=
  world.modifyTask id fun task => { task with phase := .active }

/-- A task that looks after a running engine asks it and waits again. -/
theorem Attends.resume_of_watching (attends : world.Attends engine keys good)
    (running : Running τ engine keys good) {id : TaskId} {task : Task τ} {interval : τ}
    (found : world.tasks[id]? = some task) (goesOn : task.stopRequested = false)
    (watching : task.phase = .watching)
    (pace : world.settings.livenessInterval = some interval) :
    world.resume id = ((world.begun id).ask engine .isRunning).2.park id .watching interval := by
  have installed : (world.begun id).session.engine = some engine := attends.installed
  have settings := (sends_ask engine .isRunning (world.begun id)).settings
  have checked : (Session.checkRunning engine).run (world.begun id)
      = (.ok true, ((world.begun id).ask engine .isRunning).2) :=
    run_checkRunning running attends.inGood
  have watch : watch.run (world.begun id) = (.ok (), ((world.begun id).ask engine .isRunning).2) := by
    unfold World.watch
    rw [Op.run_bind_ok (Op.run_get _)]
    simp only [installed]
    rw [Op.run_bind_ok checked]
    rfl
  have resumed : world.resume id =
      ((world.begun id).ask engine .isRunning).2.parkWatching id := by
    unfold begun at watch ⊢
    unfold resume
    simp [found, goesOn, watching, watch]
  have paced : (world.begun id).settings.livenessInterval = some interval := pace
  rw [resumed, parkWatching, settings, paced]

/-- The rounds that all tasks can still make before a deadline. -/
def rounds (deadline : ℚ) (world : World τ ν) : Nat :=
  (world.tasks.map (Task.rounds deadline ((world.settings.livenessInterval.map value).getD 1))).sum

omit [Quantity τ] [ExactQuantity τ] [Overlay τ ν] in
theorem sum_modify_lt {tasks : List (Task τ)} {id : TaskId} {task : Task τ}
    {change : Task τ → Task τ} {count : Task τ → Nat} (found : tasks[id]? = some task)
    (less : count (change task) < count task) :
    ((tasks.modify id change).map count).sum < (tasks.map count).sum := by
  induction tasks generalizing id with
  | nil => simp at found
  | cons first rest ih =>
    cases id with
    | zero =>
      obtain rfl : first = task := by simpa using found
      simpa using less
    | succ id =>
      have others := ih (by simpa using found)
      simpa using others

omit [Quantity τ] [ExactQuantity τ] [Overlay τ ν] in
theorem mem_modify {tasks : List (Task τ)} {id : TaskId} {change : Task τ → Task τ} {task : Task τ}
    (member : task ∈ tasks.modify id change) :
    task ∈ tasks ∨ ∃ old, tasks[id]? = some old ∧ task = change old := by
  obtain ⟨index, found⟩ := List.mem_iff_getElem?.mp member
  rw [List.getElem?_modify] at found
  obtain ⟨old, place, same⟩ := Option.map_eq_some_iff.mp found
  by_cases here : id = index
  · subst here
    exact .inr ⟨old, place, by simpa using same.symm⟩
  · rw [if_neg here] at same
    subst same
    exact .inl (List.mem_of_getElem? place)

omit [Overlay τ ν] in
/-- A task may be changed if it still looks after the engine or no longer waits. -/
theorem Attends.modifyTask (attends : world.Attends engine keys good) (id : TaskId)
    {change : Task τ → Task τ}
    (tame : ∀ task, world.tasks[id]? = some task → (change task).isWaiting = true →
      (change task).stopRequested = false → (change task).phase = .watching ∧
        ∃ interval, world.settings.livenessInterval = some interval ∧ 0 < value interval) :
    (world.modifyTask id change).Attends engine keys good := by
  refine ⟨attends.installed, attends.up, attends.listening, attends.inGood, attends.sorted,
    attends.tame, ?_⟩
  intro task member waiting goesOn
  rcases mem_modify member with old | ⟨old, found, rfl⟩
  · exact attends.tasks task old waiting goesOn
  · exact tame old found waiting goesOn

omit [Overlay τ ν] in
theorem settles_modifyTask (id : TaskId) (change : Task τ → Task τ) (world : World τ ν) :
    Settles keys world (world.modifyTask id change) :=
  ⟨rfl, le_refl _, fun _ _ => .of_eq rfl rfl⟩

omit [Overlay τ ν] in
theorem settles_advance (time : τ) (world : World τ ν) : Settles keys world (world.advance time) :=
  ⟨rfl, by simp [World.advance], fun _ _ => .of_eq rfl rfl⟩

omit [Overlay τ ν] in
/-- A call that reports nothing of the items leaves them alone. -/
theorem Sends.settles {alerts : List (τ × Alert)} {after : World τ ν} (sends : Sends alerts world after)
    (quiet : ∀ delay alert, (delay, alert) ∈ alerts → ¬ alert.IsAbout keys) :
    Settles keys world after := by
  refine ⟨sends.settings, by rw [sends.clock], fun key member => .of_eq ?_ (sends.latest key)⟩
  exact sends.silent key fun entry sent about => quiet entry.1 entry.2 sent ⟨key, member, about⟩

/-- A task that has been told to stop ends. -/
theorem Attends.handles_stopRequested (attends : world.Attends engine keys good) {id : TaskId}
    {task : Task τ} (found : world.tasks[id]? = some task)
    (waiting : task.isWaiting = true) (stop : task.stopRequested = true) (deadline : ℚ) :
    Handles engine keys good (.task id task.wake) world ∧
      (world.handle (.task id task.wake)).rounds deadline < world.rounds deadline := by
  have same : world.handle (.task id task.wake) = (world.advance task.wake).finish id :=
    resume_of_stopRequested found stop
  refine ⟨⟨?_, ?_, fun patience => ?_⟩, ?_⟩
  · rw [same]
    refine (attends.advance task.wake).modifyTask id fun task _ waiting => ?_
    simp [Task.isWaiting] at waiting
  · rw [same]
    exact (settles_advance task.wake world).trans (settles_modifyTask id _ _)
  · rw [same]
    exact resume_of_stopRequested found stop
  · rw [same]
    refine sum_modify_lt found ?_
    have before (interval : ℚ) : task.rounds deadline interval = 1 := by
      simp [Task.rounds, waiting, stop]
    rw [before]
    exact Nat.one_pos

/-- A wait that is begun again after an interval leaves fewer rounds. -/
theorem rounds_lt {deadline interval wake clock : ℚ} (positive : 0 < interval) (due : wake ≤ deadline)
    (late : wake ≤ clock) :
    ⌊(deadline - (clock + interval)) / interval + 1⌋₊ < ⌊(deadline - wake) / interval + 1⌋₊ := by
  have again : (deadline - (clock + interval)) / interval + 1 = (deadline - clock) / interval := by
    field_simp
    ring
  have fewer : (deadline - clock) / interval ≤ (deadline - wake) / interval :=
    div_le_div_of_nonneg_right (by linarith) positive.le
  have natural : 0 ≤ (deadline - wake) / interval := div_nonneg (by linarith) positive.le
  rw [again, Nat.floor_add_one natural]
  exact Nat.lt_succ_of_le (Nat.floor_le_floor fewer)

omit [Overlay τ ν] in
/-- A task that begins to wait again has fewer rounds before it. -/
theorem rounds_park_lt {asked : World τ ν} {id : TaskId} {task : Task τ} {deadline interval : τ}
    (tasks : asked.tasks = (world.begun id).tasks) (settings : asked.settings = world.settings)
    (found : world.tasks[id]? = some task) (waiting : task.isWaiting = true)
    (goesOn : task.stopRequested = false)
    (pace : world.settings.livenessInterval = some interval) (positive : 0 < value interval)
    (due : value task.wake ≤ value deadline) (late : value task.wake ≤ value asked.clock) :
    (asked.park id .watching interval).rounds (value deadline) < world.rounds (value deadline) := by
  have rounds : (asked.park id .watching interval).rounds (value deadline)
      = ((asked.tasks.modify id fun task =>
          if task.stopRequested then { task with phase := .finished }
          else { task with phase := .watching, wake := Quantity.add asked.clock interval }).map
        (Task.rounds (value deadline)
          ((asked.settings.livenessInterval.map value).getD 1))).sum := rfl
  rw [rounds, tasks, settings, begun, World.modifyTask]
  rw [List.modify_modify_eq]
  unfold World.rounds
  rw [pace, Option.map_some, Option.getD_some]
  refine sum_modify_lt found ?_
  have fewer := rounds_lt positive due late
  have before : task.rounds (value deadline) (value interval)
      = ⌊(value deadline - value task.wake) / value interval + 1⌋₊ := by
    rw [Task.rounds, if_pos waiting, if_neg (by simp [goesOn])]
  rw [before]
  simpa [Task.rounds, Task.isWaiting, goesOn] using fewer

/-- A task that looks after the engine asks it and waits for another interval. -/
theorem Attends.handles_watching (attends : world.Attends engine keys good)
    (running : Running τ engine keys good) {id : TaskId} {task : Task τ} {deadline interval : τ}
    (found : world.tasks[id]? = some task) (waiting : task.isWaiting = true)
    (goesOn : task.stopRequested = false) (watching : task.phase = .watching)
    (pace : world.settings.livenessInterval = some interval) (positive : 0 < value interval)
    (due : value task.wake ≤ value deadline) :
    Handles engine keys good (.task id task.wake) world ∧
      (world.handle (.task id task.wake)).rounds (value deadline) < world.rounds (value deadline) := by
  have advanced := attends.advance task.wake
  have begun : ((world.advance task.wake).begun id).Attends engine keys good :=
    advanced.modifyTask id fun task _ waiting => by simp [Task.isWaiting] at waiting
  have sends := sends_ask engine .isRunning ((world.advance task.wake).begun id)
  have asked := begun.ask (running.stable _ begun.inGood)
  have quiet := sends.settles (running.quiet _ begun.inGood)
  have same : world.handle (.task id task.wake)
      = (((world.advance task.wake).begun id).ask engine .isRunning).2.park id .watching interval :=
    advanced.resume_of_watching running found goesOn watching pace
  refine ⟨⟨?_, ?_, fun patience => ?_⟩, ?_⟩
  · rw [same]
    refine asked.modifyTask id fun other _ waiting goesOn => ?_
    split at waiting
    · simp [Task.isWaiting] at waiting
    · next goesOn =>
      rw [if_neg goesOn]
      exact ⟨rfl, interval, sends.settings ▸ pace, positive⟩
  · rw [same]
    exact (((settles_advance task.wake world).trans (settles_modifyTask id _ _)).trans
      quiet).trans (settles_modifyTask id _ _)
  · rw [same]
    have later := (advanced.withPatience patience).resume_of_watching running found goesOn watching pace
    refine later.trans ?_
    have asking := ask_withPatience engine .isRunning patience ((world.advance task.wake).begun id)
    exact congrArg (fun answer => World.park id .watching interval (Prod.snd answer)) asking
  · rw [same]
    have clock : value task.wake
        ≤ value (((world.advance task.wake).begun id).ask engine .isRunning).2.clock := by
      rw [sends.clock]
      change value task.wake ≤ value (Quantity.later world.clock task.wake)
      simp
    exact rounds_park_lt sends.tasks sends.settings found waiting goesOn pace positive due clock

/-! ### Waits -/

omit [ExactQuantity τ] [Overlay τ ν] in
/-- What is due next stands first in the queue, or is a waiting task that wakes before that. -/
theorem due?_cases {due : Due τ ν} (next : world.due? = some due) :
    (∃ first rest, world.queue = first :: rest ∧ due = .event first rest) ∨
      ∃ id task, world.tasks[id]? = some task ∧ task.isWaiting = true ∧ due = .task id task.wake := by
  have ofTask {id : TaskId} {time : τ} (earliest : earliestTask 0 world.tasks = some (id, time)) :
      ∃ id' task, world.tasks[id']? = some task ∧ task.isWaiting = true ∧
        Due.task id time = (.task id' task.wake : Due τ ν) := by
    obtain ⟨index, task, place, found, waiting, wake⟩ := earliestTask_cases earliest
    rw [Nat.zero_add] at place
    exact ⟨index, task, found, waiting, by rw [place, wake]⟩
  unfold due? at next
  split at next
  · cases next
  · next id time _ earliest =>
    cases next
    exact .inr (ofTask earliest)
  · next first rest queue _ =>
    cases next
    exact .inl ⟨first, rest, queue, rfl⟩
  · next first rest id time queue earliest =>
    split at next
    · cases next
      exact .inr (ofTask earliest)
    · cases next
      exact .inl ⟨first, rest, queue, rfl⟩

omit [Overlay τ ν] in
/-- If nothing due lies before a deadline, then no event does. -/
theorem Attends.late_of_idle (attends : world.Attends engine keys good) {deadline : τ}
    (idle : ∀ due, world.due? = some due → Quantity.lt deadline due.time = true) :
    ∀ pending ∈ world.queue, value deadline < value pending.time := by
  intro pending member
  have sorted := attends.sorted
  cases queue : world.queue with
  | nil => simp [queue] at member
  | cons first rest =>
    rw [queue] at sorted member
    have early : value deadline < value first.time := by
      cases earliest : earliestTask 0 world.tasks with
      | none =>
        have due : world.due? = some (.event first rest) := by simp [due?, queue, earliest]
        simpa [Due.time] using idle _ due
      | some woken =>
        obtain ⟨id, time⟩ := woken
        by_cases before : Quantity.lt time first.time = true
        · have due : world.due? = some (.task id time) := by simp [due?, queue, earliest, before]
          have late : value deadline < value time := by simpa [Due.time] using idle _ due
          exact late.trans ((ExactQuantity.lt_iff _ _).mp before)
        · have due : world.due? = some (.event first rest) := by
            simp [due?, queue, earliest, before]
          simpa [Due.time] using idle _ due
    rcases List.mem_cons.mp member with same | later
    · exact same ▸ early
    · exact early.trans_le ((List.pairwise_cons.mp sorted).1 pending later)

/-- Whatever is due before a deadline can be handled, and leaves less to do. -/
theorem Attends.handles (attends : world.Attends engine keys good)
    (running : Running τ engine keys good) {due : Due τ ν} {deadline : τ}
    (next : world.due? = some due) (inTime : Quantity.lt deadline due.time = false) :
    Handles engine keys good due world ∧
      Prod.Lex (· < ·) (· < ·)
        ((world.handle due).rounds (value deadline), (world.handle due).load)
        (world.rounds (value deadline), world.load) := by
  rcases due?_cases next with ⟨first, rest, queue, rfl⟩ | ⟨id, task, found, waiting, rfl⟩
  · obtain ⟨handles, tasks, less⟩ := attends.handles_event running queue
    have rounds : (world.handle (.event first rest)).rounds (value deadline)
        = world.rounds (value deadline) := by
      rw [World.rounds, tasks, handles.settles.settings, World.rounds]
    refine ⟨handles, ?_⟩
    rw [rounds]
    exact .right _ less
  · by_cases stop : task.stopRequested = true
    · obtain ⟨handles, less⟩ := attends.handles_stopRequested found waiting stop (value deadline)
      exact ⟨handles, .left _ _ less⟩
    · have goesOn : task.stopRequested = false := by simpa using stop
      obtain ⟨watching, interval, pace, positive⟩ :=
        attends.tasks task (List.mem_of_getElem? found) waiting goesOn
      obtain ⟨handles, less⟩ := attends.handles_watching running found waiting goesOn watching pace
        positive (by simpa [Due.time] using inTime)
      exact ⟨handles, .left _ _ less⟩

/-- A wait comes to an end: its condition holds, or nothing is due before its deadline. -/
theorem Attends.wait {before : World τ ν} (attends : before.Attends engine keys good)
    (running : Running τ engine keys good) (deadline : τ) (condition : World τ ν → Bool) :
    ∃ after, Ends deadline condition before after ∧ after.Attends engine keys good ∧
      Settles keys before after ∧
      (condition after = true ∨
        value deadline ≤ value after.clock ∧
          ∀ pending ∈ after.queue, value deadline < value pending.time) := by
  by_cases holds : condition before = true
  · exact ⟨before, .holds holds, attends, .refl before, .inl holds⟩
  · have fails : condition before = false := by simpa using holds
    by_cases busy : ∃ due, before.due? = some due ∧ Quantity.lt deadline due.time = false
    · obtain ⟨due, next, inTime⟩ := busy
      obtain ⟨handles, less⟩ := attends.handles running next inTime
      obtain ⟨after, ends, attended, settled, outcome⟩ :=
        handles.attends.wait running deadline condition
      exact ⟨after, .step fails next inTime handles.commutes ends, attended,
        handles.settles.trans settled, outcome⟩
    · have idle (due : Due τ ν) (next : before.due? = some due) :
          Quantity.lt deadline due.time = true := by
        by_contra inTime
        exact busy ⟨due, next, by simpa using inTime⟩
      refine ⟨before.advance deadline, .idle fails idle, attends.advance deadline,
        settles_advance deadline before, .inr ⟨?_, attends.late_of_idle idle⟩⟩
      simp [World.advance]
termination_by (before.rounds (value deadline), before.load)
decreasing_by exact less

end World

end DhtRecords
