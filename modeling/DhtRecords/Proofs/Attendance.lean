/-
A session that stays running.

`Running` says of an engine that in the good states of an overlay it is running
and hands its alerts over, and `World.Attends` that a session with this engine is
up and that nothing is due which would change that. Calls of the engine send
alerts off (`Sends`), and an event that is due brings down what is in flight of
some items, or leaves these alone (`Attends.handles_event`).
-/

import DhtRecords.Proofs.Flight
import DhtRecords.Proofs.Patience

namespace DhtRecords

open ExactQuantity (value)

variable {τ ν : Type}

/-! ### Engines and events -/

/-- Whether an alert brings a result of an item with one of the keys. -/
def Alert.IsAbout (keys : Set String) (alert : Alert) : Prop :=
  ∃ key ∈ keys, alert.key? = some key

/-- Whether an event leaves a session with an engine running: it brings results of the items with the
keys only from that engine, and keeps the overlay's states good. -/
def Event.Tame (engine : EngineId) (keys : Set String) (good : ν → Prop) : Event ν → Prop
  | .alert report => ¬ report.IsAbout keys
  | .emission origin report => report.IsAbout keys → origin = engine
  | .announcement report => ¬ report.IsAbout keys
  | .start => True
  | .stop => False
  | .close => False
  | .halt => False
  | .overlay change => ∀ overlay, good overlay → good (change overlay)
  | .readiness _ => True

/-- How many events come of one: an announcement brings an emission. -/
def Event.weight : Event ν → Nat
  | .announcement _ => 2
  | _ => 1

/-- Whether an engine, in the good states of an overlay, is running and hands over its alerts, and does
not report of the items with the keys when it is asked. -/
structure Running (τ : Type) [Overlay τ ν] (engine : EngineId) (keys : Set String) (good : ν → Prop) :
    Prop where
  delivers : ∀ overlay, good overlay → Overlay.delivers τ engine overlay = true
  outcome : ∀ overlay, good overlay →
    (Overlay.ask (τ := τ) engine .isRunning overlay).outcome = .ok true
  stays : ∀ overlay, good overlay → (Overlay.ask (τ := τ) engine .isRunning overlay).stops = false
  stable : ∀ overlay, good overlay → good (Overlay.ask (τ := τ) engine .isRunning overlay).overlay
  quiet : ∀ overlay, good overlay → ∀ delay alert,
    (delay, alert) ∈ (Overlay.ask (τ := τ) engine .isRunning overlay).alerts → ¬ alert.IsAbout keys

namespace World

variable [Quantity τ] [ExactQuantity τ]

/-- Whether a session with an engine is up, and nothing is due that would change that. Background tasks
that wait look after the engine from time to time, or have been told to stop. -/
structure Attends (engine : EngineId) (keys : Set String) (good : ν → Prop) (world : World τ ν) :
    Prop where
  installed : world.session.engine = some engine
  up : Session.isDown world.session.state = false
  listening : world.correlator.running = true
  inGood : good world.overlay
  sorted : Sorted world.queue
  tame : ∀ pending ∈ world.queue, pending.event.Tame engine keys good
  tasks : ∀ task ∈ world.tasks, task.isWaiting = true → task.stopRequested = false →
    task.phase = .watching ∧
      ∃ interval, world.settings.livenessInterval = some interval ∧ 0 < value interval

/-- What has changed after time has passed: what was in flight of some items has come down. -/
structure Settles (keys : Set String) (before after : World τ ν) : Prop where
  settings : after.settings = before.settings
  clock : value before.clock ≤ value after.clock
  drains : ∀ key ∈ keys, Drains key before after

namespace Settles

variable {keys : Set String}

theorem refl (world : World τ ν) : Settles keys world world :=
  ⟨rfl, le_refl _, fun _ _ => .of_eq rfl rfl⟩

theorem trans {first second third : World τ ν} (left : Settles keys first second)
    (right : Settles keys second third) : Settles keys first third :=
  ⟨right.settings.trans left.settings, left.clock.trans right.clock,
    fun key member => (left.drains key member).trans (right.drains key member)⟩

end Settles

/-- Whether a change leaves alone what is in flight and what has come down of some items, the settings,
the clock and the background tasks. -/
structure Bypasses (keys : Set String) (before after : World τ ν) : Prop where
  settings : after.settings = before.settings
  clock : after.clock = before.clock
  tasks : after.tasks = before.tasks
  flight : ∀ key ∈ keys, after.flight key = before.flight key
  latest : ∀ key ∈ keys, after.latest? key = before.latest? key

omit [Quantity τ] [ExactQuantity τ] in
theorem Bypasses.refl {keys : Set String} (world : World τ ν) : Bypasses keys world world :=
  ⟨rfl, rfl, rfl, fun _ _ => rfl, fun _ _ => rfl⟩

/-! ### Single changes -/

variable {engine : EngineId} {keys : Set String} {good : ν → Prop} {world : World τ ν}

namespace Attends

omit [Quantity τ] [ExactQuantity τ] in
theorem latest?_deliver (listening : world.correlator.running = true) (alert : Alert) (key : String) :
    (world.deliver alert).latest? key =
      if alert.key? = some key then some alert else world.latest? key := by
  unfold latest? deliver
  simp only [listening, if_true, note]
  cases alert with
  | result owner salt content sequence final =>
    simp only [Correlator.receive, listening, if_true, Correlator.accept, Entries.get?_insert,
      Alert.key?, Option.some_inj]
    by_cases same : key = infoHash owner salt
    · simp [same, LookupResult.alert]
    · simp [same, Ne.symm same]
  | _ => simp [Correlator.receive, listening, Correlator.accept, Alert.key?]

theorem deliver (attends : world.Attends engine keys good) (alert : Alert) :
    (world.deliver alert).Attends engine keys good := by
  have same : (world.deliver alert).correlator.running = true := by
    unfold World.deliver
    simp only [attends.listening, if_true, note]
    cases alert <;> simp [Correlator.receive, Correlator.accept, attends.listening]
  unfold World.deliver at same ⊢
  simp only [attends.listening, if_true] at same ⊢
  exact { attends with listening := same }

theorem withPatience (attends : world.Attends engine keys good) (patience : Nat) :
    (world.withPatience patience).Attends engine keys good :=
  { attends with }

/-- The clock may be put forward. -/
theorem advance (attends : world.Attends engine keys good) (time : τ) :
    (world.advance time).Attends engine keys good :=
  { attends with }

theorem schedule (attends : world.Attends engine keys good) (delay : τ) {event : Event ν}
    (tame : event.Tame engine keys good) : (world.schedule delay event).Attends engine keys good := by
  refine ⟨attends.installed, attends.up, attends.listening, attends.inGood,
    sorted_insertPending attends.sorted _, ?_, attends.tasks⟩
  intro pending member
  rcases List.mem_cons.mp ((insertPending_perm _ _).mem_iff.mp member) with rfl | member
  · exact tame
  · exact attends.tame pending member

end Attends

/-! ### Calls -/

/-- What a call of an engine changes: it has sent alerts off. -/
structure Sends (alerts : List (τ × Alert)) (before after : World τ ν) : Prop where
  settings : after.settings = before.settings
  clock : after.clock = before.clock
  tasks : after.tasks = before.tasks
  latest : ∀ key, after.latest? key = before.latest? key
  flight : ∀ key, (after.flight key).Perm (before.flight key ++
    (alerts.filter fun entry => entry.2.key? = some key).map
      fun entry => (Quantity.add before.clock entry.1, entry.2))
  silent : ∀ key, (∀ entry ∈ alerts, entry.2.key? ≠ some key) →
    after.flight key = before.flight key

/-- The world after alerts of an engine were sent off. -/
def send (engine : EngineId) (alerts : List (τ × Alert)) (world : World τ ν) : World τ ν :=
  alerts.foldl (fun world (delay, alert) => world.schedule delay (.emission engine alert)) world

omit [ExactQuantity τ] in
theorem sends_send (engine : EngineId) (alerts : List (τ × Alert)) (world : World τ ν) :
    Sends alerts world (world.send engine alerts) := by
  induction alerts generalizing world with
  | nil => exact ⟨rfl, rfl, rfl, fun _ => rfl, fun _ => by simp [send], fun _ _ => rfl⟩
  | cons entry rest ih =>
    obtain ⟨delay, alert⟩ := entry
    have others := ih (world.schedule delay (.emission engine alert))
    refine ⟨others.settings, others.clock, others.tasks, others.latest, fun key => ?_,
      fun key silent => ?_⟩
    · have first := flight_schedule key delay (.emission engine alert) world
      refine (others.flight key).trans ((first.append_right _).trans ?_)
      simp only [Pending.carried?, List.filter_cons]
      by_cases about : alert.key? = some key
      · simp only [about, if_true, Option.toList_some, decide_true, List.map_cons,
          List.singleton_append]
        exact List.perm_middle.symm
      · simp [about, schedule]
    · have rest := others.silent key fun entry member => silent entry (List.mem_cons_of_mem _ member)
      exact rest.trans (flight_schedule_silent (if_neg (silent _ (List.mem_cons_self ..))))

theorem Attends.send (attends : world.Attends engine keys good) (alerts : List (τ × Alert)) :
    (world.send engine alerts).Attends engine keys good := by
  induction alerts generalizing world with
  | nil => exact attends
  | cons entry rest ih => exact ih (attends.schedule entry.1 fun _ => rfl)

omit [ExactQuantity τ] in
theorem send_withPatience (engine : EngineId) (alerts : List (τ × Alert)) (patience : Nat)
    (world : World τ ν) :
    (world.withPatience patience).send engine alerts
      = (world.send engine alerts).withPatience patience := by
  induction alerts generalizing world with
  | nil => rfl
  | cons entry rest ih => exact ih (world.schedule entry.1 (.emission engine entry.2))

variable [Overlay τ ν]

/-- The world after an engine was called, but before its alerts are sent off. -/
def called (engine : EngineId) (call : EngineCall) (world : World τ ν) : World τ ν :=
  { world.note (.called engine call
      (isFailure (Overlay.ask (τ := τ) engine call world.overlay).outcome)) with
    overlay := (Overlay.ask (τ := τ) engine call world.overlay).overlay }

omit [ExactQuantity τ] in
theorem ask_withPatience (engine : EngineId) (call : EngineCall) (patience : Nat)
    (world : World τ ν) :
    (world.withPatience patience).ask engine call
      = ((world.ask engine call).1, (world.ask engine call).2.withPatience patience) :=
  Prod.ext rfl (send_withPatience engine (Overlay.ask (τ := τ) engine call world.overlay).alerts
    patience (world.called engine call))

omit [ExactQuantity τ] in
theorem sends_ask (engine : EngineId) (call : EngineCall) (world : World τ ν) :
    Sends (Overlay.ask engine call world.overlay).alerts world (world.ask engine call).2 := by
  have sends := sends_send engine (Overlay.ask (τ := τ) engine call world.overlay).alerts
    (world.called engine call)
  exact ⟨sends.settings, sends.clock, sends.tasks, sends.latest, sends.flight, sends.silent⟩

theorem Attends.ask (attends : world.Attends engine keys good) {call : EngineCall}
    (stable : good (Overlay.ask (τ := τ) engine call world.overlay).overlay) :
    (world.ask engine call).2.Attends engine keys good := by
  have called : Attends engine keys good (world.called engine call) :=
    { attends with inGood := stable }
  exact called.send _

/-! ### Due events -/

omit [Quantity τ] [ExactQuantity τ] [Overlay τ ν] in
theorem deliver_withPatience (alert : Alert) (patience : Nat) (world : World τ ν) :
    (world.withPatience patience).deliver alert = (world.deliver alert).withPatience patience := by
  by_cases running : world.correlator.running = true
  · simp [deliver, withPatience, note, running]
  · simp [deliver, withPatience, running]

/-- How many events come of those that are due. -/
def load (world : World τ ν) : Nat := (world.queue.map fun pending => pending.event.weight).sum

/-- The world in which the next event is taken from the queue. -/
def taken (next : Pending τ ν) (rest : List (Pending τ ν)) (world : World τ ν) : World τ ν :=
  { world with queue := rest }.advance next.time

omit [Quantity τ] [ExactQuantity τ] [Overlay τ ν] in
/-- A session that is not down is up. -/
theorem isUp_of_not_isDown {state : SessionState} (up : Session.isDown state = false) :
    Session.isUp state = true := by
  cases state <;> first | rfl | cases up

/-- What handling one event comes to. -/
structure Handles (engine : EngineId) (keys : Set String) (good : ν → Prop) (due : Due τ ν)
    (world : World τ ν) : Prop where
  attends : (world.handle due).Attends engine keys good
  settles : Settles keys world (world.handle due)
  commutes : ∀ patience,
    (world.withPatience patience).handle due = (world.handle due).withPatience patience

section Event

variable {next : Pending τ ν} {rest : List (Pending τ ν)}

omit [Overlay τ ν] in
theorem Attends.taken (attends : world.Attends engine keys good) (queue : world.queue = next :: rest) :
    (world.taken next rest).Attends engine keys good := by
  have sorted := attends.sorted
  rw [queue] at sorted
  refine ⟨attends.installed, attends.up, attends.listening, attends.inGood,
    (List.pairwise_cons.mp sorted).2, ?_, attends.tasks⟩
  intro pending member
  exact attends.tame pending (by rw [queue]; exact List.mem_cons_of_mem _ member)

omit [ExactQuantity τ] [Overlay τ ν] in
theorem flight_taken (queue : world.queue = next :: rest) (key : String) :
    world.flight key = (next.carried? key).toList ++ (world.taken next rest).flight key := by
  rw [flight, queue, List.filterMap_cons]
  cases next.carried? key <;> rfl

omit [Overlay τ ν] in
/-- An event that brings nothing of the items leaves them alone. -/
theorem Bypasses.settles {after : World τ ν} (queue : world.queue = next :: rest)
    (silent : ∀ key ∈ keys, next.carried? key = none)
    (bypasses : Bypasses keys (world.taken next rest) after) : Settles keys world after := by
  refine ⟨bypasses.settings, ?_, fun key member => .of_eq ?_ (bypasses.latest key member)⟩
  · rw [bypasses.clock]
    simp [World.taken, World.advance]
  · rw [flight_taken queue, silent key member, bypasses.flight key member]
    rfl

omit [Quantity τ] [ExactQuantity τ] [Overlay τ ν] in
/-- What a delivered alert changes is the correlator's and the journal's. -/
theorem deliver_same (alert : Alert) (world : World τ ν) :
    (world.deliver alert).settings = world.settings ∧ (world.deliver alert).clock = world.clock ∧
      (world.deliver alert).queue = world.queue ∧ (world.deliver alert).tasks = world.tasks := by
  unfold deliver
  split <;> exact ⟨rfl, rfl, rfl, rfl⟩

omit [Overlay τ ν] in
/-- An alert about an item that comes down is the latest. -/
theorem settles_of_landing {alert : Alert} (queue : world.queue = next :: rest)
    (attends : world.Attends engine keys good)
    (carried : ∀ key ∈ keys, next.carried? key =
      if alert.key? = some key then some (next.time, alert) else none) :
    Settles keys world ((world.taken next rest).deliver alert) := by
  have listening : (world.taken next rest).correlator.running = true := attends.listening
  obtain ⟨settings, clock, queued, -⟩ := deliver_same alert (world.taken next rest)
  refine ⟨settings, ?_, fun key member => ?_⟩
  · rw [clock]
    simp [World.taken, World.advance]
  · have flight : ((world.taken next rest).deliver alert).flight key
        = (world.taken next rest).flight key := by
      rw [World.flight, queued]
      rfl
    refine ⟨(next.carried? key).toList, ?_, ?_⟩
    · rw [flight, flight_taken queue]
    · rw [Attends.latest?_deliver listening, carried key member]
      split <;> rfl

omit [ExactQuantity τ] [Overlay τ ν] in
theorem load_taken (queue : world.queue = next :: rest) :
    world.load = next.event.weight + (world.taken next rest).load := by
  rw [load, queue, List.map_cons, List.sum_cons]
  rfl

omit [ExactQuantity τ] [Overlay τ ν] in
theorem load_schedule (delay : τ) (event : Event ν) (world : World τ ν) :
    (world.schedule delay event).load = event.weight + world.load := by
  have perm := (insertPending_perm ⟨Quantity.add world.clock delay, event⟩ world.queue).map
    fun pending => pending.event.weight
  rw [load, load, ← List.sum_cons]
  exact perm.sum_eq

/-- An alert that is due comes down, and leaves less to be handled. -/
theorem Attends.handles_alert (attends : world.Attends engine keys good) {alert : Alert}
    (queue : world.queue = next :: rest)
    (perform : ∀ other : World τ ν, other.overlay = world.overlay →
      other.perform next.event = other.deliver alert)
    (carried : ∀ key ∈ keys, next.carried? key =
      if alert.key? = some key then some (next.time, alert) else none) :
    Handles engine keys good (.event next rest) world ∧
      (world.handle (.event next rest)).tasks = world.tasks ∧
      (world.handle (.event next rest)).load < world.load := by
  have same : world.handle (.event next rest) = (world.taken next rest).deliver alert :=
    perform (world.taken next rest) rfl
  obtain ⟨-, -, queued, tasks⟩ := deliver_same alert (world.taken next rest)
  refine ⟨⟨?_, ?_, ?_⟩, ?_, ?_⟩
  · rw [same]
    exact (attends.taken queue).deliver alert
  · rw [same]
    exact settles_of_landing queue attends carried
  · intro patience
    rw [same, ← deliver_withPatience]
    exact perform ((world.taken next rest).withPatience patience) rfl
  · rw [same, tasks]
    rfl
  · rw [same, load_taken queue, load, queued]
    have positive : 0 < next.event.weight := by cases next.event <;> exact Nat.succ_pos _
    exact Nat.lt_add_of_pos_left positive

/-- An event that brings nothing of the items is handled, and leaves less to be handled. What becomes
of it must not hang on how patient the session is. -/
theorem handles_silent (after : World τ ν) (queue : world.queue = next :: rest)
    (silent : ∀ key ∈ keys, next.carried? key = none)
    (perform : ∀ patience, ((world.taken next rest).withPatience patience).perform next.event
      = after.withPatience patience)
    (patience : after.patience = world.patience) (stays : after.Attends engine keys good)
    (bypasses : Bypasses keys (world.taken next rest) after)
    (load : after.load < next.event.weight + (world.taken next rest).load) :
    Handles engine keys good (.event next rest) world ∧
      (world.handle (.event next rest)).tasks = world.tasks ∧
      (world.handle (.event next rest)).load < world.load := by
  have same : world.handle (.event next rest) = after := by
    refine (perform world.patience).trans ?_
    rw [← patience]
    rfl
  refine ⟨⟨?_, ?_, ?_⟩, ?_, ?_⟩
  · rw [same]
    exact stays
  · rw [same]
    exact bypasses.settles queue silent
  · intro patience
    rw [same]
    exact perform patience
  · rw [same]
    exact bypasses.tasks
  · rw [same, load_taken queue]
    exact load

/-- An event that is due is handled, and leaves less to be handled. -/
theorem Attends.handles_event (attends : world.Attends engine keys good)
    (running : Running τ engine keys good) (queue : world.queue = next :: rest) :
    Handles engine keys good (.event next rest) world ∧
      (world.handle (.event next rest)).tasks = world.tasks ∧
      (world.handle (.event next rest)).load < world.load := by
  have taken := attends.taken queue
  have tame := attends.tame next (by rw [queue]; exact List.mem_cons_self ..)
  obtain ⟨time, event⟩ := next
  cases event with
  | alert alert =>
    refine attends.handles_alert queue (fun _ _ => rfl) ?_
    intro key member
    rw [if_neg fun about => tame ⟨key, member, about⟩]
    rfl
  | emission origin alert =>
    by_cases delivered : Overlay.delivers τ origin world.overlay = true
    · refine attends.handles_alert queue (fun other overlay => if_pos ?_) fun key _ => rfl
      rw [overlay]
      exact delivered
    · refine handles_silent _ queue (fun key member => if_neg fun about => delivered ?_)
        (fun _ => if_neg delivered) rfl taken (.refl _) (Nat.lt_add_of_pos_left Nat.one_pos)
      rw [tame ⟨key, member, about⟩]
      exact running.delivers _ attends.inGood
  | announcement alert =>
    by_cases none : world.engines = 0
    · exact handles_silent _ queue (fun _ _ => rfl) (fun _ => if_pos none) rfl taken (.refl _)
        (Nat.lt_add_of_pos_left (Nat.succ_pos 1))
    · have silent : ∀ key ∈ keys, alert.key? ≠ some key :=
        fun key member about => tame ⟨key, member, about⟩
      refine handles_silent
        ((world.taken ⟨time, .announcement alert⟩ rest).schedule Quantity.zero
          (.emission world.engines alert))
        queue (fun _ _ => rfl) (fun _ => if_neg none) rfl
        (taken.schedule _ fun about => (tame about).elim) ?_ ?_
      · exact ⟨rfl, rfl, rfl, fun key member => flight_schedule_silent (if_neg (silent key member)),
          fun _ _ => rfl⟩
      · rw [load_schedule]
        exact Nat.add_lt_add_right (Nat.lt_succ_self 1) _
  | start =>
    -- A session that is up is not started again.
    exact handles_silent _ queue (fun _ _ => rfl)
      (fun _ => if_pos (isUp_of_not_isDown taken.up)) rfl taken (.refl _)
      (Nat.lt_add_of_pos_left Nat.one_pos)
  | stop => exact tame.elim
  | close => exact tame.elim
  | halt => exact tame.elim
  | overlay change =>
    let after := world.taken ⟨time, .overlay change⟩ rest
    exact handles_silent { after with overlay := change after.overlay } queue (fun _ _ => rfl)
      (fun _ => rfl) rfl { taken with inGood := tame _ taken.inGood }
      ⟨rfl, rfl, rfl, fun _ _ => rfl, fun _ _ => rfl⟩ (Nat.lt_add_of_pos_left Nat.one_pos)
  | readiness change =>
    let after := world.taken ⟨time, .readiness change⟩ rest
    exact handles_silent { after with readiness := after.readiness.map change } queue (fun _ _ => rfl)
      (fun _ => rfl) rfl { taken with }
      ⟨rfl, rfl, rfl, fun _ _ => rfl, fun _ _ => rfl⟩ (Nat.lt_add_of_pos_left Nat.one_pos)

end Event

end World

end DhtRecords
