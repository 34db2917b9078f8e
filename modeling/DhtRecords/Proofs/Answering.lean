/-
Lookups that an engine answers.

`Serving` says that an engine answers every lookup of some items, if something is
stored under the item by one result within a time, and else not at all. A session
that stays running can then wait for the answer: `Attends.lookup` says what a lookup
finds and what it leaves in flight, and `Quiet` and `Genuine` are two states of
the flight in which it finds what is stored.
-/

import DhtRecords.Proofs.Waiting

namespace DhtRecords

open ExactQuantity (value)

variable {τ ν : Type}

/-! ### Answers -/

/-- The info hash of an item that is given by its owner and its salt. -/
def keyOf (item : Bytes × String) : String := infoHash item.1 item.2

/-- The alerts that bring results of an item. -/
def alertsAbout (key : String) (alerts : List (τ × Alert)) : List (τ × Alert) :=
  alerts.filter fun entry => entry.2.key? = some key

/-- Whether alerts with their times are the answer to a lookup: one result by a time, if an item with a
value and a sequence number is stored, or else none. -/
def Answers [Quantity τ] [ExactQuantity τ] (latest : ℚ) (item : Bytes × String) :
    Option (Bytes × Int) → List (τ × Alert) → Prop
  | none, alerts => alerts = []
  | some (content, sequence), alerts => ∃ time final,
    alerts = [(time, .result item.1 item.2 content sequence final)] ∧ value time ≤ latest

/-- Whether an engine, in the good states of an overlay, runs and answers the lookups of items within a
time by what is stored. -/
structure Serving [Quantity τ] [ExactQuantity τ] [Overlay τ ν] (engine : EngineId)
    (items : Set (Bytes × String)) (stored : Bytes × String → Option (Bytes × Int)) (limit : τ)
    (good : ν → Prop) : Prop extends Running τ engine (keyOf '' items) good where
  accepts : ∀ item ∈ items, ∀ overlay, good overlay →
    (Overlay.ask (τ := τ) engine (.lookup item.1 item.2) overlay).outcome = .ok ()
  remains : ∀ item ∈ items, ∀ overlay, good overlay →
    good (Overlay.ask (τ := τ) engine (.lookup item.1 item.2) overlay).overlay
  answers : ∀ item ∈ items, ∀ overlay, good overlay → Answers (value limit) item (stored item)
    (alertsAbout (keyOf item) (Overlay.ask (τ := τ) engine (.lookup item.1 item.2) overlay).alerts)
  others : ∀ item ∈ items, ∀ overlay, good overlay → ∀ key ∈ keyOf '' items, key ≠ keyOf item →
    alertsAbout key (Overlay.ask (τ := τ) engine (.lookup item.1 item.2) overlay).alerts = []

/-- It is only what is stored under the items that counts. -/
theorem Serving.of_eq [Quantity τ] [ExactQuantity τ] [Overlay τ ν] {engine : EngineId}
    {items : Set (Bytes × String)} {stored stored' : Bytes × String → Option (Bytes × Int)} {limit : τ}
    {good : ν → Prop} (serving : Serving engine items stored limit good)
    (same : ∀ item ∈ items, stored' item = stored item) : Serving engine items stored' limit good := by
  refine ⟨serving.toRunning, serving.accepts, serving.remains, ?_, serving.others⟩
  intro item member overlay inGood
  rw [same item member]
  exact serving.answers item member overlay inGood

/-- Whether an alert is a result with what is stored. -/
def Alert.Brings (content : Option (Bytes × Int)) : Alert → Prop
  | .result _ _ held sequence _ => content = some (held, sequence)
  | _ => False

/-- Whether a lookup of an item has come to what is stored. -/
def Get.Fits (item : Bytes × String) (timeout : τ) :
    Option (Bytes × Int) → Except (Get.Error τ) Get.Found → Prop
  | none, outcome => outcome = .error (.timedOut item.2 timeout)
  | some (content, sequence), outcome => ∃ final, outcome = .ok ⟨content, sequence, final⟩

namespace World

variable [Quantity τ] [ExactQuantity τ] [Overlay τ ν] {engine : EngineId}
  {items : Set (Bytes × String)} {stored : Bytes × String → Option (Bytes × Int)} {limit : τ}
  {good : ν → Prop} {keys : Set String} {world : World τ ν}

/-! ### Waits with enough patience -/

/-- A wait up to a deadline leads to one world if there is enough patience. -/
theorem Attends.run_eq (attends : world.Attends engine keys good)
    (running : Running τ engine keys good) (deadline : τ) (condition : World τ ν → Bool)
    (steady : ∀ patience world, condition (world.withPatience patience) = condition world) :
    ∃ after, (∃ enough, ∀ patience ≥ enough,
        (world.withPatience patience).run deadline condition = after.withPatience patience) ∧
      after.Attends engine keys good ∧ Settles keys world after ∧
      (condition after = true ∨ ∀ pending ∈ after.queue, value deadline < value pending.time) := by
  obtain ⟨after, ends, attended, settled, outcome⟩ := attends.wait running deadline condition
  obtain ⟨enough, runs⟩ := runFor_of_ends steady ends
  refine ⟨after, ⟨enough, fun patience more => runs patience more patience⟩, attended, settled, ?_⟩
  exact outcome.imp_right And.right

/-- A pause leads to one world if there is enough patience. -/
theorem Attends.sleep (attends : world.Attends engine keys good)
    (running : Running τ engine keys good) (pause : τ) :
    ∃ after, Op.Yields (modify (World.sleep pause)) world ⟨⟩ after ∧
      after.Attends engine keys good ∧ Settles keys world after := by
  obtain ⟨after, ⟨enough, runs⟩, attended, settled, -⟩ :=
    attends.run_eq running (Quantity.add world.clock pause) (fun _ => false) fun _ _ => rfl
  refine ⟨after, ⟨enough, fun patience more => ?_⟩, attended, settled⟩
  rw [Op.run_modify]
  exact congrArg _ (runs patience more)

omit [Overlay τ ν] in
/-- A wait for a time goes on at least for that time. -/
theorem value_deadline (clock timeout : τ) :
    value clock + value timeout
      ≤ value (Quantity.add clock (Quantity.later Quantity.zero timeout)) := by
  simp

/-- A wait for several results leads to one world if there is enough patience: all have come, or what
was due in that time has. -/
theorem Attends.waitForAll (attends : world.Attends engine keys good)
    (running : Running τ engine keys good) (names : List String) (timeout : τ) :
    ∃ arrived after, Op.Yields (modifyGet (Get.waitForAll names timeout)) world arrived after ∧
      after.Attends engine keys good ∧ Settles keys world after ∧
      (after.correlator.hasAll names = true ∨
        ∀ pending ∈ after.queue, value world.clock + value timeout < value pending.time) := by
  by_cases empty : names.isEmpty = true
  · refine ⟨true, world, .of_run fun patience => ?_, attends, .refl world, .inl ?_⟩
    · rw [Op.run_modifyGet, Get.waitForAll, if_pos empty]
    · obtain rfl : names = [] := by simpa using empty
      rfl
  · obtain ⟨after, ⟨enough, runs⟩, attended, settled, outcome⟩ :=
      attends.run_eq running (Quantity.add world.clock (Quantity.later Quantity.zero timeout))
        (fun world => world.correlator.hasAll names || !world.correlator.running)
        fun _ _ => rfl
    refine ⟨after.correlator.hasAll names, after,
      .modifyGet ⟨enough, fun patience more => ?_⟩, attended, settled, ?_⟩
    · have waited := runs patience more
      rw [Get.waitForAll, if_neg empty]
      exact Prod.ext (congrArg (fun world => world.correlator.hasAll names) waited) waited
    · rcases outcome with holds | late
      · rw [attended.listening] at holds
        exact .inl (by simpa using holds)
      · exact .inr fun pending member =>
          (value_deadline world.clock timeout).trans_lt (late pending member)

/-- A wait for a result leads to one world if there is enough patience: it has come, or what was due in
that time has. -/
theorem Attends.waitForResult (attends : world.Attends engine keys good)
    (running : Running τ engine keys good) (key : String) (timeout : τ) :
    ∃ after, Op.Yields (modifyGet (Get.waitForResult key timeout false)) world
        (after.correlator.result? key) after ∧
      after.Attends engine keys good ∧ Settles keys world after ∧
      ((after.correlator.result? key).isSome = true ∨
        ∀ pending ∈ after.queue, value world.clock + value timeout < value pending.time) := by
  have ready (world : World τ ν) :
      world.correlator.readyResult? key false = world.correlator.result? key := by
    unfold Correlator.readyResult?
    cases world.correlator.result? key <;> rfl
  obtain ⟨after, ⟨enough, runs⟩, attended, settled, outcome⟩ :=
    attends.run_eq running (Quantity.add world.clock (Quantity.later Quantity.zero timeout))
      (fun world => (world.correlator.readyResult? key false).isSome || !world.correlator.running)
      fun _ _ => rfl
  refine ⟨after, .modifyGet ⟨enough, fun patience more => ?_⟩, attended, settled, ?_⟩
  · have waited := runs patience more
    have found := congrArg (fun world => world.correlator.readyResult? key false) waited
    exact Prod.ext (found.trans (ready _)) waited
  · rcases outcome with holds | late
    · rw [attended.listening, ready] at holds
      exact .inl (by simpa using holds)
    · exact .inr fun pending member =>
        (value_deadline world.clock timeout).trans_lt (late pending member)

/-! ### Firing a lookup -/

/-- The world after a lookup was fired. -/
def fired (engine : EngineId) (item : Bytes × String) (world : World τ ν) : World τ ν :=
  ((world.ask engine .isRunning).2.ask engine (.lookup item.1 item.2)).2

omit [ExactQuantity τ] in
theorem fired_withPatience (engine : EngineId) (item : Bytes × String) (patience : Nat)
    (world : World τ ν) :
    (world.withPatience patience).fired engine item
      = (world.fired engine item).withPatience patience := by
  have asking := congrArg Prod.snd (ask_withPatience engine .isRunning patience world)
  have looking := congrArg Prod.snd
    (ask_withPatience engine (.lookup item.1 item.2) patience (world.ask engine .isRunning).2)
  unfold fired
  rw [asking]
  exact looking

omit [ExactQuantity τ] in
/-- A session whose engine is running is found to be so. -/
theorem run_ensureRunning (installed : world.session.engine = some engine)
    (up : Session.isDown world.session.state = false) (running : Running τ engine keys good)
    (inGood : good world.overlay) :
    Session.ensureRunning.run world = (.ok none, (world.ask engine .isRunning).2) := by
  unfold Session.ensureRunning
  rw [Op.run_bind_ok (Op.run_get world)]
  simp only [installed, up]
  rw [Op.run_bind_ok (run_checkRunning running inGood)]
  rfl

/-- A lookup that the engine takes is fired. -/
theorem Attends.run_fire (attends : world.Attends engine keys good)
    (running : Running τ engine keys good) {item : Bytes × String}
    (accepts : ∀ overlay, good overlay →
      (Overlay.ask (τ := τ) engine (.lookup item.1 item.2) overlay).outcome = .ok ()) :
    (Get.fire item.1 item.2).run world = (.ok (.ok ()), world.fired engine item) := by
  have asked := attends.ask (running.stable _ attends.inGood)
  have accepted := accepts _ asked.inGood
  have ensured := run_ensureRunning attends.installed attends.up running attends.inGood
  have looked : (Op.ask engine (.lookup item.1 item.2)).run (world.ask engine .isRunning).2
      = (.ok (), world.fired engine item) := by
    have asking : (world.ask engine .isRunning).2.ask engine (.lookup item.1 item.2)
        = (.ok (), world.fired engine item) := Prod.ext accepted rfl
    rw [Op.run_ask, asking]
  unfold Get.fire
  rw [Op.run_bind_ok ensured]
  simp only [Option.isSome_none, Bool.false_eq_true, if_false]
  rw [Op.run_bind_ok (Op.run_get _)]
  simp only [asked.installed]
  rw [Op.run_bind_ok looked]
  rfl

theorem Attends.fire_of_accepts (attends : world.Attends engine keys good)
    (running : Running τ engine keys good) {item : Bytes × String}
    (accepts : ∀ overlay, good overlay →
      (Overlay.ask (τ := τ) engine (.lookup item.1 item.2) overlay).outcome = .ok ()) :
    Op.Yields (Get.fire item.1 item.2) world (.ok ()) (world.fired engine item) := by
  refine .of_run fun patience => ?_
  rw [(attends.withPatience patience).run_fire running accepts, fired_withPatience]

theorem Attends.fire (attends : world.Attends engine (keyOf '' items) good)
    (serving : Serving engine items stored limit good) {item : Bytes × String} (member : item ∈ items) :
    Op.Yields (Get.fire item.1 item.2) world (.ok ()) (world.fired engine item) :=
  attends.fire_of_accepts serving.toRunning (serving.accepts item member)

theorem Attends.fired (attends : world.Attends engine (keyOf '' items) good)
    (serving : Serving engine items stored limit good) {item : Bytes × String} (member : item ∈ items) :
    (world.fired engine item).Attends engine (keyOf '' items) good := by
  have asked := attends.ask (serving.stable _ attends.inGood)
  exact asked.ask (serving.remains item member _ asked.inGood)

/-- What a fired lookup of an item changes: its answer is in flight. -/
structure Fires (items : Set (Bytes × String)) (item : Bytes × String) (content : Option (Bytes × Int))
    (limit : τ) (before after : World τ ν) : Prop where
  settings : after.settings = before.settings
  clock : after.clock = before.clock
  latest : ∀ key ∈ keyOf '' items, after.latest? key = before.latest? key
  others : ∀ key ∈ keyOf '' items, key ≠ keyOf item → after.flight key = before.flight key
  own : ∃ answers, Answers (value before.clock + value limit) item content answers ∧
    (after.flight (keyOf item)).Perm (before.flight (keyOf item) ++ answers)

omit [Overlay τ ν] in
/-- Answers that are sent off at some time arrive within the same time after it. -/
theorem answers_sent {latest : ℚ} {item : Bytes × String} {content : Option (Bytes × Int)}
    {alerts : List (τ × Alert)} (answers : Answers latest item content alerts) (clock : τ) :
    Answers (value clock + latest) item content
      (alerts.map fun entry => (Quantity.add clock entry.1, entry.2)) := by
  cases content with
  | none =>
    obtain rfl : alerts = [] := answers
    rfl
  | some held =>
    obtain ⟨delay, final, rfl, soon⟩ := answers
    refine ⟨Quantity.add clock delay, final, rfl, ?_⟩
    rw [ExactQuantity.value_add]
    exact add_le_add_right soon _

theorem Attends.fires (attends : world.Attends engine (keyOf '' items) good)
    (serving : Serving engine items stored limit good) {item : Bytes × String} (member : item ∈ items) :
    Fires items item (stored item) limit world (world.fired engine item) := by
  have asked := attends.ask (serving.stable _ attends.inGood)
  have asking := sends_ask engine .isRunning world
  have looking := sends_ask engine (.lookup item.1 item.2) (world.ask engine .isRunning).2
  have silent (key : String) (about : key ∈ keyOf '' items) :
      (world.ask engine .isRunning).2.flight key = world.flight key :=
    asking.silent key fun entry sent same =>
      serving.quiet _ attends.inGood entry.1 entry.2 sent ⟨key, about, same⟩
  refine ⟨looking.settings.trans asking.settings, looking.clock.trans asking.clock, ?_, ?_, ?_⟩
  · intro key _
    exact (looking.latest key).trans (asking.latest key)
  · intro key about other
    have none := serving.others item member _ asked.inGood key about other
    refine (looking.silent key fun entry sent same => ?_).trans (silent key about)
    have present : entry ∈ alertsAbout key
        (Overlay.ask (τ := τ) engine (.lookup item.1 item.2)
          (world.ask engine .isRunning).2.overlay).alerts :=
      List.mem_filter.mpr ⟨sent, by simpa using same⟩
    rw [none] at present
    cases present
  · have sent := looking.flight (keyOf item)
    rw [silent _ ⟨item, member, rfl⟩] at sent
    have answers := answers_sent (serving.answers item member _ asked.inGood) world.clock
    rw [asking.clock] at sent
    exact ⟨_, answers, sent⟩

/-! ### Looking up -/

section Forget

omit [ExactQuantity τ] [Overlay τ ν]

omit [Quantity τ] in
theorem latest?_forget (item : Bytes × String) (key : String) (world : World τ ν) :
    (Get.forget item.1 item.2 world).latest? key =
      if key = keyOf item then none else world.latest? key := by
  unfold latest? Get.forget Correlator.forget keyOf
  simp only [Entries.get?_erase]
  split <;> rfl

theorem Attends.forget [ExactQuantity τ] (attends : world.Attends engine keys good)
    (item : Bytes × String) : (Get.forget item.1 item.2 world).Attends engine keys good :=
  { attends with }

end Forget

/-- What a lookup has found, or that it has timed out, if the correlator has a result in the end. -/
def outcomeOf (item : Bytes × String) (timeout : τ) (result : Option (LookupResult τ)) :
    Except (Get.Error τ) Get.Found :=
  match result with
  | some result => .ok ⟨result.value, result.sequence, result.final⟩
  | none => .error (.timedOut item.2 timeout)

/-- What a lookup of an item comes to. An answer is sent off, and what has come down of the item is what
was in flight about it before, or this answer; the last of it is what was found. -/
structure LooksUp (items : Set (Bytes × String)) (item : Bytes × String)
    (content : Option (Bytes × Int)) (limit timeout : τ) (before : World τ ν)
    (outcome : Except (Get.Error τ) Get.Found) (after : World τ ν) : Prop where
  settings : after.settings = before.settings
  clock : value before.clock ≤ value after.clock
  others : ∀ key ∈ keyOf '' items, key ≠ keyOf item → Drains key before after
  own : ∃ answers landed, Answers (value before.clock + value limit) item content answers ∧
    (landed ++ after.flight (keyOf item)).Perm (before.flight (keyOf item) ++ answers) ∧
    (answers ≠ [] → landed ≠ []) ∧
    after.latest? (keyOf item) = landed.getLast?.map Prod.snd
  outcome : outcome = outcomeOf item timeout (after.correlator.result? (keyOf item))

omit [Quantity τ] [ExactQuantity τ] [Overlay τ ν] in
theorem exists_pending_of_mem_flight {key : String} {entry : τ × Alert}
    (member : entry ∈ world.flight key) : ∃ pending ∈ world.queue, pending.time = entry.1 := by
  obtain ⟨pending, queued, carried⟩ := List.mem_filterMap.mp member
  refine ⟨pending, queued, ?_⟩
  unfold Pending.carried? at carried
  split at carried
  · split at carried
    · cases carried
      rfl
    · cases carried
  · cases carried

omit [Quantity τ] [ExactQuantity τ] [Overlay τ ν] in
theorem latest?_eq_none_iff {key : String} :
    world.latest? key = none ↔ world.correlator.result? key = none := by
  simp [latest?, Correlator.result?]

omit [Overlay τ ν] in
/-- An answer has come down at the latest when the time for it is over. -/
theorem landed_of_answered {item : Bytes × String} {content : Option (Bytes × Int)} {timeout : τ}
    {fired waited : World τ ν} {answers landed : List (τ × Alert)}
    (answered : Answers (value fired.clock + value limit) item content answers)
    (inFlight : ∀ entry ∈ answers, entry ∈ fired.flight (keyOf item))
    (came : fired.flight (keyOf item) = landed ++ waited.flight (keyOf item))
    (latest : waited.latest? (keyOf item) = landed.getLast?.map Prod.snd)
    (arrived : (waited.correlator.result? (keyOf item)).isSome = true ∨
      ∀ pending ∈ waited.queue, value fired.clock + value timeout < value pending.time)
    (inTime : value limit ≤ value timeout) (present : answers ≠ []) : landed ≠ [] := by
  rintro rfl
  rcases arrived with known | late
  · have unknown := latest?_eq_none_iff.mp latest
    rw [unknown] at known
    cases known
  · cases content with
    | none => exact present answered
    | some held =>
      obtain ⟨time, final, rfl, soon⟩ := answered
      have flying := inFlight _ (List.mem_singleton_self _)
      rw [came, List.nil_append] at flying
      obtain ⟨pending, queued, same⟩ := exists_pending_of_mem_flight flying
      have after := late pending queued
      rw [same] at after
      linarith

/-- A waiting lookup of an item that the engine answers. -/
theorem Attends.lookup (attends : world.Attends engine (keyOf '' items) good)
    (serving : Serving engine items stored limit good) {item : Bytes × String}
    (member : item ∈ items) {timeout : τ} (inTime : value limit ≤ value timeout) :
    ∃ outcome after, Op.Yields (Get.lookup item.1 item.2 timeout false) world outcome after ∧
      after.Attends engine (keyOf '' items) good ∧
      LooksUp items item (stored item) limit timeout world outcome after := by
  have about : keyOf item ∈ keyOf '' items := ⟨item, member, rfl⟩
  have forgotten := attends.forget item
  have fires := forgotten.fires serving member
  obtain ⟨waited, waits, attended, settled, arrived⟩ :=
    (forgotten.fired serving member).waitForResult serving.toRunning (keyOf item) timeout
  obtain ⟨answers, answered, flight⟩ := fires.own
  obtain ⟨landed, came, latest⟩ := settled.drains _ about
  -- what was known before has been forgotten
  rw [fires.latest _ about, latest?_forget, if_pos rfl, Option.or_none] at latest
  have sent := answered
  rw [← fires.clock] at sent
  have down : answers ≠ [] → landed ≠ [] :=
    landed_of_answered sent (fun entry sent => flight.mem_iff.mpr (List.mem_append_right _ sent))
      came latest arrived inTime
  rw [came] at flight
  have others (key : String) (about : key ∈ keyOf '' items) (other : key ≠ keyOf item) :
      Drains key world waited := by
    refine Drains.trans (.of_eq ?_ ?_) (settled.drains key about)
    · exact fires.others key about other
    · rw [fires.latest key about, latest?_forget, if_neg other]
  have settings : waited.settings = world.settings := settled.settings.trans fires.settings
  have clock : value world.clock ≤ value waited.clock := by
    have later := settled.clock
    rw [fires.clock] at later
    exact later
  cases known : waited.correlator.result? (keyOf item) with
  | some result =>
    refine ⟨.ok ⟨result.value, result.sequence, result.final⟩, waited, ?_, attended, settings, clock,
      others, ⟨answers, landed, answered, flight, down, latest⟩, by rw [known]; rfl⟩
    unfold Get.lookup
    refine .bind (.modify fun _ => rfl) (.bind (forgotten.fire serving member) (.bind waits ?_))
    rw [known]
    exact .pure _ _
  | none =>
    have unknown : (Get.forget item.1 item.2 waited).latest? (keyOf item)
        = landed.getLast?.map Prod.snd := by
      rw [latest?_forget, if_pos rfl, ← latest, latest?_eq_none_iff.mpr known]
    refine ⟨.error (.timedOut item.2 timeout), Get.forget item.1 item.2 waited, ?_,
      attended.forget item, settings, clock, ?_, ⟨answers, landed, answered, flight, down, unknown⟩, ?_⟩
    · unfold Get.lookup
      refine .bind (.modify fun _ => rfl) (.bind (forgotten.fire serving member) (.bind waits ?_))
      rw [known]
      refine .bind (.modify fun _ => rfl) (.get_bind (fun _ => rfl) ?_)
      have listening : (Get.forget item.1 item.2 waited).correlator.running = true :=
        attended.listening
      rw [if_pos listening]
      exact .pure _ _
    · intro key about other
      refine (others key about other).trans (.of_eq rfl ?_)
      rw [latest?_forget, if_neg other]
    · have forgot : (Get.forget item.1 item.2 waited).latest? (keyOf item) = none := by
        rw [latest?_forget, if_pos rfl]
      rw [latest?_eq_none_iff.mp forgot]
      rfl

/-! ### What lookups find -/

section Finding

variable {item : Bytes × String} {content : Option (Bytes × Int)} {timeout : τ}
  {before after : World τ ν} {outcome : Except (Get.Error τ) Get.Found}

omit [Overlay τ ν] in
theorem brings_of_answers {latest : ℚ} {answers : List (τ × Alert)}
    (answered : Answers latest item content answers) :
    ∀ entry ∈ answers, entry.2.Brings content := by
  intro entry member
  cases content with
  | none =>
    obtain rfl : answers = [] := answered
    cases member
  | some held =>
    obtain ⟨time, final, rfl, -⟩ := answered
    obtain rfl := List.mem_singleton.mp member
    rfl

omit [Quantity τ] [ExactQuantity τ] [Overlay τ ν] in
/-- A correlator that knows what is stored has the result that fits it. -/
theorem fits_of_latest {alert : Alert} (latest : after.latest? (keyOf item) = some alert)
    (brings : alert.Brings content) :
    Get.Fits item timeout content
      (outcomeOf item timeout (after.correlator.result? (keyOf item))) := by
  obtain ⟨result, known, rfl⟩ := Option.map_eq_some_iff.mp latest
  obtain rfl : content = some (result.value, result.sequence) := brings
  rw [Correlator.result?, known]
  exact ⟨result.final, rfl⟩

omit [Overlay τ ν] in
/-- A lookup comes to what is stored, if everything that is in flight of the item brings that. -/
theorem LooksUp.fits (looks : LooksUp items item content limit timeout before outcome after)
    (flying : ∀ entry ∈ before.flight (keyOf item), entry.2.Brings content) :
    Get.Fits item timeout content outcome ∧
      (∀ entry ∈ after.flight (keyOf item), entry.2.Brings content) ∧
      (∀ alert, after.latest? (keyOf item) = some alert → alert.Brings content) ∧
      (content.isSome = true → (after.latest? (keyOf item)).isSome = true) := by
  obtain ⟨answers, landed, answered, flight, down, latest⟩ := looks.own
  have brings (entry : τ × Alert) (member : entry ∈ landed ++ after.flight (keyOf item)) :
      entry.2.Brings content := by
    rcases List.mem_append.mp (flight.mem_iff.mp member) with before | sent
    · exact flying entry before
    · exact brings_of_answers answered entry sent
  rw [looks.outcome]
  cases last : landed.getLast? with
  | some entry =>
    rw [last, Option.map_some] at latest
    have lastBrings : entry.2.Brings content :=
      brings entry (List.mem_append_left _ (List.mem_of_getLast? last))
    refine ⟨fits_of_latest latest lastBrings,
      fun entry member => brings entry (List.mem_append_right _ member), ?_, fun _ => by rw [latest]; rfl⟩
    intro alert known
    rw [latest] at known
    cases known
    exact lastBrings
  | none =>
    obtain rfl : landed = [] := List.getLast?_eq_none_iff.mp last
    rw [last, Option.map_none] at latest
    have nothing : content = none := by
      cases content with
      | none => rfl
      | some held =>
        obtain ⟨time, final, rfl, -⟩ := answered
        exact absurd rfl (down (List.cons_ne_nil _ _))
    subst nothing
    refine ⟨?_, fun entry member => brings entry (List.mem_append_right _ member), ?_, by simp⟩
    · rw [latest?_eq_none_iff.mp latest]
      rfl
    · intro alert known
      rw [latest] at known
      cases known

/-- Whether nothing is in flight of items. -/
def Quiet (items : Set (Bytes × String)) (world : World τ ν) : Prop :=
  ∀ key ∈ keyOf '' items, world.flight key = []

omit [Overlay τ ν] in
/-- A lookup while nothing is in flight comes to what is stored, and leaves nothing in flight. -/
theorem LooksUp.quiet (looks : LooksUp items item content limit timeout before outcome after)
    (quiet : Quiet items before) (member : item ∈ items) :
    Get.Fits item timeout content outcome ∧ Quiet items after := by
  have none : before.flight (keyOf item) = [] := quiet _ ⟨item, member, rfl⟩
  refine ⟨(looks.fits (by simp [none])).1, fun key about => ?_⟩
  by_cases same : key = keyOf item
  · subst same
    obtain ⟨answers, landed, answered, flight, down, -⟩ := looks.own
    rw [none, List.nil_append] at flight
    have few := flight.length_eq
    rw [List.length_append] at few
    apply List.eq_nil_of_length_eq_zero
    cases content with
    | none =>
      obtain rfl : answers = [] := answered
      simp at few
      simp [few]
    | some held =>
      obtain ⟨time, final, rfl, -⟩ := answered
      have one := List.length_pos_of_ne_nil (down (List.cons_ne_nil _ _))
      rw [List.length_singleton] at few
      omega
  · obtain ⟨landed, came, -⟩ := looks.others key about same
    rw [quiet key about] at came
    exact (List.append_eq_nil_iff.mp came.symm).2

end Finding

end World

/-! ### The simulated overlay -/

namespace Simnet

/-- What a simulated overlay holds under an item. -/
def stored (net : Simnet τ) (item : Bytes × String) : Option (Bytes × Int) :=
  (net.items.get? item).map fun held => (held.value, held.sequence)

variable [Quantity τ] [ExactQuantity τ]

/-- Whether one engine of a simulated overlay is running with somebody to hand its alerts to, and lookups
are answered within a time by what is held and in no other way. -/
structure Honest (engine : EngineId) (limit : τ) (net : Simnet τ) : Prop where
  present : ∃ held, net.engines.get? engine = some held ∧ held.hollow = false ∧ held.running = true ∧
    held.aborted = false ∧ held.hasHandler = true
  stays : net.options.stopDuringCheck = false
  accepts : net.options.lookupFault = none
  answersAll : net.options.dropLookups = {}
  answersOnce : net.options.staleFirst = false
  silent : net.options.answerMissing = false
  soon : ∀ salt, value (net.delayOf salt) ≤ value limit

variable {engine : EngineId} {limit : τ} {net : Simnet τ}

omit [Quantity τ] [ExactQuantity τ] in
theorem alertsAbout_answers (once : net.options.staleFirst = false)
    (silent : net.options.answerMissing = false) (item : Bytes × String) (key : String) :
    alertsAbout key (net.answers item.1 item.2) =
      if key = keyOf item then
        match net.stored item with
        | none => []
        | some (content, sequence) => [(net.delayOf item.2,
            .result item.1 item.2 content sequence net.options.final)]
      else [] := by
  unfold answers stored
  cases net.items.get? item with
  | none => simp [silent, alertsAbout]
  | some held =>
    by_cases same : key = keyOf item
    · simp [once, alertsAbout, Alert.key?, same, keyOf]
    · have other : infoHash item.1 item.2 ≠ key := Ne.symm same
      simp [once, alertsAbout, Alert.key?, same, other]

theorem Honest.ask_isRunning (honest : net.Honest engine limit) :
    (Overlay.ask engine .isRunning net : Reaction τ (Simnet τ) Bool)
      = { outcome := .ok true, overlay := net } := by
  obtain ⟨held, found, hollow, running, aborted, -⟩ := honest.present
  simp [Overlay.ask, askEngine, answer, isRunning, found, hollow, running, aborted, honest.stays]

theorem Honest.ask_lookup (honest : net.Honest engine limit) (item : Bytes × String) :
    (Overlay.ask engine (.lookup item.1 item.2) net : Reaction τ (Simnet τ) Unit)
      = { outcome := .ok (), overlay := net, alerts := net.answers item.1 item.2 } := by
  obtain ⟨held, found, hollow, -⟩ := honest.present
  simp [Overlay.ask, askEngine, answer, lookup, found, hollow, honest.accepts, honest.answersAll]

/-- An honest simulated overlay serves what it holds. -/
theorem Honest.serving (honest : net.Honest engine limit) (items : Set (Bytes × String)) :
    Serving engine items net.stored limit (· = net) := by
  obtain ⟨held, found, hollow, running, aborted, handler⟩ := honest.present
  refine ⟨⟨?_, ?_, ?_, ?_, ?_⟩, ?_, ?_, ?_, ?_⟩
  · rintro _ rfl
    simp [Overlay.delivers, delivers, found, aborted, handler]
  · rintro _ rfl
    rw [honest.ask_isRunning]
  · rintro _ rfl
    rw [honest.ask_isRunning]
  · rintro _ rfl
    rw [honest.ask_isRunning]
  · rintro _ rfl delay alert sent
    rw [honest.ask_isRunning] at sent
    cases sent
  · rintro item - _ rfl
    rw [honest.ask_lookup]
  · rintro item - _ rfl
    rw [honest.ask_lookup]
  · rintro item - _ rfl
    rw [honest.ask_lookup, alertsAbout_answers honest.answersOnce honest.silent, if_pos rfl]
    cases stored _ item with
    | none => rfl
    | some content => exact ⟨_, _, rfl, honest.soon item.2⟩
  · rintro item - _ rfl key - other
    rw [honest.ask_lookup, alertsAbout_answers honest.answersOnce honest.silent, if_neg other]

end Simnet

namespace Seconds

theorem honest_net (items : Entries (Bytes × String) Simnet.Item) {limit : Seconds}
    (natural : 0 ≤ value limit) : (net items).Honest 1 limit :=
  ⟨⟨_, rfl, rfl, rfl, rfl, rfl⟩, rfl, rfl, rfl, rfl, rfl, fun _ => natural⟩

theorem attends_world (items : Entries (Bytes × String) Simnet.Item) (keys : Set String) :
    (world items).Attends 1 keys (· = net items) := by
  refine ⟨rfl, rfl, rfl, rfl, List.Pairwise.nil, ?_, ?_⟩
  · intro pending member
    cases member
  · intro task member
    cases member

end Seconds

end DhtRecords
