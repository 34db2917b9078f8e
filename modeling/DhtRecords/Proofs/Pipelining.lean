/-
Lookups that overlap.

When several lookups are fired before any is waited for, answers to earlier ones
may still be in flight while later ones are forgotten and asked for again. What
carries through is that everything in flight is what is stored (`Genuine`), that
the answer to every lookup fired is known or comes in time (`Busy`), and that
after a wait everything that is stored is known (`Arrived`). The steps of a
pipelined batch are taken from one of these to the next.
-/

import DhtRecords.Proofs.Held

namespace DhtRecords

open ExactQuantity (value)

variable {τ ν : Type}

/-- What is stored under items by a store that is addressed by info hashes, as the correlator is. -/
def storedBy (store : String → Option (Bytes × Int)) (item : Bytes × String) : Option (Bytes × Int) :=
  store (keyOf item)

namespace World

open Fetch

variable [Quantity τ] [ExactQuantity τ] {engine : EngineId} {items : Set (Bytes × String)}
  {good : ν → Prop} {settings : Settings τ} {store : String → Option (Bytes × Int)}
  {asked : Set String} {limit : τ} {world before after : World τ ν}

/-! ### What is in flight -/

/-- Whether what is in flight of items is what a store holds under their info hashes, and what is known
of those that were asked for as well. -/
structure Genuine (engine : EngineId) (items : Set (Bytes × String)) (good : ν → Prop)
    (settings : Settings τ) (store : String → Option (Bytes × Int)) (asked : Set String)
    (world : World τ ν) : Prop where
  attends : world.Attends engine (keyOf '' items) good
  settings : world.settings = settings
  names : asked ⊆ keyOf '' items
  flight : ∀ key ∈ keyOf '' items, ∀ entry ∈ world.flight key, entry.2.Brings (store key)
  known : ∀ key ∈ asked, ∀ alert, world.latest? key = some alert → alert.Brings (store key)

/-- Whether a result of an item is known, or one is in flight and due within a time. -/
def Promised (limit : τ) (key : String) (world : World τ ν) : Prop :=
  (world.latest? key).isSome = true ∨
    ∃ entry ∈ world.flight key, value entry.1 ≤ value world.clock + value limit

/-- Whether results of all stored items that were asked for are known or come within a time. -/
structure Busy (engine : EngineId) (items : Set (Bytes × String)) (good : ν → Prop)
    (settings : Settings τ) (store : String → Option (Bytes × Int)) (limit : τ) (asked : Set String)
    (world : World τ ν) : Prop extends Genuine engine items good settings store asked world where
  promised : ∀ key ∈ asked, (store key).isSome = true → world.Promised limit key

/-- Whether results of all stored items that were asked for are known. -/
structure Arrived (engine : EngineId) (items : Set (Bytes × String)) (good : ν → Prop)
    (settings : Settings τ) (store : String → Option (Bytes × Int)) (asked : Set String)
    (world : World τ ν) : Prop extends Genuine engine items good settings store asked world where
  present : ∀ key ∈ asked, (store key).isSome = true → (world.latest? key).isSome = true

/-- While time passes, what comes down is what is stored. -/
theorem Genuine.settles (genuine : before.Genuine engine items good settings store asked)
    (attends : after.Attends engine (keyOf '' items) good)
    (settles : Settles (keyOf '' items) before after) :
    after.Genuine engine items good settings store asked := by
  refine ⟨attends, settles.settings.trans genuine.settings, genuine.names, ?_, ?_⟩
  · intro key about entry flying
    exact genuine.flight key about entry ((settles.drains key about).mem_flight flying)
  · intro key member alert latest
    have about := genuine.names member
    rcases (settles.drains key about).latest?_cases latest with known | ⟨entry, flying, rfl⟩
    · exact genuine.known key member alert known
    · exact genuine.flight key about entry flying

/-- What is known of an item stays known, and what has been in flight comes down or stays in flight. -/
theorem Promised.drains {key : String} (promised : before.Promised limit key)
    (drains : Drains key before after) :
    (after.latest? key).isSome = true ∨
      ∃ entry ∈ after.flight key, value entry.1 ≤ value before.clock + value limit := by
  rcases promised with known | ⟨entry, flying, soon⟩
  · exact .inl (drains.isSome_latest? known)
  · rcases drains.mem_flight_or flying with still | known
    · exact .inr ⟨entry, still, soon⟩
    · exact .inl known

theorem Busy.settles (busy : before.Busy engine items good settings store limit asked)
    (attends : after.Attends engine (keyOf '' items) good)
    (settles : Settles (keyOf '' items) before after) :
    after.Busy engine items good settings store limit asked := by
  refine ⟨busy.toGenuine.settles attends settles, ?_⟩
  intro key member held
  rcases (busy.promised key member held).drains (settles.drains key (busy.names member)) with
    known | ⟨entry, still, soon⟩
  · exact .inl known
  · exact .inr ⟨entry, still, soon.trans (add_le_add_left settles.clock _)⟩

theorem Busy.mono {fewer : Set String} (busy : world.Busy engine items good settings store limit asked)
    (subset : fewer ⊆ asked) : world.Busy engine items good settings store limit fewer :=
  ⟨⟨busy.attends, busy.settings, subset.trans busy.names, busy.flight,
    fun key member => busy.known key (subset member)⟩,
    fun key member => busy.promised key (subset member)⟩

/-- Before anything is asked for nothing is promised. -/
theorem Genuine.busy (genuine : world.Genuine engine items good settings store asked) (limit : τ) :
    world.Busy engine items good settings store limit ∅ :=
  ⟨⟨genuine.attends, genuine.settings, Set.empty_subset _, genuine.flight, fun _ none => none.elim⟩,
    fun _ none => none.elim⟩

/-! ### Firing lookups -/

variable [Overlay τ ν]

section Firing

variable (serving : Serving engine items (storedBy store) limit good)

include serving

/-- A lookup of an item that is forgotten and fired promises its result. -/
theorem Busy.fired (busy : world.Busy engine items good settings store limit asked)
    {item : Bytes × String} (member : item ∈ items) :
    ((Get.forget item.1 item.2 world).fired engine item).Busy engine items good settings store limit
      (insert (keyOf item) asked) := by
  have forgotten := busy.attends.forget item
  have fires := forgotten.fires serving member
  have about : keyOf item ∈ keyOf '' items := ⟨item, member, rfl⟩
  obtain ⟨answers, answered, flight⟩ := fires.own
  have latest (key : String) (named : key ∈ keyOf '' items) :
      ((Get.forget item.1 item.2 world).fired engine item).latest? key =
        if key = keyOf item then none else world.latest? key :=
    (fires.latest key named).trans (latest?_forget item key world)
  refine ⟨⟨forgotten.fired serving member, fires.settings.trans busy.settings,
    Set.insert_subset about busy.names, ?_, ?_⟩, ?_⟩
  · intro key named entry flying
    by_cases same : key = keyOf item
    · subst same
      rcases List.mem_append.mp (flight.mem_iff.mp flying) with before | sent
      · exact busy.flight _ about entry before
      · exact brings_of_answers answered entry sent
    · rw [fires.others key named same] at flying
      exact busy.flight key named entry flying
  · intro key member alert known
    rw [latest key (Set.insert_subset about busy.names member)] at known
    split at known
    · cases known
    · next other =>
      exact busy.known key (Set.mem_of_mem_insert_of_ne member other) alert known
  · intro key member held
    by_cases same : key = keyOf item
    · subst same
      obtain ⟨⟨content, sequence⟩, stored⟩ := Option.isSome_iff_exists.mp held
      rw [storedBy, stored] at answered
      obtain ⟨time, final, rfl, soon⟩ := answered
      refine .inr ⟨_, flight.mem_iff.mpr (List.mem_append_right _ (List.mem_singleton_self _)), ?_⟩
      rw [fires.clock]
      exact soon
    · have before := Set.mem_of_mem_insert_of_ne member same
      unfold Promised
      rw [latest key (busy.names before), if_neg same, fires.others key (busy.names before) same,
        fires.clock]
      exact busy.promised key before held

/-- A lookup that is paced, forgotten and fired. -/
theorem Busy.issue (busy : world.Busy engine items good settings store limit asked)
    {item : Bytes × String} (member : item ∈ items) (first : Bool) (pause : τ) :
    ∃ middle after, Op.Yields (pace first pause) world ⟨⟩ middle ∧
      Op.Yields (Get.fire item.1 item.2) (Get.forget item.1 item.2 middle) (.ok ()) after ∧
      after.Busy engine items good settings store limit (insert (keyOf item) asked) := by
  obtain ⟨middle, paced, still⟩ : ∃ middle, Op.Yields (pace first pause) world ⟨⟩ middle ∧
      middle.Busy engine items good settings store limit asked := by
    cases first with
    | true => exact ⟨world, .pure _ _, busy⟩
    | false =>
      obtain ⟨middle, slept, attended, settled⟩ := busy.attends.sleep serving.toRunning pause
      exact ⟨middle, slept, busy.settles attended settled⟩
  exact ⟨middle, _, paced, (still.attends.forget item).fire serving member,
    still.fired serving member⟩

/-- All lookups of headers are fired. -/
theorem Busy.fireHeaders (busy : world.Busy engine items good settings store limit asked) {salt : String}
    (first : Bool) (batch : Batch) {links : List Link}
    (members : ∀ link ∈ links, (link.owner, salt) ∈ items) :
    ∃ after, Op.Yields (fireHeaders salt first batch links) world (links, batch) after ∧
      after.Busy engine items good settings store limit
        ({key | key ∈ links.map fun link => infoHash link.owner salt} ∪ asked) := by
  induction links generalizing first asked world with
  | nil => exact ⟨world, .pure _ _, busy.mono (by simp)⟩
  | cons link rest ih =>
    obtain ⟨middle, fired, paced, fires, issued⟩ := busy.issue serving
      (members link (List.mem_cons_self ..)) first world.settings.headerIssueDelay
    obtain ⟨after, others, busy⟩ := ih issued false fun link member =>
      members link (List.mem_cons_of_mem _ member)
    refine ⟨after, ?_, busy.mono ?_⟩
    · unfold Fetch.fireHeaders
      exact .get_bind (fun _ => rfl) (.bind paced (.bind (.modify fun _ => rfl)
        (.bind fires (.bind others (.pure _ _)))))
    · rintro key (member | before)
      · rcases List.mem_cons.mp member with rfl | later
        · exact .inr (.inl rfl)
        · exact .inl later
      · exact .inr (.inr before)

/-- All lookups of chunks are fired. -/
theorem Busy.fireChunks (busy : world.Busy engine items good settings store limit asked) (first : Bool)
    {chunks : List (Bytes × String)} (members : ∀ item ∈ chunks, item ∈ items) :
    ∃ after, Op.Yields (fireChunks first chunks) world ⟨⟩ after ∧
      after.Busy engine items good settings store limit ({key | key ∈ chunks.map keyOf} ∪ asked) := by
  induction chunks generalizing first asked world with
  | nil => exact ⟨world, .pure _ _, busy.mono (by simp)⟩
  | cons item rest ih =>
    obtain ⟨middle, fired, paced, fires, issued⟩ := busy.issue serving
      (members item (List.mem_cons_self ..)) first world.settings.chunkIssueDelay
    obtain ⟨after, others, busy⟩ := ih issued false fun item member =>
      members item (List.mem_cons_of_mem _ member)
    refine ⟨after, ?_, busy.mono ?_⟩
    · unfold Fetch.fireChunks
      exact .get_bind (fun _ => rfl) (.bind paced (.bind (.modify fun _ => rfl)
        (.bind fires others)))
    · rintro key (member | before)
      · rcases List.mem_cons.mp member with rfl | later
        · exact .inr (.inl rfl)
        · exact .inl later
      · exact .inr (.inr before)

end Firing

/-! ### Waiting for all -/

/-- After a wait that is long enough all that is stored is known. -/
theorem Busy.waitForAll {names : List String}
    (busy : world.Busy engine items good settings store limit {key | key ∈ names})
    (running : Running τ engine (keyOf '' items) good) {timeout : τ}
    (inTime : value limit ≤ value timeout) :
    ∃ arrived after, Op.Yields (modifyGet (Get.waitForAll names timeout)) world arrived after ∧
      after.Arrived engine items good settings store {key | key ∈ names} := by
  obtain ⟨arrived, after, waits, attended, settled, outcome⟩ :=
    busy.attends.waitForAll running names timeout
  refine ⟨arrived, after, waits, busy.toGenuine.settles attended settled, ?_⟩
  intro key member held
  rcases outcome with all | late
  · have known := List.all_eq_true.mp all key member
    simpa [latest?, Entries.contains] using known
  · rcases (busy.promised key member held).drains (settled.drains key (busy.names member)) with
      known | ⟨entry, still, soon⟩
    · exact known
    · obtain ⟨pending, queued, same⟩ := exists_pending_of_mem_flight still
      have after := late pending queued
      rw [same] at after
      linarith

/-! ### What has arrived -/

omit [Overlay τ ν] in
/-- What is known of an item that was asked for is what is stored. -/
theorem Arrived.peek (arrived : world.Arrived engine items good settings store asked) {owner : Bytes}
    {salt : String} (named : infoHash owner salt ∈ asked) :
    (Get.peek owner salt world).map (fun result => (result.value, result.sequence))
      = storedBy store (owner, salt) := by
  unfold Get.peek storedBy keyOf
  cases known : world.correlator.result? (infoHash owner salt) with
  | some result =>
    have latest : world.latest? (infoHash owner salt) = some result.alert := by
      simp only [latest?, Correlator.result?] at known ⊢
      rw [known]
      rfl
    exact (arrived.known _ named _ latest).symm
  | none =>
    have latest := latest?_eq_none_iff.mpr known
    cases held : store (infoHash owner salt) with
    | none => rfl
    | some content =>
      have present := arrived.present _ named (by rw [held]; rfl)
      rw [latest] at present
      cases present

omit [Overlay τ ν] in
/-- Another lookup comes to what is stored, and leaves it known. -/
theorem Arrived.looksUp (arrived : before.Arrived engine items good settings store asked)
    (attends : after.Attends engine (keyOf '' items) good) {item : Bytes × String}
    (member : item ∈ items) {timeout : τ} {outcome : Except (Get.Error τ) Get.Found}
    (looks : LooksUp items item (storedBy store item) limit timeout before outcome after) :
    Get.Fits item timeout (storedBy store item) outcome ∧
      after.Arrived engine items good settings store asked := by
  obtain ⟨fits, flying, latest, present⟩ :=
    looks.fits (arrived.flight (keyOf item) ⟨item, member, rfl⟩)
  refine ⟨fits, ⟨attends, looks.settings.trans arrived.settings, arrived.names, ?_, ?_⟩, ?_⟩
  · intro key about entry still
    by_cases same : key = keyOf item
    · subst same
      exact flying entry still
    · exact arrived.flight key about entry ((looks.others key about same).mem_flight still)
  · intro key named alert known
    by_cases same : key = keyOf item
    · subst same
      exact latest alert known
    · have about := arrived.names named
      rcases (looks.others key about same).latest?_cases known with before | ⟨entry, before, rfl⟩
      · exact arrived.known key named alert before
      · exact arrived.flight key about entry before
  · intro key named held
    by_cases same : key = keyOf item
    · subst same
      exact present held
    · exact (looks.others key (arrived.names named) same).isSome_latest?
        (arrived.present key named held)

end World

end DhtRecords
