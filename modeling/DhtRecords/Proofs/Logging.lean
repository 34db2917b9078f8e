/-
What a correlator keeps over a whole run, and what it does when it has stopped.

A correlator is touched by the alerts that are delivered to it, by starts and
stops, and by callers who remove a result or claim an acknowledgement. Its log,
its counts and its results are functions of the touches (`Touch.log_run`,
`Touch.counts_run`, `Touch.result?_touches`). All that goes on in a session touches
it in no other way, whether a caller or a task does it (`World.Upkeep.touches`), and
what was accepted on the way stands in the journal. A run of visits tells its
touches (`Visit.Told`): those of a wait are what came in the course of it.

A correlator that does not run drops alerts, and those who wait on it return at
once (`Shut`).
-/

import DhtRecords.Proofs.Ensuring
import DhtRecords.Proofs.Finality

namespace DhtRecords

variable {τ ν : Type}

/-! ### Touches -/

namespace Correlator

/-- What is done to a correlator. -/
inductive Touch (τ : Type) where
  /-- An alert is delivered at a moment. -/
  | alert (moment : τ) (alert : Alert)
  /-- The correlator begins to run, or stops. -/
  | listen (running : Bool)
  /-- The result of an item is removed. -/
  | remove (key : String)
  /-- The acknowledgement of an item is claimed. -/
  | claim (key : String)

/-- What is logged of an alert that is accepted at a moment. -/
def eventOf? : τ × Alert → Option (LoggedEvent τ)
  | (moment, .result owner salt _ _ _) => some ⟨.result, moment, "", infoHash owner salt⟩
  | (moment, .acknowledgement owner salt _ _ message) =>
    some ⟨.acknowledgement, moment, message, infoHash owner salt⟩
  | (moment, .bootstrap message) => some ⟨.bootstrap, moment, message, ""⟩
  | (_, .unknown) => none

namespace Touch

/-- Whether an alert is delivered. -/
def isAlert : Touch τ → Bool
  | alert _ _ => true
  | _ => false

/-- What a touch leads to. -/
def apply : Touch τ → Correlator τ → Correlator τ
  | alert moment delivered, correlator => correlator.receive moment delivered
  | listen running, correlator => { correlator with running }
  | remove key, correlator => correlator.forget key
  | claim key, correlator => correlator.claim key

/-- What touches, the latest first, lead to. -/
def run (first : Correlator τ) (touches : List (Touch τ)) : Correlator τ := touches.foldr apply first

/-- The alerts that are delivered while the correlator is running, the latest first. -/
def accepted (first : Correlator τ) : List (Touch τ) → List (τ × Alert)
  | [] => []
  | alert moment delivered :: early =>
    if (run first early).running then (moment, delivered) :: accepted first early
    else accepted first early
  | _ :: early => accepted first early

/-- The results of an item that were accepted since it was removed last, the latest first. What was held
before counts as accepted. -/
def standing (first : Correlator τ) (key : String) : List (Touch τ) → List (LookupResult τ)
  | [] => (first.result? key).toList
  | remove removed :: early => if removed = key then [] else standing first key early
  | alert moment delivered :: early =>
    if (run first early).running then
      ((Occurrence.accepted delivered moment).resultOf? key).toList ++ standing first key early
    else standing first key early
  | _ :: early => standing first key early

theorem run_append (first : Correlator τ) (late early : List (Touch τ)) :
    run first (late ++ early) = run (run first early) late := List.foldr_append

theorem accepted_append (first : Correlator τ) (late early : List (Touch τ)) :
    accepted first (late ++ early) = accepted (run first early) late ++ accepted first early := by
  induction late with
  | nil => rfl
  | cons touch late ih =>
    cases touch with
    | alert moment delivered =>
      rw [List.cons_append, accepted, accepted, run_append]
      split
      · rw [ih, List.cons_append]
      · exact ih
    | _ => exact ih

end Touch

/-! ### Alerts -/

theorem receive_of_running {correlator : Correlator τ} (running : correlator.running = true)
    (moment : τ) (delivered : Alert) : correlator.receive moment delivered =
      correlator.accept moment delivered := if_pos running

theorem receive_of_stopped {correlator : Correlator τ} (stopped : correlator.running = false)
    (moment : τ) (delivered : Alert) : correlator.receive moment delivered =
      { correlator with tally := { correlator.tally with dropped := correlator.tally.dropped + 1 } } :=
  if_neg (ne_true_of_eq_false stopped)

/-- An accepted alert is logged, unless it is unknown. -/
theorem log_accept (correlator : Correlator τ) (moment : τ) (delivered : Alert) :
    (correlator.accept moment delivered).log =
      match eventOf? (moment, delivered) with
      | some event => (event :: correlator.log).take correlator.capacity.events
      | none => correlator.log := by
  cases delivered <;> rfl

theorem result?_accept (correlator : Correlator τ) (moment : τ) (delivered : Alert) (key : String) :
    (correlator.accept moment delivered).result? key =
      ((Occurrence.accepted delivered moment).resultOf? key).or (correlator.result? key) := by
  have absorbed : (correlator.accept moment delivered).results
      = (Occurrence.accepted delivered moment).absorb correlator.results := by
    cases delivered <;> rfl
  rw [result?, absorbed]
  exact (Occurrence.accepted delivered moment).get?_absorb _ _

/-- Whether every alert that was received is counted under its kind. -/
def IsBalanced (tally : Tally) : Prop :=
  tally.received = tally.results + tally.acknowledgements + tally.bootstraps + tally.unknown

theorem balanced_accept {correlator : Correlator τ} (balanced : IsBalanced correlator.tally) (moment : τ)
    (delivered : Alert) : IsBalanced (correlator.accept moment delivered).tally := by
  cases delivered <;> simp only [IsBalanced, accept] at balanced ⊢ <;> omega

theorem counts_accept (correlator : Correlator τ) (moment : τ) (delivered : Alert) :
    (correlator.accept moment delivered).tally.received = correlator.tally.received + 1 ∧
      (correlator.accept moment delivered).tally.dropped = correlator.tally.dropped := by
  cases delivered <;> exact ⟨rfl, rfl⟩

theorem capacity_accept (correlator : Correlator τ) (moment : τ) (delivered : Alert) :
    (correlator.accept moment delivered).capacity = correlator.capacity := by
  cases delivered <;> rfl

/-! ### Runs of touches -/

namespace Touch

variable {first : Correlator τ}

theorem capacity_run (first : Correlator τ) (touches : List (Touch τ)) :
    (run first touches).capacity = first.capacity := by
  induction touches with
  | nil => rfl
  | cons touch early ih =>
    refine Eq.trans ?_ ih
    cases touch with
    | alert moment delivered =>
      change ((run first early).receive moment delivered).capacity = _
      cases running : (run first early).running with
      | true => rw [receive_of_running running, capacity_accept]
      | false => rw [receive_of_stopped running]
    | _ => rfl

/-- The log is the newest of the events that were accepted, as many as it has room for. -/
theorem log_run (room : first.log.length ≤ first.capacity.events) (touches : List (Touch τ)) :
    (run first touches).log =
      ((accepted first touches).filterMap eventOf? ++ first.log).take first.capacity.events := by
  have retake (event : LoggedEvent τ) (log : List (LoggedEvent τ)) (count : Nat) :
      (event :: log.take count).take count = (event :: log).take count := by
    cases count with
    | zero => rfl
    | succ count => rw [List.take_succ_cons, List.take_succ_cons, List.take_take,
        min_eq_left (Nat.le_succ count)]
  induction touches with
  | nil => exact (List.take_of_length_le room).symm
  | cons touch early ih =>
    cases touch with
    | alert moment delivered =>
      change ((run first early).receive moment delivered).log = _
      cases running : (run first early).running with
      | true =>
        rw [receive_of_running running, log_accept, accepted, if_pos running, List.filterMap_cons,
          capacity_run, ih]
        cases eventOf? (moment, delivered) with
        | none => rfl
        | some event => exact retake event _ _
      | false =>
        rw [receive_of_stopped running, accepted, if_neg (ne_true_of_eq_false running)]
        exact ih
    | _ => exact ih

/-- Alerts are received while the correlator is running, and dropped else. -/
theorem counts_run (first : Correlator τ) (touches : List (Touch τ)) :
    (run first touches).tally.received = (accepted first touches).length + first.tally.received ∧
      (run first touches).tally.received + (run first touches).tally.dropped =
        touches.countP isAlert + (first.tally.received + first.tally.dropped) := by
  induction touches with
  | nil => exact ⟨(Nat.zero_add _).symm, (Nat.zero_add _).symm⟩
  | cons touch early ih =>
    cases touch with
    | alert moment delivered =>
      have counted : (alert moment delivered :: early).countP isAlert = early.countP isAlert + 1 :=
        List.countP_cons_of_pos rfl
      change ((run first early).receive moment delivered).tally.received = _ ∧
        ((run first early).receive moment delivered).tally.received +
          ((run first early).receive moment delivered).tally.dropped = _
      rw [counted]
      cases running : (run first early).running with
      | true =>
        obtain ⟨received, dropped⟩ := counts_accept (run first early) moment delivered
        rw [receive_of_running running, accepted, if_pos running, List.length_cons, received, dropped]
        omega
      | false =>
        rw [receive_of_stopped running, accepted, if_neg (ne_true_of_eq_false running)]
        dsimp only
        omega
    | _ =>
      rw [List.countP_cons_of_neg (by exact Bool.false_ne_true)]
      exact ih

theorem balanced_run (balanced : IsBalanced first.tally) (touches : List (Touch τ)) :
    IsBalanced (run first touches).tally := by
  induction touches with
  | nil => exact balanced
  | cons touch early ih =>
    cases touch with
    | alert moment delivered =>
      change IsBalanced ((run first early).receive moment delivered).tally
      cases running : (run first early).running with
      | true =>
        rw [receive_of_running running]
        exact balanced_accept ih moment delivered
      | false =>
        rw [receive_of_stopped running]
        exact ih
    | _ => exact ih

/-- What is held of an item is the latest of what was accepted since it was removed. -/
theorem result?_touches (first : Correlator τ) (key : String) (touches : List (Touch τ)) :
    (run first touches).result? key = (standing first key touches).head? := by
  induction touches with
  | nil =>
    change first.result? key = (first.result? key).toList.head?
    cases first.result? key <;> rfl
  | cons touch early ih =>
    cases touch with
    | alert moment delivered =>
      change ((run first early).receive moment delivered).result? key = _
      unfold standing
      cases running : (run first early).running with
      | true =>
        rw [receive_of_running running, result?_accept, if_pos rfl, ih]
        cases (Occurrence.accepted delivered moment).resultOf? key <;> rfl
      | false =>
        rw [receive_of_stopped running, if_neg Bool.false_ne_true]
        exact ih
    | remove removed =>
      unfold standing
      refine (Entries.get?_erase _ _ _).trans ?_
      by_cases same : removed = key
      · rw [if_pos same.symm, if_pos same]
        rfl
      · rw [if_neg (Ne.symm same), if_neg same]
        exact ih
    | _ => exact ih

end Touch

end Correlator

/-! ### Touches of a world -/

/-- The alert that was accepted and when, if it is that what has happened. -/
def Occurrence.arrival? : Occurrence τ → Option (τ × Alert)
  | .accepted delivered moment => some (moment, delivered)
  | _ => none

namespace World

open Correlator

/-- Whether these touches, the latest first, are all that is done to the correlator from one world to
another. The journal has those alerts that were accepted. -/
structure Touched (before after : World τ ν) (touches : List (Touch τ)) : Prop where
  patience : after.patience = before.patience
  correlator : after.correlator = Touch.run before.correlator touches
  journal : after.journal.filterMap Occurrence.arrival? =
    Touch.accepted before.correlator touches ++ before.journal.filterMap Occurrence.arrival?

/-- Whether a correlator is only touched. -/
def Touches (before after : World τ ν) : Prop := ∃ touches, Touched before after touches

variable {before after : World τ ν}

theorem Touched.refl (world : World τ ν) : Touched world world [] := ⟨rfl, rfl, rfl⟩

theorem Touched.trans {first second third : World τ ν} {early late : List (Touch τ)}
    (left : Touched first second early) (right : Touched second third late) :
    Touched first third (late ++ early) := by
  refine ⟨right.patience.trans left.patience, ?_, ?_⟩
  · rw [right.correlator, left.correlator, Touch.run_append]
  · rw [right.journal, left.journal, left.correlator, Touch.accepted_append, List.append_assoc]

instance : Std.Refl (Touches (τ := τ) (ν := ν)) := ⟨fun world => ⟨[], .refl world⟩⟩

instance : IsTrans (World τ ν) Touches := ⟨fun _ _ _ left right => by
  obtain ⟨early, left⟩ := left
  obtain ⟨late, right⟩ := right
  exact ⟨late ++ early, left.trans right⟩⟩

/-- An alert is noted if the correlator is running, and touches it in any case. -/
theorem touched_deliver (delivered : Alert) (world : World τ ν) :
    Touched world (world.deliver delivered) [.alert world.clock delivered] := by
  have accepted : Touch.accepted world.correlator [.alert world.clock delivered]
      = if world.correlator.running then [(world.clock, delivered)] else [] := rfl
  unfold deliver
  constructor <;> dsimp only
  · split <;> rfl
  · split <;> rfl
  · rw [accepted]
    split <;> rfl

theorem touched_hear (running : Bool) (world : World τ ν) :
    Touched world (world.hear running) [.listen running] := ⟨rfl, rfl, rfl⟩

theorem touched_claim (key : String) (world : World τ ν) :
    Touched world { world with correlator := world.correlator.claim key } [.claim key] :=
  ⟨rfl, rfl, rfl⟩

theorem arrivals_of_changes {noted : List (Occurrence τ)}
    (changes : ∀ occurrence ∈ noted, occurrence.isChange = true) :
    noted.filterMap Occurrence.arrival? = [] := by
  refine List.filterMap_eq_nil_iff.mpr fun occurrence member => ?_
  have change := changes occurrence member
  cases occurrence with
  | accepted => cases change
  | _ => rfl

theorem Alters.touches (alters : Alters before after) : Touches before after := by
  obtain ⟨session, tasks, engines, running, noted, rfl, changes⟩ := alters
  refine ⟨[.listen running], rfl, rfl, ?_⟩
  change (noted ++ before.journal).filterMap Occurrence.arrival? = _
  rw [List.filterMap_append, arrivals_of_changes changes]
  rfl

variable [Quantity τ]

theorem Idle.touches (idle : Idle before after) : Touches before after := by
  cases idle with
  | deliver delivered => exact ⟨_, touched_deliver delivered before⟩
  | _ => exact ⟨[], rfl, rfl, rfl⟩

variable [Overlay τ ν]

/-- All that goes on in a session touches its correlator, and does nothing else to it. -/
theorem Upkeep.touches (upkeep : Upkeep before after) : Touches before after :=
  upkeep.keeps (fun _ _ idle => idle.touches) fun _ _ alters => alters.touches

/-- An engine that is called hands over nothing at once. -/
theorem touched_ask (engine : EngineId) (call : EngineCall) (world : World τ ν) :
    Touched world (world.ask engine call).2 [] := by
  obtain ⟨queue, same⟩ := ask_eq engine call world
  rw [same]
  exact ⟨rfl, rfl, rfl⟩

theorem touched_stopCorrelator (engine : Option EngineId) (world : World τ ν) :
    Touched world (world.stopCorrelator engine).2 [.listen false] := by
  unfold stopCorrelator
  split
  · cases engine with
    | none => exact touched_hear false world
    | some engine => exact (touched_hear false world).trans (touched_ask engine (.setHandler false) _)
  · next stopped =>
    have silent : world.hear false = world := by
      unfold hear
      rw [← eq_false_of_ne_true stopped]
    refine ⟨rfl, ?_, rfl⟩
    exact congrArg correlator silent.symm

theorem touches_perform (event : Event ν) (world : World τ ν) :
    Touches world (world.perform event) := by
  cases event with
  | halt => exact ⟨_, touched_stopCorrelator none world⟩
  | _ => exact (meanwhile_perform (by simp) world).upkeep.touches

theorem touches_waitForAcknowledgement (key : String) (since timeout : τ) (sequence : Option Int)
    (world : World τ ν) :
    Touches world (Put.waitForAcknowledgement key since timeout sequence world).2 := by
  have waited : Touches world (world.wait World.run timeout fun world =>
      (world.correlator.readyAcknowledgement? key since sequence).isSome ||
        !world.correlator.running) := (upkeep_run _ _ world).touches
  unfold Put.waitForAcknowledgement
  dsimp only
  split
  · exact trans_of Touches waited ⟨_, touched_claim key _⟩
  · exact waited

theorem touches_waitForAll (keys : List String) (timeout : τ) (world : World τ ν) :
    Touches world (Get.waitForAll keys timeout world).2 := by
  unfold Get.waitForAll
  split
  · exact refl_of Touches world
  · exact (upkeep_run _ _ world).touches

end World

/-! ### Visits -/

namespace Correlator

open World

variable [Quantity τ] [Overlay τ ν]

/-- What is done to a correlator by those who start, stop and alert it, and by its callers. -/
inductive Visit (τ ν : Type) where
  | move (move : Move τ ν)
  /-- A caller waits for an event of a kind. -/
  | waitForEvent (kind : EventKind) (since timeout : τ)

namespace Visit

/-- What a visit leads to. -/
def perform : Visit τ ν → World τ ν → World τ ν
  | move done, world => done.perform world
  | waitForEvent kind since timeout, world =>
    (Session.waitForEvent World.run kind since timeout world).2

/-- What a run of visits, the latest first, leads to. -/
def run (first : World τ ν) (visits : List (Visit τ ν)) : World τ ν := visits.foldr perform first

/-- The touches of a visit that is over at once. What comes in the course of a wait, or of the doings of a
session, is not known beforehand. -/
def atOnce? (world : World τ ν) : Visit τ ν → Option (List (Touch τ))
  | move (.act (.start _)) => some [.listen true]
  | move (.act (.stop _)) => some [.listen false]
  | move (.act (.happen (.alert delivered))) => some [.alert world.clock delivered]
  | move (.act (.plan _ _)) => some []
  | move (.remove key) => some [.remove key]
  | _ => none

theorem touched_perform (visit : Visit τ ν) (world : World τ ν) : ∃ touches,
    Touched world (visit.perform world) touches ∧ ∀ known ∈ visit.atOnce? world, touches = known := by
  -- What comes in the course of a visit can be any touches.
  have meanwhile {after : World τ ν} (touches : Touches world after) : ∃ touches,
      Touched world after touches ∧ ∀ known ∈ (none : Option (List (Touch τ))), touches = known :=
    touches.imp fun _ touched => ⟨touched, nofun⟩
  have exactly {after : World τ ν} {touches : List (Touch τ)} (touched : Touched world after touches) :
      ∃ found, Touched world after found ∧ ∀ known ∈ some touches, found = known :=
    ⟨touches, touched, fun _ same => Option.some_inj.mp same⟩
  cases visit with
  | waitForEvent kind since timeout => exact meanwhile (upkeep_run _ _ world).touches
  | move done =>
    cases done with
    | remove key => exact exactly ⟨rfl, rfl, rfl⟩
    | wait key timeout onlyFinal => exact meanwhile (upkeep_run _ _ world).touches
    | waitForAll keys timeout => exact meanwhile (touches_waitForAll keys timeout world)
    | act done =>
      cases done with
      | start engine =>
        exact exactly ((touched_hear true world).trans (touched_ask engine (.setHandler true) _))
      | stop engine => exact exactly (touched_stopCorrelator engine world)
      | plan delay event => exact exactly ⟨rfl, rfl, rfl⟩
      | request request => exact meanwhile (request.upkeep world).touches
      | wait key since timeout sequence =>
        exact meanwhile (touches_waitForAcknowledgement key since timeout sequence world)
      | happen event =>
        have happened := touches_perform event world
        cases event with
        | alert delivered => exact exactly (touched_deliver delivered world)
        | _ => exact meanwhile happened

/-- The touches of a run of visits, the latest first: those of each one after those of the visits before. -/
inductive Told (first : World τ ν) : List (Visit τ ν) → List (Touch τ) → Prop
  | nil : Told first [] []
  | cons {visit : Visit τ ν} {early : List (Visit τ ν)} {touches fresh : List (Touch τ)} :
      Told first early touches → Touched (run first early) (visit.perform (run first early)) fresh →
      (∀ known ∈ visit.atOnce? (run first early), fresh = known) →
      Told first (visit :: early) (fresh ++ touches)

theorem exists_told (first : World τ ν) (visits : List (Visit τ ν)) :
    ∃ touches, Told first visits touches := by
  induction visits with
  | nil => exact ⟨[], .nil⟩
  | cons visit early ih =>
    obtain ⟨touches, told⟩ := ih
    obtain ⟨fresh, touched, known⟩ := touched_perform visit (run first early)
    exact ⟨fresh ++ touches, .cons told touched known⟩

theorem Told.touched {first : World τ ν} {visits : List (Visit τ ν)} {touches : List (Touch τ)}
    (told : Told first visits touches) : Touched first (run first visits) touches := by
  induction told with
  | nil => exact .refl first
  | cons _ touched _ ih => exact ih.trans touched

end Visit

end Correlator

/-! ### A correlator that has stopped -/

/-- A session that waits for its engine's word waits for the event that is logged of it. -/
theorem Session.run_bootstrap [Quantity τ] (waiter : Waiter τ ν) (since : Option τ) (world : World τ ν) :
    (bootstrap waiter since).run world =
      match waitForEvent waiter .bootstrap (since.getD world.clock) world.settings.bootstrapTimeout
          world with
      | (some _, waited) =>
        (.ok true, { waited with session := { waited.session with bootstrapped := true } })
      | (none, waited) => (.ok false, waited) := by
  unfold bootstrap waitForEvent
  rw [Op.run_bind_ok (Op.run_get world), Op.run_bind_ok (Op.run_modify _ world),
    Op.run_bind_ok (Op.run_get _)]
  dsimp only
  split
  · next logged =>
    obtain ⟨event, found⟩ := Option.isSome_iff_exists.mp logged
    rw [found]
    rfl
  · next unlogged =>
    rw [Option.not_isSome_iff_eq_none.mp unlogged]
    rfl

namespace World

variable [Quantity τ] [Overlay τ ν] {world : World τ ν} {condition : World τ ν → Bool}

/-- A wait is over at once if its condition holds. -/
theorem run_of_holds (patient : 0 < world.patience) (holds : condition world = true) (deadline : τ) :
    world.run deadline condition = world := by
  obtain ⟨fuel, enough⟩ := Nat.exists_eq_succ_of_ne_zero (Nat.ne_of_gt patient)
  unfold run
  rw [enough]
  exact if_pos holds

theorem runQueue_of_holds (patient : 0 < world.patience) (holds : condition world = true)
    (deadline : τ) : world.runQueue deadline condition = world := by
  obtain ⟨fuel, enough⟩ := Nat.exists_eq_succ_of_ne_zero (Nat.ne_of_gt patient)
  unfold runQueue
  rw [enough]
  exact if_pos holds

/-- Whether a world is one whose correlator takes nothing: an alert is counted as dropped, and who waits
returns at once with what is held. The acknowledgement that is returned is claimed. -/
structure Shut (world : World τ ν) : Prop where
  alert : ∀ delivered, world.deliver delivered = { world with
    correlator := { world.correlator with
      tally := { world.correlator.tally with dropped := world.correlator.tally.dropped + 1 } } }
  result : ∀ key timeout onlyFinal, Get.waitForResult key timeout onlyFinal world =
    (world.correlator.readyResult? key onlyFinal, world)
  all : ∀ keys timeout, Get.waitForAll keys timeout world = (world.correlator.hasAll keys, world)
  acknowledgement : ∀ key since timeout sequence,
    Put.waitForAcknowledgement key since timeout sequence world =
      match world.correlator.readyAcknowledgement? key since sequence with
      | some found => (some found, { world with correlator := world.correlator.claim key })
      | none => (none, world)
  event : ∀ waiter ∈ [World.run, World.runQueue], ∀ kind since timeout,
    Session.waitForEvent waiter kind since timeout world = (world.correlator.event? kind since, world)

theorem shut_of_stopped (patient : 0 < world.patience) (stopped : world.correlator.running = false) :
    Shut world := by
  have returns (condition : World τ ν → Bool) (deadline : τ) :
      (world.run deadline fun world => condition world || !world.correlator.running) = world :=
    run_of_holds patient (by rw [stopped, Bool.not_false, Bool.or_true]) deadline
  have returnsInTask (condition : World τ ν → Bool) (deadline : τ) :
      (world.runQueue deadline fun world => condition world || !world.correlator.running) = world :=
    runQueue_of_holds patient (by rw [stopped, Bool.not_false, Bool.or_true]) deadline
  refine ⟨fun delivered => ?_, fun key timeout onlyFinal => ?_, fun keys timeout => ?_,
    fun key since timeout sequence => ?_, fun waiter either kind since timeout => ?_⟩
  · unfold deliver
    rw [if_neg (ne_true_of_eq_false stopped)]
    dsimp only
    rw [Correlator.receive_of_stopped stopped]
  · unfold Get.waitForResult wait
    rw [returns]
  · unfold Get.waitForAll wait
    split
    · next empty =>
      rw [List.isEmpty_iff.mp empty]
      rfl
    · rw [returns fun world => world.correlator.hasAll keys]
  · unfold Put.waitForAcknowledgement wait
    rcases ready : world.correlator.readyAcknowledgement? key since sequence with _ | found
    · simp only [returns, ready]
    · simp only [returns, ready]
  · unfold Session.waitForEvent wait
    rcases List.mem_pair.mp either with rfl | rfl
    · rw [returns]
    · rw [returnsInTask]

end World

/-! ### Whole runs -/

namespace Correlator

open World

variable [Quantity τ] [Overlay τ ν]

/-- Of a correlator that was new, the log is the newest of the known alerts that were accepted while it was
running, and each alert that was delivered is counted once as received or dropped, and if received under its
kind. What is held of an item is the last result that was accepted since it was removed. While the
correlator is stopped, it is shut. -/
theorem visits_accounted {first last : World τ ν} {capacity : Capacity}
    (new : first.correlator = { capacity }) (patient : 0 < first.patience)
    {visits : List (Visit τ ν)} (course : Visit.run first visits = last) :
    (∃ touches, Visit.Told first visits touches) ∧
    (∀ touches, Visit.Told first visits touches → Touched first last touches ∧
      last.correlator.log =
        ((Touch.accepted first.correlator touches).filterMap eventOf?).take capacity.events ∧
      IsBalanced last.correlator.tally ∧
      last.correlator.tally.received + last.correlator.tally.dropped = touches.countP Touch.isAlert ∧
      ∀ key, last.correlator.result? key = (Touch.standing first.correlator key touches).head?) ∧
    (last.correlator.running = false → Shut last) := by
  obtain ⟨some, told⟩ := Visit.exists_told first visits
  refine ⟨⟨some, told⟩, fun touches told => ?_, shut_of_stopped ?_⟩
  · have touched := told.touched
    rw [course] at touched
    have room : first.correlator.log.length ≤ first.correlator.capacity.events := by
      rw [new]
      exact Nat.zero_le _
    have balanced : IsBalanced first.correlator.tally := by
      rw [new]
      rfl
    refine ⟨touched, ?_, ?_, ?_, fun key => ?_⟩ <;> rw [touched.correlator]
    · rw [Touch.log_run room, new, List.append_nil]
    · exact Touch.balanced_run balanced touches
    · rw [(Touch.counts_run first.correlator touches).2, new]
      rfl
    · exact Touch.result?_touches first.correlator key touches
  · have touched := told.touched
    rw [course] at touched
    rwa [touched.patience]

/-- A world with a new correlator, which has room for two events. -/
def narrow : World Seconds Session.Placid :=
  { Session.untouched ⟨⟩ {} with correlator := { capacity := ⟨2, 1, Nat.one_pos⟩ } }

/-- Four alerts come while the correlator is running, one of which is unknown, and a fifth after it has
stopped. -/
def noisy : List (Visit Seconds Session.Placid) :=
  [.move (.act (.start 1)), .move (.act (.happen (.alert (answer 1 false)))),
    .move (.act (.happen (.alert .unknown))), .move (.act (.happen (.alert (.bootstrap "up")))),
    .move (.remove (infoHash [7] "a")), .move (.act (.happen (.alert (answer 2 true)))),
    .move (.act (.stop none)), .move (.act (.happen (.alert (answer 3 true))))].reverse

theorem noisy_accounted : ∃ touches, Visit.Told narrow noisy touches ∧
    touches.countP Touch.isAlert = 5 ∧
    (((Touch.accepted narrow.correlator touches).filterMap eventOf?).take 2).map (·.kind)
      = [.result, .bootstrap] ∧
    (Touch.standing narrow.correlator (infoHash [7] "a") touches).head? = some (answered 2 true 0) ∧
    Shut (Visit.run narrow noisy) := by
  have outcome : (Visit.run narrow noisy).correlator.tally = ⟨4, 1, 2, 0, 1, 1⟩ ∧
      (Visit.run narrow noisy).correlator.log.map (·.kind) = [.result, .bootstrap] ∧
      (Visit.run narrow noisy).correlator.result? (infoHash [7] "a") = some (answered 2 true 0) ∧
      (Visit.run narrow noisy).correlator.running = false ∧ 0 < narrow.patience := by
    decide +kernel
  obtain ⟨tally, log, result, stopped, patient⟩ := outcome
  obtain ⟨⟨touches, told⟩, accounted, shut⟩ :=
    @visits_accounted _ _ _ _ narrow _ ⟨2, 1, Nat.one_pos⟩ rfl patient noisy rfl
  obtain ⟨-, logged, -, counts, held⟩ := accounted touches told
  refine ⟨touches, told, ?_, ?_, ?_, shut stopped⟩
  · rw [← counts, tally]
    rfl
  · exact (congrArg _ logged).symm.trans log
  · exact (held _).symm.trans result

end Correlator

end DhtRecords
