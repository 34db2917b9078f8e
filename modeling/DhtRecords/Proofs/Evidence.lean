/-
What a put that returns has to show.

Every acknowledgement that a correlator holds was accepted (`World.Traced`): alerts
bring them, and nothing else that happens around it makes any. A put that returns has taken
one of just the number that it has issued, no older than the moment before its item
was handed over; only then the store is written, and only if some node has taken the
item. So the store keeps what was put, and a put that fails leaves it as it was
(`Mutable.put_evident`).
-/

import DhtRecords.Proofs.Confirming
import DhtRecords.Proofs.Readback
import DhtRecords.Proofs.Stages

namespace DhtRecords

variable {τ ν : Type}

/-! ### Where acknowledgements come from -/

namespace Correlator

/-- Of what deeds lead to, all was there before or was accepted. -/
theorem mem_foldr_accepted {count : Nat} {arrived : List (Acknowledgement τ)}
    {table : Entries String (Acknowledgement τ)} {entry : String × Acknowledgement τ}
    (member : entry ∈ ((arrived.map Deed.accepted).foldr (Deed.apply count) table).pairs) :
    entry ∈ table.pairs ∨ entry.2.key = entry.1 ∧ entry.2 ∈ arrived := by
  induction arrived generalizing entry with
  | nil => exact .inl member
  | cons first rest ih =>
    have older {entry : String × Acknowledgement τ}
        (member : entry ∈ ((rest.map Deed.accepted).foldr (Deed.apply count) table).pairs) :
        entry ∈ table.pairs ∨ entry.2.key = entry.1 ∧ entry.2 ∈ first :: rest :=
      (ih member).imp_right fun ⟨name, member⟩ => ⟨name, List.mem_cons_of_mem _ member⟩
    simp only [List.map_cons, List.foldr_cons, Deed.apply, Entries.newest, Entries.insert] at member
    rcases List.mem_append.mp (List.mem_of_mem_drop member) with kept | new
    · exact older (List.mem_filter.mp kept).1
    · obtain rfl := List.mem_singleton.mp new
      rcases newerOf_cases (((rest.map Deed.accepted).foldr (Deed.apply count) table).get? first.key)
        first with same | ⟨newer, held, same, -⟩
      · rw [same]
        exact .inr ⟨rfl, List.mem_cons_self⟩
      · rw [same]
        exact older (Entries.mem_of_get? held)

end Correlator

namespace World

/-- Whether every acknowledgement that is held is one of its item, and was accepted. -/
def Traced (world : World τ ν) : Prop :=
  ∀ entry ∈ world.correlator.acknowledgements.pairs,
    entry.2.key = entry.1 ∧ entry.2 ∈ world.journal.filterMap Occurrence.acknowledgement?

/-- An acknowledgement that is read off a journal was accepted. -/
theorem accepted_of_mem {journal : List (Occurrence τ)} {acknowledgement : Acknowledgement τ}
    (member : acknowledgement ∈ journal.filterMap Occurrence.acknowledgement?) :
    .accepted (.acknowledgement acknowledgement.owner acknowledgement.salt acknowledgement.sequence
      acknowledgement.successes acknowledgement.message) acknowledgement.moment ∈ journal := by
  obtain ⟨occurrence, noted, same⟩ := List.mem_filterMap.mp member
  unfold Occurrence.acknowledgement? at same
  split at same
  · cases same
    exact noted
  · cases same

theorem traced_of_empty {world : World τ ν} (empty : world.correlator.acknowledgements = {}) :
    world.Traced := by
  intro entry member
  rw [empty] at member
  cases member

/-- Whether acknowledgements stay traced. -/
structure Traces (before after : World τ ν) : Prop where
  suffix : before.journal <:+ after.journal
  traced : before.Traced → after.Traced

namespace Traces

theorem refl (world : World τ ν) : Traces world world := ⟨List.suffix_refl _, id⟩

theorem trans {first second third : World τ ν} (left : Traces first second)
    (right : Traces second third) : Traces first third :=
  ⟨left.suffix.trans right.suffix, right.traced ∘ left.traced⟩

instance : Std.Refl (Traces (τ := τ) (ν := ν)) := ⟨refl⟩

instance : IsTrans (World τ ν) Traces := ⟨fun _ _ _ => trans⟩

/-- What is claimed goes, and nothing comes. -/
theorem claim (key : String) (world : World τ ν) :
    Traces world { world with correlator := world.correlator.claim key } :=
  ⟨List.suffix_refl _, fun traced entry member => traced entry (List.mem_filter.mp member).1⟩

end Traces

theorem Collects.traces {before after : World τ ν} (collects : Collects before after) :
    Traces before after := by
  obtain ⟨fresh, journal⟩ := collects.suffix
  refine ⟨collects.suffix, fun traced entry member => ?_⟩
  rw [collects.acknowledgements, acknowledged_of_append journal.symm] at member
  rw [← journal, List.filterMap_append, List.mem_append]
  rcases Correlator.mem_foldr_accepted member with held | ⟨name, arrived⟩
  · exact (traced entry held).imp_right .inr
  · exact ⟨name, .inl arrived⟩

section

variable [Quantity τ] [Overlay τ ν]

theorem collects_ask (engine : EngineId) (call : EngineCall) (world : World τ ν) :
    Collects world (world.ask engine call).2 :=
  (Collects.note rfl world).trans (idles_react engine _ _).collects

end

end World

/-- Whatever happens around a correlator that was empty at first, what it holds was accepted. -/
theorem Correlator.Act.traced_run [Quantity τ] [Overlay τ ν] {first : World τ ν}
    (empty : first.correlator.acknowledgements = {}) (acts : List (Act τ ν)) :
    (run first acts).2.Traced := by
  induction acts with
  | nil => exact World.traced_of_empty empty
  | cons act early ih =>
    obtain ⟨middle, collects, outcome⟩ := act.cases (run first early).2
    have collected := collects.traces.traced ih
    unfold run
    dsimp only
    rcases outcome with ⟨-, after⟩ | ⟨key, found, -, -, after⟩
    · rw [after]
      exact collected
    · rw [after]
      exact (World.Traces.claim key middle).traced collected

/-! ### Steps of a put -/

section

open World Op

variable [Quantity τ] [Overlay τ ν]

theorem Mutable.collects_lookUp (owner : Bytes) (salt : String) (onlyFinal : Bool) :
    Keeps Collects (lookUp owner salt onlyFinal : Op τ ν (Except (Get.Error τ) Get.Found)) := by
  have fires (owner : Bytes) (salt : String) :
      Keeps Collects (Get.fire owner salt : Op τ ν (Except (Get.Error τ) Unit)) :=
    Get.upholds_fire (Session.upholds_ensureRunning fun _ _ upkeep => upkeep.collects) (fun engine _ _ => collects_ask engine _)
      owner salt
  exact upholds_lookUp (fun _ _ _ => (upkeep_run _ _ _).collects) fires (fun _ _ _ => .of_eq rfl rfl rfl)
    owner salt onlyFinal

theorem Mutable.collects_prepare (salt : String) (publicKey privateKey : Option String) :
    Keeps Collects (prepare salt publicKey privateKey : Op τ ν (KeyPair × Int)) := by
  unfold prepare
  split
  · split
    · exact .throw _
    · refine .bind (collects_lookUp _ salt true) fun found => ?_
      split
      · exact .throw _
      · exact .pure _
  · exact .bind (.modifyGet fun _ => .of_eq rfl rfl rfl) fun _ => .pure _

theorem Mutable.traces_acknowledge (key : String) (receipt : Put.Receipt τ) :
    Keeps Traces (acknowledge key receipt : Op τ ν (Acknowledgement τ)) :=
  upholds_acknowledge (fun _ _ _ => (upkeep_run _ _ _).collects.traces) Traces.claim key receipt

/-- The acknowledgement that a put takes is of its own number, and no older than its item. -/
theorem Mutable.acknowledge_takes {key : String} {receipt : Put.Receipt τ}
    {acknowledgement : Acknowledgement τ} {issued after : World τ ν}
    (run : (acknowledge key receipt).run issued = (.ok acknowledgement, after)) :
    ∃ waited, Upkeep issued waited ∧
      waited.correlator.acknowledgements.get? key = some acknowledgement ∧
      Quantity.lt acknowledgement.moment receipt.moment = false ∧
      acknowledgement.sequence = receipt.sequence ∧
      after = { waited with correlator := waited.correlator.claim key } := by
  unfold acknowledge at run
  rw [run_bind_ok (run_get issued)] at run
  split at run
  · cases run
  · next timeout _ =>
    obtain ⟨waited, upkeep, same⟩ :=
      Put.waitForAcknowledgement_eq key receipt.moment timeout (some receipt.sequence) issued
    rw [run_bind_ok (run_modifyGet _ issued), same] at run
    rcases ready : waited.correlator.readyAcknowledgement? key receipt.moment (some receipt.sequence)
      with _ | found <;> rw [ready] at run <;> cases run
    obtain ⟨held, suits⟩ := Option.filter_eq_some_iff.mp ready
    simp only [Option.all_some, Bool.and_eq_true, Bool.not_eq_true', decide_eq_true_eq] at suits
    exact ⟨waited, upkeep, held, suits.1, suits.2.symm, rfl⟩

end

/-! ### Before the acknowledgement -/

namespace Mutable

open World Op

variable [Quantity τ] [Overlay τ ν] {before after : World τ ν} {content : Bytes} {salt : String}
  {publicKey privateKey : Option String}

/-- Whether acknowledgements stay traced and the store is as it was. -/
structure Unwritten (before after : World τ ν) : Prop extends Traces before after where
  store : after.store = before.store

omit [Quantity τ] [Overlay τ ν] in
theorem Unwritten.trans {first second third : World τ ν} (left : Unwritten first second)
    (right : Unwritten second third) : Unwritten first third :=
  ⟨left.toTraces.trans right.toTraces, right.store.trans left.store⟩

theorem Prepared.unwritten {pair : KeyPair} {lastSequence : Int} {middle : World τ ν}
    (prepared : Prepared before content salt publicKey privateKey pair lastSequence middle) :
    Unwritten before middle :=
  ⟨((collects_prepare salt publicKey privateKey).of_run prepared.known).traces,
    (prepare_cases prepared.paired prepared.known).1.store⟩

theorem unwritten_of_item {owner seed : Bytes} {lastSequence : Int} {world : World τ ν}
    {outcome : Except Failure (Except Put.Error (Put.Receipt τ))}
    (run : (Put.item owner seed salt content lastSequence).run world = (outcome, after)) :
    Unwritten world after := by
  have ensures {outcome : Except Failure (Option ErrorKind)} {checked : World τ ν}
      (ensured : Session.ensureRunning.run world = (outcome, checked)) : Unwritten world checked :=
    ⟨((Session.upholds_ensureRunning fun _ _ upkeep => upkeep.collects).of_run ensured).traces,
      (Session.spares_ensureRunning.of_run ensured).store⟩
  have asks {checked : World τ ν} {engine : EngineId} {answer : Except EngineFault Unit}
      (asked : checked.ask engine (.put owner salt ⟨content, lastSequence + 1, owner, seed⟩)
        = (answer, after)) : Unwritten checked after := by
    have collects := collects_ask engine
      (.put owner salt ⟨content, lastSequence + 1, owner, seed⟩) checked
    have put := ask_put engine owner salt ⟨content, lastSequence + 1, owner, seed⟩ checked
    rw [asked] at collects put
    exact ⟨collects.traces, put.1⟩
  cases Put.handing_item run with
  | stopped ensured | refused ensured => exact ensures ensured
  | faulted ensured asked | handed ensured asked => exact (ensures ensured).trans (asks asked)

theorem Issued.unwritten {pair : KeyPair} {lastSequence : Int} {middle issued : World τ ν}
    {receipt : Put.Receipt τ}
    (stages : Issued before content salt publicKey privateKey pair lastSequence middle receipt issued) :
    Unwritten before issued :=
  stages.toPrepared.unwritten.trans (unwritten_of_item stages.handed)

theorem unwritten_of_acknowledge {key : String} {receipt : Put.Receipt τ} {world : World τ ν}
    {outcome : Except Failure (Acknowledgement τ)}
    (run : (acknowledge key receipt).run world = (outcome, after)) : Unwritten world after :=
  ⟨(traces_acknowledge key receipt).of_run run, ((spares_acknowledge key receipt).of_run run).store⟩

/-- Nothing is written before a put is acknowledged. -/
theorem Unacknowledged.unwritten {failure : Failure}
    (unacknowledged : Unacknowledged before content salt publicKey privateKey failure after) :
    Unwritten before after := by
  cases unacknowledged with
  | unpaired => exact ⟨.refl before, rfl⟩
  | unsized checked =>
    obtain rfl := (checkSize_cases checked).1
    exact ⟨.refl after, rfl⟩
  | unprepared paired prepared =>
    exact ⟨((collects_prepare salt publicKey privateKey).of_run prepared).traces,
      (prepare_cases paired prepared).1.store⟩
  | faulted prepared given | unissued prepared given =>
    exact prepared.unwritten.trans (unwritten_of_item given)
  | unanswered issued waited => exact issued.unwritten.trans (unwritten_of_acknowledge waited)

/-! ### What is shown -/

/-- Whether an acknowledgement confirms a put that has returned. The item was handed over right after
one moment of the call, and the acknowledgement taken from the correlator at another. Items of the same digest
are not told apart unless their keys are of one length and digests do not collide. -/
structure Confirmed (before after : World τ ν) (content : Bytes) (salt : String)
    (published : Published) (pair : KeyPair) (acknowledgement : Acknowledgement τ)
    (issuing waited : World τ ν) : Prop where
  publicKey : published.publicKey = Hex.encode pair.publicKey
  privateKey : published.privateKey = Hex.encode pair.seed
  salted : published.salt = salt
  text : published.value = Utf8.decodeReplacing content
  began : before.journal <:+ issuing.journal
  handed : ∃ engine late, after.journal = late ++ .called engine (.put pair.publicKey salt
    ⟨content, published.sequence, pair.publicKey, pair.seed⟩) false :: issuing.journal
  accepted : .accepted (.acknowledgement acknowledgement.owner acknowledgement.salt
    acknowledgement.sequence acknowledgement.successes acknowledgement.message)
    acknowledgement.moment ∈ after.journal
  named : infoHash acknowledgement.owner acknowledgement.salt = infoHash pair.publicKey salt
  own : acknowledgement.owner.length = pair.publicKey.length →
    CollisionFree {itemName acknowledgement.owner acknowledgement.salt, itemName pair.publicKey salt} →
    acknowledgement.owner = pair.publicKey ∧ acknowledgement.salt = salt
  sequence : acknowledgement.sequence = published.sequence
  successful : acknowledgement.successes ≠ 0
  recent : Quantity.lt acknowledgement.moment issuing.clock = false
  held : waited.correlator.acknowledgements.get? (infoHash pair.publicKey salt)
    = some acknowledgement
  claimed : after.correlator = waited.correlator.claim (infoHash pair.publicKey salt)
  gone : after.correlator.acknowledgements.get? (infoHash pair.publicKey salt) = none

/-- Whether a store has a row for what was put, and every other row that it had. -/
structure Caches (pair : KeyPair) (content : Bytes) (salt : String) (sequence : Int)
    (old new : Store τ) : Prop where
  row : ∃ moment, new.read (infoHash pair.publicKey salt)
    = .ok (some (row pair content salt sequence moment))
  signed : Ed25519.Correct → DhtRecords.Item.verify content salt sequence pair.publicKey
    (pair.signItem content salt sequence) = true
  others : ∀ key, key ≠ infoHash pair.publicKey salt → new.read key = old.read key

section

variable {pair : KeyPair} {sequence : Int} {world : World τ ν}

omit [Overlay τ ν] in
theorem Keeping.same {result : Except Failure Unit}
    (keeping : Keeping pair content salt sequence world result after) :
    after.correlator = world.correlator ∧ after.journal = world.journal := by
  cases keeping <;> exact ⟨rfl, rfl⟩

omit [Overlay τ ν] in
theorem Keeping.store_of_error {failure : Failure}
    (keeping : Keeping pair content salt sequence world (.error failure) after) :
    after.store = world.store := by
  cases keeping <;> rfl

omit [Overlay τ ν] in
/-- An item that was kept is in the store, if there is one. -/
theorem Keeping.caches (keeping : Keeping pair content salt sequence world (.ok ()) after) :
    (world.store = none → after.store = none) ∧
      ∀ old, world.store = some old → ∃ new, after.store = some new ∧
        Caches pair content salt sequence old new := by
  cases keeping with
  | storeless none => exact ⟨id, fun old some => by cases none.symm.trans some⟩
  | @written store some isOpen fits =>
    refine ⟨fun none => by (cases none.symm.trans some), fun old same => ?_⟩
    obtain rfl := Option.some_inj.mp (some.symm.trans same)
    refine ⟨_, rfl, ?_, fun correct => ?_, fun key differs => ?_⟩
    · obtain ⟨moment, stamped⟩ : ∃ moment, Store.stamped world.clock
          (row pair content salt sequence world.clock) = row pair content salt sequence moment := by
        unfold Store.stamped
        split
        · exact ⟨world.clock, rfl⟩
        · exact ⟨world.clock, rfl⟩
      refine ⟨moment, ?_⟩
      rw [Store.read, if_pos isOpen, Entries.get?_insert, if_pos rfl, stamped]
    · exact pair.verify_signItem correct content salt (Store.written_of_fits fits)
    · rw [Store.read, Store.read, Entries.get?_insert, if_neg differs]

end

/-- A put that has taken its acknowledgement and kept its item was confirmed. -/
theorem exists_confirmed {pair : KeyPair} {lastSequence : Int} {middle issued taken : World τ ν}
    {receipt : Put.Receipt τ} {acknowledgement : Acknowledgement τ} (traced : before.Traced)
    (stages : Issued before content salt publicKey privateKey pair lastSequence middle receipt issued)
    (awaited : (acknowledge (infoHash pair.publicKey salt) receipt).run issued
      = (.ok acknowledgement, taken))
    (successful : acknowledgement.successes ≠ 0)
    (keeping : Keeping pair content salt receipt.sequence taken (.ok ()) after) (message : String) :
    ∃ issuing waited, Confirmed before after content salt (published pair content salt receipt message) pair
      acknowledgement issuing waited := by
  obtain ⟨correlator, journal⟩ := keeping.same
  cases Put.handing_item stages.handed with
  | @handed checked _ engine ensured asking =>
    obtain ⟨waited, upkeep, held, recent, number, rfl⟩ := acknowledge_takes awaited
    have handed := World.journal_ask engine (.put pair.publicKey salt
      ⟨content, lastSequence + 1, pair.publicKey, pair.seed⟩) checked
    rw [asking] at handed
    obtain ⟨fresh, waiting⟩ := upkeep.collects.suffix
    have began : before.journal <:+ checked.journal :=
      stages.toPrepared.unwritten.suffix.trans (Session.spares_ensureRunning.of_run ensured).hands.suffix
    -- What was held at the end of the wait was accepted.
    have there : waited.Traced := upkeep.collects.traces.traced (stages.unwritten.traced traced)
    obtain ⟨named, accepted⟩ := there _ (Entries.mem_of_get? held)
    have accepted := World.accepted_of_mem accepted
    rw [← journal] at accepted
    exact ⟨checked, waited, {
      publicKey := rfl
      privateKey := rfl
      salted := rfl
      text := rfl
      began := began
      handed := ⟨engine, fresh, by rw [journal, ← waiting, handed]; rfl⟩
      accepted := accepted
      named := named
      own := fun length free => free.eq_of_infoHash length (by simp) (by simp) named
      sequence := number
      successful := successful
      recent := recent
      held := held
      claimed := correlator
      gone := by
        rw [correlator]
        exact (Entries.get?_erase _ _ _).trans (if_pos rfl) }⟩

/-- A put that returns was confirmed, and the store keeps what was put; one that fails leaves the store
as it was, unless it cannot be told on how many nodes it has succeeded. -/
theorem put_evident {outcome : Except Failure Published} (traced : before.Traced)
    (run : (put content salt publicKey privateKey).run before = (outcome, after)) :
    after.Traced ∧ match outcome with
      | .error failure => after.store = before.store ∨ failure = .tooLong ∧
          ∃ pair receipt acknowledgement waited,
            Acknowledged before content salt publicKey privateKey pair receipt acknowledgement waited ∧
            acknowledgement.successes ≠ 0 ∧ Untold acknowledgement
      | .ok published => ∃ pair acknowledgement issuing waited,
          Confirmed before after content salt published pair acknowledgement issuing waited ∧
          (before.store = none → after.store = none) ∧
          ∀ old, before.store = some old → ∃ new, after.store = some new ∧
            Caches pair content salt published.sequence old new := by
  rcases put_stages run with ⟨failure, rfl, unacknowledged⟩ |
    ⟨pair, receipt, acknowledgement, taken, acknowledged, ending⟩
  · exact ⟨unacknowledged.unwritten.traced traced, .inl unacknowledged.unwritten.store⟩
  obtain ⟨lastSequence, middle, issued, stages, awaited⟩ := id acknowledged
  have unwritten := stages.unwritten.trans (unwritten_of_acknowledge awaited)
  have still {result : Except Failure Unit}
      (keeping : Keeping pair content salt receipt.sequence taken result after) : after.Traced := by
    obtain ⟨correlator, journal⟩ := keeping.same
    unfold World.Traced
    rw [correlator, journal]
    exact unwritten.traced traced
  cases ending_conclude ending with
  | vain => exact ⟨unwritten.traced traced, .inl unwritten.store⟩
  | unkept _ keeping =>
    exact ⟨still keeping, .inl (keeping.store_of_error.trans unwritten.store)⟩
  | untold successful keeping untold =>
    exact ⟨still keeping, .inr ⟨rfl, pair, receipt, acknowledgement, taken, acknowledged, successful,
      untold⟩⟩
  | returned successful keeping =>
    obtain ⟨issuing, waited, confirmed⟩ := exists_confirmed traced stages awaited successful keeping _
    obtain ⟨storeless, cached⟩ := keeping.caches
    rw [unwritten.store] at storeless cached
    exact ⟨still keeping, pair, acknowledgement, issuing, waited, confirmed, storeless, cached⟩

/-- A store with a row that has nothing to do with the put. -/
def shelf : Store Seconds where
  items := ⟨[("other", row Seconds.pair [98] "other" 7 ⟨0⟩)]⟩

/-- A world in which a put succeeds, with that store. -/
def stocked : World Seconds (Simnet Seconds) := { Seconds.world {} with store := some shelf }

theorem stocked_returns : ∃ published after,
    (put [97] "note" none none).run stocked = (.ok published, after) ∧ published.sequence = 1 := by
  have course : ledgerOf ((put [97] "note" none none).run stocked).1
      = some (Hex.encode Seconds.pair.publicKey, 1) := by
    decide +kernel
  rcases run : (put [97] "note" none none).run stocked with ⟨failure | published, after⟩
  · rw [run] at course
    cases course
  rw [run] at course
  exact ⟨published, after, rfl, (Prod.mk.inj (Option.some.inj course)).2⟩

theorem stocked_evident : ∃ published after pair acknowledgement issuing waited new,
    (put [97] "note" none none).run stocked = (.ok published, after) ∧
    Confirmed stocked after [97] "note" published pair acknowledgement issuing waited ∧
    published.sequence = 1 ∧ after.store = some new ∧ Caches pair [97] "note" 1 shelf new := by
  have traced : stocked.Traced := World.traced_of_empty rfl
  obtain ⟨published, after, run, number⟩ := stocked_returns
  obtain ⟨-, pair, acknowledgement, issuing, waited, confirmed, -, cached⟩ := put_evident traced run
  obtain ⟨new, kept, caches⟩ := cached shelf rfl
  rw [number] at caches
  exact ⟨published, after, pair, acknowledgement, issuing, waited, new, run, confirmed, number, kept,
    caches⟩

/-- An overlay that acknowledges nothing, while an alert comes about a longer key: the pair's, with the only
byte of the salt at its end. -/
def alien : World Seconds (Simnet Seconds) :=
  { stocked with
    overlay := { Seconds.net {} with options := { Simnet.Options.plain with dropAcknowledgements := 1 } }
    queue := [⟨⟨1⟩,
      .alert (.acknowledgement (Seconds.pair.publicKey ++ Utf8.encode "s") "" 1 8 "")⟩] }

/-- An overlay in which more nodes take an item than can be told. -/
def crowded : World Seconds (Simnet Seconds) :=
  { stocked with
    overlay := { Seconds.net {} with options :=
      { Simnet.Options.plain with putSuccesses := 10 ^ 4300, putMessage := some "" } } }

/-- Whether an acknowledgement of an item was accepted, if it is that what has happened. -/
def acknowledges (owner : Bytes) (salt : String) : Occurrence Seconds → Bool
  | .accepted (.acknowledgement owner' salt' _ _ _) _ => owner' = owner ∧ salt' = salt
  | _ => false

/-- Whether a put has failed for a number that is too long. -/
def isTooLong : Except Failure Published → Bool
  | .error .tooLong => true
  | _ => false

theorem eq_of_isTooLong {outcome : Except Failure Published} (long : isTooLong outcome = true) :
    outcome = .error .tooLong := by
  unfold isTooLong at long
  split at long
  · rfl
  · cases long

/-- A put returns although no acknowledgement of its item was accepted, and another one fails although its
row was written. -/
theorem alien_confirms :
    (∃ published after, (put [97] "s" none none).run alien = (.ok published, after) ∧
      published.publicKey = Hex.encode Seconds.pair.publicKey ∧
      ∀ occurrence ∈ after.journal,
        acknowledges Seconds.pair.publicKey "s" occurrence = false) ∧
    ∃ after, (put [97] "note" none none).run crowded = (.error .tooLong, after) ∧
      after.store.map (·.items.pairs.length) = some 2 ∧
      crowded.store.map (·.items.pairs.length) = some 1 := by
  have course : ledgerOf ((put [97] "s" none none).run alien).1
        = some (Hex.encode Seconds.pair.publicKey, 1) ∧
      (∀ occurrence ∈ ((put [97] "s" none none).run alien).2.journal,
        acknowledges Seconds.pair.publicKey "s" occurrence = false) ∧
      isTooLong ((put [97] "note" none none).run crowded).1 = true ∧
      ((put [97] "note" none none).run crowded).2.store.map (·.items.pairs.length) = some 2 := by
    decide +kernel
  obtain ⟨returned, unheard, long, written⟩ := course
  constructor
  · rcases run : (put [97] "s" none none).run alien with ⟨failure | published, after⟩
    · rw [run] at returned
      cases returned
    · rw [run] at returned unheard
      exact ⟨published, after, rfl, (Prod.mk.inj (Option.some.inj returned)).1, unheard⟩
  · rcases run : (put [97] "note" none none).run crowded with ⟨outcome, after⟩
    rw [run] at long written
    obtain rfl := eq_of_isTooLong long
    exact ⟨after, rfl, written, rfl⟩

end Mutable

end DhtRecords
