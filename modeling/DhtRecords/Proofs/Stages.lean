/-
The stages of a put.

A put of a single item checks what it is given, finds the pair and the number to
follow on, hands the item to an engine (`Put.Handing`), waits for the acknowledgement
and keeps the item in the store (`Mutable.Keeping`). It ends before it is acknowledged
(`Mutable.Unacknowledged`, with one case for each way out), or it is acknowledged
(`Mutable.Acknowledged`) and its outcome is that of the last stage. `Mutable.put_stages`
takes a run apart in this way; `Mutable.run_put` puts the stages together again.
-/

import DhtRecords.Mutable
import DhtRecords.Proofs.Programs
import Mathlib.Logic.Basic

namespace DhtRecords

/-- A number that can be stored can be written. -/
theorem Store.written_of_fits {sequence : Int} (fits : Store.fits sequence = true) :
    Decimal.isTooLong sequence = false := by
  have large : 0x8000000000000000 < Nat.pow 2 64 := by decide
  simp only [Store.fits, Bool.and_eq_true, decide_eq_true_eq] at fits
  exact Decimal.isTooLong_of_lt (by omega)

theorem Store.fits_of_isTooLong {sequence : Int} (long : Decimal.isTooLong sequence = true) :
    Store.fits sequence = false := by
  refine eq_false_of_ne_true fun fits => ?_
  exact Bool.false_ne_true ((written_of_fits fits).symm.trans long)

open Op

variable {τ ν : Type} [Quantity τ] [Overlay τ ν]

/-! ### Handing an item over -/

namespace Put

/-- The ways in which a single item is handed to an engine, or is not. -/
inductive Handing (world : World τ ν) (owner privateKey : Bytes) (salt : String) (content : Bytes)
    (lastSequence : Int) : Except Failure (Except Error (Receipt τ)) → World τ ν → Prop
  /-- Looking after the session has failed. -/
  | stopped {failure : Failure} {after : World τ ν} :
      Session.ensureRunning.run world = (.error failure, after) →
      Handing world owner privateKey salt content lastSequence (.error failure) after
  /-- There is no engine, or the keys do not go together. -/
  | refused {unavailable : Option ErrorKind} {reason : Error} {after : World τ ν} :
      Session.ensureRunning.run world = (.ok unavailable, after) →
      Handing world owner privateKey salt content lastSequence (.ok (.error reason)) after
  | faulted {checked after : World τ ν} {engine : EngineId} {fault : EngineFault} :
      Session.ensureRunning.run world = (.ok none, checked) →
      checked.ask engine (.put owner salt ⟨content, lastSequence + 1, owner, privateKey⟩)
        = (.error fault, after) →
      Handing world owner privateKey salt content lastSequence (.error (.engine fault)) after
  | handed {checked after : World τ ν} {engine : EngineId} :
      Session.ensureRunning.run world = (.ok none, checked) →
      checked.ask engine (.put owner salt ⟨content, lastSequence + 1, owner, privateKey⟩)
        = (.ok (), after) →
      Handing world owner privateKey salt content lastSequence
        (.ok (.ok ⟨lastSequence + 1, [salt], checked.clock⟩)) after

theorem handing_item {owner privateKey : Bytes} {salt : String} {content : Bytes}
    {lastSequence : Int} {world after : World τ ν}
    {outcome : Except Failure (Except Error (Receipt τ))}
    (run : (item owner privateKey salt content lastSequence).run world = (outcome, after)) :
    Handing world owner privateKey salt content lastSequence outcome after := by
  unfold item at run
  rw [run_bind] at run
  rcases ensured : Session.ensureRunning.run world with ⟨failure | unavailable, checked⟩ <;>
    rw [ensured] at run
  · cases run
    exact .stopped ensured
  dsimp only at run
  cases unavailable with
  | some kind =>
    cases run
    exact .refused ensured
  | none =>
    rw [if_neg (by decide)] at run
    split at run
    · cases run
      exact .refused ensured
    rw [run_bind_ok (run_get checked)] at run
    unfold issue at run
    rw [run_bind, run_bind_ok (run_get checked)] at run
    rcases installed : checked.session.engine with _ | engine <;> rw [installed] at run
    · cases run
      exact .refused ensured
    · dsimp only at run
      rw [run_bind, List.map_cons, List.map_nil, handOver, run_bind, run_ask] at run
      rcases asked : checked.ask engine
        (.put owner salt ⟨content, lastSequence + 1, owner, privateKey⟩) with ⟨fault | _, issued⟩ <;>
        rw [asked] at run <;> cases run
      · exact .faulted ensured asked
      · exact .handed ensured asked

end Put

namespace Mutable

/-! ### Up to the acknowledgement -/

omit [Overlay τ ν] in
theorem checkSize_cases {content : Bytes} {before after : World τ ν} {outcome : Except Failure PUnit}
    (run : (checkSize content).run before = (outcome, after)) :
    after = before ∧ (outcome = .ok ⟨⟩ →
      ∃ limit, before.settings.maxChunkSize = some limit ∧ limit.isBelow content.length = false) := by
  unfold checkSize at run
  rw [run_bind_ok (run_get before)] at run
  split at run
  · cases run
    exact ⟨rfl, nofun⟩
  · next limit said =>
    split at run
    · split at run <;> cases run <;> exact ⟨rfl, nofun⟩
    · next fits =>
      cases run
      exact ⟨rfl, fun _ => ⟨limit, said, eq_false_of_ne_true fits⟩⟩

/-- Whether a put has found the pair that signs and the number that it follows on. -/
structure Prepared (before : World τ ν) (content : Bytes) (salt : String)
    (publicKey privateKey : Option String) (pair : KeyPair) (lastSequence : Int)
    (middle : World τ ν) : Prop where
  paired : publicKey.isNone = privateKey.isNone
  sized : (checkSize content).run before = (.ok ⟨⟩, before)
  known : (prepare salt publicKey privateKey).run before = (.ok (pair, lastSequence), middle)

/-- Whether a put has handed its item to an engine. -/
structure Issued (before : World τ ν) (content : Bytes) (salt : String)
    (publicKey privateKey : Option String) (pair : KeyPair) (lastSequence : Int)
    (middle : World τ ν) (receipt : Put.Receipt τ) (issued : World τ ν) : Prop extends
    Prepared before content salt publicKey privateKey pair lastSequence middle where
  handed : (Put.item pair.publicKey pair.seed salt content lastSequence).run middle
    = (.ok (.ok receipt), issued)

/-- Whether a put has taken the acknowledgement that it waits for. -/
def Acknowledged (before : World τ ν) (content : Bytes) (salt : String)
    (publicKey privateKey : Option String) (pair : KeyPair) (receipt : Put.Receipt τ)
    (acknowledgement : Acknowledgement τ) (waited : World τ ν) : Prop :=
  ∃ lastSequence middle issued,
    Issued before content salt publicKey privateKey pair lastSequence middle receipt issued ∧
      (acknowledge (infoHash pair.publicKey salt) receipt).run issued = (.ok acknowledgement, waited)

/-- The ways in which a put ends before it is acknowledged. -/
inductive Unacknowledged (before : World τ ν) (content : Bytes) (salt : String) :
    Option String → Option String → Failure → World τ ν → Prop
  | unpaired {publicKey privateKey : Option String} {error : OperationError} :
      publicKey.isNone ≠ privateKey.isNone →
      Unacknowledged before content salt publicKey privateKey (.operation error) before
  | unsized {publicKey privateKey : Option String} {failure : Failure} {after : World τ ν} :
      (checkSize content).run before = (.error failure, after) →
      Unacknowledged before content salt publicKey privateKey failure after
  | unprepared {publicKey privateKey : Option String} {failure : Failure} {after : World τ ν} :
      publicKey.isNone = privateKey.isNone →
      (prepare salt publicKey privateKey).run before = (.error failure, after) →
      Unacknowledged before content salt publicKey privateKey failure after
  /-- The put itself has failed, in the session or in the engine. -/
  | faulted {publicKey privateKey : Option String} {pair : KeyPair} {lastSequence : Int}
      {middle after : World τ ν} {failure : Failure} :
      Prepared before content salt publicKey privateKey pair lastSequence middle →
      (Put.item pair.publicKey pair.seed salt content lastSequence).run middle
        = (.error failure, after) →
      Unacknowledged before content salt publicKey privateKey failure after
  /-- There was no engine to put the item. -/
  | unissued {publicKey privateKey : Option String} {pair : KeyPair} {lastSequence : Int}
      {middle after : World τ ν} {reason : Put.Error} {error : OperationError} :
      Prepared before content salt publicKey privateKey pair lastSequence middle →
      (Put.item pair.publicKey pair.seed salt content lastSequence).run middle
        = (.ok (.error reason), after) →
      Unacknowledged before content salt publicKey privateKey (.operation error) after
  | unanswered {publicKey privateKey : Option String} {pair : KeyPair} {lastSequence : Int}
      {middle issued after : World τ ν} {receipt : Put.Receipt τ} {failure : Failure} :
      Issued before content salt publicKey privateKey pair lastSequence middle receipt issued →
      (acknowledge (infoHash pair.publicKey salt) receipt).run issued = (.error failure, after) →
      Unacknowledged before content salt publicKey privateKey failure after

/-! ### The last stage -/

/-- What a put returns. -/
def published (pair : KeyPair) (content : Bytes) (salt : String) (receipt : Put.Receipt τ)
    (message : String) : Published where
  publicKey := Hex.encode pair.publicKey
  privateKey := Hex.encode pair.seed
  salt := salt
  sequence := receipt.sequence
  value := Utf8.decodeReplacing content
  message := message

/-- What is left of a put that was acknowledged. -/
def conclude (pair : KeyPair) (content : Bytes) (salt : String) (receipt : Put.Receipt τ)
    (acknowledgement : Acknowledgement τ) : Op τ ν Published := do
  if acknowledgement.successes = 0 then
    fail .putNotAcknowledged
      (if acknowledgement.message.isEmpty then "Put succeeded on 0 nodes" else acknowledgement.message)
  keep pair salt content receipt.sequence
  return published pair content salt receipt (← report acknowledgement)

variable {before after : World τ ν} {content : Bytes} {salt : String}
  {publicKey privateKey : Option String} {outcome : Except Failure Published}

/-- A put that was acknowledged ends as its last stage does. -/
theorem run_put {pair : KeyPair} {receipt : Put.Receipt τ} {acknowledgement : Acknowledgement τ}
    {waited : World τ ν} (acknowledged :
      Acknowledged before content salt publicKey privateKey pair receipt acknowledgement waited) :
    (put content salt publicKey privateKey).run before
      = (conclude pair content salt receipt acknowledgement).run waited := by
  obtain ⟨lastSequence, middle, issued, stages, taken⟩ := acknowledged
  unfold put
  rw [if_neg (not_not.mpr stages.paired), run_bind_ok stages.sized, run_bind_ok stages.known,
    run_bind_ok stages.handed]
  exact run_bind_ok taken

theorem put_stages (run : (put content salt publicKey privateKey).run before = (outcome, after)) :
    (∃ failure, outcome = .error failure ∧
      Unacknowledged before content salt publicKey privateKey failure after) ∨
    ∃ pair receipt acknowledgement waited,
      Acknowledged before content salt publicKey privateKey pair receipt acknowledgement waited ∧
      (conclude pair content salt receipt acknowledgement).run waited = (outcome, after) := by
  unfold put at run
  split at run
  · next unpaired =>
    cases run
    exact .inl ⟨_, rfl, .unpaired unpaired⟩
  next paired =>
  have paired := not_not.mp paired
  -- Each stage fails, and the put with it, or leads to the next one.
  rw [run_bind] at run
  rcases sized : (checkSize content).run before with ⟨failure | _, world⟩ <;> rw [sized] at run
  · cases run
    exact .inl ⟨_, rfl, .unsized sized⟩
  obtain rfl := (checkSize_cases sized).1
  dsimp only at run
  rw [run_bind] at run
  rcases known : (prepare salt publicKey privateKey).run world with
    ⟨failure | ⟨pair, lastSequence⟩, middle⟩ <;> rw [known] at run
  · cases run
    exact .inl ⟨_, rfl, .unprepared paired known⟩
  have prepared : Prepared world content salt publicKey privateKey pair lastSequence middle :=
    ⟨paired, sized, known⟩
  dsimp only at run
  rw [run_bind] at run
  rcases handed : (Put.item pair.publicKey pair.seed salt content lastSequence).run middle with
    ⟨failure | reason | receipt, issued⟩ <;> rw [handed] at run
  · cases run
    exact .inl ⟨_, rfl, .faulted prepared handed⟩
  · cases run
    exact .inl ⟨_, rfl, .unissued prepared handed⟩
  dsimp only at run
  rw [run_bind] at run
  rcases taken : (acknowledge (infoHash pair.publicKey salt) receipt).run issued with
    ⟨failure | acknowledgement, waited⟩ <;> rw [taken] at run
  · cases run
    exact .inl ⟨_, rfl, .unanswered ⟨prepared, handed⟩ taken⟩
  · exact .inr ⟨pair, receipt, acknowledgement, waited,
      ⟨lastSequence, middle, issued, ⟨prepared, handed⟩, taken⟩, run⟩

/-! ### What is kept -/

/-- The row that a put writes. -/
def row (pair : KeyPair) (content : Bytes) (salt : String) (sequence : Int) (moment : τ) :
    StoredItem τ where
  infoHash := infoHash pair.publicKey salt
  owner := pair.publicKey
  salt := salt
  value := content
  sequence := sequence
  signature := pair.signItem content salt sequence
  moment := moment

/-- The ways in which an item is kept, or is not. -/
inductive Keeping (pair : KeyPair) (content : Bytes) (salt : String) (sequence : Int)
    (world : World τ ν) : Except Failure Unit → World τ ν → Prop
  | storeless : world.store = none → Keeping pair content salt sequence world (.ok ()) world
  | written {store : Store τ} : world.store = some store → store.isOpen = true →
      Store.fits sequence = true →
      Keeping pair content salt sequence world (.ok ()) { world with
        store := some { store with
          items := store.items.insert (infoHash pair.publicKey salt)
            (Store.stamped world.clock (row pair content salt sequence world.clock)) } }
  | closed {store : Store τ} : world.store = some store → store.isOpen = false →
      Keeping pair content salt sequence world (.error (.store .closed)) world
  | outOfRange {store : Store τ} : world.store = some store → store.isOpen = true →
      Store.fits sequence = false →
      Keeping pair content salt sequence world (.error (.store .outOfRange)) world
  | tooLong {store : Store τ} : world.store = some store → Decimal.isTooLong sequence = true →
      Keeping pair content salt sequence world (.error (.key .tooLong)) world

/-- The moment of writing is one. -/
theorem isMoment_row (pair : KeyPair) (content : Bytes) (salt : String) (sequence : Int) (now : τ) :
    Store.isMoment now (Store.stamped now (row pair content salt sequence now)).moment = true := by
  have now' : (Store.stamped now (row pair content salt sequence now)).moment = now := by
    unfold Store.stamped
    split <;> rfl
  rw [now', Store.isMoment]
  exact Bool.or_not_self _

omit [Overlay τ ν] in
theorem keeping_keep {pair : KeyPair} {sequence : Int} {world : World τ ν}
    {result : Except Failure Unit}
    (run : (keep pair salt content sequence).run world = (result, after)) :
    Keeping pair content salt sequence world result after := by
  unfold keep at run
  rw [run_bind_ok (run_get world)] at run
  split at run
  · next none =>
    cases run
    exact .storeless none
  next store some =>
  by_cases long : Decimal.isTooLong sequence = true
  · rw [DhtRecords.Item.writeBuffer, if_pos long] at run
    cases run
    exact .tooLong some long
  rw [DhtRecords.Item.writeBuffer, if_neg long] at run
  dsimp only [Store.put, Store.refusal?] at run
  rcases store with ⟨items, path, isOpen⟩
  cases isOpen with
  | false =>
    cases run
    exact .closed some rfl
  | true =>
    by_cases fits : Store.fits sequence = true
    · rw [fits] at run
      simp only [Bool.not_true, Bool.false_eq_true, if_false] at run
      have dated := isMoment_row pair content salt sequence world.clock
      rw [row] at dated
      rw [if_pos dated] at run
      cases run
      exact .written some rfl fits
    · have unfit := eq_false_of_ne_true fits
      rw [unfit] at run
      cases run
      exact .outOfRange some rfl unfit

/-- Whether it cannot be told on how many nodes a put has succeeded: the number is too long to be written, and
the acknowledgement says nothing else. -/
def Untold (acknowledgement : Acknowledgement τ) : Prop :=
  acknowledgement.message.isEmpty = true ∧ Decimal.isTooLong acknowledgement.successes = true

omit [Quantity τ] [Overlay τ ν] in
theorem report_cases (acknowledgement : Acknowledgement τ) :
    (Untold acknowledgement ∧ report acknowledgement = .error .tooLong) ∨
      ¬ Untold acknowledgement ∧ ∃ message, report acknowledgement = .ok message := by
  unfold Untold report
  cases acknowledgement.message.isEmpty with
  | true =>
    cases Decimal.isTooLong acknowledgement.successes with
    | true => simp
    | false => simp
  | false => simp

/-- The ways in which a put that was acknowledged ends. -/
inductive Ending (pair : KeyPair) (content : Bytes) (salt : String) (receipt : Put.Receipt τ)
    (acknowledgement : Acknowledgement τ) (waited : World τ ν) :
    Except Failure Published → World τ ν → Prop
  /-- No node has taken the item. -/
  | vain {error : OperationError} : acknowledgement.successes = 0 →
      Ending pair content salt receipt acknowledgement waited (.error (.operation error)) waited
  | unkept {failure : Failure} {after : World τ ν} : acknowledgement.successes ≠ 0 →
      Keeping pair content salt receipt.sequence waited (.error failure) after →
      Ending pair content salt receipt acknowledgement waited (.error failure) after
  | untold {after : World τ ν} : acknowledgement.successes ≠ 0 →
      Keeping pair content salt receipt.sequence waited (.ok ()) after → Untold acknowledgement →
      Ending pair content salt receipt acknowledgement waited (.error .tooLong) after
  | returned {message : String} {after : World τ ν} : acknowledgement.successes ≠ 0 →
      Keeping pair content salt receipt.sequence waited (.ok ()) after → ¬ Untold acknowledgement →
      Ending pair content salt receipt acknowledgement waited
        (.ok (published pair content salt receipt message)) after

omit [Overlay τ ν] in
/-- A put that returns has kept its item. -/
theorem Ending.of_ok {pair : KeyPair} {receipt : Put.Receipt τ} {acknowledgement : Acknowledgement τ}
    {waited : World τ ν} {result : Published}
    (ending : Ending pair content salt receipt acknowledgement waited (.ok result) after) :
    ∃ message, acknowledgement.successes ≠ 0 ∧
      Keeping pair content salt receipt.sequence waited (.ok ()) after ∧
      result = published pair content salt receipt message := by
  cases ending with
  | returned nonzero keeping => exact ⟨_, nonzero, keeping, rfl⟩

omit [Overlay τ ν] in
/-- A put that was acknowledged fails if no node has taken the item, and else returns if the item
could be kept and it can be told on how many nodes it is. -/
theorem ending_conclude {pair : KeyPair} {receipt : Put.Receipt τ}
    {acknowledgement : Acknowledgement τ} {waited : World τ ν}
    (run : (conclude pair content salt receipt acknowledgement).run waited = (outcome, after)) :
    Ending pair content salt receipt acknowledgement waited outcome after := by
  unfold conclude at run
  split at run
  · next zero =>
    cases run
    exact .vain zero
  · next nonzero =>
    rw [run_bind] at run
    rcases kept : (keep pair salt content receipt.sequence).run waited with ⟨failure | _, world⟩ <;>
      rw [kept] at run
    · cases run
      exact .unkept nonzero (keeping_keep kept)
    · dsimp only at run
      rcases report_cases acknowledgement with ⟨untold, told⟩ | ⟨tellable, message, told⟩ <;>
        rw [told] at run <;> cases run
      · exact .untold nonzero (keeping_keep kept) untold
      · exact .returned nonzero (keeping_keep kept) tellable

end Mutable

end DhtRecords
