/-
The cooldown of puts over whole runs of a coordinator.

A coordinator is asked to put records and single items and to sweep its stamps,
and time passes in between. `Runs` lists the admissions of such a run: the
submissions that were neither held back nor rolled back. `locked_iff_recent` is
the main statement: the answer to a submission depends on the admissions of its
own record and on the time, and on nothing else.
-/

import DhtRecords.Proofs.Recall
import DhtRecords.Put

namespace DhtRecords.Put

open ExactQuantity (value)
open World (Continues)

/-! ### What a coordinator remembers -/

section Remembers

variable {τ ν : Type} [Quantity τ] [ExactQuantity τ]

/-- Whether a coordinator with a cooldown remembers the admissions up to now. -/
structure Remembers (cooldown : τ) (admitted : List (Admission τ)) (world : World τ ν) : Prop where
  cooldown : world.ledger.cooldown = cooldown
  recalls : world.ledger.Recalls admitted world.clock

namespace Remembers

variable {cooldown : τ} {admitted : List (Admission τ)} {world after : World τ ν}

theorem elapse (remembers : Remembers cooldown admitted world) (ledger : after.ledger = world.ledger)
    (forward : value world.clock ≤ value after.clock) : Remembers cooldown admitted after where
  cooldown := by rw [ledger, remembers.cooldown]
  recalls := by rw [ledger]; exact remembers.recalls.later forward

theorem carry (remembers : Remembers cooldown admitted world) (continues : Continues world after) :
    Remembers cooldown admitted after :=
  remembers.elapse continues.ledger continues.clock_le

theorem stamp (remembers : Remembers cooldown admitted world) (key : RecordKey) :
    Remembers cooldown (⟨key, world.clock⟩ :: admitted)
      (modifyLedger (·.stamp key world.clock) world) :=
  ⟨remembers.cooldown, remembers.recalls.stamp key⟩

theorem sweep (remembers : Remembers cooldown admitted world) :
    Remembers cooldown admitted (modifyLedger (·.sweep world.clock) world) :=
  ⟨remembers.cooldown, remembers.recalls.sweep⟩

/-- Entering a submission changes no stamp but those that an automatic sweep drops. -/
theorem enter (remembers : Remembers cooldown admitted world) (submission : Submission τ) :
    Remembers cooldown admitted (enter submission world) := by
  have entered : Remembers cooldown admitted (modifyLedger (·.submit submission) world) :=
    ⟨remembers.cooldown, remembers.recalls.congr rfl rfl⟩
  simp only [Put.enter]
  split
  · exact entered.sweep
  · exact entered

/-- A stamp that is released after the engine was looked for is as if it had not been taken. -/
theorem release (remembers : Remembers cooldown admitted world) {key : RecordKey}
    (free : world.ledger.remaining? key world.clock = none)
    (issued : Continues (modifyLedger (·.stamp key world.clock) world) after) :
    Remembers cooldown admitted (modifyLedger (·.release key world.clock) after) := by
  have ledger : (modifyLedger (·.release key world.clock) after).ledger
      = (world.ledger.stamp key world.clock).release key world.clock :=
    congrArg (fun ledger : Ledger τ => ledger.release key world.clock) issued.ledger
  have recalls := (remembers.recalls.stamp_release free).later issued.clock_le
  refine ⟨?_, by rw [ledger]; exact recalls⟩
  rw [ledger, Ledger.cooldown_release]
  exact remembers.cooldown

end Remembers

theorem heldBack?_eq (ledger : Ledger τ) (key : RecordKey) (now : τ) :
    heldBack? ledger key now = (ledger.remaining? key now).map fun rest => .ok ⌈value rest⌉ := by
  unfold heldBack?
  simp

end Remembers

variable {τ ν : Type} [Quantity τ] [Overlay τ ν]

/-! ### Puts and the ledger -/

theorem keeps_handOver (engine : EngineId) (owner : Bytes) (items : List (String × Signer)) :
    Op.Keeps Continues (handOver engine owner items : Op τ ν Unit) := by
  induction items with
  | nil => exact .pure ()
  | cons item rest ih =>
    unfold handOver
    exact .bind (World.keeps_ask engine _) fun _ => ih

theorem keeps_issue (owner privateKey : Bytes) (sequence : Int) (items : List (String × Bytes)) :
    Op.Keeps Continues (issue owner privateKey sequence items : Op τ ν Bool) := by
  refine .get_bind fun world => ?_
  split
  · exact .pure false
  · exact .bind (keeps_handOver _ owner _) fun _ => .pure true

theorem keeps_item (owner privateKey : Bytes) (salt : String) (content : Bytes)
    (lastSequence : Int) :
    Op.Keeps Continues (item owner privateKey salt content lastSequence : Op τ ν _) := by
  refine .bind Session.keeps_ensureRunning fun unavailable => ?_
  split
  · exact .pure _
  · split
    · exact .pure _
    · refine .get_bind fun world => .bind (keeps_issue owner privateKey _ _) fun issued => ?_
      split
      · exact .pure _
      · exact .pure _

/-! ### Submissions -/

/-- A record that a coordinator is asked to put. -/
structure Submit where
  owner : Bytes
  privateKey : Bytes
  lastSequence : Int
  record : Record

namespace Submit

/-- What the submission is held back under. -/
def key (submit : Submit) : RecordKey := ⟨submit.owner, submit.record.operation⟩

/-- The submission and what it comes to. -/
def run (submit : Submit) (world : World τ ν) :
    Except Failure (Except Error (Receipt τ)) × World τ ν :=
  (Put.record submit.owner submit.privateKey submit.lastSequence submit.record).run world

/-- The world in which a submission gets past the checks of the session, the record and the keys; its
clock is what the cooldown is measured by. -/
def checked? (submit : Submit) (world : World τ ν) : Option (World τ ν) :=
  match Session.ensureRunning.run world with
  | (.ok none, world) =>
    if submit.record.isValid ∧ Item.keyError? submit.owner submit.privateKey = none then some world
    else none
  | _ => none

/-- The announced seconds, if the submission is held back. -/
def lockedFor? (submit : Submit) (world : World τ ν) : Option Int :=
  match (submit.run world).1 with
  | .ok (.error (.locked seconds)) => some seconds
  | _ => none

/-- The admission of a submission that gets past the checks and is neither held back nor rolled back,
as it is if the session has stopped before the first item. -/
def admission? (submit : Submit) (world : World τ ν) : Option (Admission τ) :=
  (submit.checked? world).bind fun checked =>
    match (submit.run world).1 with
    | .ok (.error (.locked _)) => none
    | .ok (.error .stopped) => none
    | _ => some ⟨submit.key, checked.clock⟩

theorem admission?_of_locked {submit : Submit} {world : World τ ν} {seconds : Int}
    (locked : submit.lockedFor? world = some seconds) : submit.admission? world = none := by
  unfold lockedFor? at locked
  unfold admission?
  cases submit.checked? world with
  | none => rfl
  | some checked =>
    split at locked
    · next run => rw [Option.bind_some, run]
    · cases locked

theorem continues_checked? {submit : Submit} {world checked : World τ ν}
    (past : submit.checked? world = some checked) : Continues world checked := by
  have session := Session.keeps_ensureRunning world
  unfold checked? at past
  split at past
  · next after step =>
    rw [step] at session
    split at past
    · cases past; exact session
    · cases past
  · cases past

/-- A submission that does not get past the checks does no more than look after the session. It is not
held back and has no receipt. -/
theorem ended_of_unchecked {submit : Submit} {world : World τ ν}
    (unchecked : submit.checked? world = none) :
    (submit.run world).2 = (Session.ensureRunning.run world).2 ∧ submit.lockedFor? world = none ∧
      ∀ receipt, (submit.run world).1 ≠ .ok (.ok receipt) := by
  unfold lockedFor? run Put.record
  unfold checked? at unchecked
  rw [Op.run_bind]
  rcases step : Session.ensureRunning.run world with ⟨failure | unavailable, after⟩
  · exact ⟨rfl, rfl, nofun⟩
  · rw [step] at unchecked
    cases unavailable with
    | some kind => exact ⟨rfl, rfl, nofun⟩
    | none =>
      by_cases valid : submit.record.isValid = true
      · cases keyError : Item.keyError? submit.owner submit.privateKey with
        | some error => simp [valid]
        | none => simp [valid, keyError] at unchecked
      · simp [valid]

/-- A submission that does not get past the checks changes no stamp and is not held back. -/
theorem run_of_unchecked {submit : Submit} {world : World τ ν}
    (unchecked : submit.checked? world = none) :
    Continues world (submit.run world).2 ∧ submit.lockedFor? world = none := by
  obtain ⟨ended, locked, -⟩ := ended_of_unchecked unchecked
  rw [ended]
  exact ⟨Session.keeps_ensureRunning world, locked⟩

/-- A submission that gets past the checks is held back by the ledger or issued. -/
theorem run_of_checked {submit : Submit} {world checked : World τ ν}
    (past : submit.checked? world = some checked) :
    submit.run world =
      match heldBack? checked.ledger submit.key checked.clock with
      | some (.ok seconds) => (.ok (.error (.locked seconds)), checked)
      | some (.error failure) => (.error failure, checked)
      | none =>
        (issueRecord submit.key submit.privateKey submit.lastSequence submit.record).run checked := by
  unfold checked? at past
  split at past
  · next after step =>
    split at past
    · next valid =>
      cases past
      unfold run Put.record
      rw [Op.run_bind_ok step]
      simp only [Option.isSome_none, valid.1, valid.2, Bool.false_eq_true, Bool.not_true, if_false]
      rw [Op.run_bind_ok (Op.run_get checked)]
      change (match heldBack? checked.ledger submit.key checked.clock with
        | some (.ok seconds) => _ | some (.error failure) => _ | none => _ : Op τ ν _).run checked = _
      split <;> rfl
    · cases past
  · cases past

end Submit

/-- A record that is issued is stamped first. Then an engine fails, the submission is entered, or there
is no engine and the stamp is released. -/
theorem issueRecord_cases (key : RecordKey) (privateKey : Bytes) (lastSequence : Int)
    (record : Record) (world : World τ ν) :
    ∃ after, Continues (modifyLedger (·.stamp key world.clock) world) after ∧
      ((∃ failure, (issueRecord key privateKey lastSequence record).run world = (.error failure, after)) ∨
      (∃ receipt submission, (issueRecord key privateKey lastSequence record).run world
        = (.ok (.ok receipt), enter submission after)) ∨
      (issueRecord key privateKey lastSequence record).run world
        = (.ok (.error .stopped), modifyLedger (·.release key world.clock) after)) := by
  unfold issueRecord
  rw [Op.run_bind_ok (Op.run_get world), Op.run_bind_ok (Op.run_modify _ world)]
  cases encoded : items? record with
  | none => exact ⟨_, .refl _, .inl ⟨.beyondRange, rfl⟩⟩
  | some items =>
    have issued := keeps_issue key.owner privateKey (lastSequence + 1) items
      (modifyLedger (·.stamp key world.clock) world)
    simp only
    rw [Op.run_bind]
    rcases step : (issue key.owner privateKey (lastSequence + 1) items).run
      (modifyLedger (·.stamp key world.clock) world) with ⟨failure | hasEngine, after⟩
    · rw [step] at issued
      exact ⟨after, issued, .inl ⟨failure, rfl⟩⟩
    · rw [step] at issued
      cases hasEngine with
      | true => exact ⟨after, issued, .inr (.inl ⟨_, _, rfl⟩)⟩
      | false => exact ⟨after, issued, .inr (.inr rfl)⟩

namespace Submit

variable [ExactQuantity τ] {cooldown : τ} {admitted : List (Admission τ)} {world checked : World τ ν}
  {submit : Submit}

/-- A submission that gets past the checks is locked for as long as the admissions say. -/
theorem lockedFor?_eq (remembers : Remembers cooldown admitted world)
    (past : submit.checked? world = some checked) :
    submit.lockedFor? world =
      (Admission.last? admitted submit.key).bind fun last =>
        if value checked.clock - value last < value cooldown then
          some ⌈value cooldown - (value checked.clock - value last)⌉
        else none := by
  have checkedRemembers := remembers.carry (continues_checked? past)
  rw [← Ledger.map_ceil_heldBackAfter?]
  unfold lockedFor?
  rw [run_of_checked past, heldBack?_eq, checkedRemembers.recalls.remaining?_eq,
    checkedRemembers.cooldown]
  cases Ledger.heldBackAfter? cooldown admitted submit.key checked.clock with
  | some rest => rfl
  | none =>
    obtain ⟨after, -, ⟨failure, issue⟩ | ⟨receipt, submission, issue⟩ | issue⟩ :=
      issueRecord_cases submit.key submit.privateKey submit.lastSequence submit.record checked
    · simp only [Option.map_none, issue]
    · simp only [Option.map_none, issue]
    · simp only [Option.map_none, issue]

/-- A lock that is said to last for some seconds is open once these have passed, and no sooner. -/
theorem isSome_later_iff {period age : ℚ} {seconds pause : Int}
    (locked : (if age < period then some ⌈period - age⌉ else none) = some seconds) :
    (if age + pause < period then some ⌈period - (age + pause)⌉ else none).isSome ↔
      pause < seconds := by
  obtain ⟨-, locked⟩ := Option.ite_none_right_eq_some.mp locked
  obtain rfl := Option.some.inj locked
  rw [Option.isSome_ite, Int.lt_ceil, lt_sub_iff_add_lt, add_comm]

/-- After a submission the coordinator remembers its admission, if there is one. -/
theorem remembers_run (submit : Submit) (remembers : Remembers cooldown admitted world) :
    Remembers cooldown ((submit.admission? world).toList ++ admitted) (submit.run world).2 := by
  cases past : submit.checked? world with
  | none =>
    rw [admission?, past]
    exact remembers.carry (run_of_unchecked past).1
  | some checked =>
    have checkedRemembers := remembers.carry (continues_checked? past)
    have run := run_of_checked past
    rw [heldBack?_eq] at run
    simp only [admission?, past, Option.bind_some]
    cases held : checked.ledger.remaining? submit.key checked.clock with
    | some rest =>
      rw [held, Option.map_some] at run
      simpa [run] using checkedRemembers
    | none =>
      rw [held, Option.map_none] at run
      have stamped := checkedRemembers.stamp submit.key
      obtain ⟨after, issued, ⟨failure, issue⟩ | ⟨receipt, submission, issue⟩ | issue⟩ :=
        issueRecord_cases submit.key submit.privateKey submit.lastSequence submit.record checked
      · simpa [run, issue] using stamped.carry issued
      · simpa [run, issue] using (stamped.carry issued).enter submission
      · simpa [run, issue] using checkedRemembers.release held issued

end Submit

/-! ### Runs of a coordinator -/

/-- What a coordinator is asked to do. -/
inductive Request where
  | submit (order : Submit)
  | item (owner privateKey : Bytes) (salt : String) (content : Bytes) (lastSequence : Int)
  | sweep

namespace Request

def perform : Request → World τ ν → World τ ν
  | .submit order, world => (order.run world).2
  | .item owner privateKey salt content lastSequence, world =>
    ((Put.item owner privateKey salt content lastSequence).run world).2
  | .sweep, world => (Put.sweep world).2

/-- Only submissions of records are admitted. -/
def admitted : Request → World τ ν → List (Admission τ)
  | .submit order, world => (order.admission? world).toList
  | _, _ => []

end Request

/-- Whether a run of a coordinator leads from one world to another with these admissions, the latest
first. Between requests anything may happen that leaves the ledger alone and does not turn the clock
back. -/
inductive Runs : World τ ν → List (Admission τ) → World τ ν → Prop
  | refl (world : World τ ν) : Runs world [] world
  | request {start world : World τ ν} {admitted : List (Admission τ)} (request : Request) :
    Runs start admitted world →
      Runs start (request.admitted world ++ admitted) (request.perform world)
  | elapse {start world after : World τ ν} {admitted : List (Admission τ)} :
    Runs start admitted world → after.ledger = world.ledger →
      Quantity.lt after.clock world.clock = false → Runs start admitted after

section Exact

variable [ExactQuantity τ] {cooldown : τ} {admitted : List (Admission τ)} {start world : World τ ν}

/-- No request makes a coordinator forget what it has to remember. -/
theorem Remembers.perform (remembers : Remembers cooldown admitted world) (request : Request) :
    Remembers cooldown (request.admitted world ++ admitted) (request.perform world) := by
  cases request with
  | submit order => exact order.remembers_run remembers
  | item owner privateKey salt content lastSequence =>
    exact remembers.carry (keeps_item owner privateKey salt content lastSequence world)
  | sweep => exact remembers.sweep

theorem Remembers.runs {before : List (Admission τ)} (remembers : Remembers cooldown before start)
    (runs : Runs start admitted world) : Remembers cooldown (admitted ++ before) world := by
  induction runs with
  | refl => exact remembers
  | request request _ ih =>
    rw [List.append_assoc]
    exact ih.perform request
  | elapse _ ledger forward ih => exact ih.elapse ledger (by simpa using forward)

theorem remembers_of_fresh (fresh : start.ledger.stamps = {}) (runs : Runs start admitted world) :
    Remembers start.ledger.cooldown admitted world := by
  have atStart : Remembers start.ledger.cooldown [] start := ⟨rfl, .nil fresh start.clock⟩
  simpa using atStart.runs runs

/-- In every run of a coordinator that begins without stamps, a submission that gets past the checks is
locked exactly if the same record was admitted less than the cooldown ago. The announced number is the
least number of seconds after which the same submission is not locked, provided that the record is
not admitted in between. And the answer is that of any other run with the same admissions of the
record, whatever else was put and whenever stamps were swept. -/
theorem locked_iff_recent {submit : Submit} {checked : World τ ν}
    (fresh : start.ledger.stamps = {}) (runs : Runs start admitted world)
    (past : submit.checked? world = some checked) :
    ((submit.lockedFor? world).isSome ↔
      ∃ admission ∈ admitted, admission.key = submit.key ∧
        value checked.clock - value admission.moment < value start.ledger.cooldown) ∧
    (∀ seconds, submit.lockedFor? world = some seconds →
      ∀ (between : List (Admission τ)) (retry rechecked : World τ ν) (pause : Int),
        Runs (submit.run world).2 between retry →
        (∀ admission ∈ between, admission.key ≠ submit.key) →
        submit.checked? retry = some rechecked →
        value rechecked.clock = value checked.clock + pause →
        ((submit.lockedFor? retry).isSome ↔ pause < seconds)) ∧
    (∀ (start' world' checked' : World τ ν) (admitted' : List (Admission τ)),
      start'.ledger.stamps = {} → start'.ledger.cooldown = start.ledger.cooldown →
      Runs start' admitted' world' → submit.checked? world' = some checked' →
      value checked'.clock = value checked.clock →
      admitted'.filter (·.key = submit.key) = admitted.filter (·.key = submit.key) →
      submit.lockedFor? world' = submit.lockedFor? world) := by
  have remembers := remembers_of_fresh fresh runs
  have answer := submit.lockedFor?_eq remembers past
  have checkedRemembers := remembers.carry (Submit.continues_checked? past)
  refine ⟨?_, ?_, ?_⟩
  · rw [checkedRemembers.recalls.ordered.recent_iff, answer]
    cases Admission.last? admitted submit.key with
    | none => simp
    | some last => simp
  · intro seconds locked between retry rechecked pause later others repast moment
    have after := (submit.remembers_run remembers).runs later
    rw [submit.admission?_of_locked locked, Option.toList_none, List.nil_append] at after
    rw [submit.lockedFor?_eq after repast, moment, Admission.last?_append_of_ne others]
    rw [locked] at answer
    cases latest : Admission.last? admitted submit.key with
    | none => simp [latest] at answer
    | some last =>
      rw [latest] at answer
      rw [Option.bind_some, add_sub_right_comm]
      exact Submit.isSome_later_iff answer.symm
  · intro start' world' checked' admitted' fresh' cooldown runs' past' moment same
    have remembers' := remembers_of_fresh fresh' runs'
    rw [answer, submit.lockedFor?_eq remembers' past', cooldown, moment,
      ← Admission.last?_filter admitted', same, Admission.last?_filter]

end Exact

/-! ### A submission and its repetition -/

/-- The empty record under the operation `op`. -/
def Submit.sample : Submit where
  owner := Seconds.pair.publicKey
  privateKey := Seconds.pair.seed
  lastSequence := 0
  record := Record.assemble "op" 4 (Record.describe "op" [] []) [] [] 0

/-- Three seconds after a submission. -/
def Submit.afterSample : World Seconds (Simnet Seconds) :=
  { (Submit.sample.run (Seconds.world {})).2 with clock := ⟨3⟩ }

theorem locked_after_three :
    ∃ checked, Submit.sample.checked? Submit.afterSample = some checked ∧
      (Submit.sample.lockedFor? Submit.afterSample).isSome := by
  have course : Request.admitted (.submit Submit.sample) (Seconds.world {}) ++ []
        = [⟨Submit.sample.key, ⟨0⟩⟩] ∧
      Quantity.lt ⟨3⟩ (Submit.sample.run (Seconds.world {})).2.clock = false ∧
      (Submit.sample.checked? Submit.afterSample).map (·.clock) = some ⟨3⟩ := by
    decide +kernel
  obtain ⟨once, forward, past⟩ := course
  obtain ⟨checked, past, moment⟩ := Option.map_eq_some_iff.mp past
  have pass {admitted : List (Admission Seconds)} (world : World Seconds (Simnet Seconds))
      (runs : Runs (Seconds.world {}) admitted world) (forward : Quantity.lt ⟨3⟩ world.clock = false) :
      Runs (Seconds.world {}) admitted { world with clock := ⟨3⟩ } := .elapse runs rfl forward
  have runs : Runs (Seconds.world {}) [⟨Submit.sample.key, ⟨0⟩⟩] Submit.afterSample := by
    rw [← once]
    exact pass _ (.request (.submit Submit.sample) (.refl _)) forward
  refine ⟨checked, past, ?_⟩
  refine (locked_iff_recent rfl runs past).1.mpr ⟨_, List.mem_singleton_self _, rfl, ?_⟩
  rw [moment]
  change ((3 : Int) : ℚ) - ((0 : Int) : ℚ) < ((10 : Int) : ℚ)
  norm_num

end DhtRecords.Put
