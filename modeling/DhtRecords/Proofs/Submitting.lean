/-
What a submission with a receipt has issued.

A submission that returns has issued its record, or nothing at all: no engine was
told to put anything, and the log is as it was. If it was issued, then the engine of
the session was told to put the header's item under the first salt and each chunk
under the salt of its place, in order, and by signers that sign for the owner under
the next number, if that can be written (`Issues`); the log has one submission more.
This holds of all records that are made by splitting a payload or put together from a
header and chunks (`Submit.issues_or_nothing`). A number of too many digits is found
out only when something is signed (`Submit.overlong_unsigned`).
-/

import DhtRecords.Proofs.Lifetimes
import DhtRecords.Proofs.Readback

namespace DhtRecords

variable {τ ν : Type}

/-- Whether a record was made by splitting a payload, or put together from a header and chunks. -/
inductive Record.Made : Record → Prop
  | split {operation : String} {payload seed : Bytes} {chunkSize slots : Int} {record : Record} :
    split? operation payload seed chunkSize slots = some record → Made record
  | assembled (operation : String) (slots : Int) (header : Header) (chunks : List Chunk) (seed : Bytes)
      (sequence : Int) : Made (assemble operation slots header chunks seed sequence)

/-- A valid record of this kind has as many chunks as its header says, each in its place. -/
theorem Record.Made.inPlace {record : Record} (made : record.Made) (valid : record.isValid = true) :
    record.header.chunks.value = record.chunks.length ∧
      InPlace record.operation 0 record.chunks := by
  have assembled {operation : String} {slots : Int} {header : Header} {chunks : List Chunk} {seed : Bytes}
      {sequence : Int} (valid : (assemble operation slots header chunks seed sequence).isValid = true) :
      header.chunks.value = chunks.length ∧ InPlace operation 0 chunks := by
    obtain ⟨-, -, count, placed, -⟩ := isValid_assemble_iff.mp valid
    exact ⟨count, placed⟩
  cases made with
  | split split =>
    obtain ⟨parts, -, -, -, rfl⟩ := split?_cases split
    exact assembled valid
  | assembled operation slots header chunks seed sequence => exact assembled valid

/-- Whether engines that take a put have called its signer. -/
def SignsAtOnce (τ ν : Type) [Overlay τ ν] : Prop :=
  ∀ (engine : EngineId) (owner : Bytes) (salt : String) (signer : Signer) (overlay : ν),
    (Overlay.ask (τ := τ) engine (.put owner salt signer) overlay).outcome = .ok () →
      ∃ item, signer.sign salt = .ok item

theorem Simnet.signsAtOnce [Quantity τ] : SignsAtOnce τ (Simnet τ) := by
  intro engine owner salt signer net taken
  change (askEngine engine (.put owner salt signer) net).outcome = .ok () at taken
  unfold askEngine at taken
  split at taken
  · cases taken
  · change (net.put owner salt signer).outcome = .ok () at taken
    unfold put at taken
    split at taken
    · cases taken
    · split at taken
      · cases taken
      · next item signs => exact ⟨item, signs⟩

/-- A number that something was signed under can be written. -/
theorem Signer.written_of_sign {signer : Signer} {salt : String} {item : SignedItem}
    (signs : signer.sign salt = .ok item) : Decimal.isTooLong signer.sequence = false := by
  by_contra long
  unfold Signer.sign Item.sign Item.writeBuffer at signs
  rw [if_pos (Bool.eq_true_of_not_eq_false long)] at signs
  cases error : Item.keyError? signer.publicKey signer.privateKey <;> rw [error] at signs <;>
    cases signs

namespace Put

variable [Quantity τ] [Overlay τ ν]

/-- What was handed over to engines that sign at once was signed. -/
theorem signs_of_handOver (atOnce : SignsAtOnce τ ν) {engine : EngineId} {owner : Bytes}
    {items : List (String × Signer)} {world after : World τ ν}
    (run : (handOver engine owner items).run world = (.ok (), after)) {item : String × Signer}
    (member : item ∈ items) : ∃ made, item.2.sign item.1 = .ok made := by
  induction items generalizing world with
  | nil => cases member
  | cons first rest ih =>
    unfold handOver at run
    obtain ⟨_, middle, asked, run⟩ := Op.run_bind_eq_ok run
    rcases List.mem_cons.mp member with rfl | later
    · refine atOnce engine owner item.1 item.2 world.overlay ?_
      rw [Op.run_ask] at asked
      split at asked
      · next outcome => exact congrArg Prod.fst outcome
      · cases asked
    · exact ih run later

omit [Overlay τ ν] in
theorem submissions_enter (submission : Submission τ) (world : World τ ν) :
    (enter submission world).ledger.submissions
      = (submission :: world.ledger.submissions).take world.ledger.capacity := by
  unfold enter modifyLedger
  simp only
  split <;> rfl

/-- The items of a record in order: the header's form, and the chunks under the salts of their places. -/
def itemsInPlace (record : Record) (header : Bytes) : List (String × Bytes) :=
  (headerSalt record.operation, header) ::
    record.chunks.mapIdx fun position chunk => (chunkSalt record.operation position, chunk.value)

omit [Quantity τ] [Overlay τ ν] in
theorem items?_inPlace {record : Record} {items : List (String × Bytes)}
    (placed : Record.InPlace record.operation 0 record.chunks) (encoded : items? record = some items) :
    ∃ header, record.header.encode? = some header ∧ items = itemsInPlace record header := by
  obtain ⟨header, written, rfl⟩ := items?_eq_some encoded
  refine ⟨header, written, congrArg _ (List.ext_getElem ?_ fun position inside _ => ?_)⟩
  · rw [List.length_map, List.length_mapIdx]
  · rw [List.length_map] at inside
    have salt := (placed position inside).2
    rw [Nat.zero_add] at salt
    rw [List.getElem_map, List.getElem_mapIdx, salt]

/-! ### What is issued -/

/-- Whether a submission has issued its record from one world to a later one, as its receipt says, under
this form of the record's header. -/
structure Issues (submit : Submit) (header : Bytes) (receipt : Receipt τ) (before after : World τ ν) :
    Prop where
  decodes : Header.decode? header = some submit.record.header
  count : submit.record.header.chunks.value = submit.record.chunks.length
  /-- The engine that the session has takes the items, and no engine is told to put anything else. -/
  handed : ∃ checked engine early, Session.ensureRunning.run before = (.ok none, checked) ∧
    checked.session.engine = some engine ∧
    after.journal =
      (calls engine submit.owner (signed submit.owner submit.privateKey (submit.lastSequence + 1)
        (itemsInPlace submit.record header))).reverse ++ (early ++ before.journal) ∧
    early.filterMap Occurrence.put? = []
  /-- The signers sign if the number can be written, and fail of its length if not. -/
  signs : ∀ item ∈ signed submit.owner submit.privateKey (submit.lastSequence + 1)
      (itemsInPlace submit.record header),
    (Decimal.isTooLong (submit.lastSequence + 1) = false →
      ∃ signature, item.2.sign item.1
          = .ok ⟨item.1, item.2.value, submit.lastSequence + 1, signature, submit.owner⟩ ∧
        (Ed25519.Correct → Item.verify item.2.value item.1 (submit.lastSequence + 1) submit.owner
          signature = true)) ∧
    (Decimal.isTooLong (submit.lastSequence + 1) = true → item.2.sign item.1 = .error .tooLong)
  /-- Engines that sign at once have found that it can be written. -/
  written : SignsAtOnce τ ν → Decimal.isTooLong (submit.lastSequence + 1) = false
  sequence : receipt.sequence = submit.lastSequence + 1
  salts : receipt.salts = (itemsInPlace submit.record header).map Prod.fst
  log : after.ledger.submissions =
    (⟨submit.key, submit.record, submit.lastSequence + 1, receipt.moment⟩ ::
      before.ledger.submissions).take before.ledger.capacity

namespace Submit

theorem fine_of_checked? {submit : Submit} {world checked : World τ ν}
    (past : submit.checked? world = some checked) :
    submit.record.isValid = true ∧ Item.keyError? submit.owner submit.privateKey = none := by
  unfold checked? at past
  split at past
  · split at past
    · next fine => exact fine
    · cases past
  · cases past

omit [Quantity τ] [Overlay τ ν] in
/-- Keys that pass the check are those of a pair. -/
theorem pair_of_fine {owner privateKey : Bytes} (fine : Item.keyError? owner privateKey = none) :
    ∃ pair : KeyPair, pair.publicKey = owner ∧ pair.seed = privateKey := by
  unfold Item.keyError? at fine
  split at fine
  · cases fine
  · next sizes =>
    split at fine
    · cases fine
    · next own =>
      exact ⟨⟨privateKey, owner, not_not.mp fun size => sizes (.inr size), (not_not.mp own).symm⟩, rfl, rfl⟩

/-- A submission that is issued and has no receipt has put nothing. -/
theorem nothing_of_error {key : RecordKey} {privateKey : Bytes} {lastSequence : Int} {record : Record}
    {reason : Error} {world after : World τ ν}
    (run : (issueRecord key privateKey lastSequence record).run world = (.ok (.error reason), after)) :
    World.Hands [] world after ∧ after.ledger.submissions = world.ledger.submissions := by
  obtain ⟨issued, issues, ⟨failure, issue⟩ | ⟨receipt, submission, issue⟩ | issue⟩ :=
    issueRecord_cases key privateKey lastSequence record world
  · cases run.symm.trans issue
  · cases run.symm.trans issue
  · cases run.symm.trans issue
    have stamped : issued.ledger = world.ledger.stamp key world.clock := issues.ledger
    refine ⟨(hands_of_stopped issue).2, ?_⟩
    change (issued.ledger.release key world.clock).submissions = _
    rw [stamped]
    exact (Ledger.submissions_release _ key world.clock).1

/-- A submission that is issued with a receipt has issued its record. -/
theorem issues_of_receipt {submit : Submit} {before checked after : World τ ν} {receipt : Receipt τ}
    (made : submit.record.Made) (past : submit.checked? before = some checked)
    (run : (issueRecord submit.key submit.privateKey submit.lastSequence submit.record).run checked
      = (.ok (.ok receipt), after)) : ∃ header, Issues submit header receipt before after := by
  obtain ⟨valid, fine⟩ := fine_of_checked? past
  obtain ⟨count, placed⟩ := made.inPlace valid
  obtain ⟨pair, owner, privateKey⟩ := pair_of_fine fine
  have ensured := ensured_of_checked? past
  obtain ⟨early, beginning, untold⟩ := (Session.spares_ensureRunning.of_run ensured).hands
  obtain ⟨items, engine, issued, encoded, installed, handing, rfl, rfl⟩ := issueRecord_eq_ok run
  obtain ⟨header, written, rfl⟩ := items?_inPlace placed encoded
  have ledger : issued.ledger = checked.ledger.stamp submit.key checked.clock :=
    ((keeps_handOver engine _ _).of_run handing).ledger
  refine ⟨header, ?_, count, ⟨checked, engine, early, ensured, installed, ?_, untold⟩, ?_, ?_, rfl, rfl, ?_⟩
  · refine Header.decode?_of_encode? ?_ written
    rw [count]
    exact Int.natCast_nonneg _
  · rw [← beginning, journal_enter]
    exact (journal_handOver handing).trans rfl
  · intro item member
    obtain ⟨content, -, rfl⟩ := List.mem_map.mp member
    rw [← owner, ← privateKey]
    exact ⟨fun short => ⟨_, pair.sign_item content.2 content.1 short,
      fun correct => pair.verify_signItem correct content.2 content.1 short⟩, pair.sign_tooLong _ _⟩
  · intro atOnce
    obtain ⟨_, signs⟩ := signs_of_handOver atOnce handing List.mem_cons_self
    have short := Signer.written_of_sign signs
    exact short
  · rw [submissions_enter, ledger, ← (continues_checked? past).ledger]
    rfl

/-- A submission that returns has issued its record if it has a receipt. Else no engine was told to put
anything, and the log is as it was. -/
theorem issues_or_nothing {submit : Submit} {before after : World τ ν}
    {result : Except Error (Receipt τ)} (made : submit.record.Made)
    (run : submit.run before = (.ok result, after)) :
    (∀ receipt, result = .ok receipt → ∃ header, Issues submit header receipt before after) ∧
      ∀ reason, result = .error reason →
        before.puts after = [] ∧ after.ledger.submissions = before.ledger.submissions := by
  cases past : submit.checked? before with
  | none =>
    obtain ⟨ended, -, unreceived⟩ := ended_of_unchecked past
    have ledger := (run_of_unchecked past).1.ledger
    rw [run] at ended unreceived ledger
    dsimp only at ended ledger
    refine ⟨fun receipt same => absurd (congrArg Except.ok same) (unreceived receipt), fun _ _ => ⟨?_, ?_⟩⟩
    · rw [ended]
      exact (Session.spares_ensureRunning before).hands.puts_eq
    · rw [ledger]
  | some checked =>
    have ledger := (continues_checked? past).ledger
    have spared := (Session.spares_ensureRunning.of_run (ensured_of_checked? past)).hands
    have course := run_of_checked past
    rw [run] at course
    split at course
    · cases course
      exact ⟨nofun, fun _ _ => ⟨spared.puts_eq, congrArg _ ledger⟩⟩
    · cases course
    · cases result with
      | error reason =>
        obtain ⟨untold, submissions⟩ := nothing_of_error course.symm
        refine ⟨nofun, fun _ _ => ⟨(spared.trans untold).puts_eq, ?_⟩⟩
        rw [submissions, ledger]
      | ok receipt =>
        refine ⟨?_, nofun⟩
        rintro _ ⟨⟩
        exact issues_of_receipt made past course.symm

/-- Three bytes in two chunks under the operation `op`. -/
def triple : Submit :=
  { sample with
    record :=
      Record.assemble "op" 4 (Record.describe "op" [[1, 2], [3]] [1, 2, 3])
        (Record.chunksFrom "op" (.int 2) 0 [[1, 2], [3]]) [] 0 }

/-- They are issued as three items under the first number, and the log has them. -/
theorem triple_issued : ∃ receipt, (triple.run (Seconds.world {})).1 = .ok (.ok receipt) ∧
    receipt.sequence = 1 ∧ receipt.salts = ["op:0", "op:1", "op:2"] ∧
    (triple.run (Seconds.world {})).2.ledger.submissions
      = [⟨triple.key, triple.record, 1, receipt.moment⟩] := by
  have accepted : ((triple.run (Seconds.world {})).1.toOption.bind Except.toOption).isSome = true := by
    decide +kernel
  rcases run : triple.run (Seconds.world {}) with ⟨_ | _ | receipt, after⟩ <;> rw [run] at accepted
  · cases accepted
  · cases accepted
  · obtain ⟨header, issues⟩ := (issues_or_nothing (.assembled ..) run).1 receipt rfl
    exact ⟨receipt, rfl, issues.sequence, issues.salts, issues.log⟩

/-- A running session whose engine signs nothing yet. -/
def settled : World Seconds Session.Placid :=
  (Session.Request.sleep ⟨31⟩).serve (Session.Request.start.serve (Session.untouched ⟨⟩ {}))

/-- The same under a number of 4301 digits. -/
def overlong : Submit := { triple with lastSequence := 10 ^ 4300 - 1 }

/-- It is issued to an engine that signs later, but no signer can sign. -/
theorem overlong_unsigned : ((overlong.run settled).1.toOption.bind Except.toOption).isSome = true ∧
    (settled.puts (overlong.run settled).2).length = 3 ∧
    ∀ item ∈ settled.puts (overlong.run settled).2, item.2.2.sign item.2.1 matches .error .tooLong := by
  decide +kernel

end Submit

end Put

end DhtRecords
