/-
No fetched record is torn or forged.

Whatever alerts arrive while records are fetched, in whatever order: a record
that is found has its header and all its chunks from alerts of one sequence
number about its own items, and is what its header says it is (`Untorn`). This
holds for single records and for both kinds of batches (`fetched_untorn`). Two
things are assumed: the digests of the byte strings that occur tell these apart,
and all keys have one length (`Unambiguous`).
-/

import DhtRecords.Fetch
import DhtRecords.Proofs.Exact
import DhtRecords.Proofs.Hearing
import DhtRecords.Proofs.HeaderForm
import DhtRecords.Proofs.Splitting
import DhtRecords.Proofs.Verdicts
import Mathlib.Data.List.Nodup

namespace DhtRecords.Fetch

open World (Fresh Gathers Reported)
open Op (Keeps run_bind_ok run_bind_eq_ok run_modify run_modifyGet run_get)

/-! ### Untorn records -/

/-- Whether content is the form of a header that was made from a payload. -/
def Announces (content payload : Bytes) : Prop :=
  ∃ operation seed chunkSize slots record,
    Record.split? operation payload seed chunkSize slots = some record ∧
      record.header.encode? = some content

/-- Whether a record is put together from what was said of its items under one sequence number: its
header, as many chunks as that declares, and no more than there are slots. Size and digest are right
if they are declared, and a header that was made from a payload gives that payload. -/
structure Untorn (said : String → Bytes → Int → Prop) (inputs : Set Bytes) (slots : Int)
    (operation : String) (record : Record) : Prop where
  header : ∃ content, said (headerSalt operation) content record.sequence ∧
    Header.decode? content = some record.header ∧
    (record.value ∈ inputs → ∀ payload ∈ inputs, Announces content payload → record.value = payload)
  sameOperation : record.header.operation = operation
  count : record.header.chunks.value = record.chunks.length
  room : record.header.chunks.value ≤ slots
  chunks : ∀ position (h : position < record.chunks.length),
    said (chunkSalt operation position) record.chunks[position].value record.sequence
  size : record.header.size.value ≠ 0 → record.header.size.value = record.value.length
  digest : record.header.digest ≠ "" → record.header.digest = contentHash record.value

/-- A header that was made from a payload carries the payload's digest. -/
theorem Announces.digest {content payload : Bytes} {header : Header}
    (announces : Announces content payload) (decoded : Header.decode? content = some header) :
    header.digest = contentHash payload := by
  obtain ⟨operation, seed, chunkSize, slots, record, split, written⟩ := announces
  obtain ⟨digest, natural⟩ := Record.digest_of_split? split
  rw [Header.decode?_of_encode? natural written] at decoded
  cases decoded
  exact digest

/-- A valid record is untorn if its header and its chunks were said under its sequence number. -/
theorem untorn_assemble {said : String → Bytes → Int → Prop} {inputs : Set Bytes} {slots : Int}
    {operation : String} {header : Header} {chunks : List Chunk} {seed content : Bytes}
    {sequence : Int} (free : CollisionFree inputs)
    (saidHeader : said (headerSalt operation) content sequence)
    (decoded : Header.decode? content = some header)
    (saidChunks : ∀ position (h : position < chunks.length),
      said (chunkSalt operation position) chunks[position].value sequence)
    (valid : (Record.assemble operation slots header chunks seed sequence).isValid = true) :
    Untorn said inputs slots operation
      (Record.assemble operation slots header chunks seed sequence) := by
  obtain ⟨sameOperation, room, count, -, size, digest⟩ := Record.isValid_assemble_iff.mp valid
  refine ⟨⟨content, saidHeader, decoded, ?_⟩, sameOperation, count, room, saidChunks, size, digest⟩
  intro value payload input announces
  have declared := announces.digest decoded
  have same := digest (by rw [declared]; exact contentHash_ne_empty payload)
  exact free.eq_of_contentHash value input (same.symm.trans declared)

theorem Untorn.imp {said said' : String → Bytes → Int → Prop} {inputs : Set Bytes} {slots : Int}
    {operation : String} {record : Record} (untorn : Untorn said inputs slots operation record)
    (header : ∀ content sequence, said (headerSalt operation) content sequence →
      said' (headerSalt operation) content sequence)
    (chunk : ∀ (position : Nat) content sequence, position < slots →
      said (chunkSalt operation position) content sequence →
      said' (chunkSalt operation position) content sequence) :
    Untorn said' inputs slots operation record := by
  obtain ⟨content, saidHeader, decoded⟩ := untorn.header
  refine { untorn with header := ⟨content, header _ _ saidHeader, decoded⟩, chunks := ?_ }
  intro position inside
  have room := untorn.room
  rw [untorn.count] at room
  exact chunk position _ _ (by omega) (untorn.chunks position inside)

variable {τ ν : Type} [Quantity τ] [Overlay τ ν]

/-! ### Single records -/

theorem gathers_headerWithin (owner : Bytes) (salt : String) (attempts : Nat) (kind : ErrorKind) :
    Keeps Gathers (headerWithin owner salt attempts kind : Op τ ν _) := by
  induction attempts generalizing kind with
  | zero => exact .pure _
  | succ attempts ih =>
    refine .get_bind fun world => .bind (Get.gathers_lookup owner salt _ _) fun found => ?_
    split
    · split
      · exact .pure _
      · exact ih _
    · split
      · exact .pure _
      · exact ih _

theorem gathers_header (owner : Bytes) (operation : String) :
    Keeps Gathers (header owner operation : Op τ ν _) := by
  refine .get_bind fun world => ?_
  split
  · exact .throw _
  · exact gathers_headerWithin owner _ _ _

theorem gathers_chunksFrom (owner : Bytes) (operation : String) (total : Whole) (sequence : Int)
    (left position : Nat) :
    Keeps Gathers (chunksFrom owner operation total sequence left position : Op τ ν _) := by
  induction left generalizing position with
  | zero => exact .pure _
  | succ left ih =>
    refine .get_bind fun world => .bind (Get.gathers_lookup owner _ _ _) fun found => ?_
    split
    · exact .pure _
    · split
      · exact keeps_refuse _
      · refine .bind (ih _) fun rest => ?_
        split
        · exact .pure _
        · exact .pure _

theorem gathers_record (owner seed : Bytes) (operation : String) :
    Keeps Gathers (record owner seed operation : Op τ ν _) := by
  refine .bind (gathers_header owner operation) fun found => ?_
  split
  · exact .pure _
  · refine .get_bind fun world => ?_
    dsimp only
    split
    · exact keeps_refuse _
    · refine .bind (gathers_chunksFrom owner operation _ _ _ _) fun chunks => ?_
      split
      · exact .pure _
      · exact keeps_accept _

/-- A header that is found was reported since its lookups began. -/
theorem reported_of_headerWithin {owner : Bytes} {salt : String} {attempts : Nat} {kind : ErrorKind}
    {world after : World τ ν} {found : Header} {sequence : Int}
    (run : (headerWithin owner salt attempts kind).run world = (.ok (.ok (found, sequence)), after)) :
    ∃ content, Reported world after owner salt content sequence ∧
      Header.decode? content = some found := by
  induction attempts generalizing kind world with
  | zero => cases run
  | succ attempts ih =>
    rw [headerWithin, run_bind_ok (run_get world)] at run
    obtain ⟨answer, asked, lookup, run⟩ := run_bind_eq_ok run
    have gathers := (Get.gathers_lookup owner salt _ _).of_run lookup
    have again {kind : ErrorKind}
        (run : (headerWithin owner salt attempts kind).run asked
          = (.ok (.ok (found, sequence)), after)) :
        ∃ content, Reported world after owner salt content sequence ∧
          Header.decode? content = some found := by
      obtain ⟨content, reported, decoded⟩ := ih run
      have later := (gathers_headerWithin owner salt attempts kind).of_run run
      exact ⟨content, reported.mono gathers later (.refl after), decoded⟩
    split at run
    · split at run
      · cases run
      · exact again run
    · split at run
      · next decoded =>
        cases run
        exact ⟨_, Get.reported_of_lookup lookup, decoded⟩
      · exact again run

theorem reported_of_header {owner : Bytes} {operation : String} {world after : World τ ν} {found : Header}
    {sequence : Int} (run : (header owner operation).run world = (.ok (.ok (found, sequence)), after)) :
    ∃ content, Reported world after owner (headerSalt operation) content sequence ∧
      Header.decode? content = some found := by
  rw [header, run_bind_ok (run_get world)] at run
  split at run
  · cases run
  · exact reported_of_headerWithin run

/-- The chunks that are found were reported under the sequence number that was asked for. -/
theorem reported_of_chunksFrom {owner : Bytes} {operation : String} {total : Whole} {sequence : Int}
    {left position : Nat} {world after : World τ ν} {chunks : List Chunk}
    (run : (chunksFrom owner operation total sequence left position).run world
      = (.ok (.ok chunks), after)) :
    ∀ offset (h : offset < chunks.length),
      Reported world after owner (chunkSalt operation (position + offset : Nat))
        chunks[offset].value sequence := by
  induction left generalizing position world chunks with
  | zero =>
    cases run
    intro offset inside
    simp at inside
  | succ left ih =>
    rw [chunksFrom, run_bind_ok (run_get world)] at run
    obtain ⟨answer, asked, lookup, run⟩ := run_bind_eq_ok run
    have gathers := (Get.gathers_lookup owner _ _ _).of_run lookup
    split at run
    · cases run
    · next found =>
      split at run
      · exact (not_ok_of_refuse run).elim
      · next same =>
        obtain ⟨rest, later, others, run⟩ := run_bind_eq_ok run
        have onwards := (gathers_chunksFrom owner operation total sequence left _).of_run others
        split at run
        · cases run
        · next rest =>
          cases run
          have first := Get.reported_of_lookup lookup
          rw [not_not.mp same] at first
          intro offset inside
          cases offset with
          | zero => exact first.mono (.refl world) gathers onwards
          | succ offset =>
            have reported := ih others offset (by simpa using inside)
            rw [Nat.add_assoc, Nat.add_comm 1 offset] at reported
            exact reported.mono gathers onwards (.refl after)

/-- A record that is found is untorn as far as names tell items apart. -/
theorem untorn_of_record {inputs : Set Bytes} (free : CollisionFree inputs) {owner seed : Bytes}
    {operation : String} {world after : World τ ν} {found : Record}
    (run : (record owner seed operation).run world = (.ok (.ok found), after)) :
    Untorn (Reported world after owner) inputs world.settings.totalSlots operation found ∧
      found.seed = seed := by
  obtain ⟨answer, asked, asking, run⟩ := run_bind_eq_ok run
  have gathers := (gathers_header owner operation).of_run asking
  split at run
  · cases run
  · next head sequence =>
    rw [run_bind_ok (run_get asked)] at run
    dsimp only at run
    split at run
    · exact (not_ok_of_refuse run).elim
    · obtain ⟨answer, collected, collecting, run⟩ := run_bind_eq_ok run
      have onwards := (gathers_chunksFrom owner operation _ _ _ _).of_run collecting
      split at run
      · cases run
      · next chunks =>
        obtain ⟨valid, rfl, rfl⟩ := of_accept_eq_ok run
        obtain ⟨content, reported, decoded⟩ := reported_of_header asking
        have reports := reported_of_chunksFrom collecting
        rw [gathers.settings] at valid ⊢
        refine ⟨untorn_assemble free (reported.mono (.refl world) gathers onwards) decoded ?_ valid,
          rfl⟩
        intro position inside
        have report := reports position inside
        rw [Nat.zero_add] at report
        exact report.mono gathers onwards (.refl collected)

/-! ### Batches -/

/-- Whether a record is what was fetched for a link from one world to a later one. -/
structure Serves (inputs : Set Bytes) (slots : Int) (operation : String)
    (said : Bytes → String → Bytes → Int → Prop) (link : Link) (record : Record) : Prop where
  owner : record.owner = link.name
  seed : record.seed = link.seed
  untorn : Untorn (said link.owner) inputs slots operation record

/-- Whether a batch has grown by records that were fetched for some of the links, in their order. -/
def Extends (inputs : Set Bytes) (slots : Int) (operation : String)
    (said : Bytes → String → Bytes → Int → Prop) (links : List Link) (before after : Batch) : Prop :=
  ∃ served records, served.Sublist links ∧ after.records = before.records ++ records ∧
    List.Forall₂ (Serves inputs slots operation said) served records

section Extends

variable {inputs : Set Bytes} {slots : Int} {operation : String}
  {said said' : Bytes → String → Bytes → Int → Prop} {links : List Link} {link : Link}
  {before middle after : Batch}

theorem Serves.imp {record : Record} (serves : Serves inputs slots operation said link record)
    (header : ∀ content sequence, said link.owner (headerSalt operation) content sequence →
      said' link.owner (headerSalt operation) content sequence)
    (chunk : ∀ (position : Nat) content sequence, position < slots →
      said link.owner (chunkSalt operation position) content sequence →
      said' link.owner (chunkSalt operation position) content sequence) :
    Serves inputs slots operation said' link record :=
  ⟨serves.owner, serves.seed, serves.untorn.imp header chunk⟩

theorem extends_nil (batch : Batch) : Extends inputs slots operation said [] batch batch :=
  ⟨[], [], List.Sublist.refl _, (List.append_nil _).symm, .nil⟩

/-- A link that is passed over adds no record. -/
theorem Extends.skip (grown : Extends inputs slots operation said links middle after)
    (same : middle.records = before.records) :
    Extends inputs slots operation said (link :: links) before after := by
  obtain ⟨served, records, sub, grown, serves⟩ := grown
  exact ⟨served, records, sub.cons link, by rw [grown, same], serves⟩

/-- A link that is served adds its record. -/
theorem Extends.serve {record : Record} (grown : Extends inputs slots operation said links
      (before.add link (.ok record)) after)
    (seed : record.seed = link.seed)
    (untorn : Untorn (said link.owner) inputs slots operation record) :
    Extends inputs slots operation said (link :: links) before after := by
  obtain ⟨served, records, sub, grown, serves⟩ := grown
  refine ⟨link :: served, { record with owner := link.name } :: records, sub.cons_cons link, ?_,
    .cons ⟨rfl, seed, ?_⟩ serves⟩
  · rw [grown, Batch.add, List.append_assoc, List.singleton_append]
  · exact ⟨untorn.header, untorn.sameOperation, untorn.count, untorn.room, untorn.chunks,
      untorn.size, untorn.digest⟩

theorem Extends.imp (grown : Extends inputs slots operation said links before after)
    (implies : ∀ link ∈ links, ∀ record, Serves inputs slots operation said link record →
      Serves inputs slots operation said' link record) :
    Extends inputs slots operation said' links before after := by
  obtain ⟨served, records, sub, grown, serves⟩ := grown
  refine ⟨served, records, sub, grown, ?_⟩
  have allowed := fun link member => implies link (sub.mem member)
  clear sub grown implies
  induction serves with
  | nil => exact .nil
  | cons first _ ih =>
    exact .cons (allowed _ (List.mem_cons_self ..) _ first)
      (ih fun link member => allowed link (List.mem_cons_of_mem _ member))

end Extends

omit [Quantity τ] [Overlay τ ν] in
theorem Serves.mono {first before after last : World τ ν} {inputs : Set Bytes} {slots : Int}
    {operation : String} {link : Link} {record : Record}
    (serves : Serves inputs slots operation (Reported before after) link record)
    (early : Gathers first before) (within : Gathers before after) (late : Gathers after last) :
    Serves inputs slots operation (Reported first last) link record :=
  serves.imp (fun _ _ said => said.mono early within late)
    fun _ _ _ _ said => said.mono early within late

theorem gathers_inTurnAfter (operation : String) (batch : Batch) (links : List Link) :
    Keeps Gathers (inTurnAfter operation batch links : Op τ ν Batch) := by
  induction links generalizing batch with
  | nil => exact .pure batch
  | cons link rest ih => exact .bind (gathers_record link.owner link.seed operation) fun _ => ih _

theorem extends_inTurnAfter {inputs : Set Bytes} (free : CollisionFree inputs) {operation : String}
    {links : List Link} {batch batch' : Batch} {world after : World τ ν}
    (run : (inTurnAfter operation batch links).run world = (.ok batch', after)) :
    Extends inputs world.settings.totalSlots operation (Reported world after) links batch batch' := by
  induction links generalizing batch world with
  | nil =>
    cases run
    exact extends_nil _
  | cons link rest ih =>
    rw [inTurnAfter] at run
    obtain ⟨outcome, fetched, fetching, run⟩ := run_bind_eq_ok run
    have gathers := (gathers_record link.owner link.seed operation).of_run fetching
    have onwards := (gathers_inTurnAfter operation _ rest).of_run run
    have others := (ih run).imp fun link _ record serves =>
      serves.mono gathers onwards (.refl after)
    rw [gathers.settings] at others
    cases outcome with
    | error error => exact others.skip rfl
    | ok found =>
      obtain ⟨untorn, seed⟩ := untorn_of_record free fetching
      refine others.serve seed (untorn.imp ?_ ?_)
      · exact fun _ _ said => said.mono (.refl world) gathers onwards
      · exact fun _ _ _ _ said => said.mono (.refl world) gathers onwards

/-! ### Pipelined batches -/

theorem gathers_pace (first : Bool) (pause : τ) : Keeps Gathers (pace first pause : Op τ ν Unit) := by
  unfold pace
  split
  · exact .pure ()
  · exact .modify fun world => (World.continues_run _ _ world).gathers

theorem gathers_fireHeaders (salt : String) (first : Bool) (batch : Batch) (links : List Link) :
    Keeps Gathers (fireHeaders salt first batch links : Op τ ν _) := by
  induction links generalizing first batch with
  | nil => exact .pure _
  | cons link rest ih =>
    refine .get_bind fun world => .bind (gathers_pace first _) fun _ =>
      .bind (Get.gathers_forget _ _) fun _ => .bind (Get.gathers_fire _ _) fun fired => ?_
    split
    · exact ih _ _
    · exact .bind (ih _ _) fun _ => .pure _

theorem gathers_fireChunks (first : Bool) (items : List (Bytes × String)) :
    Keeps Gathers (fireChunks first items : Op τ ν Unit) := by
  induction items generalizing first with
  | nil => exact .pure _
  | cons item rest ih =>
    exact .get_bind fun world => .bind (gathers_pace first _) fun _ =>
      .bind (Get.gathers_forget _ _) fun _ => .bind (Get.gathers_fire _ _) fun _ => ih _

/-- Where the lookup of a header was fired, what is held of it is fresh. -/
theorem fresh_of_fireHeaders {salt : String} {first : Bool} {batch batch' : Batch}
    {links issued : List Link} {world after : World τ ν}
    (run : (fireHeaders salt first batch links).run world = (.ok (issued, batch'), after)) :
    issued.Sublist links ∧ batch'.records = batch.records ∧
      ∀ link ∈ issued, Fresh world (infoHash link.owner salt) after := by
  induction links generalizing first batch issued world with
  | nil =>
    cases run
    exact ⟨List.Sublist.refl _, rfl, by simp⟩
  | cons link rest ih =>
    rw [fireHeaders, run_bind_ok (run_get world)] at run
    obtain ⟨_, paced, pacing, run⟩ := run_bind_eq_ok run
    rw [run_bind_ok (run_modify _ paced)] at run
    obtain ⟨fired, asked, firing, run⟩ := run_bind_eq_ok run
    have gathersPace := (gathers_pace first _).of_run pacing
    have forgotten := Fresh.forget gathersPace link.owner salt
    have gathersFire := (Get.gathers_fire link.owner salt).of_run firing
    have early := forgotten.gathers.trans gathersFire
    split at run
    · obtain ⟨sub, records, fresh⟩ := ih run
      exact ⟨sub.cons link, records, fun other member => (fresh other member).since early⟩
    · obtain ⟨⟨others, batch'⟩, fired, firingRest, run⟩ := run_bind_eq_ok run
      cases run
      obtain ⟨sub, records, fresh⟩ := ih firingRest
      refine ⟨sub.cons_cons link, records, ?_⟩
      intro other member
      rcases List.mem_cons.mp member with rfl | member
      · exact (forgotten.trans gathersFire).trans ((gathers_fireHeaders salt _ _ rest).of_run firingRest)
      · exact (fresh other member).since early

/-- Where the lookup of a chunk was fired, what is held of it is fresh. -/
theorem fresh_of_fireChunks {first : Bool} {items : List (Bytes × String)} {world after : World τ ν}
    (run : (fireChunks first items).run world = (.ok (), after)) :
    ∀ item ∈ items, Fresh world (infoHash item.1 item.2) after := by
  induction items generalizing first world with
  | nil => simp
  | cons item rest ih =>
    rw [fireChunks, run_bind_ok (run_get world)] at run
    obtain ⟨_, paced, pacing, run⟩ := run_bind_eq_ok run
    rw [run_bind_ok (run_modify _ paced)] at run
    obtain ⟨fired, asked, firing, firingRest⟩ := run_bind_eq_ok run
    have gathersPace := (gathers_pace first _).of_run pacing
    have forgotten := Fresh.forget gathersPace item.1 item.2
    have gathersFire := (Get.gathers_fire item.1 item.2).of_run firing
    intro other member
    rcases List.mem_cons.mp member with rfl | member
    · exact (forgotten.trans gathersFire).trans ((gathers_fireChunks _ rest).of_run firingRest)
    · exact (ih firingRest other member).since (forgotten.gathers.trans gathersFire)

theorem gathers_drainChunk (peer : Resolved) (salt : String) :
    Keeps Gathers (drainChunk peer salt : Op τ ν _) := by
  refine .get_bind fun world => ?_
  dsimp only
  split
  · exact .pure _
  · refine .get_bind fun world => .bind (Get.gathers_lookup _ _ _ _) fun found => ?_
    split
    · exact .pure _
    · split
      · exact .map (keeps_refuse _) _
      · exact .pure _

theorem gathers_drainFrom (peer : Resolved) (operation : String) (left position : Nat) :
    Keeps Gathers (drainFrom peer operation left position : Op τ ν _) := by
  induction left generalizing position with
  | zero => exact .pure _
  | succ left ih =>
    refine .bind (gathers_drainChunk peer _) fun chunk => ?_
    split
    · exact .pure _
    · refine .bind (ih _) fun rest => ?_
      split
      · exact .pure _
      · exact .pure _

theorem gathers_drain (peer : Resolved) (operation : String) :
    Keeps Gathers (drain peer operation : Op τ ν _) := by
  refine .bind (gathers_drainFrom peer operation _ _) fun chunks => ?_
  split
  · exact .pure _
  · exact .get_bind fun world => .map (keeps_accept _) _

theorem gathers_drainAll (operation : String) (batch : Batch) (peers : List Resolved) :
    Keeps Gathers (drainAll operation batch peers : Op τ ν Batch) := by
  induction peers generalizing batch with
  | nil => exact .pure batch
  | cons peer rest ih => exact .bind (gathers_drain peer operation) fun _ => ih _

/-- A chunk's value was reported under the header's sequence number, whether it had come before or is
the answer to another lookup. -/
theorem reported_of_drainChunk {peer : Resolved} {salt : String} {start world after : World τ ν}
    {content : Bytes} (fresh : Fresh start (infoHash peer.link.owner salt) world)
    (run : (drainChunk peer salt).run world = (.ok (.ok content), after)) :
    Reported start after peer.link.owner salt content peer.sequence := by
  rw [drainChunk, run_bind_ok (run_get world)] at run
  dsimp only at run
  split at run
  · next result fitting =>
    cases run
    obtain ⟨held, same⟩ := Option.filter_eq_some_iff.mp fitting
    have reported := fresh.reported held
    rwa [of_decide_eq_true same] at reported
  · rw [run_bind_ok (run_get world)] at run
    obtain ⟨answer, asked, lookup, run⟩ := run_bind_eq_ok run
    have gathers := (Get.gathers_lookup _ salt _ _).of_run lookup
    split at run
    · cases run
    · next found =>
      split at run
      · exact (not_ok_of_refuse (run_of_retold run)).elim
      · next same =>
        cases run
        have reported := Get.reported_of_lookup lookup
        rw [not_not.mp same] at reported
        exact reported.mono fresh.gathers gathers (.refl _)

theorem reported_of_drainFrom {peer : Resolved} {operation : String} {left position : Nat}
    {start world after : World τ ν} {chunks : List Chunk}
    (fresh : ∀ offset < left,
      Fresh start (infoHash peer.link.owner (chunkSalt operation (position + offset : Nat))) world)
    (run : (drainFrom peer operation left position).run world = (.ok (.ok chunks), after)) :
    ∀ offset (h : offset < chunks.length),
      Reported start after peer.link.owner (chunkSalt operation (position + offset : Nat))
        chunks[offset].value peer.sequence := by
  induction left generalizing position world chunks with
  | zero =>
    cases run
    intro offset inside
    simp at inside
  | succ left ih =>
    obtain ⟨answer, drained, draining, run⟩ := run_bind_eq_ok run
    have gathers := (gathers_drainChunk peer _).of_run draining
    split at run
    · cases run
    · next content =>
      obtain ⟨rest, later, others, run⟩ := run_bind_eq_ok run
      have onwards := (gathers_drainFrom peer operation left _).of_run others
      split at run
      · cases run
      · cases run
        have freshRest : ∀ offset < left, Fresh start
            (infoHash peer.link.owner (chunkSalt operation (position + 1 + offset : Nat))) drained := by
          intro offset inside
          have next := (fresh (offset + 1) (by omega)).trans gathers
          rwa [← Nat.add_assoc, Nat.add_right_comm] at next
        have early := (fresh 0 (Nat.zero_lt_succ left)).gathers
        intro offset inside
        cases offset with
        | zero =>
          have reported := reported_of_drainChunk (fresh 0 (Nat.zero_lt_succ left)) draining
          exact reported.mono (.refl start) (early.trans gathers) onwards
        | succ offset =>
          have reported := ih freshRest others offset (by simpa using inside)
          rwa [Nat.add_assoc, Nat.add_comm 1 offset] at reported

omit [Quantity τ] [Overlay τ ν] in
theorem link_of_resolve {salt : String} {world : World τ ν} {link : Link} {peer : Resolved}
    (resolved : resolve salt world link = .ok peer) : peer.link = link := by
  unfold resolve at resolved
  split at resolved
  · cases resolved
  · split at resolved
    · cases resolved
    · split at resolved <;> cases resolved
      rfl

omit [Quantity τ] [Overlay τ ν] in
theorem resolveAll_cases {salt : String} {world : World τ ν} {batch batch' : Batch}
    {links : List Link} {resolved : List Resolved}
    (step : resolveAll salt world batch links = (resolved, batch')) :
    (resolved.map Resolved.link).Sublist links ∧ batch'.records = batch.records ∧
      ∀ peer ∈ resolved, resolve salt world peer.link = .ok peer := by
  induction links generalizing batch resolved with
  | nil =>
    cases step
    exact ⟨List.Sublist.refl _, rfl, by simp⟩
  | cons link rest ih =>
    rw [resolveAll] at step
    split at step
    · obtain ⟨sub, records, found⟩ := ih step
      exact ⟨sub.cons link, records, found⟩
    · next peer resolve =>
      obtain rfl := link_of_resolve resolve
      cases step
      obtain ⟨sub, records, found⟩ := ih (Prod.eta _)
      refine ⟨sub.cons_cons peer.link, records, ?_⟩
      intro other member
      rcases List.mem_cons.mp member with rfl | member
      · exact resolve
      · exact found other member

omit [Quantity τ] [Overlay τ ν] in
/-- The header that an owner is resolved by was reported if what is held of it is fresh. -/
theorem reported_of_resolve {salt : String} {start world : World τ ν} {peer : Resolved}
    (fresh : Fresh start (infoHash peer.link.owner salt) world)
    (resolved : resolve salt world peer.link = .ok peer) :
    ∃ content, Reported start world peer.link.owner salt content peer.sequence ∧
      Header.decode? content = some peer.header := by
  unfold resolve at resolved
  split at resolved
  · cases resolved
  · next result held =>
    split at resolved
    · cases resolved
    · next header decoded =>
      split at resolved
      · cases resolved
      · have reported := fresh.reported held
        have same : (⟨peer.link, header, result.sequence⟩ : Resolved) = peer :=
          Except.ok.inj resolved
        rw [← same]
        exact ⟨result.value, reported, decoded⟩

omit [Quantity τ] [Overlay τ ν] in
theorem mem_chunkItems {operation : String} {resolved : List Resolved} {peer : Resolved}
    (member : peer ∈ resolved) {position : Nat} (inside : position < peer.header.chunks.value.toNat) :
    (peer.link.owner, chunkSalt operation position) ∈ chunkItems operation resolved := by
  refine List.mem_flatMap.mpr ⟨peer, member, ?_⟩
  exact List.mem_map.mpr ⟨position, List.mem_range.mpr inside, rfl⟩

/-- Whether an owner's header was reported, and whatever is held of its chunks is fresh. -/
structure Ready (start : World τ ν) (operation : String) (world : World τ ν) (peer : Resolved) :
    Prop where
  header : ∃ content, Reported start world peer.link.owner (headerSalt operation) content
    peer.sequence ∧ Header.decode? content = some peer.header
  fresh : ∀ position < peer.header.chunks.value.toNat,
    Fresh start (infoHash peer.link.owner (chunkSalt operation position)) world
  gathers : Gathers start world

omit [Quantity τ] [Overlay τ ν] in
theorem Ready.trans {start world after : World τ ν} {operation : String} {peer : Resolved}
    (ready : Ready start operation world peer) (gathers : Gathers world after) :
    Ready start operation after peer := by
  obtain ⟨content, reported, decoded⟩ := ready.header
  exact ⟨⟨content, reported.mono (.refl start) ready.gathers gathers, decoded⟩,
    fun position inside => (ready.fresh position inside).trans gathers, ready.gathers.trans gathers⟩

theorem untorn_of_drain {inputs : Set Bytes} (free : CollisionFree inputs) {peer : Resolved}
    {operation : String} {start world after : World τ ν} {found : Record}
    (ready : Ready start operation world peer)
    (run : (drain peer operation).run world = (.ok (.ok found), after)) :
    Untorn (Reported start after peer.link.owner) inputs start.settings.totalSlots operation found ∧
      found.seed = peer.link.seed := by
  have fresh : ∀ offset < peer.header.chunks.value.toNat,
      Fresh start (infoHash peer.link.owner (chunkSalt operation (0 + offset : Nat))) world := by
    simpa using ready.fresh
  obtain ⟨answer, drained, draining, run⟩ := run_bind_eq_ok run
  have gathers := (gathers_drainFrom peer operation _ _).of_run draining
  split at run
  · cases run
  · next chunks =>
    rw [run_bind_ok (run_get drained)] at run
    obtain ⟨valid, rfl, rfl⟩ := of_accept_eq_ok (run_of_retold run)
    obtain ⟨content, reported, decoded⟩ := ready.header
    have reports := reported_of_drainFrom fresh draining
    rw [gathers.settings, ready.gathers.settings] at valid ⊢
    refine ⟨untorn_assemble free (reported.mono (.refl start) ready.gathers gathers) decoded ?_
      valid, rfl⟩
    intro position inside
    have report := reports position inside
    rwa [Nat.zero_add] at report

theorem extends_drainAll {inputs : Set Bytes} (free : CollisionFree inputs) {operation : String}
    {peers : List Resolved} {batch batch' : Batch} {start world after : World τ ν}
    (ready : ∀ peer ∈ peers, Ready start operation world peer)
    (run : (drainAll operation batch peers).run world = (.ok batch', after)) :
    Extends inputs start.settings.totalSlots operation (Reported start after)
      (peers.map Resolved.link) batch batch' := by
  induction peers generalizing batch world with
  | nil =>
    cases run
    exact extends_nil _
  | cons peer rest ih =>
    rw [drainAll] at run
    obtain ⟨outcome, drained, draining, run⟩ := run_bind_eq_ok run
    have gathers := (gathers_drain peer operation).of_run draining
    have onwards := (gathers_drainAll operation _ rest).of_run run
    have first := ready peer (List.mem_cons_self ..)
    have others := ih (fun other member =>
      (ready other (List.mem_cons_of_mem _ member)).trans gathers) run
    cases outcome with
    | error message => exact others.skip rfl
    | ok found =>
      obtain ⟨untorn, seed⟩ := untorn_of_drain free first draining
      refine others.serve seed (untorn.imp ?_ ?_)
      · exact fun _ _ said => said.mono (.refl start) (first.gathers.trans gathers) onwards
      · exact fun _ _ _ _ said => said.mono (.refl start) (first.gathers.trans gathers) onwards

theorem extends_pipelined {inputs : Set Bytes} (free : CollisionFree inputs) {operation : String}
    {links : List Link} {batch : Batch} {world after : World τ ν}
    (run : (pipelined links operation).run world = (.ok batch, after)) :
    Extends inputs world.settings.totalSlots operation (Reported world after) links {} batch := by
  rw [pipelined] at run
  obtain ⟨⟨issued, fired⟩, asked, firing, going⟩ := run_bind_eq_ok run
  obtain ⟨issuedSub, firedRecords, issuedFresh⟩ := fresh_of_fireHeaders firing
  have gathersFire := (gathers_fireHeaders _ _ _ links).of_run firing
  dsimp only at going
  rw [run_bind_ok (run_get asked), run_bind_ok (run_modifyGet _ asked)] at going
  have settled := (Get.continues_waitForAll
    (issued.map fun link => infoHash link.owner (headerSalt operation))
    asked.settings.headerSettle asked).gathers
  rw [run_bind_ok (run_get _)] at going
  revert settled going
  generalize (Get.waitForAll _ asked.settings.headerSettle asked).2 = waited
  intro going settled
  rcases resolution : resolveAll (headerSalt operation) waited fired issued with ⟨resolved, rest⟩
  rw [resolution] at going
  obtain ⟨resolvedSub, restRecords, resolves⟩ := resolveAll_cases resolution
  obtain ⟨_, chunksFired, firingChunks, draining⟩ := run_bind_eq_ok going
  have gathersChunks := (gathers_fireChunks true (chunkItems operation resolved)).of_run firingChunks
  rw [run_bind_ok (run_get chunksFired), run_bind_ok (run_modifyGet _ chunksFired)] at draining
  revert draining
  generalize (chunkItems operation resolved).map _ = names
  intro draining
  have settledChunks :=
    (Get.continues_waitForAll names chunksFired.settings.chunkSettle chunksFired).gathers
  revert settledChunks draining
  generalize (Get.waitForAll _ chunksFired.settings.chunkSettle chunksFired).2 = settledWorld
  intro draining settledChunks
  have early := gathersFire.trans settled
  have late := gathersChunks.trans settledChunks
  have ready : ∀ peer ∈ resolved, Ready world operation settledWorld peer := by
    intro peer member
    have fresh := (issuedFresh peer.link
      (resolvedSub.mem (List.mem_map_of_mem member))).trans settled
    obtain ⟨content, reported, decoded⟩ := reported_of_resolve fresh (resolves peer member)
    refine ⟨⟨content, reported.mono (.refl world) early late, decoded⟩, ?_, early.trans late⟩
    intro position inside
    exact ((fresh_of_fireChunks firingChunks _ (mem_chunkItems member inside)).since early).trans
      settledChunks
  obtain ⟨served, records, sub, grown, serves⟩ := extends_drainAll free ready draining
  refine ⟨served, records, (sub.trans resolvedSub).trans issuedSub, ?_, serves⟩
  rw [grown, restRecords, firedRecords]

/-! ### What was heard of the items themselves -/

/-- Whether an alert about an item itself was heard. -/
def Said (heard : List Alert) (owner : Bytes) (salt : String) (content : Bytes) (sequence : Int) :
    Prop :=
  ∃ final, .result owner salt content sequence final ∈ heard

/-- What is assumed of digests and keys: among the inputs no two have the same digest, the names of
all items that are looked up or heard of are inputs, and their keys have one length. -/
structure Unambiguous (inputs : Set Bytes) (size : Nat) (operation : String) (slots : Int)
    (owners : List Bytes) (heard : List Alert) : Prop where
  free : CollisionFree inputs
  keys : ∀ owner ∈ owners, owner.length = size
  headers : ∀ owner ∈ owners, itemName owner (headerSalt operation) ∈ inputs
  chunks : ∀ owner ∈ owners, ∀ position : Nat, position < slots →
    itemName owner (chunkSalt operation position) ∈ inputs
  heard : ∀ owner salt content sequence final, .result owner salt content sequence final ∈ heard →
    owner.length = size ∧ itemName owner salt ∈ inputs

section Unambiguous

variable {inputs : Set Bytes} {size : Nat} {operation : String} {slots : Int}
  {owners : List Bytes} {before after : World τ ν}

omit [Quantity τ] [Overlay τ ν] in
theorem Unambiguous.said
    (unambiguous : Unambiguous inputs size operation slots owners (before.heard after))
    {owner : Bytes} (key : owner ∈ owners) {salt : String} (name : itemName owner salt ∈ inputs)
    {content : Bytes} {sequence : Int} (reported : Reported before after owner salt content sequence) :
    Said (before.heard after) owner salt content sequence := by
  obtain ⟨owner', salt', final, heard, same⟩ := reported
  obtain ⟨length, name'⟩ := unambiguous.heard _ _ _ _ _ heard
  obtain ⟨rfl, rfl⟩ := unambiguous.free.eq_of_infoHash
    (length.trans (unambiguous.keys owner key).symm) name' name same
  exact ⟨final, heard⟩

omit [Quantity τ] [Overlay τ ν] in
theorem Unambiguous.untorn
    (unambiguous : Unambiguous inputs size operation slots owners (before.heard after))
    {owner : Bytes} (key : owner ∈ owners) {record : Record}
    (untorn : Untorn (Reported before after owner) inputs slots operation record) :
    Untorn (Said (before.heard after) owner) inputs slots operation record :=
  untorn.imp (fun _ _ => unambiguous.said key (unambiguous.headers owner key))
    fun _ _ _ inside => unambiguous.said key (unambiguous.chunks owner key _ inside)

omit [Quantity τ] [Overlay τ ν] in
theorem Unambiguous.extends {links : List Link}
    (unambiguous : Unambiguous inputs size operation slots (links.map Link.owner)
      (before.heard after)) {batch batch' : Batch}
    (grown : Extends inputs slots operation (Reported before after) links batch batch') :
    Extends inputs slots operation (Said (before.heard after)) links batch batch' :=
  grown.imp fun _ member _ serves =>
    ⟨serves.owner, serves.seed, unambiguous.untorn (List.mem_map_of_mem member) serves.untorn⟩

end Unambiguous

/-- Whatever arrives in the course of it, a fetch that finds a record has put it together from alerts
about its own items that came since the fetch began, all of one sequence number, which is the
record's; and so have batches, one after the other or pipelined, for every record that they give. -/
theorem fetched_untorn {inputs : Set Bytes} {size : Nat} {operation : String}
    {world after : World τ ν} :
    (∀ owner seed found, (record owner seed operation).run world = (.ok (.ok found), after) →
      Unambiguous inputs size operation world.settings.totalSlots [owner] (world.heard after) →
      Untorn (Said (world.heard after) owner) inputs world.settings.totalSlots operation found ∧
        found.seed = seed) ∧
    (∀ links batch, (inTurn links operation).run world = (.ok batch, after) ∨
        (pipelined links operation).run world = (.ok batch, after) →
      Unambiguous inputs size operation world.settings.totalSlots (links.map Link.owner)
        (world.heard after) →
      Extends inputs world.settings.totalSlots operation (Said (world.heard after)) links {} batch) := by
  constructor
  · intro owner seed found run unambiguous
    obtain ⟨untorn, sameSeed⟩ := untorn_of_record unambiguous.free run
    exact ⟨unambiguous.untorn (List.mem_singleton_self owner) untorn, sameSeed⟩
  · intro links batch run unambiguous
    rcases run with run | run
    · exact unambiguous.extends (extends_inTurnAfter unambiguous.free run)
    · exact unambiguous.extends (extends_pipelined unambiguous.free run)

/-! ### A record in one chunk -/

/-- The items of a record of three bytes. -/
def sampleItems : Entries (Bytes × String) Simnet.Item := ⟨[
  (([1], "op:0"), ⟨((Record.describe "op" [[5, 6, 7]] [5, 6, 7]).encode?).getD [], 3⟩),
  (([1], "op:1"), ⟨[5, 6, 7], 3⟩)]⟩

/-- The names that are looked up, and the payload. -/
def sampleInputs : List Bytes :=
  [5, 6, 7] :: ["op:0", "op:1", "op:2", "op:3", "op:4"].map (itemName [1])

/-- Whether an alert, if it is a result, is about one of these names. -/
def isSampled : Alert → Bool
  | .result owner salt _ _ _ => owner.length = 1 ∧ itemName owner salt ∈ sampleInputs
  | _ => true

/-- The fetch of that record, when it is the only thing that the overlay has. -/
def sampleFetch : Except Failure (Except Error Record) × World Seconds (Simnet Seconds) :=
  (record [1] [] "op").run (Seconds.world sampleItems)

theorem sample_untorn :
    ∃ found after, sampleFetch = (.ok (.ok found), after) ∧ found.value = [5, 6, 7] ∧
      Untorn (Said ((Seconds.world sampleItems).heard after) [1]) {name | name ∈ sampleInputs} 4 "op"
        found := by
  have course : (sampleFetch.1.toOption.bind Except.toOption).map Record.value = some [5, 6, 7] ∧
      ((Seconds.world sampleItems).heard sampleFetch.2).all isSampled = true ∧
      (sampleInputs.map Sha256.hash).Nodup := by
    decide +kernel
  obtain ⟨content, heard, free⟩ := course
  rcases run : sampleFetch with ⟨failure | error | found, after⟩
  · rw [run] at content
    cases content
  · rw [run] at content
    cases content
  · rw [run] at content heard
    have names : ∀ position < 4, itemName [1] (chunkSalt "op" (position : Nat)) ∈ sampleInputs := by
      decide
    have unambiguous : Unambiguous {name | name ∈ sampleInputs} 1 "op" 4 [[1]]
        ((Seconds.world sampleItems).heard after) := by
      refine ⟨?_, by simp, ?_, ?_, ?_⟩
      · exact fun first left second right same => List.inj_on_of_nodup_map free left right same
      · simp only [List.mem_singleton, forall_eq]
        decide
      · simp only [List.mem_singleton, forall_eq]
        exact fun position inside => names position (by omega)
      · intro owner salt content sequence final member
        simpa [isSampled] using List.all_eq_true.mp heard _ member
    exact ⟨found, after, rfl, Option.some_inj.mp content, (fetched_untorn.1 _ _ _ run unambiguous).1⟩

end DhtRecords.Fetch
