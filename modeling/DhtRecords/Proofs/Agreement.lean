/-
Batches that agree.

A pipelined batch and one that is fetched in turn find the same records and pass
over the same owners, for the same reasons (`Fetch.pipelined_agrees`). They only
put these reasons in other words, and in another order: a pipelined batch speaks
of all headers before it speaks of any chunk.
-/

import DhtRecords.Proofs.HeaderLanguage
import DhtRecords.Proofs.Pipelining

namespace DhtRecords

open ExactQuantity (value)

variable {τ ν : Type}

namespace Fetch

/-! ### The words of a pipelined batch -/

/-- How a pipelined batch says why there is no record. -/
def Error.retold [Quantity τ] (timeout : τ) : Error → String
  | noHeader _ _ => "no header"
  | tooManyChunks declared _ => "header declares " ++ declared.text ++ " chunks"
  | missingChunk salt =>
    "missing chunk " ++ Text.quoted salt ++ " (" ++ (Get.Error.timedOut salt timeout).message ++ ")"
  | otherSequence salt found expected => (otherSequence salt found expected).message
  | defective defect => defect.message

/-- Whether a pipelined batch fails at an error. It does not tell the limit of chunks, and no header
declares more of them than can be told. -/
def Error.isUnretold : Error → Bool
  | tooManyChunks _ _ => false
  | error => error.hasLongInteger

section Retelling

variable {α : Type} [Quantity τ] {timeout : τ} {error : Error}

/-- What becomes of an outcome in a pipelined batch. -/
def retell (timeout : τ) (outcome : Except Error α) : Except Failure (Except String α) :=
  (told outcome).map (Except.mapError (Error.retold timeout))

theorem retell_of_long (long : error.hasLongInteger = true) :
    retell timeout (.error error : Except Error α) = .error .tooLong := by
  rw [retell, told_of_long long]
  rfl

theorem retell_of_short (short : error.hasLongInteger = false) :
    retell timeout (.error error : Except Error α) = .ok (.error (error.retold timeout)) := by
  rw [retell, told_of_short short]
  rfl

/-- Errors that are told in the same words come to the same. -/
theorem map_told_of_retold (timeout : τ) (same : error.retold timeout = error.message) :
    (told (.error error : Except Error α)).map (Except.mapError Error.message)
      = retell timeout (.error error) := by
  cases long : error.hasLongInteger with
  | true =>
    rw [retell_of_long long, told_of_long long]
    rfl
  | false =>
    rw [retell_of_short long, told_of_short long, same]
    rfl

theorem retell_verdict (timeout : τ) (record : Record) :
    (told (verdict record)).map (Except.mapError Error.message) = retell timeout (verdict record) := by
  unfold verdict
  cases record.defect with
  | none => rfl
  | some defect => exact map_told_of_retold timeout rfl

end Retelling

/-- The owner with the header that is held, unless that declares too many chunks. -/
def heldResolved (stored : Bytes × String → Option (Bytes × Int)) (slots : Int) (operation : String)
    (link : Link) : Except Error Resolved :=
  match heldHeader stored link.owner operation with
  | .error kind => .error (.noHeader (headerSalt operation) kind)
  | .ok (header, sequence) =>
    if slots < header.chunks.value then .error (.tooManyChunks header.chunks slots)
    else .ok ⟨link, header, sequence⟩

/-- Chunks that are missing or of another sequence number are told in the same words by all fetches. -/
theorem isUnretold_of_heldChunks {stored : Bytes × String → Option (Bytes × Int)} {owner : Bytes}
    {operation : String} {total : Whole} {sequence : Int} {left position : Nat} {error : Error}
    (lost : heldChunks stored owner operation total sequence left position = .error error) :
    error.isUnretold = error.hasLongInteger := by
  induction left generalizing position with
  | zero => cases lost
  | succ left ih =>
    unfold heldChunks heldChunk at lost
    cases known : stored (owner, chunkSalt operation position) with
    | none =>
      rw [known] at lost
      cases lost
      rfl
    | some content =>
      rw [known] at lost
      dsimp only at lost
      by_cases other : content.2 ≠ sequence
      · rw [if_pos other] at lost
        cases lost
        rfl
      · rw [if_neg other] at lost
        dsimp only at lost
        cases rest : heldChunks stored owner operation total sequence left (position + 1) with
        | error error' =>
          rw [rest] at lost
          cases lost
          exact ih rest
        | ok chunks =>
          rw [rest] at lost
          cases lost

section Held

variable {stored : Bytes × String → Option (Bytes × Int)} {slots : Int} {operation : String}
  {link : Link}

theorem held_of_unresolved {error : Error}
    (unresolved : heldResolved stored slots operation link = .error error) :
    held stored slots link.owner link.seed operation = .error error := by
  unfold heldResolved at unresolved
  unfold held heldUnder
  cases found : heldHeader stored link.owner operation with
  | error kind =>
    rw [found] at unresolved
    cases unresolved
    rfl
  | ok found' =>
    obtain ⟨header, sequence⟩ := found'
    rw [found] at unresolved
    dsimp only at unresolved ⊢
    by_cases many : slots < header.chunks.value
    · rw [if_pos many] at unresolved ⊢
      cases unresolved
      rfl
    · rw [if_neg many] at unresolved
      cases unresolved

theorem held_of_resolved {peer : Resolved}
    (resolved : heldResolved stored slots operation link = .ok peer) :
    peer.link = link ∧ heldHeader stored link.owner operation = .ok (peer.header, peer.sequence) ∧
      peer.header.chunks.value ≤ slots ∧
      held stored slots link.owner link.seed operation
        = heldUnder stored slots link.owner link.seed operation peer.header peer.sequence := by
  unfold heldResolved at resolved
  unfold held
  cases found : heldHeader stored link.owner operation with
  | error kind =>
    rw [found] at resolved
    cases resolved
  | ok found' =>
    obtain ⟨header, sequence⟩ := found'
    rw [found] at resolved
    dsimp only at resolved
    by_cases many : slots < header.chunks.value
    · rw [if_pos many] at resolved
      cases resolved
    · rw [if_neg many] at resolved
      cases resolved
      exact ⟨rfl, rfl, not_lt.mp many, rfl⟩

/-- Of an owner that is not resolved a pipelined batch always tells. -/
theorem isUntold_of_unresolved {error : Error}
    (unresolved : heldResolved stored slots operation link = .error error) :
    isUntold Error.isUnretold (held stored slots link.owner link.seed operation) = false := by
  rw [held_of_unresolved unresolved]
  unfold heldResolved at unresolved
  cases found : heldHeader stored link.owner operation with
  | error kind =>
    rw [found] at unresolved
    cases unresolved
    rfl
  | ok found' =>
    rw [found] at unresolved
    dsimp only at unresolved
    split at unresolved
    · cases unresolved
      rfl
    · cases unresolved

/-- And so does a batch in turn, if the limit of chunks can be told. -/
theorem isUntold_of_unresolved_of_short {error : Error} (short : Decimal.isTooLong slots = false)
    (unresolved : heldResolved stored slots operation link = .error error) :
    isUntold Error.hasLongInteger (held stored slots link.owner link.seed operation) = false := by
  rw [held_of_unresolved unresolved]
  unfold heldResolved heldHeader at unresolved
  cases known : stored (link.owner, headerSalt operation) with
  | none =>
    rw [known] at unresolved
    cases unresolved
    rfl
  | some content =>
    rw [known] at unresolved
    dsimp only at unresolved
    cases decoded : Header.decode? content.1 with
    | none =>
      rw [decoded] at unresolved
      cases unresolved
      rfl
    | some header =>
      rw [decoded] at unresolved
      dsimp only at unresolved
      split at unresolved
      · cases unresolved
        simp [isUntold, Error.hasLongInteger, (Header.short_of_decode? decoded).1, short]
      · cases unresolved

/-- Of an owner that is resolved all fetches tell alike. -/
theorem isUntold_of_resolved {peer : Resolved}
    (resolved : heldResolved stored slots operation link = .ok peer) :
    isUntold Error.isUnretold (held stored slots link.owner link.seed operation)
      = isUntold Error.hasLongInteger (held stored slots link.owner link.seed operation) := by
  obtain ⟨-, -, fits, same⟩ := held_of_resolved resolved
  rw [same, heldUnder, if_neg (not_lt.mpr fits)]
  cases found : heldChunks stored link.owner operation peer.header.chunks peer.sequence
    peer.header.chunks.value.toNat 0 with
  | error error => exact isUnretold_of_heldChunks found
  | ok chunks =>
    dsimp only
    unfold verdict
    split
    · rfl
    · rfl

/-- If the limit of chunks can be told, then all fetches fail alike. -/
theorem isUntold_alike (short : Decimal.isTooLong slots = false) :
    isUntold Error.isUnretold (held stored slots link.owner link.seed operation)
      = isUntold Error.hasLongInteger (held stored slots link.owner link.seed operation) := by
  cases resolved : heldResolved stored slots operation link with
  | error error =>
    rw [isUntold_of_unresolved resolved, isUntold_of_unresolved_of_short short resolved]
  | ok peer => exact isUntold_of_resolved resolved

end Held

/-- Whether a header is held for an owner that does not declare too many chunks. -/
def isResolved (stored : Bytes × String → Option (Bytes × Int)) (slots : Int) (operation : String)
    (link : Link) : Bool :=
  (heldResolved stored slots operation link).toOption.isSome

/-- The owners with such headers. -/
def resolvedOf (stored : Bytes × String → Option (Bytes × Int)) (slots : Int) (operation : String)
    (links : List Link) : List Resolved :=
  links.filterMap fun link => (heldResolved stored slots operation link).toOption

theorem map_link_resolvedOf (stored : Bytes × String → Option (Bytes × Int)) (slots : Int)
    (operation : String) (links : List Link) :
    (resolvedOf stored slots operation links).map Resolved.link
      = links.filter (isResolved stored slots operation) := by
  unfold resolvedOf
  induction links with
  | nil => rfl
  | cons link rest ih =>
    cases resolved : heldResolved stored slots operation link with
    | error error =>
      have unresolved : ¬ isResolved stored slots operation link = true := by
        rw [isResolved, resolved]
        exact Bool.false_ne_true
      rw [List.filterMap_cons, resolved, List.filter_cons, if_neg unresolved]
      exact ih
    | ok peer =>
      obtain ⟨rfl, -⟩ := held_of_resolved resolved
      have found : isResolved stored slots operation peer.link = true := by
        rw [isResolved, resolved]
        rfl
      rw [List.filterMap_cons, resolved, List.filter_cons, if_pos found, ← ih]
      rfl

theorem perm_resolved (stored : Bytes × String → Option (Bytes × Int)) (slots : Int)
    (operation : String) (links : List Link) :
    (links.filter (fun link => !isResolved stored slots operation link)
      ++ links.filter (isResolved stored slots operation)).Perm links :=
  List.perm_append_comm.trans (List.filter_append_perm _ links)

theorem mem_resolvedOf {stored : Bytes × String → Option (Bytes × Int)} {slots : Int}
    {operation : String} {links : List Link} {peer : Resolved}
    (member : peer ∈ resolvedOf stored slots operation links) :
    peer.link ∈ links ∧ heldResolved stored slots operation peer.link = .ok peer := by
  obtain ⟨link, among, found⟩ := List.mem_filterMap.mp member
  cases resolved : heldResolved stored slots operation link with
  | error error =>
    rw [resolved] at found
    cases found
  | ok peer' =>
    rw [resolved] at found
    cases found
    obtain ⟨rfl, -⟩ := held_of_resolved resolved
    exact ⟨among, resolved⟩

theorem mem_chunkItems_iff {operation : String} {peers : List Resolved} {item : Bytes × String} :
    item ∈ chunkItems operation peers ↔ ∃ peer ∈ peers,
      ∃ position < peer.header.chunks.value.toNat,
        item = (peer.link.owner, chunkSalt operation (position : Nat)) := by
  unfold chunkItems
  simp only [List.mem_flatMap, List.mem_map, List.mem_range]
  constructor
  · rintro ⟨peer, member, position, within, rfl⟩
    exact ⟨peer, member, position, within, rfl⟩
  · rintro ⟨peer, member, position, within, rfl⟩
    exact ⟨peer, member, position, within, rfl⟩

/-! ### Kept and skipped owners -/

/-- The records that are held, as they go into a batch. -/
def kept (stored : Bytes × String → Option (Bytes × Int)) (slots : Int) (operation : String)
    (links : List Link) : List Record :=
  links.filterMap fun link =>
    match held stored slots link.owner link.seed operation with
    | .ok record => some { record with owner := link.name }
    | .error _ => none

/-- The owners of whom no record is held, and why. -/
def skipped (stored : Bytes × String → Option (Bytes × Int)) (slots : Int) (operation : String)
    (links : List Link) : List (Link × Error) :=
  links.filterMap fun link =>
    match held stored slots link.owner link.seed operation with
    | .ok _ => none
    | .error error => some (link, error)

theorem any_skipped {stored : Bytes × String → Option (Bytes × Int)} {slots : Int}
    {operation : String} (untold : Error → Bool) (links : List Link) :
    (skipped stored slots operation links).any (untold ·.2)
      = links.any fun link => isUntold untold (held stored slots link.owner link.seed operation) := by
  unfold skipped
  rw [List.any_filterMap]
  congr 1
  funext link
  cases held stored slots link.owner link.seed operation <;> rfl

theorem addAll_held (stored : Bytes × String → Option (Bytes × Int)) (slots : Int)
    (operation : String) (words : Error → String) (links : List Link) :
    ({} : Batch).addAll (fun link =>
        (held stored slots link.owner link.seed operation).mapError words) links
      = { records := kept stored slots operation links
          errors := (skipped stored slots operation links).map fun skip =>
            skip.1.problem (words skip.2) } := by
  unfold Batch.addAll kept skipped
  rw [List.map_filterMap, List.nil_append, List.nil_append]
  congr 1
  · refine List.filterMap_congr fun link _ => ?_
    dsimp only
    cases held stored slots link.owner link.seed operation <;> rfl
  · refine List.filterMap_congr fun link _ => ?_
    dsimp only
    cases held stored slots link.owner link.seed operation <;> rfl

theorem Batch.addAll_append (outcome : Link → Except String Record) (batch : Batch)
    (first second : List Link) :
    (batch.addAll outcome first).addAll outcome second = batch.addAll outcome (first ++ second) := by
  simp [addAll]

/-- A batch that has told of some owners, and then tells of others. -/
theorem Batch.tell_append {untold untold' : Error → Bool} {words : Error → String}
    {outcome : Link → Except Error Record} {batch : Batch} {first second : List Link}
    (told : ∀ link ∈ first, isUntold untold' (outcome link) = false)
    (alike : ∀ link ∈ second, isUntold untold' (outcome link) = isUntold untold (outcome link)) :
    (batch.addAll (fun link => (outcome link).mapError words) first).tell untold words outcome second
      = batch.tell untold' words outcome (first ++ second) := by
  have none : (first.any fun link => isUntold untold' (outcome link)) = false := by
    simpa using told
  have same : (second.any fun link => isUntold untold' (outcome link))
      = second.any fun link => isUntold untold (outcome link) := by
    rw [Bool.eq_iff_iff, List.any_eq_true, List.any_eq_true]
    exact exists_congr fun link => and_congr_right fun member => by rw [alike link member]
  unfold tell
  rw [addAll_append, List.any_append, none, same, Bool.false_or]

/-- It does not matter for the records where owners stand of whom there are none. -/
theorem kept_partition {stored : Bytes × String → Option (Bytes × Int)} {slots : Int}
    {operation : String} {links : List Link} {found : Link → Bool}
    (without : ∀ link, found link = false →
      ∃ error, held stored slots link.owner link.seed operation = .error error) :
    kept stored slots operation (links.filter (fun link => !found link) ++ links.filter found)
      = kept stored slots operation links := by
  unfold kept
  rw [List.filterMap_append]
  have none : (links.filter fun link => !found link).filterMap (fun link =>
      match held stored slots link.owner link.seed operation with
      | .ok record => some { record with owner := link.name }
      | .error _ => none) = [] := by
    rw [List.filterMap_eq_nil_iff]
    intro link member
    obtain ⟨error, without⟩ := without link (by simpa using (List.mem_filter.mp member).2)
    rw [without]
  rw [none, List.nil_append, List.filterMap_filter]
  refine List.filterMap_congr fun link _ => ?_
  cases here : found link with
  | true => rfl
  | false =>
    obtain ⟨error, without⟩ := without link here
    rw [without]
    rfl

end Fetch

namespace World

open Fetch

variable [Quantity τ] [ExactQuantity τ] [Overlay τ ν] {engine : EngineId}
  {items : Set (Bytes × String)} {good : ν → Prop} {settings : Settings τ}
  {store : String → Option (Bytes × Int)} {asked : Set String} {limit : τ} {world : World τ ν}
  {operation : String}

omit [ExactQuantity τ] [Overlay τ ν] in
/-- A program that hands the words of an error on ends as its first step does. -/
theorem of_retell {α β : Type} {program : Op τ ν (Except String α)}
    {next : Except String α → Op τ ν (Except String β)} {after : World τ ν} {timeout : τ} {error : Error}
    (first : Op.EndsIn program world (retell timeout (.error error)) after)
    (hands : ∀ message, next (.error message) = pure (.error message)) :
    Op.EndsIn (program >>= next) world (retell timeout (.error error)) after := by
  cases long : error.hasLongInteger with
  | true =>
    rw [retell_of_long long] at first ⊢
    exact .bind_error first
  | false =>
    rw [retell_of_short long] at first ⊢
    refine .bind first ?_
    rw [hands]
    exact .pure _ _

/-! ### Resolving -/

omit [Overlay τ ν] in
/-- The header that has come for an owner is the one that is held. -/
theorem Arrived.resolve (arrived : world.Arrived engine items good settings store asked) {link : Link}
    (named : infoHash link.owner (headerSalt operation) ∈ asked) :
    resolve (headerSalt operation) world link
      = (heldResolved (storedBy store) settings.totalSlots operation link).mapError
        (Error.retold settings.fetchTimeout) := by
  have peeked := arrived.peek named
  unfold Fetch.resolve heldResolved heldHeader
  rw [← peeked]
  cases Get.peek link.owner (headerSalt operation) world with
  | none => rfl
  | some result =>
    simp only [Option.map_some]
    cases Header.decode? result.value with
    | none => rfl
    | some header =>
      simp only [arrived.settings]
      split
      · rfl
      · rfl

omit [Overlay τ ν] in
/-- All owners are resolved whose headers are held, and the others passed over. -/
theorem Arrived.resolveAll (arrived : world.Arrived engine items good settings store asked)
    {links : List Link} (named : ∀ link ∈ links, infoHash link.owner (headerSalt operation) ∈ asked)
    (batch : Batch) :
    resolveAll (headerSalt operation) world batch links
      = (resolvedOf (storedBy store) settings.totalSlots operation links,
        batch.addAll (fun link => (held (storedBy store) settings.totalSlots link.owner
            link.seed operation).mapError (Error.retold settings.fetchTimeout))
          (links.filter fun link =>
            !isResolved (storedBy store) settings.totalSlots operation link)) := by
  induction links generalizing batch with
  | nil => simp [Fetch.resolveAll, resolvedOf, Batch.addAll_nil]
  | cons link rest ih =>
    have others := ih fun link member => named link (List.mem_cons_of_mem _ member)
    have here := arrived.resolve (named link (List.mem_cons_self ..))
    unfold Fetch.resolveAll
    rw [here]
    cases resolved : heldResolved (storedBy store) settings.totalSlots operation link with
    | error error =>
      have unresolved : isResolved (storedBy store) settings.totalSlots operation link
          = false := by
        rw [isResolved, resolved]
        rfl
      simp only [Except.mapError, others, resolvedOf, List.filterMap_cons, resolved, Except.toOption,
        List.filter_cons, unresolved, Bool.not_false, if_true, Batch.addAll_cons,
        held_of_unresolved resolved]
    | ok peer =>
      have found : isResolved (storedBy store) settings.totalSlots operation link
          = true := by
        rw [isResolved, resolved]
        rfl
      simp only [Except.mapError, others, resolvedOf, List.filterMap_cons, resolved, Except.toOption,
        List.filter_cons, found, Bool.not_true, Bool.false_eq_true, if_false]

/-! ### Draining -/

section Draining

variable (serving : Serving engine items (storedBy store) limit good)
  (inTime : value limit ≤ value settings.fetchTimeout)

include serving inTime

/-- A chunk that is drained is the one that is held. -/
theorem Arrived.drainChunk (arrived : world.Arrived engine items good settings store asked)
    {peer : Resolved} {salt : String} (member : (peer.link.owner, salt) ∈ items)
    (named : infoHash peer.link.owner salt ∈ asked) :
    ∃ after, Op.EndsIn (drainChunk peer salt) world
        (retell settings.fetchTimeout (heldChunk (storedBy store) peer.link.owner salt peer.sequence))
        after ∧
      after.Arrived engine items good settings store asked := by
  obtain rfl := arrived.settings
  have peeked := arrived.peek named
  unfold Fetch.drainChunk heldChunk
  by_cases fitting : ∃ result, Get.peek peer.link.owner salt world = some result ∧
      result.sequence = peer.sequence
  · obtain ⟨result, known, same⟩ := fitting
    rw [known, Option.map_some] at peeked
    refine ⟨world, .get_bind (fun _ => rfl) ?_, arrived⟩
    simp only [known, Option.filter_some, same, decide_true, if_true, ← peeked, ne_eq,
      not_true_eq_false, if_false]
    exact .pure _ _
  · have none : (Get.peek peer.link.owner salt world).filter (·.sequence = peer.sequence) = none := by
      rw [Option.filter_eq_none_iff]
      intro result known
      simpa using fun same => fitting ⟨result, known, same⟩
    obtain ⟨outcome, after, looks, attends, looked⟩ :=
      arrived.attends.lookup serving member inTime
    obtain ⟨fits, arrived⟩ := arrived.looksUp attends member looked
    refine ⟨after, .get_bind (fun _ => rfl) ?_, arrived⟩
    simp only [none]
    refine .get_bind (fun _ => rfl) (.bind looks ?_)
    cases held : storedBy store (peer.link.owner, salt) with
    | none =>
      rw [held] at fits
      obtain rfl := fits
      exact .pure _ _
    | some content =>
      obtain ⟨content, found⟩ := content
      rw [held] at fits
      obtain ⟨final, rfl⟩ := fits
      have other : found ≠ peer.sequence := by
        intro same
        rw [held] at peeked
        obtain ⟨result, known, pair⟩ := Option.map_eq_some_iff.mp peeked
        exact fitting ⟨result, known, (congrArg Prod.snd pair).trans same⟩
      simp only [ne_eq, other, not_false_eq_true, if_true]
      have refused := Op.EndsIn.map (.refuse (.otherSequence salt found peer.sequence) after)
        (Except.mapError (α := Bytes) Error.message)
      rwa [map_told_of_retold world.settings.fetchTimeout rfl] at refused

/-- The chunks that are drained are those that are held. -/
theorem Arrived.drainFrom (arrived : world.Arrived engine items good settings store asked)
    {peer : Resolved} (left position : Nat)
    (members : ∀ other, position ≤ other → other < position + left →
      (peer.link.owner, chunkSalt operation other) ∈ items ∧
        infoHash peer.link.owner (chunkSalt operation other) ∈ asked) :
    ∃ after, Op.EndsIn (drainFrom peer operation left position) world
        (retell settings.fetchTimeout (heldChunks (storedBy store) peer.link.owner operation
          peer.header.chunks peer.sequence left position)) after ∧
      after.Arrived engine items good settings store asked := by
  induction left generalizing world position with
  | zero => exact ⟨world, .pure _ _, arrived⟩
  | succ left ih =>
    obtain ⟨member, named⟩ := members position (by omega) (by omega)
    obtain ⟨middle, drained, arrived⟩ := arrived.drainChunk serving inTime member named
    unfold Fetch.drainFrom heldChunks
    cases chunk : heldChunk (storedBy store) peer.link.owner
      (chunkSalt operation position) peer.sequence with
    | error error =>
      rw [chunk] at drained
      exact ⟨middle, of_retell drained fun _ => rfl, arrived⟩
    | ok content =>
      rw [chunk] at drained
      obtain ⟨after, others, arrived⟩ := ih arrived (position + 1) fun other later within =>
        members other (by omega) (by omega)
      refine ⟨after, .bind drained ?_, arrived⟩
      cases held : heldChunks (storedBy store) peer.link.owner operation peer.header.chunks
        peer.sequence left (position + 1) with
      | error error => exact of_retell (held ▸ others) fun _ => rfl
      | ok chunks => exact .bind (held ▸ others) (.pure _ _)

/-- The record that is drained is the one that is held under its header. -/
theorem Arrived.drain (arrived : world.Arrived engine items good settings store asked)
    {peer : Resolved} (fits : peer.header.chunks.value ≤ settings.totalSlots)
    (members : ∀ position < peer.header.chunks.value.toNat,
      (peer.link.owner, chunkSalt operation position) ∈ items ∧
        infoHash peer.link.owner (chunkSalt operation position) ∈ asked) :
    ∃ after, Op.EndsIn (drain peer operation) world
        (retell settings.fetchTimeout (heldUnder (storedBy store) settings.totalSlots peer.link.owner
          peer.link.seed operation peer.header peer.sequence)) after ∧
      after.Arrived engine items good settings store asked := by
  obtain ⟨after, drained, arrived⟩ := arrived.drainFrom serving inTime peer.header.chunks.value.toNat 0
    fun position _ within => members position (by omega)
  refine ⟨after, ?_, arrived⟩
  unfold Fetch.drain heldUnder
  rw [if_neg (not_lt.mpr fits)]
  cases held : heldChunks (storedBy store) peer.link.owner operation peer.header.chunks
    peer.sequence peer.header.chunks.value.toNat 0 with
  | error error => exact of_retell (held ▸ drained) fun _ => rfl
  | ok chunks =>
    rw [held] at drained
    refine .bind drained (.get_bind (fun _ => rfl) ?_)
    simp only [arrived.settings]
    have accepted := Op.EndsIn.map (.accept (Record.assemble operation settings.totalSlots peer.header
      chunks peer.link.seed peer.sequence) after) (Except.mapError Error.message)
    rwa [retell_verdict settings.fetchTimeout] at accepted

/-- The records that are drained are those that are held. -/
theorem Arrived.drainAll (arrived : world.Arrived engine items good settings store asked)
    {peers : List Resolved} (resolved : ∀ peer ∈ peers, heldResolved (storedBy store) settings.totalSlots
      operation peer.link = .ok peer)
    (members : ∀ peer ∈ peers, ∀ position < peer.header.chunks.value.toNat,
      (peer.link.owner, chunkSalt operation position) ∈ items ∧
        infoHash peer.link.owner (chunkSalt operation position) ∈ asked)
    (batch : Batch) :
    ∃ after, Op.EndsIn (drainAll operation batch peers) world
        (batch.tell Error.hasLongInteger (Error.retold settings.fetchTimeout)
          (fun link => held (storedBy store) settings.totalSlots link.owner link.seed operation)
          (peers.map Resolved.link)) after := by
  induction peers generalizing world batch with
  | nil =>
    rw [List.map_nil, Batch.tell_nil]
    exact ⟨world, .pure _ _⟩
  | cons peer rest ih =>
    have first := List.mem_cons_self (a := peer) (l := rest)
    obtain ⟨-, -, fits, same⟩ := held_of_resolved (resolved peer first)
    obtain ⟨middle, drained, arrived⟩ := arrived.drain serving inTime fits (members peer first)
    rw [← same] at drained
    rw [List.map_cons]
    unfold Fetch.drainAll
    cases long : isUntold Error.hasLongInteger
      (held (storedBy store) settings.totalSlots peer.link.owner peer.link.seed operation) with
    | true =>
      rw [retell, told_of_isUntold long] at drained
      rw [Batch.tell_of_long long]
      exact ⟨middle, .bind_error drained⟩
    | false =>
      rw [retell, told_of_not_isUntold long] at drained
      rw [Batch.tell_of_short long]
      obtain ⟨after, others⟩ := ih arrived
        (fun peer member => resolved peer (List.mem_cons_of_mem _ member))
        (fun peer member => members peer (List.mem_cons_of_mem _ member)) _
      exact ⟨after, .bind drained others⟩

end Draining

/-! ### Whole batches -/

omit [Quantity τ] [ExactQuantity τ] [Overlay τ ν] in
theorem resolveAll_withPatience (salt : String) (patience : Nat) (world : World τ ν) (batch : Batch)
    (links : List Link) :
    resolveAll salt (world.withPatience patience) batch links = resolveAll salt world batch links := by
  induction links generalizing batch with
  | nil => rfl
  | cons link rest ih =>
    have same : resolve salt (world.withPatience patience) link = resolve salt world link := rfl
    unfold resolveAll
    rw [same]
    cases resolve salt world link with
    | error message => exact ih _
    | ok peer =>
      dsimp only
      rw [ih]

/-- A pipelined batch has what is held: first it tells of the owners that are not resolved, then of the
others. -/
theorem Calm.pipelined (calm : world.Calm engine items good settings)
    (serving : Serving engine items (storedBy store) limit good)
    (headerTime : value limit ≤ value settings.headerSettle)
    (chunkTime : value limit ≤ value settings.chunkSettle)
    (fetchTime : value limit ≤ value settings.fetchTimeout) {links : List Link}
    (covers : ∀ link ∈ links, Covers items (storedBy store) settings.totalSlots
      link.owner operation) :
    ∃ after, Op.EndsIn (pipelined links operation) world
      (({} : Batch).tell Error.isUnretold (Error.retold settings.fetchTimeout)
        (fun link => held (storedBy store) settings.totalSlots link.owner link.seed operation)
        (links.filter (fun link =>
            !isResolved (storedBy store) settings.totalSlots operation link)
          ++ links.filter (isResolved (storedBy store) settings.totalSlots operation)))
      after := by
  have start : world.Genuine engine items good settings store ∅ := by
    refine ⟨calm.attends, calm.settings, Set.empty_subset _, ?_, fun _ none => none.elim⟩
    intro key about entry flying
    rw [calm.quiet key about] at flying
    cases flying
  obtain ⟨issued, fires, busyHeaders⟩ := (start.busy limit).fireHeaders serving true {}
    fun link member => (covers link member).header
  rw [Set.union_empty] at busyHeaders
  obtain ⟨_, headed, waits, arrived⟩ := busyHeaders.waitForAll serving.toRunning headerTime
  have named (link : Link) (member : link ∈ links) : infoHash link.owner (headerSalt operation) ∈
      {key | key ∈ links.map fun link => infoHash link.owner (headerSalt operation)} :=
    List.mem_map.mpr ⟨link, member, rfl⟩
  have resolved := arrived.resolveAll named {}
  have within (item : Bytes × String) (member : item ∈ chunkItems operation
      (resolvedOf (storedBy store) settings.totalSlots operation links)) :
      item ∈ items := by
    obtain ⟨peer, among, position, inside, rfl⟩ := mem_chunkItems_iff.mp member
    obtain ⟨linked, found⟩ := mem_resolvedOf among
    obtain ⟨-, headed, few, -⟩ := held_of_resolved found
    exact (covers peer.link linked).chunks _ _ headed few position inside
  obtain ⟨asked, fired, busyChunks⟩ := (arrived.toGenuine.busy limit).fireChunks serving true within
  rw [Set.union_empty] at busyChunks
  obtain ⟨_, settled, waited, complete⟩ := busyChunks.waitForAll serving.toRunning chunkTime
  obtain ⟨after, drained⟩ := complete.drainAll serving fetchTime
    (fun peer member => (mem_resolvedOf member).2)
    (fun peer member position inside =>
      have listed := mem_chunkItems_iff.mpr ⟨peer, member, position, inside, rfl⟩
      ⟨within _ listed, List.mem_map.mpr ⟨_, listed, rfl⟩⟩)
    (({} : Batch).addAll (fun link => (held (storedBy store) settings.totalSlots link.owner
        link.seed operation).mapError (Error.retold settings.fetchTimeout))
      (links.filter fun link => !isResolved (storedBy store) settings.totalSlots operation link))
  rw [map_link_resolvedOf, Batch.tell_append] at drained
  rotate_left
  · intro link member
    have unresolved := (List.mem_filter.mp member).2
    cases resolved : heldResolved (storedBy store) settings.totalSlots operation link with
    | error error => exact isUntold_of_unresolved resolved
    | ok peer => simp [isResolved, resolved, Except.toOption] at unresolved
  · intro link member
    have found := (List.mem_filter.mp member).2
    cases resolved : heldResolved (storedBy store) settings.totalSlots operation link with
    | error error => simp [isResolved, resolved, Except.toOption] at found
    | ok peer => exact isUntold_of_resolved resolved
  refine ⟨after, ?_⟩
  unfold Fetch.pipelined
  refine .bind fires (.get_bind (fun _ => rfl) ?_)
  dsimp only
  rw [busyHeaders.settings]
  refine .bind waits (.get_bind (fun patience => ?_) ?_)
  · rw [resolveAll_withPatience]
  · rw [resolved]
    refine .bind fired (.get_bind (fun _ => rfl) ?_)
    dsimp only
    rw [busyChunks.settings]
    exact .bind waited drained

end World

namespace Fetch

open World

variable [Quantity τ] [ExactQuantity τ] [Overlay τ ν] {engine : EngineId} {good : ν → Prop}
  {store : String → Option (Bytes × Int)} {limit : τ} {links : List Link} {operation : String}

/-! ### Agreement -/

/-- The items that are asked for: the headers, and the chunks that are declared by those that are held. -/
def itemsAsked (stored : Bytes × String → Option (Bytes × Int)) (slots : Int) (operation : String)
    (links : List Link) : List (Bytes × String) :=
  links.map (fun link => (link.owner, headerSalt operation))
    ++ chunkItems operation (resolvedOf stored slots operation links)

theorem covers_of_itemsAsked {stored : Bytes × String → Option (Bytes × Int)} {slots : Int}
    {items : Set (Bytes × String)}
    (asked : ∀ item ∈ itemsAsked stored slots operation links, item ∈ items) {link : Link}
    (member : link ∈ links) : Covers items stored slots link.owner operation := by
  constructor
  · exact asked _ (List.mem_append_left _ (List.mem_map.mpr ⟨link, member, rfl⟩))
  · intro header sequence found few position within
    refine asked _ (List.mem_append_right _
      (mem_chunkItems_iff.mpr ⟨⟨link, header, sequence⟩, ?_, position, within, rfl⟩))
    refine List.mem_filterMap.mpr ⟨link, member, ?_⟩
    unfold heldResolved
    rw [found]
    dsimp only
    rw [if_neg (not_lt.mpr few)]
    rfl

/-- A batch whose errors can all be told. -/
def Batch.unless (long : Bool) (batch : Batch) : Except Failure Batch :=
  if long then .error .tooLong else .ok batch

/-- A pipelined batch agrees with one that is fetched in turn, in the same or another world, if an engine
answers lookups by what a store holds, in time, and nothing else is in flight. Both have the records
that are held in the order of their owners, and pass over the others. But a fetch fails where it would tell
of an integer that is too long, and one in turn if it cannot be told how often to try. -/
theorem pipelined_agrees {first second : World τ ν} {items : Set (Bytes × String)}
    (asked : ∀ item ∈ itemsAsked (storedBy store) first.settings.totalSlots operation links,
      item ∈ items)
    (serving : Serving engine items (storedBy store) limit good)
    (headerTime : value limit ≤ value first.settings.headerSettle)
    (chunkTime : value limit ≤ value first.settings.chunkSettle)
    (fetchTime : value limit ≤ value first.settings.fetchTimeout)
    (settings : second.settings = first.settings)
    (firstAttends : first.Attends engine (keyOf '' items) good) (firstQuiet : first.Quiet items)
    (secondAttends : second.Attends engine (keyOf '' items) good) (secondQuiet : second.Quiet items) :
    ∃ (sequential parallel : Batch) (afterSecond : World τ ν),
      parallel.records = sequential.records ∧
      sequential.records = kept (storedBy store) first.settings.totalSlots operation
        links ∧
      sequential.errors = (skipped (storedBy store) first.settings.totalSlots operation
        links).map (fun skip => skip.1.problem skip.2.message) ∧
      parallel.errors.Perm ((skipped (storedBy store) first.settings.totalSlots
        operation links).map fun skip =>
          skip.1.problem (skip.2.retold first.settings.fetchTimeout)) ∧
      Op.EndsIn (pipelined links operation) second
        (parallel.unless ((skipped (storedBy store) first.settings.totalSlots operation links).any
          (·.2.isUnretold))) afterSecond ∧
      (∀ retries, first.settings.headerRetries = some retries → 0 ≤ retries →
        ∃ afterFirst, Op.EndsIn (inTurn links operation) first
          (sequential.unless ((skipped (storedBy store) first.settings.totalSlots operation links).any
            (·.2.hasLongInteger))) afterFirst) ∧
      (Decimal.isTooLong first.settings.totalSlots = false →
        (skipped (storedBy store) first.settings.totalSlots operation links).any (·.2.isUnretold)
          = (skipped (storedBy store) first.settings.totalSlots operation links).any
            (·.2.hasLongInteger)) ∧
      (first.settings.headerRetries = none → links ≠ [] →
        Op.EndsIn (inTurn links operation) first (.error .mistypedSetting) first) := by
  have covers (link : Link) (member : link ∈ links) := covers_of_itemsAsked asked member
  have firstCalm := Calm.mk firstAttends firstQuiet (Eq.refl first.settings)
  have secondCalm := Calm.mk secondAttends secondQuiet settings
  obtain ⟨afterSecond, parallel⟩ :=
    secondCalm.pipelined serving headerTime chunkTime fetchTime covers
  have order := perm_resolved (storedBy store) first.settings.totalSlots operation links
  rw [Batch.tell, addAll_held, order.any_eq, ← any_skipped] at parallel
  refine ⟨⟨_, _⟩, _, afterSecond, ?_, rfl, rfl, ?_, parallel, ?_, ?_, ?_⟩
  · refine kept_partition fun link unresolved => ?_
    cases resolved : heldResolved (storedBy store) first.settings.totalSlots operation
      link with
    | error error => exact ⟨error, held_of_unresolved resolved⟩
    | ok peer =>
      rw [isResolved, resolved] at unresolved
      cases unresolved
  · exact (order.filterMap _).map _
  · intro retries tries natural
    obtain ⟨afterFirst, sequential⟩ := firstCalm.inTurn serving fetchTime tries natural covers {}
    rw [Batch.tell, addAll_held, ← any_skipped] at sequential
    exact ⟨afterFirst, sequential⟩
  · intro short
    rw [any_skipped, any_skipped]
    exact congrArg links.any (funext fun link => isUntold_alike short)
  · intro mistyped nonempty
    obtain ⟨link, rest, rfl⟩ := List.exists_cons_of_ne_nil nonempty
    refine .bind_error (.bind_error (.get_bind (fun _ => rfl) ?_))
    rw [mistyped]
    exact .throw _ _

/-- A header of one chunk without a digest, in its form. -/
def mixedHeader : Bytes :=
  (({ operation := "mixed", chunks := .int 1 } : Header).encode?).getD []

/-- A header, and a chunk of a sequence number. -/
def mixedItems (sequence : Int) : List ((Bytes × String) × Simnet.Item) :=
  [(([1], "mixed:0"), ⟨mixedHeader, 7⟩), (([1], "mixed:1"), ⟨[5, 6], sequence⟩)]

/-- These items by their info hashes. -/
def mixedStore (sequence : Int) (key : String) : Option (Bytes × Int) :=
  ((mixedItems sequence).find? fun entry => keyOf entry.1 = key).map fun entry =>
    (entry.2.value, entry.2.sequence)

/-- The record's owner twice, and an owner of none. -/
def mixedLinks : List Link := [
  { owner := [1], seed := [9], name := "first" },
  { owner := [2], name := "absent" },
  { owner := [1], name := "again" }]

/-- A world in which these items are held. -/
def mixedWorld (sequence : Int) : World Seconds (Simnet Seconds) :=
  Seconds.world ⟨mixedItems sequence⟩

/-- The items that are asked for there. -/
def mixedAsked (sequence : Int) : List (Bytes × String) :=
  itemsAsked (storedBy (mixedStore sequence)) Seconds.settings.totalSlots "mixed" mixedLinks

theorem mixed_serving {sequence : Int} (same : ∀ item ∈ mixedAsked sequence,
      storedBy (mixedStore sequence) item = (Seconds.net ⟨mixedItems sequence⟩).stored item) :
    Serving 1 {item | item ∈ mixedAsked sequence} (storedBy (mixedStore sequence)) (⟨1⟩ : Seconds)
      (· = Seconds.net ⟨mixedItems sequence⟩) := by
  have honest : (Seconds.net ⟨mixedItems sequence⟩).Honest 1 ⟨1⟩ := Seconds.honest_net _ (by decide)
  exact (honest.serving {item | item ∈ mixedAsked sequence}).of_eq same

theorem mixed_calm (sequence : Int) :
    (mixedWorld sequence).Calm 1 {item | item ∈ mixedAsked sequence}
      (· = Seconds.net ⟨mixedItems sequence⟩) Seconds.settings :=
  ⟨Seconds.attends_world ⟨mixedItems sequence⟩ _, fun _ _ => rfl, rfl⟩

theorem mixed_agrees :
    ∃ sequential parallel afterFirst afterSecond,
      Op.Yields (inTurn mixedLinks "mixed") (mixedWorld 7) sequential afterFirst ∧
      Op.Yields (pipelined mixedLinks "mixed") (mixedWorld 7) parallel afterSecond ∧
      parallel.records = sequential.records ∧
      sequential.records.map (fun record => (record.owner, record.value))
        = [("first", [5, 6]), ("again", [5, 6])] ∧
      parallel.errors.length = sequential.errors.length := by
  have course : (∀ item ∈ mixedAsked 7,
        storedBy (mixedStore 7) item = (Seconds.net ⟨mixedItems 7⟩).stored item) ∧
      (kept (storedBy (mixedStore 7)) (mixedWorld 7).settings.totalSlots "mixed" mixedLinks).map
          (fun record => (record.owner, record.value))
        = [("first", [5, 6]), ("again", [5, 6])] ∧
      (skipped (storedBy (mixedStore 7)) (mixedWorld 7).settings.totalSlots "mixed"
          mixedLinks).any (·.2.hasLongInteger) = false ∧
      (skipped (storedBy (mixedStore 7)) (mixedWorld 7).settings.totalSlots "mixed"
          mixedLinks).any (·.2.isUnretold) = false := by
    decide +kernel
  obtain ⟨same, found, short, shortRetold⟩ := course
  have calm := mixed_calm 7
  have asked : ∀ item ∈ itemsAsked (storedBy (mixedStore 7)) (mixedWorld 7).settings.totalSlots "mixed"
      mixedLinks, item ∈ {item | item ∈ mixedAsked 7} := fun _ member => member
  obtain ⟨sequential, parallel, afterSecond, agree, records, errors, retold, pipelined, inTurn, -⟩ :=
    pipelined_agrees asked (mixed_serving same) (by decide) (by decide) (by decide) rfl
      calm.attends calm.quiet calm.attends calm.quiet
  obtain ⟨afterFirst, inTurn⟩ := inTurn 1 rfl (by decide)
  refine ⟨sequential, parallel, afterFirst, afterSecond, ?_, ?_, agree, ?_, ?_⟩
  · rwa [short] at inTurn
  · rwa [shortRetold] at pipelined
  · rw [records]
    exact found
  · rw [retold.length_eq, errors, List.length_map, List.length_map]

/-- A chunk of a sequence number with too many digits is not passed over: both fetches fail. -/
theorem mixed_lost :
    ∃ afterFirst afterSecond,
      Op.EndsIn (inTurn mixedLinks "mixed") (mixedWorld (10 ^ 4300)) (.error .tooLong) afterFirst ∧
      Op.EndsIn (pipelined mixedLinks "mixed") (mixedWorld (10 ^ 4300)) (.error .tooLong)
        afterSecond := by
  have course : (∀ item ∈ mixedAsked (10 ^ 4300),
        storedBy (mixedStore (10 ^ 4300)) item
          = (Seconds.net ⟨mixedItems (10 ^ 4300)⟩).stored item) ∧
      ∀ untold ∈ [Error.hasLongInteger, Error.isUnretold], (mixedLinks.any fun link => isUntold untold
        (held (storedBy (mixedStore (10 ^ 4300))) Seconds.settings.totalSlots link.owner link.seed
          "mixed")) = true := by
    decide +kernel
  obtain ⟨same, long⟩ := course
  have covers : ∀ link ∈ mixedLinks, Covers {item | item ∈ mixedAsked (10 ^ 4300)}
      (storedBy (mixedStore (10 ^ 4300))) Seconds.settings.totalSlots link.owner "mixed" :=
    fun _ => covers_of_itemsAsked fun _ member => member
  have calm := mixed_calm (10 ^ 4300)
  have serving := mixed_serving same
  obtain ⟨afterFirst, sequential⟩ := calm.inTurn serving (by decide) rfl (by decide) covers {}
  obtain ⟨afterSecond, parallel⟩ :=
    calm.pipelined serving (by decide) (by decide) (by decide) covers
  rw [Batch.tell, long _ (by simp)] at sequential
  rw [Batch.tell, (perm_resolved _ _ _ _).any_eq, long _ (by simp)] at parallel
  exact ⟨afterFirst, afterSecond, sequential, parallel⟩

end Fetch

end DhtRecords
