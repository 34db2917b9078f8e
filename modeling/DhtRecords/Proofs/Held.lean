/-
What a store holds.

`Fetch.held` reads an owner's record off what is stored under the items, without
an engine, time or a correlator. Fetching a record while the engine answers and
nothing else is in flight comes to just that (`Attends.record`), and so does
fetching several, one after the other (`Attends.inTurn`).
-/

import DhtRecords.Fetch
import DhtRecords.Proofs.Answering
import DhtRecords.Proofs.Verdicts

namespace DhtRecords

open ExactQuantity (value)

variable {τ ν : Type}

namespace Fetch

/-! ### Reading a store -/

/-- The header that is held, with its sequence number. -/
def heldHeader (stored : Bytes × String → Option (Bytes × Int)) (owner : Bytes) (operation : String) :
    Except ErrorKind (Header × Int) :=
  match stored (owner, headerSalt operation) with
  | none => .error .timeout
  | some (content, sequence) =>
    match Header.decode? content with
    | none => .error .notFound
    | some header => .ok (header, sequence)

/-- The content of a chunk that is held under the header's sequence number. -/
def heldChunk (stored : Bytes × String → Option (Bytes × Int)) (owner : Bytes) (salt : String)
    (sequence : Int) : Except Error Bytes :=
  match stored (owner, salt) with
  | none => .error (.missingChunk salt)
  | some (content, found) =>
    if found ≠ sequence then .error (.otherSequence salt found sequence) else .ok content

/-- The chunks that are held from a position on, as many as are left. -/
def heldChunks (stored : Bytes × String → Option (Bytes × Int)) (owner : Bytes) (operation : String)
    (total : Whole) (sequence : Int) : Nat → Nat → Except Error (List Chunk)
  | 0, _ => .ok []
  | left + 1, position =>
    match heldChunk stored owner (chunkSalt operation position) sequence with
    | .error error => .error error
    | .ok content =>
      match heldChunks stored owner operation total sequence left (position + 1) with
      | .error error => .error error
      | .ok rest => .ok (⟨position, total, chunkSalt operation position, content⟩ :: rest)

/-- The record that a header and the chunks that are held make up. -/
def heldUnder (stored : Bytes × String → Option (Bytes × Int)) (slots : Int) (owner seed : Bytes)
    (operation : String) (header : Header) (sequence : Int) : Except Error Record :=
  if slots < header.chunks.value then .error (.tooManyChunks header.chunks slots)
  else
    match heldChunks stored owner operation header.chunks sequence header.chunks.value.toNat 0 with
    | .error error => .error error
    | .ok chunks => verdict (Record.assemble operation slots header chunks seed sequence)

/-- The record that is held, or why there is none. -/
def held (stored : Bytes × String → Option (Bytes × Int)) (slots : Int) (owner seed : Bytes)
    (operation : String) : Except Error Record :=
  match heldHeader stored owner operation with
  | .error kind => .error (.noHeader (headerSalt operation) kind)
  | .ok (header, sequence) => heldUnder stored slots owner seed operation header sequence

/-! ### Batches -/

/-- The record of an owner as it goes into a batch. -/
def Link.taken? (link : Link) : Except String Record → Option Record
  | .ok record => some { record with owner := link.name }
  | .error _ => none

/-- The diagnostic of an owner that is passed over. -/
def Link.problem? (link : Link) : Except String Record → Option String
  | .ok _ => none
  | .error message => some (link.problem message)

/-- The batch with the outcomes for more owners. -/
def Batch.addAll (outcome : Link → Except String Record) (batch : Batch) (links : List Link) : Batch where
  records := batch.records ++ links.filterMap fun link => link.taken? (outcome link)
  errors := batch.errors ++ links.filterMap fun link => link.problem? (outcome link)

theorem Batch.addAll_nil (outcome : Link → Except String Record) (batch : Batch) :
    batch.addAll outcome [] = batch := by
  simp [addAll]

theorem Batch.addAll_cons (outcome : Link → Except String Record) (batch : Batch) (link : Link)
    (rest : List Link) :
    batch.addAll outcome (link :: rest) = (batch.add link (outcome link)).addAll outcome rest := by
  cases result : outcome link with
  | ok record => simp [addAll, add, Link.taken?, Link.problem?, result]
  | error message => simp [addAll, add, Link.taken?, Link.problem?, result]

/-- Whether there is no record for an error that cannot be told. -/
def isUntold (untold : Error → Bool) : Except Error Record → Bool
  | .ok _ => false
  | .error error => untold error

theorem told_of_isUntold {outcome : Except Error Record}
    (long : isUntold Error.hasLongInteger outcome = true) : told outcome = .error .tooLong := by
  cases outcome with
  | ok record => cases long
  | error error => exact told_of_long long

theorem told_of_not_isUntold {outcome : Except Error Record}
    (short : isUntold Error.hasLongInteger outcome = false) : told outcome = .ok outcome := by
  cases outcome with
  | ok record => rfl
  | error error => exact told_of_short short

/-- The batch with the outcomes for more owners, if all errors can be told. -/
def Batch.tell (untold : Error → Bool) (words : Error → String) (outcome : Link → Except Error Record)
    (batch : Batch) (links : List Link) : Except Failure Batch :=
  if links.any fun link => isUntold untold (outcome link) then .error .tooLong
  else .ok (batch.addAll (fun link => (outcome link).mapError words) links)

section Telling

variable {untold : Error → Bool} {words : Error → String} {outcome : Link → Except Error Record}

theorem Batch.tell_nil (batch : Batch) : batch.tell untold words outcome [] = .ok batch := by
  simp [tell, addAll_nil]

theorem Batch.tell_of_long {link : Link} (long : isUntold untold (outcome link) = true) (batch : Batch)
    (rest : List Link) : batch.tell untold words outcome (link :: rest) = .error .tooLong := by
  simp [tell, long]

theorem Batch.tell_of_short {link : Link} (short : isUntold untold (outcome link) = false)
    (batch : Batch) (rest : List Link) :
    batch.tell untold words outcome (link :: rest) =
      (batch.add link ((outcome link).mapError words)).tell untold words outcome rest := by
  simp [tell, short, addAll_cons]

end Telling

/-! ### Items -/

/-- Whether the items of an owner that are asked for are among some: the header, and the chunks that it
declares if there are not too many. -/
structure Covers (items : Set (Bytes × String)) (stored : Bytes × String → Option (Bytes × Int))
    (slots : Int) (owner : Bytes) (operation : String) : Prop where
  header : (owner, headerSalt operation) ∈ items
  chunks : ∀ header sequence, heldHeader stored owner operation = .ok (header, sequence) →
    header.chunks.value ≤ slots → ∀ position < header.chunks.value.toNat,
      (owner, chunkSalt operation position) ∈ items

end Fetch

namespace World

open Fetch

variable [Quantity τ] [ExactQuantity τ] [Overlay τ ν] {engine : EngineId}
  {items : Set (Bytes × String)} {stored : Bytes × String → Option (Bytes × Int)} {limit : τ}
  {good : ν → Prop} {settings : Settings τ} {world : World τ ν}

/-! ### Fetching while nothing else is in flight -/

/-- Whether a session is attended under some settings while nothing is in flight of the items. -/
structure Calm (engine : EngineId) (items : Set (Bytes × String)) (good : ν → Prop)
    (settings : Settings τ) (world : World τ ν) : Prop where
  attends : world.Attends engine (keyOf '' items) good
  quiet : world.Quiet items
  settings : world.settings = settings

variable (serving : Serving engine items stored limit good)
  (inTime : value limit ≤ value settings.fetchTimeout)

include serving inTime

/-- A lookup comes to what is stored. -/
theorem Calm.lookup (calm : world.Calm engine items good settings) {owner : Bytes}
    {salt : String} (member : (owner, salt) ∈ items) :
    ∃ outcome after, Op.Yields (Get.lookup owner salt world.settings.fetchTimeout false) world outcome
        after ∧
      Get.Fits (owner, salt) world.settings.fetchTimeout (stored (owner, salt)) outcome ∧
      after.Calm engine items good settings := by
  rw [calm.settings]
  obtain ⟨outcome, after, yields, attended, looks⟩ := calm.attends.lookup serving member inTime
  obtain ⟨fits, quiet⟩ := looks.quiet calm.quiet member
  exact ⟨outcome, after, yields, fits, attended, quiet, looks.settings.trans calm.settings⟩

/-- An attempt to look the header up finds the one that is held, or goes on with the reason why there is
none. -/
theorem Calm.headerAttempt (calm : world.Calm engine items good settings) {owner : Bytes}
    {operation : String} (member : (owner, headerSalt operation) ∈ items) (attempts : Nat)
    (kind : ErrorKind) :
    ∃ middle, middle.Calm engine items good settings ∧
      match heldHeader stored owner operation with
      | .ok found => Op.Yields (headerWithin owner (headerSalt operation) (attempts + 1) kind) world
          (.ok found) middle
      | .error reason => ∀ result after,
          Op.Yields (headerWithin owner (headerSalt operation) attempts reason) middle result after →
          Op.Yields (headerWithin owner (headerSalt operation) (attempts + 1) kind) world result
            after := by
  obtain ⟨outcome, middle, looks, fits, calmed⟩ := calm.lookup serving inTime member
  refine ⟨middle, calmed, ?_⟩
  unfold heldHeader
  cases known : stored (owner, headerSalt operation) with
  | none =>
    rw [known] at fits
    obtain rfl := fits
    intro result after rest
    unfold headerWithin
    exact .get_bind (fun _ => rfl) (.bind looks rest)
  | some content =>
    obtain ⟨value, sequence⟩ := content
    rw [known] at fits
    obtain ⟨final, rfl⟩ := fits
    cases decoded : Header.decode? value with
    | none =>
      simp only [decoded]
      intro result after rest
      unfold headerWithin
      refine .get_bind (fun _ => rfl) (.bind looks ?_)
      simpa only [decoded] using rest
    | some header =>
      simp only [decoded]
      unfold headerWithin
      refine .get_bind (fun _ => rfl) (.bind looks ?_)
      simp only [decoded]
      exact .pure _ _

/-- However often the header is looked up, it is the one that is held. -/
theorem Calm.headerWithin (calm : world.Calm engine items good settings) {owner : Bytes}
    {operation : String} (member : (owner, headerSalt operation) ∈ items) (attempts : Nat)
    (kind : ErrorKind) :
    ∃ after, Op.Yields (Fetch.headerWithin owner (headerSalt operation) (attempts + 1) kind) world
        (heldHeader stored owner operation) after ∧
      after.Calm engine items good settings := by
  induction attempts generalizing world kind with
  | zero =>
    obtain ⟨middle, calmed, attempt⟩ := calm.headerAttempt serving inTime member 0 kind
    refine ⟨middle, ?_, calmed⟩
    cases found : heldHeader stored owner operation with
    | ok found' => simpa only [found] using attempt
    | error reason =>
      rw [found] at attempt
      exact attempt _ _ (.pure _ _)
  | succ attempts ih =>
    obtain ⟨middle, calmed, attempt⟩ := calm.headerAttempt serving inTime member (attempts + 1) kind
    cases found : heldHeader stored owner operation with
    | ok found' =>
      rw [found] at attempt
      exact ⟨middle, attempt, calmed⟩
    | error reason =>
      rw [found] at attempt
      obtain ⟨after, rest, calm⟩ := ih calmed reason
      rw [found] at rest
      exact ⟨after, attempt _ _ rest, calm⟩

theorem Calm.header (calm : world.Calm engine items good settings) {retries : Int}
    (tries : settings.headerRetries = some retries) (natural : 0 ≤ retries) {owner : Bytes}
    {operation : String} (member : (owner, headerSalt operation) ∈ items) :
    ∃ after, Op.Yields (Fetch.header owner operation) world (heldHeader stored owner operation) after ∧
      after.Calm engine items good settings := by
  obtain ⟨attempts, count⟩ : ∃ attempts : Nat, (1 + retries).toNat = attempts + 1 :=
    ⟨retries.toNat, by omega⟩
  obtain ⟨after, yields, calmed⟩ := calm.headerWithin serving inTime member attempts .notFound
  refine ⟨after, ?_, calmed⟩
  unfold Fetch.header
  refine .get_bind (fun _ => rfl) ?_
  simp only [calm.settings, tries, count]
  exact yields

/-- The chunks that are looked up are those that are held. -/
theorem Calm.chunksFrom (calm : world.Calm engine items good settings) {owner : Bytes}
    {operation : String} (total : Whole) (sequence : Int) (left position : Nat)
    (members : ∀ other, position ≤ other → other < position + left →
      (owner, chunkSalt operation other) ∈ items) :
    ∃ after, Op.EndsIn (Fetch.chunksFrom owner operation total sequence left position) world
        (told (heldChunks stored owner operation total sequence left position)) after ∧
      after.Calm engine items good settings := by
  induction left generalizing world position with
  | zero => exact ⟨world, .pure _ _, calm⟩
  | succ left ih =>
    obtain ⟨outcome, middle, looks, fits, calmed⟩ :=
      calm.lookup serving inTime (members position (by omega) (by omega))
    unfold Fetch.chunksFrom heldChunks heldChunk
    cases known : stored (owner, chunkSalt operation position) with
    | none =>
      rw [known] at fits
      obtain rfl := fits
      exact ⟨middle, .get_bind (fun _ => rfl) (.bind looks (.pure _ _)), calmed⟩
    | some content =>
      obtain ⟨content, found⟩ := content
      rw [known] at fits
      obtain ⟨final, rfl⟩ := fits
      by_cases other : found ≠ sequence
      · refine ⟨middle, .get_bind (fun _ => rfl) (.bind looks ?_), calmed⟩
        simp only [ne_eq, other, not_false_eq_true, if_true]
        exact .refuse _ _
      · obtain rfl : found = sequence := not_not.mp other
        obtain ⟨after, rest, calm⟩ := ih calmed (position + 1) fun other later within =>
          members other (by omega) (by omega)
        refine ⟨after, .get_bind (fun _ => rfl) (.bind looks ?_), calm⟩
        simp only [ne_eq, not_true_eq_false, if_false]
        cases held : heldChunks stored owner operation total found left (position + 1) with
        | error error => exact .of_told (held ▸ rest) rfl
        | ok chunks => exact .bind (held ▸ rest) (.pure _ _)

/-- The record that is fetched is the one that is held. -/
theorem Calm.record (calm : world.Calm engine items good settings) {retries : Int}
    (tries : settings.headerRetries = some retries) (natural : 0 ≤ retries) {owner : Bytes}
    {operation : String} (covers : Covers items stored settings.totalSlots owner operation)
    (seed : Bytes) :
    ∃ after, Op.EndsIn (Fetch.record owner seed operation) world
        (told (held stored settings.totalSlots owner seed operation)) after ∧
      after.Calm engine items good settings := by
  obtain ⟨middle, headed, calmed⟩ := calm.header serving inTime tries natural covers.header
  unfold Fetch.record held
  cases found : heldHeader stored owner operation with
  | error kind =>
    rw [found] at headed
    exact ⟨middle, .bind headed (.pure _ _), calmed⟩
  | ok found' =>
    obtain ⟨header, sequence⟩ := found'
    rw [found] at headed
    unfold heldUnder
    by_cases many : settings.totalSlots < header.chunks.value
    · refine ⟨middle, .bind headed (.get_bind (fun _ => rfl) ?_), calmed⟩
      simp only [calmed.settings, many, if_true]
      exact .refuse _ _
    · obtain ⟨after, drawn, calm⟩ := calmed.chunksFrom serving inTime header.chunks sequence
        header.chunks.value.toNat 0 fun position _ within =>
          covers.chunks header sequence found (not_lt.mp many) position (by omega)
      refine ⟨after, .bind headed (.get_bind (fun _ => rfl) ?_), calm⟩
      simp only [calmed.settings, many, if_false]
      cases drawing : heldChunks stored owner operation header.chunks sequence
        header.chunks.value.toNat 0 with
      | error error => exact .of_told (drawing ▸ drawn) rfl
      | ok chunks =>
        rw [drawing] at drawn
        refine .bind drawn ?_
        exact .accept _ _

/-- The records that are fetched one after the other are those that are held, if all errors can be
told. -/
theorem Calm.inTurn (calm : world.Calm engine items good settings) {retries : Int}
    (tries : settings.headerRetries = some retries) (natural : 0 ≤ retries) {links : List Link}
    {operation : String}
    (covers : ∀ link ∈ links, Covers items stored settings.totalSlots link.owner operation)
    (batch : Batch) :
    ∃ after, Op.EndsIn (inTurnAfter operation batch links) world
      (batch.tell Error.hasLongInteger Error.message
        (fun link => held stored settings.totalSlots link.owner link.seed operation) links) after := by
  induction links generalizing world batch with
  | nil => exact ⟨world, Batch.tell_nil .. ▸ .pure _ _⟩
  | cons link rest ih =>
    obtain ⟨middle, fetched, calmed⟩ :=
      calm.record serving inTime tries natural (covers link (List.mem_cons_self ..)) link.seed
    unfold inTurnAfter
    cases long : isUntold Error.hasLongInteger
      (held stored settings.totalSlots link.owner link.seed operation) with
    | true =>
      rw [Batch.tell_of_long long]
      rw [told_of_isUntold long] at fetched
      exact ⟨middle, .bind_error fetched⟩
    | false =>
      rw [Batch.tell_of_short long]
      rw [told_of_not_isUntold long] at fetched
      obtain ⟨after, others⟩ := ih calmed
        (fun link member => covers link (List.mem_cons_of_mem _ member)) _
      exact ⟨after, .bind fetched others⟩

end World

end DhtRecords
