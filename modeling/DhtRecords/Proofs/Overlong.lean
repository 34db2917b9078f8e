/-
What fetches fail of.

A fetch fails of what disrupts its session, as everything does that calls an
engine. Besides, no header is looked up where it cannot be told how often, and no
error is told that has an integer with too many digits (`Halted`). A header that is
read declares none, so such an integer is the limit of chunks or a sequence number
that was heard (`Overlong`).
-/

import DhtRecords.Proofs.HeaderLanguage
import DhtRecords.Proofs.Outcomes
import DhtRecords.Proofs.Untorn

namespace DhtRecords

open World Op

/-! ### Records that are bound -/

/-- What is told of chunks in their places is not too long if the header and the limit are not. -/
theorem Record.long_of_defect {operation : String} {slots : Int} {header : Header} {chunks : List Chunk}
    {seed : Bytes} {sequence : Int} {defect : Defect} (placed : InPlace operation 0 chunks)
    (declared : header.chunks.isTooLong = false) (sized : header.size.isTooLong = false)
    (found : (assemble operation slots header chunks seed sequence).defect = some defect)
    (long : defect.hasLongInteger = true) : Decimal.isTooLong slots = true := by
  have none := misplaced?_eq_none_iff.mpr placed
  dsimp only [assemble, findDefect] at found
  split at found
  · cases found
    cases long
  split at found
  · cases found
    simpa [Defect.hasLongInteger, declared] using long
  split at found
  · cases found
    exact absurd long (by simp [Defect.hasLongInteger, declared])
  rw [none] at found
  dsimp only [payloadDefect?] at found
  split at found
  · cases found
    exact absurd long (by simp [Defect.hasLongInteger, sized])
  split at found
  · cases found
    cases long
  · cases found

namespace Fetch

variable {τ ν : Type} [Quantity τ] [Overlay τ ν]

section

variable {operation : String} {world after : World τ ν}

theorem inPlace_of_chunksFrom {owner : Bytes} {total : Whole} {sequence : Int} {left position : Nat}
    {chunks : List Chunk} (run : (chunksFrom owner operation total sequence left position).run world
      = (.ok (.ok chunks), after)) : Record.InPlace operation position chunks := by
  induction left generalizing position world chunks with
  | zero =>
    cases run
    exact nofun
  | succ left ih =>
    rw [chunksFrom, run_bind_ok (run_get world)] at run
    obtain ⟨answer, asked, -, run⟩ := run_bind_eq_ok run
    split at run
    · cases run
    split at run
    · exact (not_ok_of_refuse run).elim
    obtain ⟨rest, later, others, run⟩ := run_bind_eq_ok run
    split at run
    · cases run
    · cases run
      exact Record.inPlace_cons.mpr ⟨rfl, rfl, ih others⟩

theorem inPlace_of_drainFrom {peer : Resolved} {left position : Nat} {chunks : List Chunk}
    (run : (drainFrom peer operation left position).run world = (.ok (.ok chunks), after)) :
    Record.InPlace operation position chunks := by
  induction left generalizing position world chunks with
  | zero =>
    cases run
    exact nofun
  | succ left ih =>
    rw [drainFrom] at run
    obtain ⟨chunk, drained, -, run⟩ := run_bind_eq_ok run
    split at run
    · cases run
    obtain ⟨rest, later, others, run⟩ := run_bind_eq_ok run
    split at run
    · cases run
    · cases run
      exact Record.inPlace_cons.mpr ⟨rfl, rfl, ih others⟩

end

/-! ### What fetches may be blamed for -/

/-- Whether there is something that has too many digits to be told: the limit of chunks, or a sequence number
that was heard from one world to a later one. -/
def Overlong (before after : World τ ν) : Prop :=
  Decimal.isTooLong before.settings.totalSlots = true ∨ ∃ owner salt value sequence final,
    .result owner salt value sequence final ∈ before.heard after ∧ Decimal.isTooLong sequence = true

/-- Whether a failure is one that a fetch may end with. -/
inductive Halted (before after : World τ ν) : Failure → Prop
  | disrupted {failure : Failure} : Disrupted before after failure → Halted before after failure
  | retries : before.settings.headerRetries = none → Halted before after .mistypedSetting
  | overlong : Overlong before after → Halted before after .tooLong

section

variable {start world after : World τ ν}

omit [Quantity τ] [Overlay τ ν] in
theorem Overlong.mono (overlong : Overlong start world) (begun : Gathers start world)
    (late : Gathers world after) : Overlong start after := by
  rcases overlong with limit | ⟨owner, salt, value, sequence, final, heard, long⟩
  · exact .inl limit
  · exact .inr ⟨owner, salt, value, sequence, final,
      Mutable.heard_mono begun.journal late.journal heard, long⟩

omit [Quantity τ] [Overlay τ ν] in
theorem overlong_of_reported {owner content : Bytes} {salt : String} {sequence : Int}
    (reported : Reported start world owner salt content sequence)
    (long : Decimal.isTooLong sequence = true) : Overlong start world := by
  obtain ⟨owner', salt', final, heard, -⟩ := reported
  exact .inr ⟨owner', salt', content, sequence, final, heard, long⟩

end

end Fetch

/-- What disrupts a session may halt a fetch. -/
theorem Blames.halt {τ ν α : Type} [Overlay τ ν] {start : World τ ν} {ending : Except Failure α × World τ ν}
    (blames : Blames Disrupted start ending) : Blames Fetch.Halted start ending :=
  blames.imp fun _ _ => .disrupted

namespace Fetch

variable {τ ν : Type} [Quantity τ] [Overlay τ ν] {start world : World τ ν}

omit [Quantity τ] in
theorem blames_refuse {α : Type} {error : Error} (begun : Gathers start world)
    (overlong : error.hasLongInteger = true → Overlong start world) :
    Blames Halted start ((refuse error : Op τ ν (Except Error α)).run world) := by
  unfold refuse
  cases long : error.hasLongInteger with
  | true => exact .throw begun (.overlong (overlong long))
  | false => exact .pure begun

omit [Quantity τ] in
/-- What is bound of chunks in their places is told, unless the limit is too long. -/
theorem blames_accept {operation : String} {header : Header} {chunks : List Chunk} {seed : Bytes}
    {sequence : Int} {raw : Bytes} (decoded : Header.decode? raw = some header)
    (placed : Record.InPlace operation 0 chunks) (begun : Gathers start world) :
    Blames Halted start
      ((accept (Record.assemble operation start.settings.totalSlots header chunks seed sequence)).run
        world) := by
  obtain ⟨declared, sized⟩ := Header.short_of_decode? decoded
  unfold accept
  split
  · exact .pure begun
  · next defect found =>
    exact blames_refuse begun fun long =>
      .inl (Record.long_of_defect placed declared sized found long)

theorem blames_headerWithin (owner : Bytes) (salt : String) (attempts : Nat) (kind : ErrorKind)
    (begun : Gathers start world) :
    Blames Disrupted start ((headerWithin owner salt attempts kind).run world) := by
  induction attempts generalizing kind world with
  | zero => exact .pure begun
  | succ attempts ih =>
    unfold headerWithin
    refine .get_bind (.bind (Get.blames_lookup owner salt _ false begun) fun found middle begun => ?_)
    split
    · split
      · exact .pure begun
      · exact ih _ begun
    · split
      · exact .pure begun
      · exact ih _ begun

theorem blames_header (owner : Bytes) (operation : String) (begun : Gathers start world) :
    Blames Halted start ((header owner operation).run world) := by
  unfold header
  refine .get_bind ?_
  split
  · next mistyped =>
    exact .throw begun (.retries (by rw [← begun.settings]; exact mistyped))
  · exact (blames_headerWithin owner _ _ _ begun).halt

/-- The failing of a fetch of chunks: the sequence number of the header was heard. -/
theorem blames_chunksFrom (owner : Bytes) (operation : String) (total : Whole) (sequence : Int)
    (left position : Nat) (begun : Gathers start world)
    (known : Decimal.isTooLong sequence = true → Overlong start world) :
    Blames Halted start ((chunksFrom owner operation total sequence left position).run world) := by
  induction left generalizing position world with
  | zero => exact .pure begun
  | succ left ih =>
    unfold chunksFrom
    refine .get_bind (.bind_run (Get.blames_lookup owner _ _ false begun).halt
      fun answer middle looked reached => ?_)
    have late := (Get.gathers_lookup owner _ _ _).of_run looked
    split
    · exact .pure reached
    · next found =>
      split
      · refine blames_refuse reached fun long => ?_
        rw [Error.hasLongInteger, Bool.or_eq_true] at long
        rcases long with own | declared
        · exact overlong_of_reported ((Get.reported_of_lookup looked).mono begun late (.refl middle)) own
        · exact (known declared).mono begun late
      · refine .bind (ih _ reached fun declared => (known declared).mono begun late)
          fun rest middle begun => ?_
        split
        · exact .pure begun
        · exact .pure begun

theorem blames_record (owner seed : Bytes) (operation : String) (begun : Gathers start world) :
    Blames Halted start ((record owner seed operation).run world) := by
  unfold record
  refine .bind_run (blames_header owner operation begun) fun found middle headed reached => ?_
  split
  · exact .pure reached
  · next head sequence =>
    obtain ⟨content, reported, decoded⟩ := reported_of_header headed
    have late := (gathers_header owner operation).of_run headed
    refine .get_bind ?_
    dsimp only
    rw [reached.settings]
    split
    · refine blames_refuse reached fun long => .inl ?_
      simpa [Error.hasLongInteger, (Header.short_of_decode? decoded).1] using long
    · refine .bind_run (blames_chunksFrom owner operation _ _ _ _ reached fun long =>
        overlong_of_reported (reported.mono begun late (.refl middle)) long)
        fun chunks collected collecting begun => ?_
      split
      · exact .pure begun
      · exact blames_accept decoded (inPlace_of_chunksFrom collecting) begun

theorem blames_inTurnAfter (operation : String) (batch : Batch) (links : List Link)
    (begun : Gathers start world) :
    Blames Halted start ((inTurnAfter operation batch links).run world) := by
  induction links generalizing batch world with
  | nil => exact .pure begun
  | cons link rest ih =>
    exact .bind (blames_record link.owner link.seed operation begun) fun outcome middle begun =>
      ih _ begun

/-! ### Pipelined fetches -/

theorem blames_pace (first : Bool) (pause : τ) (begun : Gathers start world) :
    Blames Disrupted start ((pace first pause : Op τ ν Unit).run world) := by
  unfold pace
  split
  · exact .pure begun
  · exact .modify begun (upkeep_sleep pause world).continues.gathers

theorem blames_fireHeaders (salt : String) (first : Bool) (batch : Batch) (links : List Link)
    (begun : Gathers start world) :
    Blames Disrupted start ((fireHeaders salt first batch links).run world) := by
  induction links generalizing first batch world with
  | nil => exact .pure begun
  | cons link rest ih =>
    unfold fireHeaders
    refine .get_bind (.bind (blames_pace first _ begun) fun _ middle begun =>
      .bind (.modify begun (.forget link.owner salt _)) fun _ middle begun =>
        .bind (Get.blames_fire link.owner salt begun) fun fired middle begun => ?_)
    split
    · exact ih _ _ begun
    · exact .bind (ih _ _ begun) fun _ _ begun => .pure begun

theorem blames_fireChunks (first : Bool) (items : List (Bytes × String))
    (begun : Gathers start world) :
    Blames Disrupted start ((fireChunks first items : Op τ ν Unit).run world) := by
  induction items generalizing first world with
  | nil => exact .pure begun
  | cons item rest ih =>
    unfold fireChunks
    exact .get_bind (.bind (blames_pace first _ begun) fun _ middle begun =>
      .bind (.modify begun (.forget item.1 item.2 _)) fun _ middle begun =>
        .bind (Get.blames_fire item.1 item.2 begun) fun _ middle begun => ih _ begun)

theorem blames_drainChunk (peer : Resolved) (salt : String) (begun : Gathers start world)
    (known : Decimal.isTooLong peer.sequence = true → Overlong start world) :
    Blames Halted start ((drainChunk peer salt).run world) := by
  unfold drainChunk
  refine .get_bind ?_
  dsimp only
  split
  · exact .pure begun
  refine .get_bind (.bind_run (Get.blames_lookup _ salt _ false begun).halt
    fun answer middle looked reached => ?_)
  have late := (Get.gathers_lookup _ salt _ _).of_run looked
  split
  · exact .pure reached
  split
  · refine .bind (blames_refuse reached fun long => ?_) fun _ _ begun => .pure begun
    rw [Error.hasLongInteger, Bool.or_eq_true] at long
    rcases long with own | declared
    · exact overlong_of_reported ((Get.reported_of_lookup looked).mono begun late (.refl middle)) own
    · exact (known declared).mono begun late
  · exact .pure reached

theorem blames_drainFrom (peer : Resolved) (operation : String) (left position : Nat)
    (begun : Gathers start world)
    (known : Decimal.isTooLong peer.sequence = true → Overlong start world) :
    Blames Halted start ((drainFrom peer operation left position).run world) := by
  induction left generalizing position world with
  | zero => exact .pure begun
  | succ left ih =>
    unfold drainFrom
    refine .bind_run (blames_drainChunk peer _ begun known) fun chunk middle draining reached => ?_
    have late := (gathers_drainChunk peer _).of_run draining
    split
    · exact .pure reached
    refine .bind (ih _ reached fun long => (known long).mono begun late) fun rest middle begun => ?_
    split
    · exact .pure begun
    · exact .pure begun

/-- Whether an owner's header was read, and its sequence number was heard if it is too long. -/
structure Heeded (start world : World τ ν) (peer : Resolved) : Prop where
  decoded : ∃ raw, Header.decode? raw = some peer.header
  known : Decimal.isTooLong peer.sequence = true → Overlong start world

theorem blames_drain {peer : Resolved} (operation : String) (begun : Gathers start world)
    (heeded : Heeded start world peer) :
    Blames Halted start ((drain peer operation).run world) := by
  obtain ⟨raw, decoded⟩ := heeded.decoded
  unfold drain
  refine .bind_run (blames_drainFrom peer operation _ _ begun heeded.known)
    fun chunks middle draining begun => ?_
  split
  · exact .pure begun
  · refine .get_bind ?_
    rw [begun.settings]
    exact .bind (blames_accept decoded (inPlace_of_drainFrom draining) begun) fun _ _ begun =>
      .pure begun

theorem blames_drainAll (operation : String) (batch : Batch) {peers : List Resolved}
    (begun : Gathers start world) (heeded : ∀ peer ∈ peers, Heeded start world peer) :
    Blames Halted start ((drainAll operation batch peers).run world) := by
  induction peers generalizing batch world with
  | nil => exact .pure begun
  | cons peer rest ih =>
    refine .bind_run (blames_drain operation begun (heeded peer List.mem_cons_self))
      fun outcome middle draining reached => ih _ reached fun other member => ?_
    obtain ⟨decoded, known⟩ := heeded other (List.mem_cons_of_mem _ member)
    exact ⟨decoded, fun long => (known long).mono begun ((gathers_drain peer operation).of_run draining)⟩

theorem blames_pipelined (links : List Link) (operation : String) (begun : Gathers start world) :
    Blames Halted start ((pipelined links operation).run world) := by
  unfold pipelined
  refine .bind_run (blames_fireHeaders _ true {} links begun).halt fun fired asked firing reached =>
    .get_bind ?_
  obtain ⟨-, -, fresh⟩ := fresh_of_fireHeaders firing
  refine .bind_run (.modifyGet reached (Get.continues_waitForAll _ _ _).gathers)
    fun _ waited waiting settled => .get_bind ?_
  have headed : Gathers asked waited := by
    obtain ⟨-, rfl⟩ := Prod.mk.inj waiting
    exact (Get.continues_waitForAll _ _ _).gathers
  rcases resolution : resolveAll (headerSalt operation) waited fired.2 fired.1 with ⟨resolved, batch⟩
  obtain ⟨sub, -, resolves⟩ := resolveAll_cases resolution
  have heeded : ∀ peer ∈ resolved, Heeded start waited peer := by
    intro peer member
    obtain ⟨content, reported, decoded⟩ := reported_of_resolve
      ((fresh peer.link (sub.mem (List.mem_map_of_mem member))).trans headed) (resolves peer member)
    refine ⟨⟨content, decoded⟩, fun long => overlong_of_reported (reported.mono begun ?_ (.refl waited)) long⟩
    exact ((gathers_fireHeaders _ _ _ links).of_run firing).trans headed
  refine .bind_run (blames_fireChunks true _ settled).halt fun _ chunked firing reached => .get_bind ?_
  refine .bind_run (.modifyGet reached (Get.continues_waitForAll _ _ _).gathers)
    fun _ complete waiting begun => blames_drainAll operation batch begun fun peer member => ?_
  obtain ⟨decoded, known⟩ := heeded peer member
  refine ⟨decoded, fun long => (known long).mono settled (.trans ((gathers_fireChunks _ _).of_run firing) ?_)⟩
  obtain ⟨-, rfl⟩ := Prod.mk.inj waiting
  exact (Get.continues_waitForAll _ _ _).gathers

end Fetch

end DhtRecords
