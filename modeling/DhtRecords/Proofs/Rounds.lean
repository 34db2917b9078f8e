/-
Which items fetches of several records have engines look up.

A pipelined fetch works in rounds (`pipelined_eq`): all headers are looked up,
then all chunks of the headers that have come, and at last once more those
chunks that have not come, or not under the sequence number of their header.
`Rounds` says what is looked up in each of them. Whatever a header declares, the
lookups of its owner are bounded by the retries and the slots that are set
(`Rounds.bounded`).
-/

import DhtRecords.Proofs.Lookups

namespace DhtRecords.Fetch

open World Op

variable {τ ν : Type} [Quantity τ] [Overlay τ ν]

/-! ### The rounds of a pipelined fetch -/

/-- The first round: headers are looked up and waited for. Gives the owners that were asked for theirs. -/
def headerRound (operation : String) (links : List Link) : Op τ ν (List Link × Batch) := do
  let (issued, batch) ← fireHeaders (headerSalt operation) true {} links
  let _ ← modifyGet <| Get.waitForAll
    (issued.map fun link => infoHash link.owner (headerSalt operation)) (← get).settings.headerSettle
  return (issued, batch)

/-- The second round: chunks are looked up and waited for. -/
def chunkRound (items : List (Bytes × String)) : Op τ ν Unit := do
  fireChunks true items
  let _ ← modifyGet <|
    Get.waitForAll (items.map fun (owner, salt) => infoHash owner salt) (← get).settings.chunkSettle
  return ()

/-- A pipelined fetch is made up of the two rounds, after which what has come is taken. -/
theorem pipelined_eq (links : List Link) (operation : String) :
    (pipelined links operation : Op τ ν Batch) = (do
      let (issued, batch) ← headerRound operation links
      let (resolved, batch) := resolveAll (headerSalt operation) (← get) batch issued
      chunkRound (chunkItems operation resolved)
      drainAll operation batch resolved) := by
  simp [pipelined, headerRound, chunkRound]

/-- The chunks of all resolved owners, each by its owner and position. -/
def places (resolved : List Resolved) : List (Resolved × Nat) :=
  resolved.flatMap fun peer => (List.range peer.header.chunks.value.toNat).map (Prod.mk peer)

/-- The item of a chunk. -/
def placeName (operation : String) (place : Resolved × Nat) : Bytes × String :=
  (place.1.link.owner, chunkSalt operation place.2)

theorem chunkItems_eq (operation : String) (resolved : List Resolved) :
    chunkItems operation resolved = (places resolved).map (placeName operation) := by
  simp [chunkItems, places, placeName, List.map_flatMap, Function.comp_def]

/-! ### What is looked up in a round -/

/-- Whether a program looks up no more than some of these items, each once and in this order. -/
def Draws {α : Type} (items : List (Bytes × String)) (program : Op τ ν α) : Prop :=
  ∀ world, ∃ asked, asked.Sublist items ∧ Asks asked world (program.run world).2

namespace Draws

variable {α β : Type} {items late : List (Bytes × String)}

omit [Quantity τ] [Overlay τ ν]

theorem of_run {program : Op τ ν α} (draws : Draws items program) {before after : World τ ν}
    {outcome : Except Failure α} (run : program.run before = (outcome, after)) :
    ∃ asked, asked.Sublist items ∧ Asks asked before after := by
  have drawn := draws before
  rwa [run] at drawn

theorem of_keeps {program : Op τ ν α} (keeps : Keeps (Asks []) program) : Draws [] program :=
  fun world => ⟨[], List.Sublist.refl _, keeps world⟩

theorem get_bind {next : World τ ν → Op τ ν β} (rest : ∀ world, Draws items (next world)) :
    Draws items (get >>= next) :=
  fun world => rest world world

theorem bind {program : Op τ ν α} {next : α → Op τ ν β} (first : Draws items program)
    (rest : ∀ result, Draws late (next result)) : Draws (items ++ late) (program >>= next) := by
  intro world
  obtain ⟨asked, sub, asks⟩ := first world
  rw [run_bind]
  split
  · next result middle run =>
    rw [run] at asks
    obtain ⟨others, subLate, asksLate⟩ := rest result middle
    exact ⟨asked ++ others, sub.append subLate, asks.trans asksLate⟩
  · next failure middle run =>
    rw [run] at asks
    exact ⟨asked, sub.trans (List.sublist_append_left _ _), asks⟩

/-- A step without lookups comes first. -/
theorem after_keeps {program : Op τ ν α} {next : α → Op τ ν β} (first : Keeps (Asks []) program)
    (rest : ∀ result, Draws items (next result)) : Draws items (program >>= next) :=
  bind (of_keeps first) rest

/-- A step without lookups comes last. -/
theorem before_keeps {program : Op τ ν α} {next : α → Op τ ν β} (first : Draws items program)
    (rest : ∀ result, Keeps (Asks []) (next result)) : Draws items (program >>= next) := by
  have both := bind first fun result => of_keeps (rest result)
  rwa [List.append_nil] at both

end Draws

theorem draws_fire (owner : Bytes) (salt : String) :
    Draws [(owner, salt)] (Get.fire owner salt : Op τ ν (Except (Get.Error τ) Unit)) := by
  intro world
  rcases Get.fire_asks (Prod.eta _ : (Get.fire owner salt).run world = _) with ⟨-, silent, -⟩ | asked
  · exact ⟨[], List.nil_sublist _, silent⟩
  · exact ⟨_, List.Sublist.refl _, asked⟩

theorem asks_pace (first : Bool) (pause : τ) : Keeps (Asks []) (pace first pause : Op τ ν Unit) := by
  unfold pace
  split
  · exact .pure ()
  · exact .modify fun world => (World.upkeep_sleep pause world).asks

omit [Quantity τ] [Overlay τ ν] in
theorem asks_forget (owner : Bytes) (salt : String) :
    Keeps (Asks []) (modify (Get.forget owner salt) : Op τ ν PUnit) :=
  .modify fun _ => .of_journal rfl

theorem asks_waitForAll (keys : List String) (timeout : τ) :
    Keeps (Asks []) (modifyGet (Get.waitForAll keys timeout) : Op τ ν Bool) := by
  refine .modifyGet fun world => ?_
  unfold Get.waitForAll
  split
  · exact .of_journal rfl
  · exact (World.upkeep_run _ _ world).asks

theorem draws_fireHeaders (salt : String) (first : Bool) (batch : Batch) (links : List Link) :
    Draws (links.map fun link => (link.owner, salt))
      (fireHeaders salt first batch links : Op τ ν (List Link × Batch)) := by
  induction links generalizing first batch with
  | nil => exact .of_keeps (.pure _)
  | cons link rest ih =>
    refine .get_bind fun world => .after_keeps (asks_pace first _) fun _ =>
      .after_keeps (asks_forget _ _) fun _ => .bind (draws_fire link.owner salt) fun fired => ?_
    split
    · exact ih _ _
    · exact .before_keeps (ih _ _) fun _ => .pure _

theorem draws_headerRound (operation : String) (links : List Link) :
    Draws (links.map fun link => (link.owner, headerSalt operation))
      (headerRound operation links : Op τ ν (List Link × Batch)) :=
  .before_keeps (draws_fireHeaders _ _ _ _) fun _ =>
    .get_bind fun _ => .bind (asks_waitForAll _ _) fun _ => .pure _

theorem draws_fireChunks (first : Bool) (items : List (Bytes × String)) :
    Draws items (fireChunks first items : Op τ ν Unit) := by
  induction items generalizing first with
  | nil => exact .of_keeps (.pure ())
  | cons item rest ih =>
    exact .get_bind fun world => .after_keeps (asks_pace first _) fun _ =>
      .after_keeps (asks_forget _ _) fun _ => .bind (draws_fire item.1 item.2) fun _ => ih _

theorem draws_chunkRound (items : List (Bytes × String)) :
    Draws items (chunkRound items : Op τ ν Unit) :=
  .before_keeps (draws_fireChunks _ _) fun _ =>
    .get_bind fun _ => .bind (asks_waitForAll _ _) fun _ => .pure _

/-! ### Chunks that are looked up once more -/

/-- Whether nothing has come of an owner's item, or nothing under the sequence number of the header. -/
def Lacks (peer : Resolved) (salt : String) (world : World τ ν) : Prop :=
  ∀ result, Get.peek peer.link.owner salt world = some result → result.sequence ≠ peer.sequence

/-- Whether it is the turn of a chunk, all that come before it having been taken, and it is lacking. -/
inductive Wanting (operation : String) (batch : Batch) (resolved : List Resolved) (start : World τ ν) :
    Resolved × Nat → Prop
  | intro {early late : List Resolved} {peer : Resolved} {position : Nat} {batch' : Batch}
      {chunks : List Chunk} {middle there : World τ ν} :
    resolved = early ++ peer :: late →
    (drainAll operation batch early).run start = (.ok batch', middle) →
    (drainFrom peer operation position 0).run middle = (.ok (.ok chunks), there) →
    Lacks peer (chunkSalt operation position) there →
    Wanting operation batch resolved start (peer, position)

section

variable {peer : Resolved} {operation salt : String} {before middle after : World τ ν}

/-- A chunk is looked up once more only if it is lacking. -/
theorem drainChunk_asks {outcome : Except Failure (Except String Bytes)}
    (run : (drainChunk peer salt).run before = (outcome, after)) :
    Asks [] before after ∨ Lacks peer salt before ∧ Asks [(peer.link.owner, salt)] before after := by
  rw [drainChunk, run_bind_ok (run_get before)] at run
  dsimp only at run
  split at run
  · cases run
    exact .inl (.of_journal rfl)
  · next unfitting =>
    have lacks : Lacks peer salt before := by
      intro result held same
      rw [held, Option.filter_some, if_pos (decide_eq_true same)] at unfitting
      cases unfitting
    rw [run_bind_ok (run_get before), run_bind] at run
    rcases looked : (Get.lookup peer.link.owner salt before.settings.fetchTimeout false).run before with
      ⟨answer, asked⟩
    have last : asked = after := by
      rw [looked] at run
      rcases answer with failure | error | found
      · exact (Prod.mk.inj run).2
      · exact (Prod.mk.inj run).2
      · dsimp only at run
        split at run
        · rw [run_map, run_refuse] at run
          exact (Prod.mk.inj run).2
        · exact (Prod.mk.inj run).2
    subst last
    rcases Get.lookup_asks looked with ⟨-, silent, -⟩ | asks
    · exact .inl silent
    · exact .inr ⟨lacks, asks⟩

theorem drainFrom_of_chunk {position count : Nat} {content : Bytes} {chunks : List Chunk}
    (first : (drainChunk peer (chunkSalt operation position)).run before = (.ok (.ok content), middle))
    (rest : (drainFrom peer operation count (position + 1)).run middle = (.ok (.ok chunks), after)) :
    ∃ chunks, (drainFrom peer operation (count + 1) position).run before =
      (.ok (.ok chunks), after) := by
  rw [drainFrom, run_bind_ok first]
  dsimp only
  rw [run_bind_ok rest]
  exact ⟨_, rfl⟩

/-- The chunks of an owner that are looked up once more, by how far they are from a position. -/
theorem drainFrom_asks {left position : Nat} {outcome : Except Failure (Except String (List Chunk))}
    (run : (drainFrom peer operation left position).run before = (outcome, after)) :
    ∃ offsets : List Nat, offsets.Sublist (List.range left) ∧
      Asks (offsets.map fun offset => (peer.link.owner, chunkSalt operation (position + offset : Nat)))
        before after ∧
      ∀ offset ∈ offsets, ∃ chunks there,
        (drainFrom peer operation offset position).run before = (.ok (.ok chunks), there) ∧
          Lacks peer (chunkSalt operation (position + offset : Nat)) there := by
  induction left generalizing position before after outcome with
  | zero =>
    cases run
    exact ⟨[], List.Sublist.refl _, .of_journal rfl, by simp⟩
  | succ left ih =>
    rcases draining : (drainChunk peer (chunkSalt operation position)).run before with ⟨answer, middle⟩
    rw [drainFrom, run_bind, draining] at run
    -- The first chunk is at offset zero.
    obtain ⟨first, subFirst, asksFirst, lacks⟩ : ∃ first : List Nat, first.Sublist [0] ∧
        Asks (first.map fun offset => (peer.link.owner, chunkSalt operation (position + offset : Nat)))
          before middle ∧ (first ≠ [] → Lacks peer (chunkSalt operation position) before) := by
      rcases drainChunk_asks draining with silent | ⟨lacks, asked⟩
      · exact ⟨[], List.nil_sublist _, silent, absurd rfl⟩
      · exact ⟨[0], List.Sublist.refl _, asked, fun _ => lacks⟩
    have firstLacks : ∀ offset ∈ first, ∃ chunks there,
        (drainFrom peer operation offset position).run before = (.ok (.ok chunks), there) ∧
          Lacks peer (chunkSalt operation (position + offset : Nat)) there := by
      intro offset member
      obtain rfl := List.mem_singleton.mp (subFirst.mem member)
      exact ⟨[], before, rfl, lacks (List.ne_nil_of_mem member)⟩
    have range : List.range (left + 1) = [0] ++ (List.range left).map Nat.succ :=
      List.range_succ_eq_map
    have within : first.Sublist (List.range (left + 1)) :=
      range ▸ subFirst.trans (List.sublist_append_left _ _)
    rcases answer with failure | message | content
    · obtain ⟨rfl, rfl⟩ := Prod.mk.inj run
      exact ⟨first, within, asksFirst, firstLacks⟩
    · obtain ⟨rfl, rfl⟩ := Prod.mk.inj run
      exact ⟨first, within, asksFirst, firstLacks⟩
    dsimp only at run
    rw [run_bind] at run
    rcases others : (drainFrom peer operation left (position + 1)).run middle with ⟨taken, last⟩
    have ended : last = after := by
      rw [others] at run
      rcases taken with failure | message | chunks <;> exact (Prod.mk.inj run).2
    subst ended
    obtain ⟨offsets, sub, asks, reached⟩ := ih others
    have shift (offset : Nat) : position + 1 + offset = position + (offset + 1) := by omega
    refine ⟨first ++ offsets.map Nat.succ, ?_, ?_, ?_⟩
    · rw [range]
      exact subFirst.append (sub.map Nat.succ)
    · rw [List.map_append, List.map_map]
      simp only [shift] at asks
      exact asksFirst.trans asks
    · intro offset member
      rcases List.mem_append.mp member with member | member
      · exact firstLacks offset member
      · obtain ⟨earlier, place, rfl⟩ := List.mem_map.mp member
        obtain ⟨chunks, there, rest, lacks⟩ := reached earlier place
        obtain ⟨chunks, run⟩ := drainFrom_of_chunk draining rest
        rw [shift] at lacks
        exact ⟨chunks, there, run, lacks⟩

/-- Putting a record together looks nothing up. -/
theorem drain_run {outcome : Except Failure (Except String Record)}
    (run : (drain peer operation).run before = (outcome, after)) :
    ∃ taken, (drainFrom peer operation peer.header.chunks.value.toNat 0).run before = (taken, after) := by
  rw [drain, run_bind] at run
  rcases draining : (drainFrom peer operation peer.header.chunks.value.toNat 0).run before with
    ⟨taken, last⟩
  rw [draining] at run
  rcases taken with failure | message | chunks
  · exact ⟨_, by rw [(Prod.mk.inj run).2]⟩
  · exact ⟨_, by rw [(Prod.mk.inj run).2]⟩
  · dsimp only at run
    rw [run_bind_ok (run_get last), run_map, run_accept] at run
    obtain ⟨-, rfl⟩ := Prod.mk.inj run
    exact ⟨_, rfl⟩

/-- It is also a chunk's turn if one more owner comes first. -/
theorem Wanting.cons {batch : Batch} {rest : List Resolved} {outcome : Except String Record}
    {place : Resolved × Nat}
    (drained : (drain peer operation).run before = (.ok outcome, middle))
    (wanting : Wanting operation (batch.add peer.link outcome) rest middle place) :
    Wanting operation batch (peer :: rest) before place := by
  obtain ⟨rfl, earlier, turn, lacks⟩ := wanting
  have later : (drainAll operation batch (peer :: _)).run before = _ :=
    (run_bind_ok drained).trans earlier
  exact .intro rfl later turn lacks

/-- What is looked up once more of all resolved owners. -/
theorem drainAll_asks {batch : Batch} {resolved : List Resolved} {outcome : Except Failure Batch}
    (run : (drainAll operation batch resolved).run before = (outcome, after)) :
    ∃ again : List (Resolved × Nat), again.Sublist (places resolved) ∧
      Asks (again.map (placeName operation)) before after ∧
      ∀ place ∈ again, Wanting operation batch resolved before place := by
  induction resolved generalizing batch before after outcome with
  | nil =>
    cases run
    exact ⟨[], List.Sublist.refl _, .of_journal rfl, by simp⟩
  | cons peer rest ih =>
    rw [drainAll, run_bind] at run
    rcases draining : (drain peer operation).run before with ⟨drained, middle⟩
    obtain ⟨taken, took⟩ := drain_run draining
    obtain ⟨offsets, sub, asks, reached⟩ := drainFrom_asks took
    have own : (offsets.map (Prod.mk peer)).Sublist
        ((List.range peer.header.chunks.value.toNat).map (Prod.mk peer)) := sub.map _
    have asksOwn : Asks ((offsets.map (Prod.mk peer)).map (placeName operation)) before middle := by
      simpa only [Nat.zero_add, List.map_map, Function.comp_def, placeName] using asks
    have first : ∀ place ∈ offsets.map (Prod.mk peer),
        Wanting operation batch (peer :: rest) before place := by
      intro place member
      obtain ⟨offset, turned, rfl⟩ := List.mem_map.mp member
      obtain ⟨chunks, there, turn, lacks⟩ := reached offset turned
      rw [Nat.zero_add] at lacks
      exact .intro (List.nil_append _).symm rfl turn lacks
    rw [draining] at run
    rcases drained with failure | outcome
    · obtain ⟨rfl, rfl⟩ := Prod.mk.inj run
      exact ⟨offsets.map (Prod.mk peer), own.trans (List.sublist_append_left _ _), asksOwn, first⟩
    · obtain ⟨again, subRest, asksRest, wanting⟩ := ih run
      refine ⟨offsets.map (Prod.mk peer) ++ again, own.append subRest, ?_, ?_⟩
      · rw [List.map_append]
        exact asksOwn.trans asksRest
      · intro place member
        rcases List.mem_append.mp member with member | member
        · exact first place member
        · exact (wanting place member).cons draining

end

/-! ### All rounds -/

/-- Whether the header that has come for an owner in the first round is accepted: it declares no more
chunks than there are slots. -/
def Accepted (operation : String) (links : List Link) (before : World τ ν) (peer : Resolved) : Prop :=
  ∃ issued settled, (headerRound operation links).run before = (.ok issued, settled) ∧
    ∃ result, Get.peek peer.link.owner (headerSalt operation) settled = some result ∧
      Header.decode? result.value = some peer.header ∧ result.sequence = peer.sequence ∧
      peer.header.chunks.value ≤ before.settings.totalSlots

/-- Whether the second round has ended in a world, with the owners that were resolved after the first. -/
inductive Settled (operation : String) (links : List Link) (before : World τ ν) (batch : Batch)
    (resolved : List Resolved) (start : World τ ν) : Prop
  | intro {issued : List Link} {batch' : Batch} {settled : World τ ν} :
    (headerRound operation links).run before = (.ok (issued, batch'), settled) →
    resolveAll (headerSalt operation) settled batch' issued = (resolved, batch) →
    (chunkRound (chunkItems operation resolved)).run settled = (.ok (), start) →
    Settled operation links before batch resolved start

/-- What is looked up in the rounds of a pipelined fetch. -/
structure Rounds (operation : String) (links : List Link) (before after : World τ ν)
    (headed : List Link) (resolved : List Resolved) (fired : List (Bytes × String))
    (again : List (Resolved × Nat)) : Prop where
  asks : Asks (headed.map (fun link => (link.owner, headerSalt operation)) ++ fired ++
    again.map (placeName operation)) before after
  /-- Each link has its header looked up once at most. -/
  headers : headed.Sublist links
  /-- Chunks are looked up of links with accepted headers only, -/
  owners : (resolved.map Resolved.link).Sublist links
  accepted : ∀ peer ∈ resolved, Accepted operation links before peer
  /-- each of them once at most, -/
  chunks : fired.Sublist (chunkItems operation resolved)
  /-- and once more only if it is lacking when it is its turn. -/
  others : again.Sublist (places resolved)
  wanting : ∀ place ∈ again, ∃ batch start, Settled operation links before batch resolved start ∧
    Wanting operation batch resolved start place

omit [Quantity τ] [Overlay τ ν] in
theorem of_resolve {salt : String} {world : World τ ν} {peer : Resolved}
    (resolved : resolve salt world peer.link = .ok peer) :
    ∃ result, Get.peek peer.link.owner salt world = some result ∧
      Header.decode? result.value = some peer.header ∧ result.sequence = peer.sequence ∧
      peer.header.chunks.value ≤ world.settings.totalSlots := by
  unfold resolve at resolved
  split at resolved
  · cases resolved
  · next result held =>
    split at resolved
    · cases resolved
    · next header decoded =>
      split at resolved
      · cases resolved
      · next room =>
        have same : (⟨peer.link, header, result.sequence⟩ : Resolved) = peer :=
          Except.ok.inj resolved
        refine ⟨result, held, ?_, ?_, ?_⟩
        · rw [← same]
          exact decoded
        · rw [← same]
        · rw [← same]
          exact not_lt.mp room

theorem gathers_headerRound (operation : String) (links : List Link) :
    Keeps Gathers (headerRound operation links : Op τ ν (List Link × Batch)) :=
  .bind (gathers_fireHeaders _ _ _ _) fun _ => .get_bind fun _ =>
    .bind (.modifyGet fun world => (Get.continues_waitForAll _ _ world).gathers) fun _ => .pure _

/-- Only owners whose headers were looked up are waited for. -/
theorem sublist_of_headerRound {operation : String} {links issued : List Link} {batch : Batch}
    {before after : World τ ν}
    (run : (headerRound operation links).run before = (.ok (issued, batch), after)) :
    issued.Sublist links := by
  obtain ⟨⟨fired, batch'⟩, asked, firing, waiting⟩ := run_bind_eq_ok run
  rw [run_bind_ok (run_get asked), run_bind_ok (run_modifyGet _ asked)] at waiting
  cases waiting
  exact (fresh_of_fireHeaders firing).1

theorem rounds_pipelined {operation : String} {links : List Link} {before after : World τ ν}
    {outcome : Except Failure Batch}
    (run : (pipelined links operation).run before = (outcome, after)) :
    ∃ headed resolved fired again,
      Rounds operation links before after headed resolved fired again := by
  rw [pipelined_eq, run_bind] at run
  rcases heading : (headerRound operation links).run before with ⟨answer, settled⟩
  obtain ⟨asked, sub, asks⟩ := (draws_headerRound operation links).of_run heading
  obtain ⟨headed, headers, rfl⟩ := List.sublist_map_iff.mp sub
  rw [heading] at run
  rcases answer with failure | ⟨issued, batch'⟩
  · obtain ⟨rfl, rfl⟩ := Prod.mk.inj run
    refine ⟨headed, [], [], [], ?_, headers, List.nil_sublist _, nofun, List.Sublist.refl _,
      List.Sublist.refl _, nofun⟩
    simpa using asks
  dsimp only at run
  rw [run_bind_ok (run_get settled)] at run
  rcases resolution : resolveAll (headerSalt operation) settled batch' issued with ⟨resolved, batch⟩
  rw [resolution] at run
  obtain ⟨owners, -, resolves⟩ := resolveAll_cases resolution
  have settings := ((gathers_headerRound operation links).of_run heading).settings
  have accepted : ∀ peer ∈ resolved, Accepted operation links before peer := by
    intro peer member
    have header := of_resolve (resolves peer member)
    rw [settings] at header
    exact ⟨_, settled, heading, header⟩
  have issuedSub := sublist_of_headerRound heading
  dsimp only at run
  rw [run_bind] at run
  rcases collecting : (chunkRound (chunkItems operation resolved)).run settled with ⟨answer, start⟩
  obtain ⟨fired, chunks, asksChunks⟩ := (draws_chunkRound _).of_run collecting
  rw [collecting] at run
  rcases answer with failure | _
  · obtain ⟨rfl, rfl⟩ := Prod.mk.inj run
    refine ⟨headed, resolved, fired, [], ?_, headers, owners.trans issuedSub, accepted, chunks,
      List.nil_sublist _, nofun⟩
    simpa using asks.trans asksChunks
  · obtain ⟨again, others, asksAgain, wanting⟩ := drainAll_asks run
    exact ⟨headed, resolved, fired, again, (asks.trans asksChunks).trans asksAgain, headers,
      owners.trans issuedSub, accepted, chunks, others,
      fun place member => ⟨batch, start, ⟨heading, resolution, collecting⟩, wanting place member⟩⟩

/-! ### How much is looked up of an owner -/

/-- Whether an item is one of an owner. -/
def isOf (owner : Bytes) (item : Bytes × String) : Bool := item.1 = owner

/-- How many links have an owner. -/
def linksOf (owner : Bytes) (links : List Link) : Nat := links.countP fun link => link.owner = owner

section

omit [Quantity τ] [Overlay τ ν]

theorem linksOf_cons (owner : Bytes) (link : Link) (links : List Link) :
    linksOf owner (link :: links) = (if link.owner = owner then 1 else 0) + linksOf owner links := by
  simp only [linksOf, List.countP_cons, decide_eq_true_eq]
  omega

theorem linksOf_le {links others : List Link} (sub : others.Sublist links) (owner : Bytes) :
    linksOf owner others ≤ linksOf owner links :=
  sub.countP_le

/-- Items of one owner count for nobody else. -/
theorem countP_isOf_le {items : List (Bytes × String)} {other : Bytes} {bound : Nat}
    (own : ∀ item ∈ items, item.1 = other) (few : items.length ≤ bound) (owner : Bytes) :
    items.countP (isOf owner) ≤ (if other = owner then 1 else 0) * bound := by
  split
  · rw [Nat.one_mul]
    exact List.countP_le_length.trans few
  · next differs =>
    rw [Nat.zero_mul, Nat.le_zero, List.countP_eq_zero]
    intro item member
    simpa [isOf, own item member] using differs

/-- Of a resolved owner there are no more chunks than slots. -/
theorem countP_places {slots : Nat} {resolved : List Resolved}
    (room : ∀ peer ∈ resolved, peer.header.chunks.value.toNat ≤ slots) (operation : String)
    (owner : Bytes) :
    ((places resolved).map (placeName operation)).countP (isOf owner) ≤
      linksOf owner (resolved.map Resolved.link) * slots := by
  induction resolved with
  | nil => exact Nat.zero_le _
  | cons peer rest ih =>
    have others := ih fun other member => room other (List.mem_cons_of_mem _ member)
    have own := room peer List.mem_cons_self
    have first : (((List.range peer.header.chunks.value.toNat).map (Prod.mk peer)).map
        (placeName operation)).countP (isOf owner) ≤ (if peer.link.owner = owner then 1 else 0) * slots :=
      countP_isOf_le (by simp [placeName]) (by simpa using own) owner
    rw [places, List.flatMap_cons, List.map_append, List.countP_append, List.map_cons, linksOf_cons,
      Nat.add_mul]
    exact Nat.add_le_add first others

end

theorem Rounds.bounded {operation : String} {links headed : List Link} {before after : World τ ν}
    {resolved : List Resolved} {fired : List (Bytes × String)} {again : List (Resolved × Nat)}
    (rounds : Rounds operation links before after headed resolved fired again) (owner : Bytes) :
    (before.lookups after).countP (isOf owner) ≤
      linksOf owner links * (1 + 2 * before.settings.totalSlots.toNat) := by
  have room : ∀ peer ∈ resolved,
      peer.header.chunks.value.toNat ≤ before.settings.totalSlots.toNat := by
    intro peer member
    obtain ⟨-, -, -, -, -, -, -, room⟩ := rounds.accepted peer member
    exact Int.toNat_le_toNat room
  have perRound := (countP_places room operation owner).trans
    (Nat.mul_le_mul_right _ (linksOf_le rounds.owners owner))
  have headers : (headed.map fun link => (link.owner, headerSalt operation)).countP (isOf owner) ≤
      linksOf owner links := by
    rw [List.countP_map]
    exact linksOf_le rounds.headers owner
  have chunks := rounds.chunks.countP_le (p := isOf owner)
  have others := (rounds.others.map (placeName operation)).countP_le (p := isOf owner)
  rw [chunkItems_eq] at chunks
  rw [rounds.asks.lookups_eq, List.countP_append, List.countP_append, Nat.mul_add, Nat.mul_one,
    Nat.two_mul, Nat.mul_add, ← Nat.add_assoc]
  exact Nat.add_le_add (Nat.add_le_add headers (chunks.trans perRound)) (others.trans perRound)

/-- The items of a fetch of one record are all its owner's. -/
theorem owned_of_mem {owner : Bytes} {operation : String} {tries count : Nat}
    {item : Bytes × String}
    (member : item ∈ List.replicate tries (owner, headerSalt operation) ++
      chunkNames owner operation 0 count) : item.1 = owner := by
  rcases List.mem_append.mp member with member | member
  · rw [(List.mem_replicate.mp member).2]
  · obtain ⟨position, -, rfl⟩ := List.mem_map.mp member
    rfl

theorem inTurnAfter_bounded {operation : String} {batch : Batch} {links : List Link}
    {before after : World τ ν} {outcome : Except Failure Batch}
    (run : (inTurnAfter operation batch links).run before = (outcome, after)) :
    ∃ items, Asks items before after ∧ ∀ owner, items.countP (isOf owner) ≤
      linksOf owner links * (before.settings.headerTries + before.settings.totalSlots.toNat) := by
  induction links generalizing batch before after outcome with
  | nil =>
    cases run
    exact ⟨[], .of_journal rfl, fun _ => Nat.zero_le _⟩
  | cons link rest ih =>
    rw [inTurnAfter, run_bind] at run
    rcases fetching : (record link.owner link.seed operation).run before with ⟨answer, middle⟩
    obtain ⟨tries, few, count, pursued⟩ := pursued_record fetching
    have settings := ((gathers_record link.owner link.seed operation).of_run fetching).settings
    have few : (List.replicate tries (link.owner, headerSalt operation) ++
        chunkNames link.owner operation 0 count).length ≤
        before.settings.headerTries + before.settings.totalSlots.toNat := by
      simpa [chunkNames] using Nat.add_le_add few pursued.room
    have own := countP_isOf_le (fun _ => owned_of_mem) few
    rw [fetching] at run
    rcases answer with failure | answer
    · obtain ⟨rfl, rfl⟩ := Prod.mk.inj run
      refine ⟨_, pursued.asks, fun owner => ?_⟩
      rw [linksOf_cons, Nat.add_mul]
      exact Nat.le_add_right_of_le (own owner)
    · obtain ⟨items, asks, bounded⟩ := ih run
      refine ⟨_, pursued.asks.trans asks, fun owner => ?_⟩
      rw [settings] at bounded
      rw [List.countP_append, linksOf_cons, Nat.add_mul]
      exact Nat.add_le_add (own owner) (bounded owner)

/-! ### Discipline -/

/-- The record in one chunk is fetched by one lookup of each of its items. -/
example : (Seconds.world sampleItems).lookups sampleFetch.2 = [([1], "op:0"), ([1], "op:1")] := by
  decide +kernel

end DhtRecords.Fetch
