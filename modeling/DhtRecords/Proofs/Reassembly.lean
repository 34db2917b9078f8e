/-
Payloads that are cut into chunks, and chunks that make up a payload.

Cutting gives as many chunks as the payload begins pieces of the size, each in its
place and all full but the last (`Cuts`). Under the header that comes of it, chunks
are a valid record if and only if there is room for them, they are as many, each is
in its place, and together they are the payload again
(`split_reassembles`). Digests have to tell the payload from what the chunks
make up, since the header knows it by its digest only.
-/

import DhtRecords.Proofs.Splitting
import Mathlib.Tactic.Common

namespace DhtRecords.Record

/-! ### Pieces -/

/-- How many pieces of a size there are in so many bytes, the last one begun included. -/
def pieceCount (size bytes : Nat) : Nat := (bytes + (size - 1)) / size

theorem pieceCount_add {size : Nat} (positive : 0 < size) (bytes : Nat) :
    pieceCount size (bytes + 1) = pieceCount size (bytes + 1 - size) + 1 := by
  unfold pieceCount
  rcases Nat.lt_or_ge bytes size with less | more
  · rw [show bytes + 1 - size = 0 by omega, Nat.zero_add, Nat.div_eq_of_lt (a := size - 1) (by omega),
      show bytes + 1 + (size - 1) = bytes + size by omega, Nat.add_div_right bytes positive,
      Nat.div_eq_of_lt less]
  · rw [← Nat.add_div_right _ positive]
    congr 1
    omega

/-- A piece begins before the end of the payload. -/
theorem lt_pieceCount_iff {size position bytes : Nat} (positive : 0 < size) :
    position < pieceCount size bytes ↔ position * size < bytes := by
  rw [pieceCount, Nat.lt_iff_add_one_le, Nat.le_div_iff_mul_le positive, Nat.succ_mul]
  omega

theorem length_piecesWithin {size fuel : Nat} {payload : Bytes} (positive : 0 < size)
    (enough : payload.length ≤ fuel) :
    (piecesWithin fuel size payload).length = pieceCount size payload.length := by
  induction fuel generalizing payload with
  | zero =>
    rw [Nat.le_zero.mp enough, pieceCount, Nat.zero_add, Nat.div_eq_of_lt (by omega)]
    rfl
  | succ fuel ih =>
    cases payload with
    | nil =>
      rw [List.length_nil, pieceCount, Nat.zero_add, Nat.div_eq_of_lt (by omega)]
      rfl
    | cons byte rest =>
      have shorter : ((byte :: rest).drop size).length ≤ fuel := by
        simp only [List.length_drop, List.length_cons] at enough ⊢
        omega
      rw [piecesWithin, List.length_cons, ih shorter, List.length_drop, List.length_cons,
        pieceCount_add positive]
      exact List.cons_ne_nil byte rest

/-- The piece at a position is what the payload has from there on. -/
theorem getElem?_piecesWithin {size fuel position : Nat} {payload : Bytes} (positive : 0 < size)
    (enough : payload.length ≤ fuel) (inside : position * size < payload.length) :
    (piecesWithin fuel size payload)[position]? = some ((payload.drop (position * size)).take size) := by
  induction fuel generalizing payload position with
  | zero => omega
  | succ fuel ih =>
    cases payload with
    | nil => simp at inside
    | cons byte rest =>
      rw [piecesWithin]
      · cases position with
        | zero => rw [List.getElem?_cons_zero, Nat.zero_mul, List.drop_zero]
        | succ position =>
          rw [Nat.succ_mul] at inside
          have left : position * size < ((byte :: rest).drop size).length := by
            rw [List.length_drop]
            omega
          have shorter : ((byte :: rest).drop size).length ≤ fuel := by
            simp only [List.length_drop, List.length_cons] at enough ⊢
            omega
          rw [List.getElem?_cons_succ, ih shorter left, List.drop_drop, Nat.succ_mul,
            Nat.add_comm size]
      · exact List.cons_ne_nil byte rest

/-! ### Chunks -/

/-- The chunk at a position has the piece there. -/
theorem getElem?_chunksFrom (operation : String) (total : Whole) (first : Nat) (parts : List Bytes)
    (position : Nat) :
    (chunksFrom operation total first parts)[position]? = parts[position]?.map fun piece =>
      ⟨(first + position : Nat), total, chunkSalt operation (first + position : Nat), piece⟩ := by
  induction parts generalizing first position with
  | nil => rfl
  | cons part rest ih =>
    rw [chunksFrom]
    cases position with
    | zero => rfl
    | succ position =>
      rw [List.getElem?_cons_succ, List.getElem?_cons_succ, ih, Nat.add_right_comm, Nat.add_assoc]

theorem length_chunksFrom (operation : String) (total : Whole) (first : Nat) (parts : List Bytes) :
    (chunksFrom operation total first parts).length = parts.length := by
  induction parts generalizing first with
  | nil => rfl
  | cons part rest ih => rw [chunksFrom, List.length_cons, List.length_cons, ih]

/-- Whether chunks are what a payload is cut into: each in its place, all of them full but the last,
which is not empty. -/
structure Cuts (operation : String) (payload : Bytes) (size : Nat) (chunks : List Chunk) : Prop where
  count : chunks.length = pieceCount size payload.length
  placed : InPlace operation 0 chunks
  total : ∀ chunk ∈ chunks, chunk.total = .int chunks.length
  full : ∀ position (inside : position + 1 < chunks.length), chunks[position].value.length = size
  last : ∀ position (inside : position < chunks.length), position + 1 = chunks.length →
    1 ≤ chunks[position].value.length ∧ chunks[position].value.length ≤ size
  joined : chunks.flatMap Chunk.value = payload

/-- Cutting gives such chunks. -/
theorem cuts_chunksFrom (operation : String) (payload : Bytes) {size : Nat} (positive : 0 < size) :
    Cuts operation payload size
      (chunksFrom operation (.int (pieces size payload).length) 0 (pieces size payload)) := by
  set parts := pieces size payload with cut
  set chunks := chunksFrom operation (.int parts.length) 0 parts with made
  have count : parts.length = pieceCount size payload.length :=
    length_piecesWithin positive (Nat.le_refl _)
  have length : chunks.length = parts.length := length_chunksFrom ..
  have chunk (position : Nat) (inside : position < chunks.length) : chunks[position] =
      ⟨position, .int parts.length, chunkSalt operation position,
        (payload.drop (position * size)).take size⟩ := by
    have begun : position * size < payload.length := by
      rwa [length, count, lt_pieceCount_iff positive] at inside
    have found := getElem?_chunksFrom operation (.int parts.length) 0 parts position
    rw [cut, pieces, getElem?_piecesWithin positive (Nat.le_refl _) begun, Nat.zero_add, ← pieces, ← cut, ← made,
      List.getElem?_eq_getElem inside] at found
    exact Option.some_inj.mp found
  exact {
    count := length.trans count
    placed := fun position inside => by
      rw [chunk position inside, Nat.zero_add]
      exact ⟨rfl, rfl⟩
    total := fun piece member => by
      obtain ⟨position, inside, rfl⟩ := List.mem_iff_getElem.mp member
      rw [chunk position inside, length]
    full := fun position inside => by
      have begun : (position + 1) * size < payload.length := by
        rwa [length, count, lt_pieceCount_iff positive] at inside
      rw [chunk position (Nat.lt_of_succ_lt inside), List.length_take, List.length_drop]
      rw [Nat.succ_mul] at begun
      omega
    last := fun position inside _ => by
      have begun : position * size < payload.length := by
        rwa [length, count, lt_pieceCount_iff positive] at inside
      rw [chunk position inside, List.length_take, List.length_drop]
      omega
    joined := by rw [flatMap_value_chunksFrom, cut, flatten_pieces positive] }

/-! ### Records -/

/-- Under the header of a payload that was cut, chunks are a valid record if there is room for as many,
each is in its place, and together they are that payload. -/
theorem isValid_describe_iff {operation : String} {slots : Int} {parts : List Bytes} {payload seed : Bytes}
    {chunks : List Chunk} {sequence : Int}
    (free : CollisionFree {payload, chunks.flatMap Chunk.value}) :
    (assemble operation slots (describe operation parts payload) chunks seed sequence).isValid = true ↔
      (parts.length : Int) ≤ slots ∧ chunks.length = parts.length ∧ InPlace operation 0 chunks ∧
        chunks.flatMap Chunk.value = payload := by
  rw [isValid_assemble_iff]
  simp only [describe, Whole.value_int, true_and]
  constructor
  · rintro ⟨room, count, placed, -, digest⟩
    have same := free.eq_of_contentHash (Set.mem_insert ..) (Set.mem_insert_of_mem _ rfl)
      (digest (contentHash_ne_empty payload))
    exact ⟨room, (Int.ofNat_inj.mp count).symm, placed, same.symm⟩
  · rintro ⟨room, count, placed, joined⟩
    rw [joined, count]
    exact ⟨room, rfl, placed, fun _ => rfl, fun _ => rfl⟩

/-- A payload is cut into chunks whatever it is, and the record is valid if there is room for them. Under
its header other chunks are a valid record only if they are as many, each is in its place, and together
they are the payload. -/
theorem split_reassembles {operation : String} {payload seed : Bytes} {chunkSize slots : Int}
    (positive : 1 ≤ chunkSize) :
    ∃ record, split? operation payload seed chunkSize slots = some record ∧
      Cuts operation payload chunkSize.toNat record.chunks ∧ record.value = payload ∧
      (record.isValid = true ↔ (pieceCount chunkSize.toNat payload.length : Int) ≤ slots) ∧
      ∀ chunks bound sequence, CollisionFree {payload, chunks.flatMap Chunk.value} →
        ((assemble operation slots record.header chunks bound sequence).isValid = true ↔
          (pieceCount chunkSize.toNat payload.length : Int) ≤ slots ∧
            chunks.length = pieceCount chunkSize.toNat payload.length ∧
            InPlace operation 0 chunks ∧ chunks.flatMap Chunk.value = payload) := by
  have size : 0 < chunkSize.toNat := by omega
  have count : (pieces chunkSize.toNat payload).length = pieceCount chunkSize.toNat payload.length :=
    length_piecesWithin size (Nat.le_refl _)
  have cuts := cuts_chunksFrom operation payload size
  refine ⟨assemble operation slots
    (describe operation (pieces chunkSize.toNat payload) payload)
    (chunksFrom operation (.int (pieces chunkSize.toNat payload).length) 0
      (pieces chunkSize.toNat payload)) seed 0, ?_, cuts, cuts.joined, ?_,
    fun chunks bound sequence free => ?_⟩
  · rw [split?, if_neg (by omega), if_neg (by omega)]
  · -- The payload and what its own chunks make up are one byte string, so digests need not be asked.
    have free : CollisionFree {payload, (chunksFrom operation
        (.int (pieces chunkSize.toNat payload).length) 0 (pieces chunkSize.toNat payload)).flatMap
          Chunk.value} := by
      rw [cuts.joined, Set.pair_eq_singleton]
      exact Set.injOn_singleton _ _
    rw [← count]
    refine (isValid_describe_iff free).trans ⟨And.left, fun room => ⟨room, ?_, cuts.placed, cuts.joined⟩⟩
    exact length_chunksFrom ..
  · rw [← count]
    exact isValid_describe_iff free

/-- Five bytes in pieces of two are three chunks and valid where there is room for three. With the
last two chunks exchanged they are not. -/
theorem split_five :
    (1 : Int) ≤ 2 ∧ ∃ record, split? "op" [1, 2, 3, 4, 5] [] 2 3 = some record ∧
      record.chunks.map Chunk.value = [[1, 2], [3, 4], [5]] ∧ record.isValid = true ∧
      (assemble "op" 3 record.header
        [⟨0, .int 3, "op:1", [1, 2]⟩, ⟨1, .int 3, "op:2", [5]⟩, ⟨2, .int 3, "op:3", [3, 4]⟩]
        [] 0).isValid = false := by
  obtain ⟨record, split, -, -, room, assembled⟩ :=
    @split_reassembles "op" [1, 2, 3, 4, 5] [] 2 3 (by decide)
  have free : CollisionFree {[1, 2, 3, 4, 5], [1, 2, 5, 3, 4]} :=
    Set.injOn_pair.mpr fun same => absurd same (by decide +kernel)
  refine ⟨by decide, record, split, ?_, room.mpr (by decide), ?_⟩
  · obtain rfl := Option.some_inj.mp split
    decide
  · refine Bool.eq_false_iff.mpr fun valid => ?_
    have joined := (assembled
      [⟨0, .int 3, "op:1", [1, 2]⟩, ⟨1, .int 3, "op:2", [5]⟩, ⟨2, .int 3, "op:3", [3, 4]⟩]
      [] 0 free).mp valid
    exact absurd joined.2.2.2 (by decide)

end DhtRecords.Record
