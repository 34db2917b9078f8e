/-
Payloads that are split, and records that are assembled.

A record is valid if its header says of operation, chunks, size and digest what
is so (`isValid_assemble_iff`). A payload that is split into a valid record is
the record's value again (`value_of_split?`).
-/

import DhtRecords.Proofs.Names
import DhtRecords.Record.Basic

namespace DhtRecords.Record

/-! ### Valid records -/

/-- Whether chunks are those of the positions from the first on. -/
def InPlace (operation : String) (position : Nat) (chunks : List Chunk) : Prop :=
  ∀ offset (h : offset < chunks.length),
    chunks[offset].index = (position + offset : Nat) ∧
      chunks[offset].salt = chunkSalt operation (position + offset : Nat)

theorem inPlace_cons {operation : String} {position : Nat} {chunk : Chunk} {rest : List Chunk} :
    InPlace operation position (chunk :: rest) ↔
      chunk.index = position ∧ chunk.salt = chunkSalt operation position ∧
        InPlace operation (position + 1) rest := by
  constructor
  · intro placed
    refine ⟨(placed 0 (by simp)).1, (placed 0 (by simp)).2, ?_⟩
    intro offset inside
    have next := placed (offset + 1) (by simpa using inside)
    rw [List.getElem_cons_succ, ← Nat.add_assoc, Nat.add_right_comm] at next
    exact next
  · rintro ⟨index, salt, placed⟩ offset inside
    cases offset with
    | zero => exact ⟨index, salt⟩
    | succ offset =>
      have next := placed offset (by simpa using inside)
      rw [Nat.add_right_comm, Nat.add_assoc] at next
      exact next

theorem misplaced?_eq_none_iff {operation : String} {position : Nat} {chunks : List Chunk} :
    misplaced? operation position chunks = none ↔ InPlace operation position chunks := by
  induction chunks generalizing position with
  | nil => simp [misplaced?, InPlace]
  | cons chunk rest ih =>
    rw [misplaced?, inPlace_cons, ← ih]
    split
    · next index => simp [index]
    · next index =>
      split
      · next salt => simp [salt]
      · next salt => simp [not_not.mp index, not_not.mp salt]

theorem payloadDefect?_eq_none_iff {header : Header} {payload : Bytes} :
    payloadDefect? header payload = none ↔
      (header.size.value ≠ 0 → header.size.value = payload.length) ∧
        (header.digest ≠ "" → header.digest = contentHash payload) := by
  unfold payloadDefect?
  split
  · next size => simp [size.1, size.2]
  · next size =>
    split
    · next digest => simp [digest.1, digest.2]
    · next digest =>
      refine iff_of_true rfl ⟨fun declared => ?_, fun declared => ?_⟩
      · by_contra differs
        exact size ⟨declared, differs⟩
      · by_contra differs
        exact digest ⟨declared, differs⟩

/-- A record is valid if its header says of its chunks what is so. -/
theorem isValid_assemble_iff {operation : String} {slots : Int} {header : Header}
    {chunks : List Chunk} {seed : Bytes} {sequence : Int} :
    (assemble operation slots header chunks seed sequence).isValid = true ↔
      header.operation = operation ∧ header.chunks.value ≤ slots ∧
        header.chunks.value = chunks.length ∧ InPlace operation 0 chunks ∧
        (header.size.value ≠ 0 → header.size.value = (chunks.flatMap Chunk.value).length) ∧
        (header.digest ≠ "" → header.digest = contentHash (chunks.flatMap Chunk.value)) := by
  rw [← payloadDefect?_eq_none_iff, ← misplaced?_eq_none_iff]
  simp only [assemble, isValid, findDefect, Option.isNone_iff_eq_none]
  split
  · next other => simp [other]
  · next same =>
    split
    · next tooMany => simp [tooMany]
    · next fits =>
      split
      · next count => simp [count]
      · next count =>
        have room := not_lt.mp fits
        rw [not_not.mp count] at room
        simp only [not_not.mp same, not_not.mp count, room, true_and]
        split
        · next defect => simp [defect]
        · next placed => simp [placed, value]

/-! ### Splitting -/

theorem flatten_piecesWithin {size fuel : Nat} {payload : Bytes} (positive : 0 < size)
    (enough : payload.length ≤ fuel) : (piecesWithin fuel size payload).flatten = payload := by
  induction fuel generalizing payload with
  | zero =>
    have none : payload = [] := List.eq_nil_of_length_eq_zero (Nat.le_zero.mp enough)
    subst none
    rfl
  | succ fuel ih =>
    cases payload with
    | nil => rfl
    | cons byte rest =>
      have shorter : ((byte :: rest).drop size).length ≤ fuel := by
        simp only [List.length_drop, List.length_cons] at enough ⊢
        omega
      rw [piecesWithin, List.flatten_cons, ih shorter, List.take_append_drop]
      exact List.cons_ne_nil byte rest

/-- The pieces of a payload make up the payload. -/
theorem flatten_pieces {size : Nat} (positive : 0 < size) (payload : Bytes) :
    (pieces size payload).flatten = payload :=
  flatten_piecesWithin positive (Nat.le_refl _)

theorem flatMap_value_chunksFrom (operation : String) (total : Whole) (position : Nat)
    (parts : List Bytes) :
    (chunksFrom operation total position parts).flatMap Chunk.value = parts.flatten := by
  induction parts generalizing position with
  | nil => rfl
  | cons part rest ih => rw [chunksFrom, List.flatMap_cons, List.flatten_cons, ih]

/-- What splitting a payload gives. -/
theorem split?_cases {operation : String} {payload seed : Bytes} {chunkSize slots : Int}
    {record : Record} (split : split? operation payload seed chunkSize slots = some record) :
    ∃ parts : List Bytes, (0 < chunkSize → parts = pieces chunkSize.toNat payload) ∧
      (chunkSize < 0 → parts = []) ∧ chunkSize ≠ 0 ∧
      record = assemble operation slots (describe operation parts payload)
        (chunksFrom operation (.int parts.length) 0 parts) seed 0 := by
  unfold split? at split
  split at split
  · cases split
  · next nonzero =>
    refine ⟨_, ?_, ?_, nonzero, (Option.some_inj.mp split).symm⟩
    · intro positive
      rw [if_neg (by omega)]
    · intro negative
      rw [if_pos negative]

/-- The header of a payload that is split carries the payload's digest. -/
theorem digest_of_split? {operation : String} {payload seed : Bytes} {chunkSize slots : Int}
    {record : Record} (split : split? operation payload seed chunkSize slots = some record) :
    record.header.digest = contentHash payload ∧ 0 ≤ record.header.chunks.value := by
  obtain ⟨parts, -, -, -, rfl⟩ := split?_cases split
  exact ⟨rfl, Int.natCast_nonneg _⟩

/-- A payload that is split into a valid record is the value of the record. -/
theorem value_of_split? {operation : String} {payload seed : Bytes} {chunkSize slots : Int}
    {record : Record} (split : split? operation payload seed chunkSize slots = some record)
    (valid : record.isValid = true) : record.value = payload := by
  obtain ⟨parts, positive, negative, nonzero, rfl⟩ := split?_cases split
  have size := (isValid_assemble_iff.mp valid).2.2.2.2.1
  simp only [assemble, value, flatMap_value_chunksFrom, describe, Whole.value_int] at size ⊢
  rcases lt_or_gt_of_ne nonzero with below | above
  · rw [negative below] at size ⊢
    by_contra differs
    have long : payload.length ≠ 0 := fun none => differs (List.eq_nil_of_length_eq_zero none).symm
    have same := size (by omega)
    rw [List.flatten_nil, List.length_nil] at same
    omega
  · rw [positive above]
    exact flatten_pieces (by omega) payload

end DhtRecords.Record
