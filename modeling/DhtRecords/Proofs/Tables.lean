/-
Insertion-ordered tables without double keys.

The operations of a table are those of a row of keys, and none of them brings a
key in twice. Where no key is double, what is under a key is the one value that
is paired with it, and what is left of a table has the values it had.
-/

import DhtRecords.Entries
import Mathlib.Data.List.Nodup

namespace DhtRecords

namespace Entries

variable {κ α : Type} [DecidableEq κ]

/-! ### Values -/

theorem mem_of_get? {table : Entries κ α} {key : κ} {held : α} (found : table.get? key = some held) :
    (key, held) ∈ table.pairs := by
  obtain ⟨pair, first, rfl⟩ := Option.map_eq_some_iff.mp found
  obtain rfl : pair.1 = key := by simpa using List.find?_some first
  exact List.mem_of_find?_eq_some first

theorem get?_eq_some_iff {table : Entries κ α} (nodup : table.keys.Nodup) (key : κ) (held : α) :
    table.get? key = some held ↔ (key, held) ∈ table.pairs := by
  obtain ⟨pairs⟩ := table
  simp only [keys] at nodup
  induction pairs with
  | nil => simp [get?]
  | cons pair rest ih =>
    obtain ⟨first, content⟩ := pair
    rw [List.map_cons, List.nodup_cons] at nodup
    simp only [get?, List.mem_cons, Prod.mk.injEq]
    by_cases same : first = key
    · subst same
      have absent : ∀ other, (first, other) ∉ rest := fun other member =>
        nodup.1 (List.mem_map.mpr ⟨_, member, rfl⟩)
      simp [absent, eq_comm]
    · have others := ih nodup.2
      simp only [get?] at others
      simp [same, Ne.symm same, others]

theorem get?_eq_none_iff (table : Entries κ α) (key : κ) :
    table.get? key = none ↔ key ∉ table.keys := by
  rw [get?, Option.map_eq_none_iff, List.find?_eq_none, keys, List.mem_map]
  constructor
  · rintro absent ⟨pair, member, rfl⟩
    exact absent pair member (decide_eq_true rfl)
  · intro absent pair member same
    exact absent ⟨pair, member, of_decide_eq_true same⟩

theorem contains_iff (table : Entries κ α) (key : κ) :
    table.contains key = true ↔ key ∈ table.keys := by
  rw [contains, Option.isSome_iff_ne_none, ne_eq, get?_eq_none_iff, not_not]

theorem contains_eq_false_iff (table : Entries κ α) (key : κ) :
    table.contains key = false ↔ table.get? key = none := by
  rw [contains, Option.isSome_eq_false_iff, Option.isNone_iff_eq_none]

/-! ### Keys -/

theorem keys_erase (table : Entries κ α) (key : κ) :
    (table.erase key).keys = table.keys.filter (· ≠ key) := by
  rw [keys, keys, List.filter_map]
  rfl

theorem keys_insert (table : Entries κ α) (key : κ) (content : α) :
    (table.insert key content).keys = table.keys.filter (· ≠ key) ++ [key] := by
  rw [← keys_erase]
  simp [keys, insert]

omit [DecidableEq κ] in
theorem keys_newest (table : Entries κ α) (count : Nat) :
    (table.newest count).keys = table.keys.drop (table.size - count) :=
  List.map_drop

omit [DecidableEq κ] in
theorem size_newest (table : Entries κ α) (count : Nat) :
    (table.newest count).size = min table.size count := by
  simp only [size, newest, List.length_drop]
  omega

omit [DecidableEq κ] in
theorem nodup_keys_filter {table : Entries κ α} (nodup : table.keys.Nodup) (keep : κ × α → Bool) :
    (⟨table.pairs.filter keep⟩ : Entries κ α).keys.Nodup :=
  nodup.sublist (List.filter_sublist.map _)

theorem nodup_keys_erase {table : Entries κ α} (nodup : table.keys.Nodup) (key : κ) :
    (table.erase key).keys.Nodup :=
  nodup_keys_filter nodup _

theorem nodup_keys_insert {table : Entries κ α} (nodup : table.keys.Nodup) (key : κ) (content : α) :
    (table.insert key content).keys.Nodup := by
  rw [keys_insert, List.nodup_append]
  refine ⟨nodup.filter _, List.nodup_singleton _, ?_⟩
  intro other member last isKey same
  rw [List.mem_singleton] at isKey
  subst isKey same
  simp at member

omit [DecidableEq κ] in
theorem nodup_keys_newest {table : Entries κ α} (nodup : table.keys.Nodup) (count : Nat) :
    (table.newest count).keys.Nodup := by
  rw [keys_newest]
  exact nodup.sublist (List.drop_sublist _ _)

/-! ### The newest pairs -/

/-- What is under a key that is left is what was under it. -/
theorem get?_newest {table : Entries κ α} (nodup : table.keys.Nodup) {count : Nat} {key : κ}
    (left : (table.newest count).contains key = true) :
    (table.newest count).get? key = table.get? key := by
  obtain ⟨content, held⟩ := Option.isSome_iff_exists.mp left
  rw [held, eq_comm, get?_eq_some_iff nodup]
  rw [get?_eq_some_iff (nodup_keys_newest nodup count)] at held
  exact List.mem_of_mem_drop held

/-- The pair that was inserted last is among the newest. -/
theorem get?_newest_insert (table : Entries κ α) (nodup : table.keys.Nodup) (key : κ) (content : α)
    {count : Nat} (positive : 0 < count) :
    ((table.insert key content).newest count).get? key = some content := by
  have distinct := nodup_keys_insert nodup key content
  rw [get?_eq_some_iff (nodup_keys_newest distinct count)]
  have room : (table.insert key content).pairs.length - count ≤ (table.erase key).pairs.length := by
    rw [insert, List.length_append, List.length_singleton]
    omega
  rw [newest, insert, List.drop_append_of_le_length (by simpa [insert] using room)]
  exact List.mem_append_right _ (List.mem_singleton_self _)

end Entries

end DhtRecords
