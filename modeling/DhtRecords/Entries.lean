/-
Insertion-ordered tables: a list of key and value pairs in which the first
pair with a key decides.

`insert` moves a key to the end, `replace` keeps its place, `erase` forgets
it. The view of a table is `get?`; each operation's effect on it is stated
beside the operation.
-/

namespace DhtRecords

/-- A table whose pairs are kept in the order in which their keys were last inserted. -/
structure Entries (κ α : Type) where
  /-- The pairs, oldest first. -/
  pairs : List (κ × α) := []

namespace Entries

variable {κ α : Type} [DecidableEq κ]

instance : Inhabited (Entries κ α) := ⟨{}⟩

/-- The value under a key. -/
def get? (table : Entries κ α) (key : κ) : Option α :=
  (table.pairs.find? (fun pair => pair.1 = key)).map Prod.snd

/-- Whether a key is present. -/
def contains (table : Entries κ α) (key : κ) : Bool := (table.get? key).isSome

/-- The number of pairs. -/
def size (table : Entries κ α) : Nat := table.pairs.length

/-- The keys, oldest first. -/
def keys (table : Entries κ α) : List κ := table.pairs.map Prod.fst

/-- The table without a key. -/
def erase (table : Entries κ α) (key : κ) : Entries κ α :=
  ⟨table.pairs.filter (fun pair => pair.1 ≠ key)⟩

/-- The table with a value under a key, which becomes the newest. -/
def insert (table : Entries κ α) (key : κ) (value : α) : Entries κ α :=
  ⟨(table.erase key).pairs ++ [(key, value)]⟩

/-- The table with another value under a key that keeps its place; nothing changes without it. -/
def replace (table : Entries κ α) (key : κ) (value : α) : Entries κ α :=
  ⟨table.pairs.map (fun pair => if pair.1 = key then (key, value) else pair)⟩

/-- The table without its oldest pairs beyond the newest `count`. -/
def newest (table : Entries κ α) (count : Nat) : Entries κ α :=
  ⟨table.pairs.drop (table.pairs.length - count)⟩

@[simp] theorem get?_empty (key : κ) : ({} : Entries κ α).get? key = none := rfl

theorem get?_erase (table : Entries κ α) (key other : κ) :
    (table.erase key).get? other = if other = key then none else table.get? other := by
  obtain ⟨pairs⟩ := table
  simp only [erase, get?, List.find?_filter]
  split
  · next same =>
    subst same
    rw [List.find?_eq_none.2 (by simp)]
    rfl
  · next differs =>
    have same : (fun pair : κ × α =>
          decide (decide (pair.1 ≠ key) = true ∧ decide (pair.1 = other) = true))
        = fun pair => decide (pair.1 = other) := by
      funext pair
      by_cases h : pair.1 = other
      · simp [h, differs]
      · simp [h]
    rw [same]

theorem get?_insert (table : Entries κ α) (key other : κ) (value : α) :
    (table.insert key value).get? other = if other = key then some value else table.get? other := by
  have erased := get?_erase table key other
  simp only [get?] at erased
  simp only [insert, get?, List.find?_append]
  split
  · next same =>
    subst same
    simp only [if_true, Option.map_eq_none_iff] at erased
    simp [erased]
  · next differs =>
    simp only [if_neg differs] at erased
    have tail : List.find? (fun pair : κ × α => decide (pair.1 = other)) [(key, value)] = none := by
      simp [Ne.symm differs]
    rw [tail, Option.or_none, erased]

end Entries

end DhtRecords
