/-
Sections of a file as tables of a document.

A section is stated by a header and its entries. A document that has been made by
such sections alone is `Plain`: no header opens a table within another, and only
values within sections are complete. Each further section of a new name, whose
entries have different names, adds its table at the end (`foldlM_blocks`).
-/

import DhtRecords.Proofs.Lines

namespace DhtRecords.Toml

variable {τ : Type}

/-! ### Tables -/

namespace Table

theorem get?_append (table more : Table τ) (name : String) :
    Table.get? (table ++ more) name = (table.get? name).or (Table.get? more name) := by
  unfold get?
  rw [List.find?_append, Option.map_or]

theorem get?_eq_none_iff {table : Table τ} {name : String} :
    table.get? name = none ↔ name ∉ table.map Prod.fst := by
  unfold get?
  rw [Option.map_eq_none_iff, List.find?_eq_none, List.mem_map]
  constructor
  · rintro none ⟨entry, among, rfl⟩
    exact none entry among (by simp)
  · rintro absent entry among same
    exact absent ⟨entry, among, by simpa using same⟩

/-- What a table has under the name of a row's item. -/
theorem get?_map {ι : Type} [DecidableEq ι] {name : ι → String}
    (distinct : Function.Injective name) (value : ι → Value τ) (row : List ι) (x : ι) :
    Table.get? (row.map fun y => (name y, value y)) (name x)
      = if x ∈ row then some (value x) else none := by
  induction row with
  | nil => rfl
  | cons y row ih =>
    by_cases same : x = y
    · simp [Table.get?, same]
    · have other : name y ≠ name x := fun again => same (distinct again).symm
      unfold get? at ih ⊢
      rw [List.map_cons, List.find?_cons_of_neg (by simpa using other), ih]
      simp [same]

/-- The last entry of a table is replaced, if no other has its name. -/
theorem replace_append {table : Table τ} {name : String} (absent : table.get? name = none)
    (old value : Value τ) :
    Table.replace (table ++ [(name, old)]) name value = table ++ [(name, value)] := by
  rw [get?_eq_none_iff] at absent
  rw [replace, List.map_append, List.map_cons, if_pos rfl]
  congr 1
  refine (List.map_congr_left fun entry member => if_neg ?_).trans (List.map_id' _)
  rintro rfl
  exact absent (List.mem_map_of_mem member)

end Table

/-! ### Documents of sections -/

/-- Whether a document is made of sections whose entries have keys of one name. -/
structure Plain (document : Document τ) : Prop where
  dotted : document.dotted = []
  opened : ∀ key ∈ document.opened, ∃ name ∈ document.data.map Prod.fst, key = [name]
  complete : ∀ key ∈ document.complete, 2 ≤ key.length

namespace Plain

variable {document : Document τ}

theorem empty : Plain ({} : Document τ) := ⟨rfl, nofun, nofun⟩

/-- No section is complete. -/
theorem isWithin_eq_false (plain : Plain document) (name : String) :
    isWithin document.complete [name] = false := by
  refine List.any_eq_false.mpr fun key member within => ?_
  have short := (List.isPrefixOf_iff_prefix.mp within).length_le
  have long := plain.complete key member
  rw [List.length_singleton] at short
  omega

/-- A header of a new name opens a section. -/
theorem openTable? (plain : Plain document) {name : String} (absent : document.data.get? name = none) :
    ∃ next, document.openTable? [name] = some next ∧ Plain next ∧
      next.data = document.data ++ [(name, .table [])] ∧ next.section_ = [name] := by
  have unopened : document.opened.contains [name] = false := by
    rw [List.contains_eq_mem, decide_eq_false_iff_not]
    intro member
    obtain ⟨other, present, same⟩ := plain.opened _ member
    rw [← List.singleton_inj.mp same] at present
    exact Table.get?_eq_none_iff.mp absent present
  refine ⟨{ document with
    data := document.data ++ [(name, .table [])], section_ := [name],
    opened := [name] :: document.opened, dotted := [] }, ?_, ⟨rfl, ?_, plain.complete⟩, rfl, rfl⟩
  · unfold Document.openTable? Document.closeSection
    simp only [plain.dotted, List.nil_append, unopened, plain.isWithin_eq_false name, alter?, absent]
    rfl
  · refine List.forall_mem_cons.mpr ⟨⟨name, ?_, rfl⟩, fun key member => ?_⟩
    · simp
    · obtain ⟨other, present, same⟩ := plain.opened key member
      exact ⟨other, by rw [List.map_append]; exact List.mem_append_left _ present, same⟩

/-- An entry of a new name is added to the section. -/
theorem assign? (plain : Plain document) {name key : String} {earlier entries : Table τ}
    (data : document.data = earlier ++ [(name, .table entries)]) (within : document.section_ = [name])
    (alone : earlier.get? name = none) (absent : entries.get? key = none) (value : Value τ) :
    ∃ next, document.assign? [key] value = some next ∧ Plain next ∧
      next.data = earlier ++ [(name, .table (entries ++ [(key, value)]))] ∧ next.section_ = [name] := by
  have found : document.data.get? name = some (.table entries) := by
    rw [data, Table.get?_append, alone]
    simp [Table.get?]
  refine ⟨{ document with
    data := earlier ++ [(name, .table (entries ++ [(key, value)]))]
    dotted := []
    complete := addComplete document.complete [name, key] value }, ?_, ⟨rfl, ?_, ?_⟩, rfl, within⟩
  · unfold Document.assign? Document.leadingKeys
    rw [within]
    simp only [List.length_singleton, List.dropLast_singleton, List.append_nil, List.getLast?_singleton,
      Option.getD_some, plain.dotted, plain.isWithin_eq_false name, alter?, found, addValue?, absent]
    simp only [data, Table.replace_append alone]
    rfl
  · intro other member
    obtain ⟨name', present, same⟩ := plain.opened other member
    refine ⟨name', ?_, same⟩
    rw [data, List.map_append] at present
    rw [List.map_append]
    exact present
  · unfold addComplete
    split
    · exact List.forall_mem_cons.mpr ⟨le_refl _, plain.complete⟩
    · exact plain.complete

end Plain

/-! ### Sections -/

/-- A section: its name and its entries, each with the characters of its value. -/
structure Block (τ : Type) where
  name : String
  entries : List (String × List Char × Value τ)

namespace Block

/-- The entries as a table. -/
def table (block : Block τ) : Table τ := block.entries.map fun entry => (entry.1, entry.2.2)

/-- The lines of the section with what they state; the first is blank. -/
def lines (block : Block τ) : List (List Char × Statement τ) :=
  ([], .blank) :: (headLine block.name, .openTable [block.name]) ::
    block.entries.map fun entry => (entryLine entry.1 entry.2.1, .entry [entry.1] entry.2.2)

end Block

/-- Entries of different names are added to the section. -/
theorem foldlM_entries {document : Document τ} (plain : Plain document) {name : String}
    {earlier before : Table τ} (data : document.data = earlier ++ [(name, .table before)])
    (within : document.section_ = [name]) (alone : earlier.get? name = none) {entries : Table τ}
    (distinct : ((before ++ entries).map Prod.fst).Nodup) :
    ∃ next, (entries.map fun entry => Statement.entry [entry.1] entry.2).foldlM Document.follow? document
        = some next ∧
      Plain next ∧ next.data = earlier ++ [(name, .table (before ++ entries))] := by
  induction entries generalizing document before with
  | nil => exact ⟨document, rfl, plain, by rw [data, List.append_nil]⟩
  | cons entry entries ih =>
    have absent : before.get? entry.1 = none := by
      rw [Table.get?_eq_none_iff]
      rw [List.map_append, List.nodup_append] at distinct
      exact fun member => distinct.2.2 _ member _ (List.mem_cons_self ..) rfl
    obtain ⟨middle, step, plain, data, within⟩ := plain.assign? data within alone absent entry.2
    rw [List.append_cons] at distinct
    obtain ⟨next, follows, plain, made⟩ := ih plain data within distinct
    refine ⟨next, ?_, plain, by rw [made, ← List.append_cons]⟩
    rw [List.map_cons, List.foldlM_cons]
    exact Option.bind_eq_some_iff.mpr ⟨middle, step, follows⟩

/-- Sections of new and different names, each with entries of different names, become tables. -/
theorem foldlM_blocks {document : Document τ} (plain : Plain document) {blocks : List (Block τ)}
    (distinct : (document.data.map Prod.fst ++ blocks.map Block.name).Nodup)
    (entries : ∀ block ∈ blocks, (block.table.map Prod.fst).Nodup) :
    ∃ next, ((blocks.flatMap Block.lines).map Prod.snd).foldlM Document.follow? document = some next ∧
      next.data = document.data ++ blocks.map fun block => (block.name, .table block.table) := by
  induction blocks generalizing document with
  | nil => exact ⟨document, rfl, (List.append_nil _).symm⟩
  | cons first blocks ih =>
    obtain ⟨ofFirst, others⟩ := List.forall_mem_cons.mp entries
    have absent : document.data.get? first.name = none := by
      rw [Table.get?_eq_none_iff]
      rw [List.nodup_append] at distinct
      exact fun member => distinct.2.2 _ member _ (List.mem_cons_self ..) rfl
    obtain ⟨opened, opens, plain, data, within⟩ := plain.openTable? absent
    have distinctly : ((([] : Table τ) ++ first.table).map Prod.fst).Nodup := ofFirst
    obtain ⟨middle, fills, plain, made⟩ := foldlM_entries plain data within absent distinctly
    have names : middle.data.map Prod.fst = document.data.map Prod.fst ++ [first.name] := by
      rw [made, List.map_append]
      rfl
    obtain ⟨next, follows, whole⟩ := ih plain (by rw [names, ← List.append_cons]; exact distinct) others
    refine ⟨next, ?_, by rw [whole, made, ← List.append_cons]; rfl⟩
    rw [List.flatMap_cons, List.map_append, List.foldlM_append]
    refine Option.bind_eq_some_iff.mpr ⟨middle, ?_, follows⟩
    have statements : first.lines.map Prod.snd = .blank :: .openTable [first.name] ::
        first.table.map fun entry => Statement.entry [entry.1] entry.2 := by
      simp [Block.lines, Block.table]
    rw [statements, List.foldlM_cons]
    refine Option.bind_eq_some_iff.mpr ⟨document, rfl, ?_⟩
    rw [List.foldlM_cons]
    exact Option.bind_eq_some_iff.mpr ⟨opened, opens, fills⟩

end DhtRecords.Toml
