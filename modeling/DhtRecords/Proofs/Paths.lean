/-
Paths that are read back from their texts, and folders that are made once.

The parts of a path that a text names are neither empty nor the folder itself and
have no slash (`Path.IsNormal`), and a path with such parts is what its text names
(`Path.ofText_text`). Where folders have been made, they are there as long as no
folder is removed: to make them again changes nothing (`Disk.makeFolders_again`).
-/

import DhtRecords.Disk

namespace DhtRecords

/-! ### Separators -/

namespace Text

variable {separator : Char}

theorem splitAt_eq_splitOn (cs : List Char) : splitAt separator cs = cs.splitOn separator := by
  induction cs with
  | nil => rfl
  | cons c cs ih =>
    rw [splitAt, ih, List.splitOn_cons_eq_if_modifyHead]
    cases c == separator with
    | true => rfl
    | false =>
      obtain ⟨part, parts, same⟩ := List.exists_cons_of_ne_nil (List.splitOn_ne_nil separator cs)
      rw [same]
      rfl

/-- The parts have no separators. -/
theorem not_mem_of_splitAt {cs part : List Char} (member : part ∈ splitAt separator cs) :
    separator ∉ part := by
  induction cs generalizing part with
  | nil =>
    rw [List.mem_singleton.mp member]
    exact List.not_mem_nil
  | cons c cs ih =>
    rw [splitAt] at member
    split at member
    · rcases List.mem_cons.mp member with rfl | later
      · exact List.not_mem_nil
      · exact ih later
    · next other parts =>
      rcases List.mem_cons.mp member with rfl | later
      · exact List.not_mem_cons_of_ne_of_not_mem (Ne.symm (ne_of_beq_false other))
          (ih (parts ▸ List.mem_cons_self))
      · exact ih (parts ▸ List.mem_cons_of_mem _ later)
    · next other parts =>
      rw [List.mem_singleton.mp member, List.mem_singleton]
      exact Ne.symm (ne_of_beq_false other)

/-- Parts without separators are the parts of what they make with separators between them. -/
theorem splitAt_intercalate {parts : List (List Char)} (present : parts ≠ [])
    (absent : ∀ part ∈ parts, separator ∉ part) :
    splitAt separator ([separator].intercalate parts) = parts := by
  rw [splitAt_eq_splitOn, List.splitOn_intercalate separator absent present]

end Text

/-! ### Paths -/

namespace Path

/-- Whether no part of a path is empty, the folder itself or several parts. -/
def IsNormal (path : Path) : Prop := ∀ part ∈ path.parts, part ≠ "" ∧ part ≠ "." ∧ '/' ∉ part.toList

theorem isNormal_ofText (text : String) : (ofText text).IsNormal := by
  intro part member
  obtain ⟨cs, kept, rfl⟩ := List.mem_map.mp member
  obtain ⟨among, plain⟩ := List.mem_filter.mp kept
  obtain ⟨present, other⟩ := of_decide_eq_true plain
  rw [String.toList_ofList]
  refine ⟨fun empty => present ?_, fun point => other ?_, Text.not_mem_of_splitAt among⟩
  · rw [← String.toList_ofList (l := cs), empty]
    rfl
  · rw [← String.toList_ofList (l := cs), point]
    rfl

/-- A home folder in front of a normal path without its first part. -/
theorem isNormal_expanded {home path : Path} (normal : home.IsNormal) (normal' : path.IsNormal)
    {first : String} {rest : List String} (parts : path.parts = first :: rest) :
    IsNormal ⟨home.root, home.parts ++ rest⟩ :=
  List.forall_mem_append.mpr ⟨normal, fun part member =>
    normal' part (parts ▸ List.mem_cons_of_mem first member)⟩

/-- The parts of a path as they stand in its text. -/
def spelt (path : Path) : List Char := ['/'].intercalate (path.parts.map String.toList)

theorem toList_text (path : Path) : path.text.toList =
    match path.root with
    | .absolute => '/' :: path.spelt
    | .doubled => '/' :: '/' :: path.spelt
    | .relative => if path.parts = [] then ['.'] else path.spelt := by
  have spelt : ("/".intercalate path.parts).toList = path.spelt := by
    rw [String.toList_intercalate]
    rfl
  unfold text
  cases path.root with
  | relative =>
    dsimp only
    split
    · next none => rw [if_pos (List.isEmpty_iff.mp none)]; rfl
    · next some => rw [if_neg (mt List.isEmpty_iff.mpr some), spelt]
  | absolute => simp [spelt]
  | doubled => simp [spelt]

section

variable {path : Path} (normal : path.IsNormal)

include normal

/-- What stands in the text of a path has no slash at its front. -/
theorem takeWhile_spelt : path.spelt.takeWhile (· = '/') = [] := by
  rw [spelt]
  cases parts : path.parts with
  | nil => rfl
  | cons first rest =>
    obtain ⟨present, -, single⟩ := normal first (parts ▸ List.mem_cons_self)
    obtain ⟨c, cs, same⟩ := List.exists_cons_of_ne_nil (mt String.toList_eq_nil_iff.mp present)
    have plain : c ≠ '/' := fun slash => single (same ▸ slash ▸ List.mem_cons_self)
    obtain ⟨more, start⟩ : ∃ more, ['/'].intercalate ((first :: rest).map String.toList) = c :: more := by
      rw [List.map_cons, same]
      cases rest with
      | nil => exact ⟨cs, List.intercalate_singleton⟩
      | cons second rest => exact ⟨_, List.intercalate_cons_of_ne_nil (List.cons_ne_nil _ _)⟩
    rw [start, List.takeWhile_cons_of_neg (by simpa using plain)]

/-- The parts between the slashes are those of the path. -/
theorem parts_spelt :
    ((Text.splitAt '/' path.spelt).filter fun part => part ≠ [] ∧ part ≠ ['.']).map String.ofList
      = path.parts := by
  by_cases none : path.parts = []
  · rw [spelt, none]
    rfl
  rw [spelt, Text.splitAt_intercalate (mt List.map_eq_nil_iff.mp none), List.filter_eq_self.mpr, List.map_map]
  · exact List.map_id'' (fun _ => String.ofList_toList) _
  · intro cs member
    obtain ⟨part, among, rfl⟩ := List.mem_map.mp member
    obtain ⟨present, other, -⟩ := normal part among
    exact decide_eq_true ⟨mt String.toList_eq_nil_iff.mp present,
      fun point => other (String.toList_inj.mp point)⟩
  · intro cs member
    obtain ⟨part, among, rfl⟩ := List.mem_map.mp member
    exact (normal part among).2.2

/-- A normal path is what its text names. -/
theorem ofText_text : ofText path.text = path := by
  have plain := takeWhile_spelt normal
  have parts := parts_spelt normal
  obtain ⟨root, names⟩ := path
  rw [ofText, toList_text]
  cases root with
  | absolute => simpa [rootOf, plain, Text.splitAt] using parts
  | doubled => simpa [rootOf, plain, Text.splitAt] using parts
  | relative =>
    dsimp only
    split
    · next none => rw [none]; rfl
    · simpa [rootOf, plain] using parts

end

/-- The home folders of other users are normal and start at the root. -/
theorem spec_of_homeOf? {user : String} {home : Path} (known : homeOf? user = some home) :
    home.IsNormal ∧ home.root ≠ .relative := by
  obtain ⟨text, found, rfl⟩ := Option.map_eq_some_iff.mp known
  refine ⟨isNormal_ofText text, ?_⟩
  have member : text ∈ systemHomes.map Prod.snd := by
    obtain ⟨before, after, same, -⟩ := List.lookup_eq_some_iff.mp found
    rw [same]
    simp
  have rooted : ∀ text ∈ systemHomes.map Prod.snd, (ofText text).root ≠ .relative := by decide
  exact rooted text member

/-- A path that comes of expanding a normal one is normal, and expanding it again changes nothing. -/
theorem expandHome?_again {home path found : Path} (normal : home.IsNormal) (rooted : home.root ≠ .relative)
    (normal' : path.IsNormal) (expanded : expandHome? home path = some found) :
    found.IsNormal ∧ expandHome? home found = some found := by
  have stays {path : Path} (rooted : path.root ≠ .relative) : expandHome? home path = some path := by
    unfold expandHome?
    split
    · next relative _ => exact absurd relative rooted
    · rfl
  have again := expanded
  unfold expandHome? at expanded
  split at expanded
  · next parts =>
    split at expanded
    · obtain rfl := Option.some_inj.mp expanded
      exact ⟨isNormal_expanded normal normal' parts, stays rooted⟩
    · obtain ⟨other, known, rfl⟩ := Option.map_eq_some_iff.mp expanded
      obtain ⟨normal, rooted⟩ := spec_of_homeOf? known
      exact ⟨isNormal_expanded normal normal' parts, stays rooted⟩
    · obtain rfl := Option.some_inj.mp expanded
      exact ⟨normal', again⟩
  · obtain rfl := Option.some_inj.mp expanded
    exact ⟨normal', again⟩

end Path

/-! ### Folders -/

namespace Disk

variable {α : Type} {disk made : Disk α}

/-- Whether another disk has the same files and at least the folders. -/
structure Extends (disk other : Disk α) : Prop where
  files : other.files = disk.files
  here : other.here = disk.here
  folders : disk.folders ⊆ other.folders

theorem isFolderAt_of_subset {other : Disk α} (folders : disk.folders ⊆ other.folders) {place : Location}
    (there : disk.isFolderAt place = true) : other.isFolderAt place = true := by
  rw [isFolderAt, Bool.or_eq_true, List.contains_iff_mem] at there ⊢
  exact there.imp_right fun member => folders member

theorem extends_of_makeAlong {place : Location} {parts : List String}
    (makes : disk.makeAlong place parts = .ok made) : disk.Extends made := by
  induction parts generalizing disk place with
  | nil =>
    obtain rfl := Except.ok.inj makes
    exact ⟨rfl, rfl, List.Subset.refl _⟩
  | cons part parts ih =>
    rw [makeAlong] at makes
    cases next : step place part with
    | error error =>
      rw [next] at makes
      cases makes
    | ok target =>
      rw [next] at makes
      change (if disk.isFolderAt target then _ else if disk.isFileAt target then _ else _) = _ at makes
      split at makes
      · exact ih makes
      · split at makes
        · cases makes
        · obtain ⟨files, here, folders⟩ := ih makes
          exact ⟨files, here, fun _ member => folders (List.mem_append_left _ member)⟩

/-- Folders that have been made along the parts are not made again. -/
theorem makeAlong_again {place : Location} {parts : List String}
    (makes : disk.makeAlong place parts = .ok made) {later : Disk α}
    (folders : made.folders ⊆ later.folders) : later.makeAlong place parts = .ok later := by
  induction parts generalizing disk place with
  | nil => rfl
  | cons part parts ih =>
    rw [makeAlong] at makes ⊢
    cases next : step place part with
    | error error =>
      rw [next] at makes
      cases makes
    | ok target =>
      rw [next] at makes
      change (if disk.isFolderAt target then _ else if disk.isFileAt target then _ else _) = _ at makes
      change (if later.isFolderAt target then later.makeAlong target parts else _) = _
      split at makes
      · next there =>
        have kept := (extends_of_makeAlong makes).folders
        rw [if_pos (isFolderAt_of_subset folders (isFolderAt_of_subset kept there))]
        exact ih makes
      · split at makes
        · cases makes
        · have member : target ∈ made.folders :=
            (extends_of_makeAlong makes).folders (List.mem_append_right _ (List.mem_singleton_self _))
          have there : later.isFolderAt target = true := by
            rw [isFolderAt, Bool.or_eq_true, List.contains_iff_mem]
            exact .inr (folders member)
          rw [if_pos there]
          exact ih makes

theorem extends_of_makeFolders {path : Path} (makes : disk.makeFolders path = .ok made) :
    disk.Extends made := by
  unfold makeFolders at makes
  split at makes
  · cases makes
  · exact extends_of_makeAlong makes

/-- A folder that has been made is not made again. -/
theorem makeFolders_again {path : Path} (makes : disk.makeFolders path = .ok made) {later : Disk α}
    (here : later.here = made.here) (folders : made.folders ⊆ later.folders) :
    later.makeFolders path = .ok later := by
  have start : later.start path = disk.start path := by
    rw [Disk.start, Disk.start, here, (extends_of_makeFolders makes).here]
  unfold makeFolders at makes ⊢
  split at makes
  · cases makes
  · rw [start]
    exact makeAlong_again makes folders

end Disk

end DhtRecords
