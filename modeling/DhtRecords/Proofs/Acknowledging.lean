/-
Acknowledgements over whole runs.

A correlator's table of acknowledgements keeps the greatest of each item, gives
each out once, and forgets the item that it has not heard of for longest. What
was accepted and claimed makes up the deeds of a run (`Deed`); `held` is the
table that they lead to, and whatever goes on around a correlator, the table it
has is that one (`Act.held_run`). The rest is about lists of deeds, by induction
on them: the order of the keys is that in which their items were accepted last
(`recent_held`), and under a key is the greatest of what was accepted since the
key left (`get?_held`). An acknowledgement that is claimed is traced back to its
alert by what it has outlasted (`outlasts_of_held`).
-/

import DhtRecords.Proofs.Lifetimes
import DhtRecords.Proofs.Tables
import DhtRecords.Put
import Mathlib.Data.Finset.Card
import Mathlib.Data.Int.ConditionallyCompleteOrder
import Mathlib.Data.List.MinMax

namespace DhtRecords

variable {τ ν : Type}

/-- The name of the item that was put. -/
def Acknowledgement.key (acknowledgement : Acknowledgement τ) : String :=
  infoHash acknowledgement.owner acknowledgement.salt

namespace Correlator

/-! ### Deeds -/

/-- What is done to a table of acknowledgements. -/
inductive Deed (τ : Type) where
  /-- One was accepted. -/
  | accepted (acknowledgement : Acknowledgement τ)
  /-- One was returned to a caller who waited for it. -/
  | claimed (acknowledgement : Acknowledgement τ)

namespace Deed

/-- The name of the item that it is about. -/
def key : Deed τ → String
  | accepted acknowledgement => acknowledgement.key
  | claimed acknowledgement => acknowledgement.key

/-- The acknowledgement of an item that was accepted, if it is that. -/
def accepted? (key : String) : Deed τ → Option (Acknowledgement τ)
  | accepted acknowledgement => if acknowledgement.key = key then some acknowledgement else none
  | claimed _ => none

/-- The table after a deed, with room for so many. -/
def apply (count : Nat) :
    Deed τ → Entries String (Acknowledgement τ) → Entries String (Acknowledgement τ)
  | accepted arrived, table =>
    (table.insert arrived.key (newerOf (table.get? arrived.key) arrived)).newest count
  | claimed taken, table => table.erase taken.key

end Deed

/-- The table that deeds lead to, the latest first. -/
def held (count : Nat) (deeds : List (Deed τ)) : Entries String (Acknowledgement τ) :=
  deeds.foldr (Deed.apply count) {}

/-- Whether a key leaves the table by a deed, after earlier ones. -/
def Leaves (count : Nat) (key : String) (deed : Deed τ) (early : List (Deed τ)) : Prop :=
  (held count early).contains key = true ∧ (held count (deed :: early)).contains key = false

instance (count : Nat) (key : String) (deed : Deed τ) (early : List (Deed τ)) :
    Decidable (Leaves count key deed early) :=
  inferInstanceAs (Decidable (_ ∧ _))

/-- The acknowledgements of an item that were accepted since its key left the table last, the latest
first. -/
def since (count : Nat) (key : String) : List (Deed τ) → List (Acknowledgement τ)
  | [] => []
  | deed :: early =>
    if Leaves count key deed early then []
    else (deed.accepted? key).toList ++ since count key early

/-- The other items of which acknowledgements were accepted after the latest one of an item. -/
def othersAfter (key : String) : List (Deed τ) → Finset String
  | [] => ∅
  | .accepted acknowledgement :: early =>
    if acknowledgement.key = key then ∅ else insert acknowledgement.key (othersAfter key early)
  | .claimed _ :: early => othersAfter key early

/-- Whether a claim takes what is held. -/
inductive Fair (count : Nat) : List (Deed τ) → Prop
  | nil : Fair count []
  | accepted {early : List (Deed τ)} (acknowledgement : Acknowledgement τ) :
      Fair count early → Fair count (.accepted acknowledgement :: early)
  | claimed {early : List (Deed τ)} {acknowledgement : Acknowledgement τ} :
      Fair count early → (held count early).get? acknowledgement.key = some acknowledgement →
      Fair count (.claimed acknowledgement :: early)

/-! ### The order of keys -/

theorem ne_of_mem_othersAfter {key other : String} {deeds : List (Deed τ)}
    (member : other ∈ othersAfter key deeds) : other ≠ key := by
  induction deeds with
  | nil => simp [othersAfter] at member
  | cons deed early ih =>
    cases deed with
    | accepted arrived =>
      unfold othersAfter at member
      split at member
      · simp at member
      · next differs =>
        rcases Finset.mem_insert.mp member with rfl | member
        · exact differs
        · exact ih member
    | claimed taken => exact ih member

/-- Whether each of the later keys is of an item that was accepted after the last time that the earlier
one was. -/
def Recent (deeds : List (Deed τ)) (keys : List String) : Prop :=
  keys.Pairwise fun old new => new ∈ othersAfter old deeds

theorem Recent.nodup {deeds : List (Deed τ)} {keys : List String} (recent : Recent deeds keys) :
    keys.Nodup :=
  recent.imp fun later => (ne_of_mem_othersAfter later).symm

/-- An item that is accepted goes to the end. -/
theorem Recent.accepted {deeds : List (Deed τ)} {keys : List String} (recent : Recent deeds keys)
    (arrived : Acknowledgement τ) :
    Recent (.accepted arrived :: deeds) (keys.filter (· ≠ arrived.key) ++ [arrived.key]) := by
  have others {old : String} (kept : old ∈ keys.filter (· ≠ arrived.key)) :
      othersAfter old (.accepted arrived :: deeds) = insert arrived.key (othersAfter old deeds) := by
    have differs : old ≠ arrived.key := of_decide_eq_true (List.mem_filter.mp kept).2
    exact if_neg (Ne.symm differs)
  refine List.pairwise_append.mpr ⟨?_, List.pairwise_singleton _ _, ?_⟩
  · refine (List.Pairwise.filter _ recent).imp_of_mem fun kept _ later => ?_
    rw [others kept]
    exact Finset.mem_insert_of_mem later
  · intro old kept new last
    obtain rfl := List.mem_singleton.mp last
    rw [others kept]
    exact Finset.mem_insert_self _ _

theorem recent_held (count : Nat) (deeds : List (Deed τ)) : Recent deeds (held count deeds).keys := by
  induction deeds with
  | nil => exact .nil
  | cons deed early ih =>
    cases deed with
    | accepted arrived =>
      have grown := ih.accepted arrived
      rw [← Entries.keys_insert _ _ (newerOf ((held count early).get? arrived.key) arrived)] at grown
      change Recent _ (Entries.newest _ _).keys
      rw [Entries.keys_newest]
      exact grown.sublist (List.drop_sublist _ _)
    | claimed taken =>
      change Recent _ (Entries.erase _ _).keys
      rw [Entries.keys_erase]
      exact List.Pairwise.filter _ ih

theorem nodup_held (count : Nat) (deeds : List (Deed τ)) : (held count deeds).keys.Nodup :=
  (recent_held count deeds).nodup

theorem size_held (count : Nat) (deeds : List (Deed τ)) : (held count deeds).size ≤ count := by
  induction deeds with
  | nil => exact Nat.zero_le _
  | cons deed early ih =>
    cases deed with
    | accepted arrived => exact (Entries.size_newest _ _).trans_le (min_le_right _ _)
    | claimed taken => exact (List.length_filter_le _ _).trans ih

/-- A key leaves because of another item only if so many others were accepted since. -/
theorem evicted {count : Nat} {key : String} {arrived : Acknowledgement τ} {early : List (Deed τ)}
    (leaves : Leaves count key (.accepted arrived) early) (differs : key ≠ arrived.key) :
    count ≤ (othersAfter key (.accepted arrived :: early)).card := by
  obtain ⟨present, absent⟩ := leaves
  let full := (held count early).insert arrived.key
    (newerOf ((held count early).get? arrived.key) arrived)
  have recent : Recent (.accepted arrived :: early) full.keys := by
    rw [Entries.keys_insert]
    exact (recent_held count early).accepted arrived
  have left : (full.newest count).keys = full.keys.drop (full.size - count) :=
    Entries.keys_newest _ _
  have gone : key ∉ full.keys.drop (full.size - count) := by
    rw [← left, ← Entries.contains_iff]
    exact ne_true_of_eq_false absent
  have member : key ∈ full.keys := by
    rw [Entries.keys_insert]
    refine List.mem_append_left _ (List.mem_filter.mpr ⟨?_, decide_eq_true differs⟩)
    exact (Entries.contains_iff _ _).mp present
  -- The key is among the oldest, which are dropped: what is left fills the table.
  rw [← List.take_append_drop (full.size - count) full.keys] at member recent
  have dropped := (List.mem_append.mp member).resolve_right gone
  have later := (List.pairwise_append.mp recent).2.2 key dropped
  have length : (full.keys.drop (full.size - count)).length = count := by
    have some : 0 < full.size - count := by
      by_contra none
      simp [Nat.eq_zero_of_not_pos none] at dropped
    have total : full.keys.length = full.size := List.length_map _
    rw [List.length_drop]
    omega
  calc count = (full.keys.drop (full.size - count)).toFinset.card := by
        rw [List.toFinset_card_of_nodup, length]
        exact Recent.nodup (List.pairwise_append.mp recent).2.1
    _ ≤ (othersAfter key (.accepted arrived :: early)).card :=
        Finset.card_le_card fun other member => later other (List.mem_toFinset.mp member)

/-! ### What is held of an item -/

/-- What is held of the item that was accepted last. -/
theorem get?_held_accepted {count : Nat} (positive : 0 < count) (arrived : Acknowledgement τ)
    (early : List (Deed τ)) :
    (held count (.accepted arrived :: early)).get? arrived.key =
      some (newerOf ((held count early).get? arrived.key) arrived) :=
  Entries.get?_newest_insert _ (nodup_held count early) _ _ positive

theorem get?_held_claimed (count : Nat) (taken : Acknowledgement τ) (early : List (Deed τ)) :
    (held count (.claimed taken :: early)).get? taken.key = none :=
  (Entries.get?_erase _ _ _).trans (if_pos rfl)

/-- Of the other items either the same is held as before, or nothing. -/
theorem get?_held_other {count : Nat} {key : String} {deed : Deed τ} (early : List (Deed τ))
    (differs : key ≠ deed.key) (present : (held count (deed :: early)).contains key = true) :
    (held count (deed :: early)).get? key = (held count early).get? key := by
  cases deed with
  | accepted arrived =>
    have distinct := Entries.nodup_keys_insert (nodup_held count early) arrived.key
      (newerOf ((held count early).get? arrived.key) arrived)
    refine (Entries.get?_newest distinct present).trans ?_
    exact (Entries.get?_insert _ _ _ _).trans (if_neg differs)
  | claimed taken =>
    exact (Entries.get?_erase _ _ _).trans (if_neg differs)

/-- An item that does not leave, and of which nothing is accepted, is held as before. -/
theorem get?_held_stays {count : Nat} {key : String} {deed : Deed τ} {early : List (Deed τ)}
    (stays : ¬ Leaves count key deed early) (other : deed.accepted? key = none) :
    (held count (deed :: early)).get? key = (held count early).get? key := by
  by_cases present : (held count (deed :: early)).contains key = true
  · refine get?_held_other early ?_ present
    rintro rfl
    cases deed with
    | accepted arrived => simp [Deed.accepted?, Deed.key] at other
    | claimed taken =>
      have gone := get?_held_claimed count taken early
      exact absurd gone (Option.isSome_iff_ne_none.mp present)
  · have present := eq_false_of_ne_true present
    have absent : (held count early).contains key = false :=
      eq_false_of_ne_true fun before => stays ⟨before, present⟩
    rw [Entries.contains_eq_false_iff] at present absent
    exact present.trans absent.symm

theorem Deed.accepted?_eq_some {key : String} {deed : Deed τ} {arrived : Acknowledgement τ}
    (accepted : deed.accepted? key = some arrived) : deed = .accepted arrived ∧ arrived.key = key := by
  cases deed with
  | accepted other =>
    obtain ⟨same, rfl⟩ := Option.ite_some_none_eq_some.mp accepted
    exact ⟨rfl, same⟩
  | claimed taken => cases accepted

/-- What is held of an item is the greatest, and of these the latest, that was accepted of it since
its key left. -/
theorem get?_held {count : Nat} (positive : 0 < count) (key : String) (deeds : List (Deed τ)) :
    (held count deeds).get? key = (since count key deeds).argmax (·.sequence) := by
  induction deeds with
  | nil => rfl
  | cons deed early ih =>
    unfold since
    split
    · next leaves =>
      rw [List.argmax_nil]
      exact (Entries.contains_eq_false_iff _ _).mp leaves.2
    · next stays =>
      cases accepted : deed.accepted? key with
      | none => exact (get?_held_stays stays accepted).trans ih
      | some arrived =>
        obtain ⟨rfl, rfl⟩ := Deed.accepted?_eq_some accepted
        -- `newerOf` compares as `argmax` does, and of equals takes the later one, too.
        rw [get?_held_accepted positive, ih, Option.toList_some, List.singleton_append,
          List.argmax_cons]
        cases (since count arrived.key early).argmax (·.sequence) with
        | none => rfl
        | some greatest => exact apply_ite some _ _ _

/-- An item that was not claimed leaves only if so many others were accepted since. -/
theorem le_card_othersAfter {count : Nat} (positive : 0 < count) {key : String} {deed : Deed τ}
    {early : List (Deed τ)} (leaves : Leaves count key deed early)
    (unclaimed : ∀ taken, deed = .claimed taken → taken.key ≠ key) :
    count ≤ (othersAfter key (deed :: early)).card := by
  have absent := (Entries.contains_eq_false_iff _ _).mp leaves.2
  cases deed with
  | accepted arrived =>
    refine evicted leaves ?_
    rintro rfl
    cases absent.symm.trans (get?_held_accepted positive arrived early)
  | claimed taken =>
    have kept := (Entries.get?_erase (held count early) taken.key key).trans
      (if_neg (unclaimed taken rfl).symm)
    exact absurd (kept.symm.trans absent) (Option.isSome_iff_ne_none.mp leaves.1)

/-! ### Claims -/

/-- Whether an acknowledgement outlasts later deeds: nothing of its item was claimed, and those that were
accepted of it are of lower numbers. -/
def Outlasts (acknowledgement : Acknowledgement τ) (later : List (Deed τ)) : Prop :=
  ∀ deed ∈ later, deed.key = acknowledgement.key →
    ∃ older, deed = .accepted older ∧ older.sequence < acknowledgement.sequence

theorem newerOf_cases (previous : Option (Acknowledgement τ)) (arrived : Acknowledgement τ) :
    newerOf previous arrived = arrived ∨
      ∃ newer, previous = some newer ∧ newerOf previous arrived = newer ∧
        arrived.sequence < newer.sequence := by
  cases previous with
  | none => exact .inl rfl
  | some newer =>
    by_cases older : arrived.sequence < newer.sequence
    · exact .inr ⟨newer, rfl, if_pos older, older⟩
    · exact .inl (if_neg older)

/-- What is held was accepted, and has outlasted everything since. -/
theorem outlasts_of_held {count : Nat} (positive : 0 < count) {key : String}
    {acknowledgement : Acknowledgement τ} {deeds : List (Deed τ)}
    (found : (held count deeds).get? key = some acknowledgement) :
    acknowledgement.key = key ∧ ∃ later early, deeds = later ++ .accepted acknowledgement :: early ∧
      Outlasts acknowledgement later := by
  induction deeds with
  | nil => cases found
  | cons deed early ih =>
    by_cases same : key = deed.key
    · subst same
      cases deed with
      | claimed taken => cases found.symm.trans (get?_held_claimed count taken early)
      | accepted arrived =>
        have kept := Option.some_inj.mp (found.symm.trans (get?_held_accepted positive arrived early))
        rcases newerOf_cases ((held count early).get? arrived.key) arrived with
          same | ⟨newer, previous, same, older⟩
        · obtain rfl := kept.trans same
          exact ⟨rfl, [], early, rfl, nofun⟩
        · obtain rfl := kept.trans same
          obtain ⟨name, later, earlier, rfl, outlasts⟩ := ih previous
          refine ⟨name, .accepted arrived :: later, earlier, rfl, ?_⟩
          exact List.forall_mem_cons.mpr ⟨fun _ => ⟨arrived, rfl, older⟩, outlasts⟩
    · have present : (held count (deed :: early)).contains key = true := by
        rw [Entries.contains, found, Option.isSome_some]
      have before := (get?_held_other early same present).symm.trans found
      obtain ⟨name, later, earlier, rfl, outlasts⟩ := ih before
      refine ⟨name, deed :: later, earlier, rfl, List.forall_mem_cons.mpr ⟨fun own => ?_, outlasts⟩⟩
      exact absurd (name.symm.trans own.symm) same

/-- Two ways to split a row at an element are the same, or each element is beyond the other split. -/
theorem split_cases {α : Type} {left left' right right' : List α} {first second : α}
    (same : left ++ first :: right = left' ++ second :: right') :
    (left = left' ∧ first = second ∧ right = right') ∨ (first ∈ left' ∧ second ∈ right) ∨
      (second ∈ left ∧ first ∈ right') := by
  induction left generalizing left' with
  | nil =>
    cases left' with
    | nil =>
      obtain ⟨rfl, rfl⟩ := List.cons.inj same
      exact .inl ⟨rfl, rfl, rfl⟩
    | cons head rest =>
      obtain ⟨rfl, rfl⟩ := List.cons.inj same
      exact .inr (.inl ⟨List.mem_cons_self, by simp⟩)
  | cons head rest ih =>
    cases left' with
    | nil =>
      obtain ⟨rfl, rfl⟩ := List.cons.inj same
      exact .inr (.inr ⟨List.mem_cons_self, by simp⟩)
    | cons head' rest' =>
      obtain ⟨rfl, others⟩ := List.cons.inj same
      rcases ih others with ⟨rfl, rfl, rfl⟩ | ⟨early, late⟩ | ⟨late, early⟩
      · exact .inl ⟨rfl, rfl, rfl⟩
      · exact .inr (.inl ⟨List.mem_cons_of_mem _ early, late⟩)
      · exact .inr (.inr ⟨List.mem_cons_of_mem _ late, early⟩)

/-- Whether a claim was answered by an alert. The claim is known by the deeds that came after it, and the
alert by those that had come before it. -/
def Answered (deeds late : List (Deed τ)) (acknowledgement : Acknowledgement τ)
    (early : List (Deed τ)) : Prop :=
  ∃ between,
    deeds = late ++ .claimed acknowledgement :: (between ++ .accepted acknowledgement :: early) ∧
      Outlasts acknowledgement between

/-- An acknowledgement outlasts neither a claim of its own nor itself. -/
theorem Outlasts.not_mem {acknowledgement : Acknowledgement τ} {later : List (Deed τ)}
    (outlasts : Outlasts acknowledgement later) :
    .claimed acknowledgement ∉ later ∧ .accepted acknowledgement ∉ later := by
  constructor
  · intro member
    obtain ⟨older, claimed, -⟩ := outlasts _ member rfl
    cases claimed
  · intro member
    obtain ⟨older, accepted, less⟩ := outlasts _ member rfl
    cases accepted
    exact lt_irrefl _ less

/-- An alert answers one claim at most. -/
theorem Answered.unique {deeds late late' early : List (Deed τ)}
    {acknowledgement other : Acknowledgement τ} (answered : Answered deeds late acknowledgement early)
    (answered' : Answered deeds late' other early) : late = late' := by
  obtain ⟨between, rfl, outlasts⟩ := answered
  obtain ⟨between', same, outlasts'⟩ := answered'
  -- Without what came before the alert, these are two splits at the same claim.
  simp only [← List.cons_append, ← List.append_assoc] at same
  obtain ⟨front, back⟩ := List.append_inj' same (by simp)
  cases (List.cons.inj back).1
  rcases split_cases front with ⟨rfl, -⟩ | ⟨-, member⟩ | ⟨-, member⟩
  · rfl
  · exact absurd member outlasts.not_mem.1
  · exact absurd member outlasts'.not_mem.1

theorem Fair.of_append {count : Nat} {late early : List (Deed τ)} (fair : Fair count (late ++ early)) :
    Fair count early := by
  induction late with
  | nil => exact fair
  | cons deed rest ih =>
    cases fair with
    | accepted _ fair => exact ih fair
    | claimed fair _ => exact ih fair

/-- A claim is answered by exactly one alert. -/
theorem Fair.answered {count : Nat} (positive : 0 < count) {late rest : List (Deed τ)}
    {taken : Acknowledgement τ} (fair : Fair count (late ++ .claimed taken :: rest)) :
    ∃! early, Answered (late ++ .claimed taken :: rest) late taken early := by
  cases fair.of_append with
  | claimed _ found =>
    obtain ⟨-, between, early, rfl, outlasts⟩ := outlasts_of_held positive found
    refine ⟨early, ⟨between, rfl, outlasts⟩, ?_⟩
    rintro early' ⟨between', same, outlasts'⟩
    have same := (List.cons.inj (List.append_cancel_left same)).2
    rcases split_cases same with ⟨-, -, same⟩ | ⟨member, -⟩ | ⟨member, -⟩
    · exact same.symm
    · exact absurd member outlasts'.not_mem.2
    · exact absurd member outlasts.not_mem.2

end Correlator

open Correlator (Deed held)

/-! ### What goes on around a correlator -/

/-- The acknowledgement that was accepted, if it is that what has happened. -/
def Occurrence.acknowledgement? : Occurrence τ → Option (Acknowledgement τ)
  | .accepted (.acknowledgement owner salt sequence successes message) moment =>
    some ⟨owner, salt, sequence, successes, message, moment⟩
  | _ => none

namespace World

/-- The acknowledgements that were accepted from one world to a later one, the latest first. -/
def acknowledged (before after : World τ ν) : List (Acknowledgement τ) :=
  (after.journal.take (after.journal.length - before.journal.length)).filterMap
    Occurrence.acknowledgement?

theorem acknowledged_of_append {before after : World τ ν} {fresh : List (Occurrence τ)}
    (journal : after.journal = fresh ++ before.journal) :
    before.acknowledged after = fresh.filterMap Occurrence.acknowledgement? := by
  rw [acknowledged, journal]
  simp

/-- Whether nothing was done to a table of acknowledgements but that some were accepted. -/
structure Collects (before after : World τ ν) : Prop where
  capacity : after.correlator.capacity = before.correlator.capacity
  suffix : before.journal <:+ after.journal
  acknowledgements : after.correlator.acknowledgements =
    ((before.acknowledged after).map Deed.accepted).foldr
      (Deed.apply before.correlator.capacity.acknowledgements) before.correlator.acknowledgements

namespace Collects

theorem of_append {before after : World τ ν} (fresh : List (Occurrence τ))
    (capacity : after.correlator.capacity = before.correlator.capacity)
    (journal : after.journal = fresh ++ before.journal)
    (acknowledgements : after.correlator.acknowledgements =
      ((fresh.filterMap Occurrence.acknowledgement?).map Deed.accepted).foldr
        (Deed.apply before.correlator.capacity.acknowledgements) before.correlator.acknowledgements) :
    Collects before after :=
  ⟨capacity, ⟨fresh, journal.symm⟩, by rw [acknowledged_of_append journal, acknowledgements]⟩

/-- Changes of anything but the table and the journal go unnoticed. -/
theorem of_eq {before after : World τ ν}
    (capacity : after.correlator.capacity = before.correlator.capacity)
    (journal : after.journal = before.journal)
    (acknowledgements : after.correlator.acknowledgements = before.correlator.acknowledgements) :
    Collects before after :=
  .of_append [] capacity journal acknowledgements

theorem refl (world : World τ ν) : Collects world world := .of_eq rfl rfl rfl

theorem trans {first second third : World τ ν} (left : Collects first second)
    (right : Collects second third) : Collects first third := by
  obtain ⟨old, oldJournal⟩ := left.suffix
  obtain ⟨new, newJournal⟩ := right.suffix
  have early := left.acknowledgements
  have late := right.acknowledgements
  rw [acknowledged_of_append oldJournal.symm] at early
  rw [acknowledged_of_append newJournal.symm, left.capacity, early] at late
  refine .of_append (new ++ old) (right.capacity.trans left.capacity) ?_ ?_
  · rw [← newJournal, ← oldJournal, List.append_assoc]
  · rw [late, List.filterMap_append, List.map_append, List.foldr_append]

instance : Std.Refl (Collects (τ := τ) (ν := ν)) := ⟨refl⟩

instance : IsTrans (World τ ν) Collects := ⟨fun _ _ _ => trans⟩

theorem note {occurrence : Occurrence τ} (other : occurrence.acknowledgement? = none)
    (world : World τ ν) : Collects world (world.note occurrence) :=
  .of_append [occurrence] rfl rfl (by rw [List.filterMap_cons, other]; rfl)

end Collects

theorem collects_deliver (alert : Alert) (world : World τ ν) :
    Collects world (world.deliver alert) := by
  unfold deliver
  by_cases running : world.correlator.running = true
  · refine .of_append [.accepted alert world.clock] ?_ ?_ ?_ <;>
      simp only [running, if_true, note]
    · cases alert <;> simp [Correlator.receive, Correlator.accept, running]
    · rfl
    · cases alert <;> simp [Correlator.receive, Correlator.accept, running,
        Occurrence.acknowledgement?, List.filterMap_cons, Deed.apply, Acknowledgement.key]
  · refine .of_eq ?_ ?_ ?_ <;> simp [running, Correlator.receive]

section

variable [Quantity τ]

theorem Idle.collects {before after : World τ ν} (idle : Idle before after) :
    Collects before after := by
  cases idle with
  | called engine failed => exact .note rfl before
  | deliver alert => exact collects_deliver alert before
  | _ => exact .of_eq rfl rfl rfl

theorem Idles.collects {before after : World τ ν} (idles : Idles before after) :
    Collects before after :=
  Relation.reflTransGen_le_of_le (fun _ _ idle => idle.collects) _ _ idles

omit [Quantity τ] in
theorem Alters.collects {before after : World τ ν} (alters : Alters before after) :
    Collects before after := by
  obtain ⟨session, tasks, engines, running, noted, rfl, changes⟩ := alters
  refine .of_append noted rfl rfl ?_
  have none : noted.filterMap Occurrence.acknowledgement? = [] := by
    refine List.filterMap_eq_nil_iff.mpr fun occurrence member => ?_
    have change := changes occurrence member
    cases occurrence with
    | accepted => cases change
    | _ => rfl
  rw [none]
  rfl

variable [Overlay τ ν]

theorem Upkeep.collects {before after : World τ ν} (upkeep : Upkeep before after) :
    Collects before after :=
  upkeep.keeps (fun _ _ idle => idle.collects) fun _ _ alters => alters.collects

omit [Quantity τ] [Overlay τ ν] in
theorem collects_hear (running : Bool) (world : World τ ν) : Collects world (world.hear running) :=
  .of_eq rfl rfl rfl

theorem collects_startCorrelator (engine : EngineId) (world : World τ ν) :
    Collects world (world.startCorrelator engine).2 :=
  (collects_hear true world).trans (idles_ask engine rfl _).collects

theorem collects_stopCorrelator (engine : Option EngineId) (world : World τ ν) :
    Collects world (world.stopCorrelator engine).2 := by
  unfold stopCorrelator
  split
  · cases engine with
    | none => exact collects_hear false world
    | some engine => exact (collects_hear false world).trans (idles_ask engine rfl _).collects
  · exact .refl world

theorem collects_perform (event : Event ν) (world : World τ ν) :
    Collects world (world.perform event) := by
  cases event with
  | halt => exact collects_stopCorrelator none world
  | _ => exact (meanwhile_perform (by simp) world).upkeep.collects

end

end World

/-! ### Runs -/

namespace Correlator

variable [Quantity τ] [Overlay τ ν]

open World

/-- What happens around a correlator. -/
inductive Act (τ ν : Type) where
  | start (engine : EngineId)
  | stop (engine : Option EngineId)
  /-- A caller waits for the acknowledgement of a put. -/
  | wait (key : String) (since timeout : τ) (sequence : Option Int)
  /-- An event happens: an alert reaches the correlator, say. -/
  | happen (event : Event ν)
  /-- An event is due after a delay, in the course of a wait, say. -/
  | plan (delay : τ) (event : Event ν)
  /-- The session that the correlator belongs to serves its callers. -/
  | request (request : Session.Request τ)

/-- What an act leads to, with the acknowledgement that it returns, if it does so. -/
def Act.perform : Act τ ν → World τ ν → Option (Acknowledgement τ) × World τ ν
  | start engine, world => (none, (world.startCorrelator engine).2)
  | stop engine, world => (none, (world.stopCorrelator engine).2)
  | wait key since timeout sequence, world =>
    Put.waitForAcknowledgement key since timeout sequence world
  | happen event, world => (none, world.perform event)
  | plan delay event, world => (none, world.schedule delay event)
  | request asked, world => (none, asked.serve world)

/-- What a run of acts, the latest first, leads to: its deeds, and a world. Of several callers who
wait, one takes what is there as if the wait had begun just then. -/
def Act.run (first : World τ ν) : List (Act τ ν) → List (Deed τ) × World τ ν
  | [] => ([], first)
  | act :: early =>
    let (deeds, world) := run first early
    let (returned, after) := act.perform world
    (returned.toList.map .claimed ++ (world.acknowledged after).map .accepted ++ deeds, after)

/-- What an act claims is what is held after all that it leads to beside. -/
theorem Act.cases (act : Act τ ν) (world : World τ ν) : ∃ middle, Collects world middle ∧
    ((act.perform world).1 = none ∧ (act.perform world).2 = middle ∨
      ∃ key found, (act.perform world).1 = some found ∧
        middle.correlator.acknowledgements.get? key = some found ∧
        (act.perform world).2 = { middle with correlator := middle.correlator.claim key }) := by
  cases act with
  | start engine => exact ⟨_, collects_startCorrelator engine world, .inl ⟨rfl, rfl⟩⟩
  | stop engine => exact ⟨_, collects_stopCorrelator engine world, .inl ⟨rfl, rfl⟩⟩
  | happen event => exact ⟨_, collects_perform event world, .inl ⟨rfl, rfl⟩⟩
  | plan delay event => exact ⟨world.schedule delay event, .of_eq rfl rfl rfl, .inl ⟨rfl, rfl⟩⟩
  | request request => exact ⟨_, (request.upkeep world).collects, .inl ⟨rfl, rfl⟩⟩
  | wait key since timeout sequence =>
    unfold perform Put.waitForAcknowledgement
    dsimp only
    split
    · next found ready =>
      have held := (Option.filter_eq_some_iff.mp ready).1
      exact ⟨_, (upkeep_run _ _ world).collects, .inr ⟨key, found, rfl, held, rfl⟩⟩
    · exact ⟨_, (upkeep_run _ _ world).collects, .inl ⟨rfl, rfl⟩⟩

omit [Quantity τ] [Overlay τ ν] in
theorem Fair.accepts {count : Nat} {deeds : List (Deed τ)} (fair : Fair count deeds)
    (acknowledgements : List (Acknowledgement τ)) :
    Fair count (acknowledgements.map .accepted ++ deeds) := by
  induction acknowledgements with
  | nil => exact fair
  | cons acknowledgement rest ih => exact .accepted acknowledgement ih

/-- The table of a correlator that was empty at first is what its deeds lead to. -/
theorem Act.held_run {first : World τ ν} (empty : first.correlator.acknowledgements = {})
    (acts : List (Act τ ν)) :
    (run first acts).2.correlator.capacity = first.correlator.capacity ∧
      (run first acts).2.correlator.acknowledgements =
        held first.correlator.capacity.acknowledgements (run first acts).1 ∧
      Fair first.correlator.capacity.acknowledgements (run first acts).1 := by
  induction acts with
  | nil => exact ⟨rfl, empty, .nil⟩
  | cons act early ih =>
    unfold run
    obtain ⟨capacity, table, fair⟩ := ih
    obtain ⟨middle, collects, outcome⟩ := act.cases (run first early).2
    -- First comes what was accepted in the course of the act, then the claim that ends it.
    have accepts := fair.accepts ((run first early).2.acknowledged middle)
    have collected : middle.correlator.acknowledgements =
        held first.correlator.capacity.acknowledgements
          (((run first early).2.acknowledged middle).map .accepted ++ (run first early).1) := by
      rw [collects.acknowledgements, capacity, table, held, held, List.foldr_append]
    dsimp only
    rcases outcome with ⟨none, after⟩ | ⟨key, found, some, ready, after⟩
    · rw [none, after]
      exact ⟨collects.capacity.trans capacity, collected, accepts⟩
    · rw [some, after]
      rw [collected] at ready
      obtain ⟨rfl, -⟩ := outlasts_of_held first.correlator.capacity.acknowledgements_pos ready
      refine ⟨collects.capacity.trans capacity, ?_, .claimed accepts ready⟩
      exact congrArg (Entries.erase · found.key) collected

/-- Whether a table of acknowledgements, with room for so many, is in order after a run. -/
structure InOrder (count : Nat) (table : Entries String (Acknowledgement τ))
    (deeds : List (Deed τ)) : Prop where
  led : table = held count deeds
  /-- No more are held than there is room for. -/
  bounded : table.size ≤ count
  /-- Each claim is answered by an alert. -/
  answered : ∀ late taken rest, deeds = late ++ .claimed taken :: rest →
    ∃! early, Answered deeds late taken early
  /-- No alert answers two claims. -/
  once : ∀ late taken late' taken' early,
    Answered deeds late taken early → Answered deeds late' taken' early → late = late'
  /-- Of an item the greatest is held, and of these the latest, that was accepted since its key left. -/
  greatest : ∀ key, table.get? key = (since count key deeds).argmax (·.sequence)
  /-- An item that was not claimed has left only if so many others were accepted after it. -/
  evicted : ∀ late deed early key, deeds = late ++ deed :: early → Leaves count key deed early →
    (∀ taken, deed = .claimed taken → taken.key ≠ key) →
    count ≤ (othersAfter key (deed :: early)).card

/-- The table of acknowledgements of a new correlator is in order after every run. -/
theorem run_inOrder {events acknowledgements : Int} {capacity : Capacity} {first : World τ ν}
    (sized : capacity? events acknowledgements = some capacity)
    (new : first.correlator = { capacity }) (acts : List (Act τ ν)) :
    (capacity.acknowledgements : Int) = max 1 acknowledgements ∧
      InOrder capacity.acknowledgements (Act.run first acts).2.correlator.acknowledgements
        (Act.run first acts).1 := by
  have room : (capacity.acknowledgements : Int) = max 1 acknowledgements := by
    unfold capacity? at sized
    split at sized
    · cases sized
    · cases sized
      simp only [Nat.cast_max, Int.ofNat_toNat]
      omega
  have positive := capacity.acknowledgements_pos
  have empty : first.correlator.acknowledgements = {} := by rw [new]
  obtain ⟨-, table, fair⟩ := Act.held_run empty acts
  simp only [new] at table fair
  refine ⟨room, table, ?_, ?_, fun _ _ _ _ _ => Answered.unique, ?_, ?_⟩
  · rw [table]
    exact size_held _ _
  · intro late taken rest split
    rw [split] at fair ⊢
    exact fair.answered positive
  · intro key
    rw [table]
    exact get?_held positive key _
  · rintro late deed early key - leaves unclaimed
    exact le_card_othersAfter positive leaves unclaimed

/-- A world with a new correlator, which has room for two acknowledgements. -/
def spacious : World Seconds Session.Placid :=
  { Session.untouched ⟨⟩ {} with correlator := { capacity := ⟨1024, 2, Nat.two_pos⟩ } }

/-- The acknowledgement of a put arrives. -/
def arrival (salt : String) (sequence : Int) : Act Seconds Session.Placid :=
  .happen (.alert (.acknowledgement [7] salt sequence 8 ""))

/-- An older acknowledgement comes late and keeps its item, so that another one is forgotten. -/
def overtaken : List (Act Seconds Session.Placid) :=
  [.start 1, arrival "a" 2, arrival "b" 1, arrival "a" 1, arrival "c" 1].reverse

theorem overtaken_inOrder :
    ((Act.wait (infoHash [7] "a") ⟨0⟩ ⟨5⟩ none).perform
      (Act.run spacious overtaken).2).1.map (·.sequence) = some 2 ∧
    (Act.run spacious overtaken).2.correlator.acknowledgements.keys
      = [infoHash [7] "a", infoHash [7] "c"] ∧
    InOrder 2 (Act.run spacious overtaken).2.correlator.acknowledgements
      (Act.run spacious overtaken).1 := by
  have course : ((Act.wait (infoHash [7] "a") ⟨0⟩ ⟨5⟩ none).perform
        (Act.run spacious overtaken).2).1.map (·.sequence) = some 2 ∧
      (Act.run spacious overtaken).2.correlator.acknowledgements.keys
        = [infoHash [7] "a", infoHash [7] "c"] := by
    decide +kernel
  have sized : capacity? 1024 2 = some spacious.correlator.capacity := rfl
  exact ⟨course.1, course.2, (run_inOrder sized rfl overtaken).2⟩

end Correlator

end DhtRecords
