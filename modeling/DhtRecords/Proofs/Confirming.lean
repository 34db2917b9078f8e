/-
Waits for the acknowledgement of one put.

A table of acknowledgements has one place for each item. One that has arrived is
therefore found by a caller who waits for its number if the place was not taken
by another number: of what was held of the item when it arrived, and of what was
accepted since, nothing may be greater (`Hidden`). Lower numbers, other items
and claims of other acknowledgements make no difference
(`Claimable.get?_held`), and greater ones hide it for good
(`Claimable.sequence_ne_of_hidden`). A wait that returns nothing has ended
because the correlator was stopped, or because its time was up.
-/

import DhtRecords.Proofs.Acknowledging

namespace DhtRecords

variable {τ ν : Type}

namespace Correlator

/-! ### One acknowledgement among others -/

/-- The item of which an acknowledgement was accepted, if that was done. -/
def Deed.acknowledged? : Deed τ → Option String
  | .accepted acknowledgement => some acknowledgement.key
  | .claimed _ => none

/-- The other items of which acknowledgements were accepted. -/
def others (key : String) (deeds : List (Deed τ)) : Finset String :=
  (deeds.filterMap Deed.acknowledged?).toFinset.erase key

/-- What was accepted of an item, the latest first. -/
def acceptedOf (key : String) (deeds : List (Deed τ)) : List (Acknowledgement τ) :=
  deeds.filterMap (Deed.accepted? key)

/-- Whether an acknowledgement, after earlier deeds and before later ones, shares the place of its item
with one of a greater number: one that was held when it arrived, or one that was accepted since. -/
def Hidden (count : Nat) (put : Acknowledgement τ) (late early : List (Deed τ)) : Prop :=
  (∃ newer ∈ (held count early).get? put.key, put.sequence < newer.sequence) ∨
    ∃ newer ∈ acceptedOf put.key late, put.sequence < newer.sequence

instance (count : Nat) (put : Acknowledgement τ) (late early : List (Deed τ)) :
    Decidable (Hidden count put late early) :=
  inferInstanceAs (Decidable (_ ∨ _))

/-- Whether an acknowledgement can be expected in a table with room for so many, after later deeds. -/
structure Claimable (count : Nat) (put : Acknowledgement τ) (late : List (Deed τ)) : Prop where
  /-- No caller has taken it. -/
  unclaimed : .claimed put ∉ late
  /-- It is the latest of its put. -/
  latest : ∀ other ∈ acceptedOf put.key late, other.sequence ≠ put.sequence
  /-- The other items have left room for it. -/
  few : (others put.key late).card < count

theorem mem_acceptedOf {key : String} {deeds : List (Deed τ)} {arrived : Acknowledgement τ} :
    arrived ∈ acceptedOf key deeds ↔ .accepted arrived ∈ deeds ∧ arrived.key = key := by
  rw [acceptedOf, List.mem_filterMap]
  constructor
  · rintro ⟨deed, member, accepted⟩
    obtain ⟨rfl, name⟩ := Deed.accepted?_eq_some accepted
    exact ⟨member, name⟩
  · rintro ⟨member, name⟩
    exact ⟨_, member, if_pos name⟩

theorem acceptedOf_mono {key : String} {fewer more : List (Deed τ)} (within : fewer ⊆ more) :
    acceptedOf key fewer ⊆ acceptedOf key more := fun _ member =>
  mem_acceptedOf.mpr ((mem_acceptedOf.mp member).imp_left (@within _))

theorem others_mono {key : String} {fewer more : List (Deed τ)} (within : fewer ⊆ more) :
    others key fewer ⊆ others key more := by
  refine Finset.erase_subset_erase _ fun other member => ?_
  rw [List.mem_toFinset, List.mem_filterMap] at member ⊢
  obtain ⟨deed, member, own⟩ := member
  exact ⟨deed, within member, own⟩

/-- The items that were accepted after the latest acknowledgement of an item are other ones since any
of its acknowledgements. -/
theorem othersAfter_subset (put : Acknowledgement τ) (late early : List (Deed τ)) :
    othersAfter put.key (late ++ .accepted put :: early) ⊆ others put.key late := by
  induction late with
  | nil => simp [othersAfter]
  | cons deed rest ih =>
    have widened := ih.trans (others_mono (List.subset_cons_self deed rest))
    cases deed with
    | claimed taken => exact widened
    | accepted arrived =>
      rw [List.cons_append, othersAfter]
      split
      · exact Finset.empty_subset _
      · next differs =>
        refine Finset.insert_subset ?_ widened
        simp [others, Deed.acknowledged?, differs]

/-- What is held of an item does not get a number that nothing accepted of it has. -/
theorem sequence_ne_cons {count : Nat} (positive : 0 < count) {key : String} {number : Int}
    {deed : Deed τ} {early : List (Deed τ)}
    (before : ∀ found, (held count early).get? key = some found → found.sequence ≠ number)
    (own : ∀ arrived ∈ deed.accepted? key, arrived.sequence ≠ number)
    {found : Acknowledgement τ} (holds : (held count (deed :: early)).get? key = some found) :
    found.sequence ≠ number := by
  by_cases same : key = deed.key
  · subst same
    cases deed with
    | claimed taken => cases holds.symm.trans (get?_held_claimed count taken early)
    | accepted arrived =>
      have kept := Option.some_inj.mp (holds.symm.trans (get?_held_accepted positive arrived early))
      rcases newerOf_cases ((held count early).get? arrived.key) arrived with
        new | ⟨greater, previous, old, -⟩
      · exact kept.trans new ▸ own arrived (if_pos rfl)
      · exact kept.trans old ▸ before greater previous
  · have present : (held count (deed :: early)).contains key = true := by
      rw [Entries.contains, holds, Option.isSome_some]
    exact before found ((get?_held_other early same present).symm.trans holds)

namespace Claimable

variable {count : Nat} {put : Acknowledgement τ} {late early : List (Deed τ)}

theorem of_cons {deed : Deed τ} (claimable : Claimable count put (deed :: late)) :
    Claimable count put late where
  unclaimed member := claimable.unclaimed (List.mem_cons_of_mem _ member)
  latest other member := claimable.latest other (acceptedOf_mono (List.subset_cons_self _ _) member)
  few := (Finset.card_le_card (others_mono (List.subset_cons_self _ _))).trans_lt claimable.few

/-- Of its item the acknowledgement is held, unless it is hidden. -/
theorem get?_held (claimable : Claimable count put late)
    (fair : Fair count (late ++ .accepted put :: early)) (shown : ¬ Hidden count put late early) :
    (held count (late ++ .accepted put :: early)).get? put.key = some put := by
  have positive : 0 < count := claimable.few.trans_le' (Nat.zero_le _)
  induction late with
  | nil =>
    refine (get?_held_accepted positive put early).trans (congrArg some ?_)
    rcases newerOf_cases ((held count early).get? put.key) put with same | ⟨newer, older, -, less⟩
    · exact same
    · exact absurd (.inl ⟨newer, older, less⟩) shown
  | cons deed rest ih =>
    have before : Fair count ([deed] ++ (rest ++ .accepted put :: early)) := fair
    have kept := ih claimable.of_cons before.of_append fun hidden => shown <| hidden.imp_right
      fun ⟨newer, member, less⟩ => ⟨newer, acceptedOf_mono (List.subset_cons_self _ _) member, less⟩
    cases deed with
    | claimed taken =>
      -- A claim of the item would have been one of the acknowledgement.
      have differs : taken.key ≠ put.key := by
        intro same
        cases fair with
        | claimed _ found =>
          cases (same ▸ found).symm.trans kept
          exact claimable.unclaimed List.mem_cons_self
      exact (Entries.get?_erase _ _ _).trans ((if_neg differs.symm).trans kept)
    | accepted arrived =>
      by_cases same : arrived.key = put.key
      · have member : arrived ∈ acceptedOf put.key (.accepted arrived :: rest) :=
          mem_acceptedOf.mpr ⟨List.mem_cons_self, same⟩
        have lower : arrived.sequence < put.sequence :=
          lt_of_le_of_ne (not_lt.mp fun greater => shown (.inr ⟨arrived, member, greater⟩))
            (claimable.latest arrived member)
        rw [List.cons_append, ← same, get?_held_accepted positive, same, kept, newerOf, if_pos lower]
      · have stays : ¬ Leaves count put.key (.accepted arrived) (rest ++ .accepted put :: early) := by
          intro leaves
          have full := le_card_othersAfter positive leaves nofun
          have few := Finset.card_le_card (othersAfter_subset put (.accepted arrived :: rest) early)
          exact absurd (full.trans few) (not_le.mpr claimable.few)
        exact (get?_held_stays stays (if_neg same)).trans kept

/-- What is held of its item has another number, if the acknowledgement is hidden. -/
theorem sequence_ne_of_hidden (claimable : Claimable count put late)
    (hidden : Hidden count put late early) {found : Acknowledgement τ}
    (holds : (held count (late ++ .accepted put :: early)).get? put.key = some found) :
    found.sequence ≠ put.sequence := by
  have positive : 0 < count := claimable.few.trans_le' (Nat.zero_le _)
  induction late generalizing found with
  | nil =>
    obtain ⟨newer, older, less⟩ := hidden.resolve_right (by simp [acceptedOf])
    have kept := (get?_held_accepted positive put early).symm.trans holds
    rw [Option.mem_def.mp older, newerOf, if_pos less, Option.some_inj] at kept
    exact kept ▸ less.ne'
  | cons deed rest ih =>
    have own : ∀ arrived ∈ deed.accepted? put.key, arrived.sequence ≠ put.sequence := by
      intro arrived accepted
      obtain ⟨rfl, name⟩ := Deed.accepted?_eq_some accepted
      exact claimable.latest arrived (mem_acceptedOf.mpr ⟨List.mem_cons_self, name⟩)
    by_cases before : Hidden count put rest early
    · exact sequence_ne_cons positive (fun _ => ih claimable.of_cons before) own holds
    · -- The greater one has arrived just now, and what is held is no less than it.
      obtain ⟨newer, member, less⟩ := hidden.resolve_left fun older => before (.inl older)
      obtain ⟨member, name⟩ := mem_acceptedOf.mp member
      rcases List.mem_cons.mp member with rfl | member
      · rw [List.cons_append, ← name, get?_held_accepted positive, Option.some_inj] at holds
        rcases newerOf_cases ((held count (rest ++ .accepted put :: early)).get? newer.key) newer
          with same | ⟨greatest, -, same, greater⟩
        · exact (same.symm.trans holds) ▸ less.ne'
        · exact (same.symm.trans holds) ▸ (less.trans greater).ne'
      · exact absurd (.inr ⟨newer, mem_acceptedOf.mpr ⟨member, name⟩, less⟩) before

end Claimable

end Correlator

/-! ### The end of a wait -/

namespace World

variable [Quantity τ]

/-- Whether nothing is due up to a time. -/
def Elapsed (time : τ) (world : World τ ν) : Prop :=
  ∀ due, world.due? = some due → Quantity.lt time due.time = true

variable [Overlay τ ν]

/-- A wait ends with its condition, is given up, or lasts until its deadline. -/
theorem runFor_ends (fuel : Nat) (deadline : τ) (condition : World τ ν → Bool) (world : World τ ν) :
    condition (runFor fuel deadline condition world) = true ∨
      (runFor fuel deadline condition world).stalled = true ∨
      Elapsed deadline (runFor fuel deadline condition world) := by
  induction fuel generalizing world with
  | zero => exact .inr (.inl rfl)
  | succ fuel ih =>
    rw [runFor]
    split
    · next holds => exact .inl holds
    · split
      · next idle => exact .inr (.inr fun due next => by cases idle.symm.trans next)
      · next due next =>
        split
        · next late =>
          exact .inr (.inr fun other another => by cases next.symm.trans another; exact late)
        · exact ih _

end World

namespace Correlator

variable [Quantity τ] [Overlay τ ν]

open World

/-- A caller who waits gets what is ready in the end. If nothing is, the correlator was stopped, the
wait was given up, or its time is up. -/
theorem Act.wait_cases {key : String} {since timeout : τ} {sequence : Option Int}
    {world after : World τ ν} {returned : Option (Acknowledgement τ)}
    (course : (Act.wait key since timeout sequence).perform world = (returned, after)) :
    ∃ middle, Collects world middle ∧ world.acknowledged after = world.acknowledged middle ∧
      returned = middle.correlator.readyAcknowledgement? key since sequence ∧
      (returned = none → after.correlator.running = false ∨ after.stalled = true ∨
        Elapsed (Quantity.add world.clock (Quantity.later Quantity.zero timeout)) after) := by
  let condition (world : World τ ν) : Bool :=
    (world.correlator.readyAcknowledgement? key since sequence).isSome || !world.correlator.running
  let middle := world.wait World.run timeout condition
  have ends : condition middle = true ∨ middle.stalled = true ∨ Elapsed _ middle :=
    runFor_ends world.patience _ condition world
  refine ⟨middle, (upkeep_run _ _ world).collects, ?_⟩
  unfold perform Put.waitForAcknowledgement at course
  dsimp only at course
  split at course
  · next found ready =>
    cases course
    exact ⟨rfl, ready.symm, nofun⟩
  · next unready =>
    obtain ⟨rfl, rfl⟩ := Prod.mk.inj course
    refine ⟨rfl, unready.symm, fun _ => ends.imp_left fun holds => ?_⟩
    have none : middle.correlator.readyAcknowledgement? key since sequence = none := unready
    simpa [condition, none] using holds

/-- A caller who waits for the acknowledgement of one put gets it, unless it is hidden by a greater
number; then the caller gets nothing. A caller who gets nothing has waited for as long as the correlator was
running and the time was not up. -/
theorem wait_confirms {capacity : Capacity} {first : World τ ν}
    (new : first.correlator = { capacity }) (acts : List (Act τ ν)) {since timeout : τ}
    {put : Acknowledgement τ} {returned : Option (Acknowledgement τ)} {after : World τ ν}
    (course : (Act.wait put.key since timeout (some put.sequence)).perform (Act.run first acts).2
      = (returned, after))
    {late early : List (Deed τ)}
    (gathered : ((Act.run first acts).2.acknowledged after).map .accepted ++ (Act.run first acts).1
      = late ++ .accepted put :: early)
    (recent : Quantity.lt put.moment since = false)
    (claimable : Claimable capacity.acknowledgements put late) :
    (returned = some put ↔ ¬ Hidden capacity.acknowledgements put late early) ∧
      (returned = none ↔ Hidden capacity.acknowledgements put late early) ∧
      (returned = none → after.correlator.running = false ∨ after.stalled = true ∨
        Elapsed (Quantity.add (Act.run first acts).2.clock (Quantity.later Quantity.zero timeout))
          after) := by
  have empty : first.correlator.acknowledgements = {} := by rw [new]
  obtain ⟨room, table, fair⟩ := Act.held_run empty acts
  obtain ⟨middle, collects, journal, ready, ends⟩ := Act.wait_cases course
  simp only [new] at room table fair
  -- The wait claims from the table that everything until its end has led to.
  have fair := fair.accepts ((Act.run first acts).2.acknowledged after)
  have collected : middle.correlator.acknowledgements
      = held capacity.acknowledgements (late ++ .accepted put :: early) := by
    rw [← gathered, collects.acknowledgements, room, table, journal, held, held, List.foldr_append]
  rw [gathered] at fair
  have shown (shown : ¬ Hidden capacity.acknowledgements put late early) : returned = some put := by
    rw [ready, Correlator.readyAcknowledgement?, collected, claimable.get?_held fair shown]
    simp [recent]
  have hides (hidden : Hidden capacity.acknowledgements put late early) : returned = none := by
    rw [ready, Correlator.readyAcknowledgement?, collected, Option.filter_eq_none_iff]
    intro found holds
    have differs := claimable.sequence_ne_of_hidden hidden holds
    simp [differs.symm]
  refine ⟨⟨fun some hidden => ?_, shown⟩, ⟨fun none => ?_, hides⟩, ends⟩
  · cases some.symm.trans (hides hidden)
  · by_contra visible
    cases none.symm.trans (shown visible)

deriving instance DecidableEq for Acknowledgement, Deed

/-- The acknowledgement that `arrival` brings at the beginning. -/
def arrived (salt : String) (sequence : Int) : Acknowledgement Seconds :=
  ⟨[7], salt, sequence, 8, "", ⟨0⟩⟩

/-- Older acknowledgements of an item come before and after the one of a put, and one of another item. -/
def surrounded : List (Act Seconds Session.Placid) :=
  [.start 1, arrival "a" 2, arrival "a" 3, arrival "b" 9, arrival "a" 1].reverse

theorem surrounded_confirmed :
    ((Act.wait (infoHash [7] "a") ⟨0⟩ ⟨5⟩ (some 3)).perform (Act.run spacious surrounded).2).1
      = some (arrived "a" 3) := by
  let late : List (Deed Seconds) := [.accepted (arrived "a" 1), .accepted (arrived "b" 9)]
  let early : List (Deed Seconds) := [.accepted (arrived "a" 2)]
  have gathered : ((Act.run spacious surrounded).2.acknowledged
        ((Act.wait (arrived "a" 3).key ⟨0⟩ ⟨5⟩ (some 3)).perform
          (Act.run spacious surrounded).2).2).map .accepted ++ (Act.run spacious surrounded).1
      = late ++ .accepted (arrived "a" 3) :: early := by
    decide +kernel
  have claimable : Claimable 2 (arrived "a" 3) late :=
    ⟨by decide, by decide +kernel, by decide +kernel⟩
  have shown : ¬ Hidden 2 (arrived "a" 3) late early := by decide +kernel
  have new : spacious.correlator = { capacity := ⟨1024, 2, Nat.two_pos⟩ } := rfl
  exact (wait_confirms new surrounded Prod.mk.eta.symm gathered (by decide) claimable).1.mpr shown

/-- The acknowledgement of a put and that of the next one arrive, before anybody waits. -/
def superseded : List (Act Seconds Session.Placid) :=
  [.start 1, arrival "a" 1, arrival "a" 2].reverse

theorem superseded_unconfirmed :
    ((Act.run spacious superseded).2.acknowledged
        ((Act.wait (infoHash [7] "a") ⟨0⟩ ⟨5⟩ (some 1)).perform
          (Act.run spacious superseded).2).2).map .accepted ++ (Act.run spacious superseded).1
        = [.accepted (arrived "a" 2)] ++ .accepted (arrived "a" 1) :: [] ∧
      Quantity.lt (arrived "a" 1).moment ⟨0⟩ = false ∧
      Claimable 2 (arrived "a" 1) [.accepted (arrived "a" 2)] ∧
      ((Act.wait (infoHash [7] "a") ⟨0⟩ ⟨5⟩ (some 1)).perform (Act.run spacious superseded).2).1
        = none := by
  refine ⟨?_, by decide, ⟨by decide, ?_, ?_⟩, ?_⟩ <;> decide +kernel

end Correlator

end DhtRecords
