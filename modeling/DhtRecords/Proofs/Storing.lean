/-
A store as a finite map from info hashes to items.

`Answers` says on a map alone how each call goes: what it gives, and the map
afterwards. A call of a store goes one of these ways by what the store holds
(`Sound.answers`), and so does each of a row of calls (`follows_serve`). An item
can be written if its sequence number fits and its moment is a number. Where a
call raises an error the map stays as it was.

The moments in a store are numbers. Among numbers the order of floats is total
and transitive (`Binary64.le_trans`), so that items sorted by their moments are
in order from the first to the last.
-/

import DhtRecords.Proofs.Fitting
import DhtRecords.Proofs.Tables
import Mathlib.Data.Set.Card

namespace DhtRecords

/-! ### Moments -/

namespace Binary64

open Float.Model

/-- Where a float is in the order, if it is a number: its sign and size class, exponent and mantissa. -/
def rank : UnpackedFloat → Int × Int × Int
  | .infinity .negative => (-2, 0, 0)
  | .finite .negative mantissa exponent _ => (-1, -exponent, -mantissa)
  | .zero _ | .notANumber => (0, 0, 0)
  | .finite .positive mantissa exponent _ => (1, exponent, mantissa)
  | .infinity .positive => (2, 0, 0)

/-- The order of ranks. -/
abbrev compareRanks : Int × Int × Int → Int × Int × Int → Ordering :=
  compareLex (compareOn Prod.fst) (compareLex (compareOn fun rank => rank.2.1)
    (compareOn fun rank => rank.2.2))

theorem compare_neg (a b : Int) : compare (-a) (-b) = (compare a b).swap := by
  rw [← Std.OrientedCmp.eq_swap]
  rcases lt_trichotomy b a with below | rfl | above
  · rw [compare_lt_iff_lt.mpr below, compare_lt_iff_lt.mpr (neg_lt_neg below)]
  · rw [compare_eq_iff_eq.mpr rfl, compare_eq_iff_eq.mpr rfl]
  · rw [compare_gt_iff_gt.mpr above, compare_gt_iff_gt.mpr (neg_lt_neg above)]

theorem compare_natCast (m n : Nat) : compare (m : Int) (n : Int) = compare m n := by
  rcases lt_trichotomy m n with below | rfl | above
  · rw [compare_lt_iff_lt.mpr below, compare_lt_iff_lt.mpr (Int.ofNat_lt.mpr below)]
  · rw [compare_eq_iff_eq.mpr rfl, compare_eq_iff_eq.mpr rfl]
  · rw [compare_gt_iff_gt.mpr above, compare_gt_iff_gt.mpr (Int.ofNat_lt.mpr above)]

/-- Floats that are numbers are compared by their ranks. -/
theorem compare_eq_ranks : ∀ {x y : UnpackedFloat}, x.isNaN = false → y.isNaN = false →
    x.compare y = some (compareRanks (rank x) (rank y))
  | .finite s m e _, .finite t n f _, _, _ => by
    cases s <;> cases t
    · change some ((compare e f).then (compare m n)).swap = some ((compare (-1 : Int) (-1)).then
        ((compare (-e) (-f)).then (compare (-m : Int) (-n))))
      rw [compare_neg e f, compare_neg m n, compare_natCast, Ordering.swap_then]
      rfl
    · rfl
    · rfl
    · change some ((compare e f).then (compare m n)) = some ((compare (1 : Int) 1).then
        ((compare e f).then (compare (m : Int) n)))
      rw [compare_natCast]
      rfl
  | .infinity s, .infinity t, _, _ => by cases s <;> cases t <;> rfl
  | .infinity s, .zero _, _, _ => by cases s <;> rfl
  | .infinity s, .finite t .., _, _ => by cases s <;> cases t <;> rfl
  | .zero _, .infinity t, _, _ => by cases t <;> rfl
  | .finite s .., .infinity t, _, _ => by cases s <;> cases t <;> rfl
  | .zero _, .finite t .., _, _ => by cases t <;> rfl
  | .finite s .., .zero _, _, _ => by cases s <;> rfl
  | .zero _, .zero _, _, _ => rfl

/-- Of two numbers, one is at most the other if its rank is. -/
theorem le_iff_ranks {x y : Float} (number : x.isNaN = false) (number' : y.isNaN = false) :
    x ≤ y ↔ (compareRanks (rank x.toModel.unpack) (rank y.toModel.unpack)).isLE = true := by
  rw [le_iff, order, compare_eq_ranks number number', Option.some_inj, Option.some_inj]
  cases compareRanks (rank x.toModel.unpack) (rank y.toModel.unpack) <;> simp

theorem le_trans {x y z : Float} (first : x ≤ y) (second : y ≤ z) : x ≤ z := by
  obtain ⟨number, middle⟩ := isNaN_of_le first
  obtain ⟨-, last⟩ := isNaN_of_le second
  rw [le_iff_ranks number middle] at first
  rw [le_iff_ranks middle last] at second
  rw [le_iff_ranks number last]
  exact Std.TransCmp.isLE_trans first second

/-- Of two numbers, one is not below the other if and only if the other is at most it. -/
theorem not_lt_iff {x y : Float} (number : x.isNaN = false) (number' : y.isNaN = false) :
    (!Quantity.lt x y) = true ↔ y ≤ x := by
  rw [Bool.not_eq_true']
  constructor
  · intro reaches
    exact le_of_not_lt number number' (of_decide_eq_false reaches)
  · intro reached
    have swapped : order y x = (order x y).map Ordering.swap := compare_swap _ _
    refine decide_eq_false fun less => ?_
    rw [le_iff, swapped, lt_iff.mp less] at reached
    rcases reached with same | same <;> cases same

theorem le_total {x y : Float} (number : x.isNaN = false) (number' : y.isNaN = false) :
    x ≤ y ∨ y ≤ x := by
  by_cases less : x < y
  · exact .inl (le_iff.mpr (.inl (lt_iff.mp less)))
  · exact .inr (le_of_not_lt number number' less)

/-- A float is equal to itself unless it is no number. -/
theorem eq_self (x : Float) : Quantity.eq x x = !x.isNaN := by
  change (order x x == some .eq) = !x.isNaN
  have swapped : order x x = (order x x).map Ordering.swap := compare_swap _ _
  have none := isNone_order x x
  rw [Bool.or_self] at none
  rw [← none]
  cases found : order x x with
  | none => rfl
  | some ordering =>
    rw [found] at swapped
    cases ordering with
    | eq => rfl
    | lt => cases swapped
    | gt => cases swapped

end Binary64

/-! ### Tables -/

namespace Entries

variable {κ α : Type} [DecidableEq κ]

theorem mem_erase {table : Entries κ α} {key : κ} {pair : κ × α} :
    pair ∈ (table.erase key).pairs ↔ pair ∈ table.pairs ∧ pair.1 ≠ key := by
  rw [erase, List.mem_filter, decide_eq_true_iff]

theorem mem_insert {table : Entries κ α} {key : κ} {content : α} {pair : κ × α} :
    pair ∈ (table.insert key content).pairs ↔
      pair ∈ table.pairs ∧ pair.1 ≠ key ∨ pair = (key, content) := by
  rw [insert, List.mem_append, mem_erase, List.mem_singleton]

theorem mem_of_mem_replace {table : Entries κ α} {key : κ} {content : α} {pair : κ × α}
    (member : pair ∈ (table.replace key content).pairs) : pair ∈ table.pairs ∨ pair = (key, content) := by
  rw [replace, List.mem_map] at member
  obtain ⟨old, member, rfl⟩ := member
  split
  · exact .inr rfl
  · exact .inl member

theorem keys_replace (table : Entries κ α) (key : κ) (content : α) :
    (table.replace key content).keys = table.keys := by
  rw [keys, keys, replace, List.map_map]
  refine List.map_congr_left fun pair _ => ?_
  simp only [Function.comp_apply]
  split
  · next same => exact same.symm
  · rfl

theorem get?_cons (first : κ) (content : α) (rest : List (κ × α)) (key : κ) :
    (⟨(first, content) :: rest⟩ : Entries κ α).get? key =
      if first = key then some content else (⟨rest⟩ : Entries κ α).get? key := by
  rw [get?, List.find?_cons]
  by_cases same : first = key <;> simp [same, get?]

theorem get?_replace (table : Entries κ α) (key other : κ) (content : α) :
    (table.replace key content).get? other =
      if other = key then (table.get? key).map fun _ => content else table.get? other := by
  obtain ⟨pairs⟩ := table
  induction pairs with
  | nil => exact (ite_self none).symm
  | cons pair rest ih =>
    obtain ⟨first, old⟩ := pair
    rw [replace] at ih ⊢
    rw [List.map_cons]
    by_cases same : first = key
    · rw [if_pos same, get?_cons, get?_cons, get?_cons, ih]
      by_cases asked : other = key
      · simp [same, asked]
      · simp [same, asked, Ne.symm asked]
    · rw [if_neg same, get?_cons, get?_cons, get?_cons, ih]
      by_cases asked : other = key
      · simp [same, asked]
      · simp [asked]

end Entries

namespace Store

/-! ### Calls -/

variable {τ : Type} [Quantity τ]

/-- A call of a store. -/
inductive Call (τ : Type) where
  | add (item : StoredItem τ)
  | update (item : StoredItem τ)
  | put (item : StoredItem τ)
  | erase (infoHash : String)
  | read (infoHash : String)
  | list (owner : Option Bytes)
  | count

/-- What a call of a store gives. -/
inductive Answer (τ : Type) where
  | done
  | told (happened : Bool)
  | found (item : Option (StoredItem τ))
  | listed (items : List (StoredItem τ))
  | counted (count : Nat)

/-- What a call gives, and the store afterwards; a call that fails leaves the store as it was. -/
def settle {α : Type} (store : Store τ) (name : α → Answer τ) :
    Except StoreError (α × Store τ) → Except StoreError (Answer τ) × Store τ
  | .ok (given, changed) => (.ok (name given), changed)
  | .error error => (.error error, store)

/-- Carries out a call at a time. -/
def perform (store : Store τ) (now : τ) : Call τ → Except StoreError (Answer τ) × Store τ
  | .add item => store.settle .told (store.add now item)
  | .update item => store.settle .told (store.update now item)
  | .put item => store.settle (fun _ => .done) ((store.put now item).map ((), ·))
  | .erase infoHash => store.settle .told (store.erase infoHash)
  | .read infoHash => store.settle .found ((store.read infoHash).map (·, store))
  | .list owner => store.settle .listed ((store.list owner).map (·, store))
  | .count => store.settle .counted (store.count.map (·, store))

/-- Carries out calls, each at its time, one after the other. -/
def serve (store : Store τ) : List (τ × Call τ) → List (Except StoreError (Answer τ)) × Store τ
  | [] => ([], store)
  | (now, call) :: calls =>
    let (answer, changed) := store.perform now call
    let (answers, last) := changed.serve calls
    (answer :: answers, last)

/-! ### Maps -/

/-- The item under each info hash. -/
abbrev Contents := String → Option (StoredItem Float)

/-- What a store holds. -/
def contents (store : Store Float) : Contents := store.items.get?

/-- Whether an item can be written. -/
structure Writable (item : StoredItem Float) : Prop where
  fits : fits item.sequence = true
  dated : item.moment.isNaN = false

/-- A list of all items of a map, or of those of an owner. -/
structure Lists (map : Contents) (owner : Option Bytes) (items : List (StoredItem Float)) : Prop where
  mem : ∀ item, item ∈ items ↔ (∃ key, map key = some item) ∧ ∀ asked ∈ owner, asked = item.owner
  /-- No item is listed twice. -/
  once : (items.map StoredItem.infoHash).Nodup
  /-- The latest moment comes first. -/
  latest : items.Pairwise fun first second => second.moment ≤ first.moment

/-- The item that a call writes, if it writes one. -/
def Call.item? {τ : Type} : Call τ → Option (StoredItem τ)
  | .add item | .update item | .put item => some item
  | .erase _ | .read _ | .list _ | .count => none

/-- The ways in which a call at a time goes by a map: what it gives, and the map afterwards. -/
inductive Answers (now : Float) (map : Contents) :
    Call Float → Except StoreError (Answer Float) → Contents → Prop
  | added {item : StoredItem Float} : Writable item → map item.infoHash = none →
      Answers now map (.add item) (.ok (.told true))
        (Function.update map item.infoHash (some (stamped now item)))
  | present {item : StoredItem Float} : fits item.sequence = true → map item.infoHash ≠ none →
      Answers now map (.add item) (.ok (.told false)) map
  /-- An item whose moment is no number is not added. -/
  | passedOver {item : StoredItem Float} : fits item.sequence = true → item.moment.isNaN = true →
      Answers now map (.add item) (.ok (.told false)) map
  | updated {item : StoredItem Float} : Writable item → map item.infoHash ≠ none →
      Answers now map (.update item) (.ok (.told true))
        (Function.update map item.infoHash (some (stamped now item)))
  | absent {item : StoredItem Float} : fits item.sequence = true → map item.infoHash = none →
      Answers now map (.update item) (.ok (.told false)) map
  | put {item : StoredItem Float} : Writable item →
      Answers now map (.put item) (.ok .done)
        (Function.update map item.infoHash (some (stamped now item)))
  | erased (infoHash : String) :
      Answers now map (.erase infoHash) (.ok (.told (map infoHash).isSome))
        (Function.update map infoHash none)
  | read (infoHash : String) : Answers now map (.read infoHash) (.ok (.found (map infoHash))) map
  | listed {owner : Option Bytes} {items : List (StoredItem Float)} : Lists map owner items →
      Answers now map (.list owner) (.ok (.listed items)) map
  | counted {count : Nat} : Set.encard {key | map key ≠ none} = count →
      Answers now map .count (.ok (.counted count)) map
  | outOfRange {call : Call Float} {item : StoredItem Float} : call.item? = some item →
      fits item.sequence = false → Answers now map call (.error .outOfRange) map
  | noMoment {call : Call Float} {item : StoredItem Float} :
      call = .put item ∨ call = .update item ∧ map item.infoHash ≠ none →
      fits item.sequence = true → item.moment.isNaN = true →
      Answers now map call (.error .noMoment) map

/-- A row of calls goes by a map, each by the map that the earlier ones have left. -/
inductive Follows : Contents → List (Float × Call Float) → List (Except StoreError (Answer Float)) →
    Contents → Prop
  | nil (map : Contents) : Follows map [] [] map
  | cons {map middle last : Contents} {now : Float} {call : Call Float}
      {answer : Except StoreError (Answer Float)} {calls : List (Float × Call Float)}
      {answers : List (Except StoreError (Answer Float))} :
      Answers now map call answer middle → Follows middle calls answers last →
      Follows map ((now, call) :: calls) (answer :: answers) last

/-! ### Stores that stand for maps -/

/-- What holds of every store that is open and has been written by its own calls. -/
structure Sound (store : Store Float) : Prop where
  isOpen : store.isOpen = true
  /-- No info hash has two items. -/
  nodup : store.items.keys.Nodup
  /-- Items are kept under their own info hashes. -/
  named : ∀ pair ∈ store.items.pairs, pair.2.infoHash = pair.1
  /-- Their moments are numbers. -/
  dated : ∀ pair ∈ store.items.pairs, pair.2.moment.isNaN = false

variable {store : Store Float} {now : Float} {item : StoredItem Float}

theorem sound_empty : Sound ({} : Store Float) where
  isOpen := rfl
  nodup := List.nodup_nil
  named _ member := absurd member List.not_mem_nil
  dated _ member := absurd member List.not_mem_nil

theorem stamped_infoHash {τ : Type} [Quantity τ] (now : τ) (item : StoredItem τ) :
    (stamped now item).infoHash = item.infoHash := by
  unfold stamped
  split <;> rfl

/-- A moment that is no number is not nought, so it is not replaced by the clock's reading. -/
theorem stamped_isNaN (number : now.isNaN = false) (item : StoredItem Float) :
    (stamped now item).moment.isNaN = item.moment.isNaN := by
  unfold stamped
  split
  · next nought =>
    have equal : Binary64.order item.moment Quantity.zero = some .eq := eq_of_beq nought
    have none := Binary64.isNone_order item.moment Quantity.zero
    rw [equal, Option.isNone_some, eq_comm, Bool.or_eq_false_iff] at none
    rw [none.1, number]
  · rfl

theorem isMoment_eq (number : now.isNaN = false) (item : StoredItem Float) :
    isMoment now (stamped now item).moment = !item.moment.isNaN := by
  rw [isMoment, Binary64.eq_self, Binary64.eq_self, number, stamped_isNaN number]
  exact Bool.or_false _

namespace Sound

/-- A store stays sound if its pairs are changed to pairs that were there or that of a written item. -/
theorem written (sound : store.Sound) (number : now.isNaN = false) (dated : item.moment.isNaN = false)
    {items : ItemTable Float} (nodup : items.keys.Nodup)
    (origin : ∀ pair ∈ items.pairs, pair ∈ store.items.pairs ∨
      pair = (item.infoHash, stamped now item)) : Sound { store with items } := by
  refine ⟨sound.isOpen, nodup, fun pair member => ?_, fun pair member => ?_⟩
  · rcases origin pair member with old | rfl
    · exact sound.named pair old
    · exact stamped_infoHash now item
  · rcases origin pair member with old | rfl
    · exact sound.dated pair old
    · exact (stamped_isNaN number item).trans dated

theorem insert (sound : store.Sound) (number : now.isNaN = false) (dated : item.moment.isNaN = false) :
    Sound { store with items := store.items.insert item.infoHash (stamped now item) } :=
  sound.written number dated (Entries.nodup_keys_insert sound.nodup _ _) fun _ member =>
    (Entries.mem_insert.mp member).imp_left And.left

theorem replace (sound : store.Sound) (number : now.isNaN = false) (dated : item.moment.isNaN = false) :
    Sound { store with items := store.items.replace item.infoHash (stamped now item) } := by
  refine sound.written number dated ?_ fun _ => Entries.mem_of_mem_replace
  rw [Entries.keys_replace]
  exact sound.nodup

theorem erase (sound : store.Sound) (infoHash : String) :
    Sound { store with items := store.items.erase infoHash } where
  isOpen := sound.isOpen
  nodup := Entries.nodup_keys_erase sound.nodup infoHash
  named pair member := sound.named pair (Entries.mem_erase.mp member).1
  dated pair member := sound.dated pair (Entries.mem_erase.mp member).1

/-- The items are what the map has under some info hash. -/
theorem mem_items (sound : store.Sound) :
    item ∈ store.items.pairs.map Prod.snd ↔ ∃ key, store.contents key = some item := by
  rw [List.mem_map]
  constructor
  · rintro ⟨pair, member, rfl⟩
    exact ⟨pair.1, (Entries.get?_eq_some_iff sound.nodup _ _).mpr member⟩
  · rintro ⟨key, held⟩
    exact ⟨_, (Entries.get?_eq_some_iff sound.nodup _ _).mp held, rfl⟩

theorem infoHashes (sound : store.Sound) :
    (store.items.pairs.map Prod.snd).map StoredItem.infoHash = store.items.keys := by
  rw [List.map_map]
  exact List.map_congr_left sound.named

end Sound

/-! ### Items by their moments -/

/-- Items whose moments are numbers are sorted by them. -/
theorem pairwise_sorted {items : List (StoredItem Float)}
    (dated : ∀ item ∈ items, item.moment.isNaN = false) :
    (items.mergeSort fun a b => !Quantity.lt a.moment b.moment).Pairwise
      fun first second => second.moment ≤ first.moment := by
  -- Sorting needs an order of everything there is, so it is done on items whose moments are numbers.
  let Dated := { item : StoredItem Float // item.moment.isNaN = false }
  let before (a b : Dated) : Bool := !Quantity.lt a.1.moment b.1.moment
  have before_iff (a b : Dated) : before a b = true ↔ b.1.moment ≤ a.1.moment :=
    Binary64.not_lt_iff a.2 b.2
  have trans (a b c : Dated) (first : before a b = true) (second : before b c = true) :
      before a c = true :=
    (before_iff a c).mpr
      (Binary64.le_trans ((before_iff b c).mp second) ((before_iff a b).mp first))
  have total (a b : Dated) : (before a b || before b a) = true := by
    rw [Bool.or_eq_true, before_iff, before_iff]
    exact Binary64.le_total b.2 a.2
  have plain : (items.attachWith _ dated).map Subtype.val = items :=
    List.attachWith_map_subtype_val dated
  have same : ((items.attachWith _ dated).mergeSort before).map Subtype.val
      = ((items.attachWith _ dated).map Subtype.val).mergeSort
          fun a b => !Quantity.lt a.moment b.moment :=
    List.map_mergeSort fun _ _ _ _ => Eq.refl (before _ _)
  rw [plain] at same
  rw [← same, List.pairwise_map]
  exact (List.pairwise_mergeSort trans total _).imp fun ordered => (before_iff _ _).mp ordered

/-- A store lists the items of the map. -/
theorem Sound.lists (sound : store.Sound) (owner : Option Bytes) :
    ∃ items, store.list owner = .ok items ∧ Lists store.contents owner items := by
  refine ⟨_, if_pos sound.isOpen, fun item => ?_, ?_, ?_⟩
  · rw [List.mem_mergeSort, List.mem_filter, sound.mem_items]
    refine and_congr_right fun _ => ?_
    cases owner <;> simp
  · refine ((List.mergeSort_perm _ _).map _).nodup_iff.mpr ?_
    refine List.Nodup.sublist (List.filter_sublist.map _) ?_
    rw [sound.infoHashes]
    exact sound.nodup
  · refine pairwise_sorted fun item member => ?_
    obtain ⟨pair, stored, rfl⟩ := List.mem_map.mp (List.mem_filter.mp member).1
    exact sound.dated pair stored

/-- The number of items is that of the info hashes that the map has items under. -/
theorem Sound.size (sound : store.Sound) :
    Set.encard {key | store.contents key ≠ none} = store.items.size := by
  have keys : {key | store.contents key ≠ none} = store.items.keys.toFinset := by
    ext key
    rw [Set.mem_ofPred_eq, contents, ne_eq, Entries.get?_eq_none_iff, not_not, List.coe_toFinset]
    rfl
  rw [keys, Set.encard_coe_eq_coe_finsetCard, List.toFinset_card_of_nodup sound.nodup, Entries.keys,
    List.length_map]
  rfl

/-! ### Refinement -/

theorem contents_insert (store : Store Float) (key : String) (item : StoredItem Float) :
    ({ store with items := store.items.insert key item } : Store Float).contents
      = Function.update store.contents key (some item) := by
  funext other
  rw [Function.update_apply]
  exact Entries.get?_insert ..

theorem contents_replace {key : String} (present : store.items.contains key = true)
    (item : StoredItem Float) :
    ({ store with items := store.items.replace key item } : Store Float).contents
      = Function.update store.contents key (some item) := by
  funext other
  obtain ⟨old, held⟩ := Option.isSome_iff_exists.mp present
  rw [Function.update_apply, contents, Entries.get?_replace, held]
  rfl

theorem contents_erase (store : Store Float) (key : String) :
    ({ store with items := store.items.erase key } : Store Float).contents
      = Function.update store.contents key none := by
  funext other
  rw [Function.update_apply]
  exact Entries.get?_erase ..

theorem contains_iff (store : Store Float) (key : String) :
    store.items.contains key = true ↔ store.contents key ≠ none :=
  Option.isSome_iff_ne_none

section

variable (sound : store.Sound)

include sound

theorem Sound.refusal?_eq (item : StoredItem Float) :
    store.refusal? item = if fits item.sequence = true then none else some .outOfRange := by
  rw [refusal?, sound.isOpen]
  cases fits item.sequence <;> rfl

/-- Adding goes by the map. -/
theorem Sound.answers_add (number : now.isNaN = false) (item : StoredItem Float) :
    Answers now store.contents (.add item) (store.perform now (.add item)).1
        (store.perform now (.add item)).2.contents ∧
      (store.perform now (.add item)).2.Sound := by
  rw [perform, add, sound.refusal?_eq, isMoment_eq number]
  by_cases fit : fits item.sequence = true
  · rw [if_pos fit]
    dsimp only
    by_cases held : store.items.contains item.infoHash = true
    · rw [if_pos (by rw [held]; rfl)]
      exact ⟨.present fit ((contains_iff _ _).mp held), sound⟩
    by_cases undated : item.moment.isNaN = true
    · rw [if_pos (by rw [undated]; exact Bool.or_true _)]
      exact ⟨.passedOver fit undated, sound⟩
    have dated := eq_false_of_ne_true undated
    rw [if_neg (by rw [eq_false_of_ne_true held, dated]; decide)]
    have absent := of_not_not ((contains_iff _ _).not.mp held)
    have answered : Answers now store.contents (.add item) (.ok (.told true)) _ :=
      .added ⟨fit, dated⟩ absent
    rw [← contents_insert] at answered
    exact ⟨answered, sound.insert number dated⟩
  · rw [if_neg fit]
    exact ⟨.outOfRange rfl (eq_false_of_ne_true fit), sound⟩

/-- Updating goes by the map. -/
theorem Sound.answers_update (number : now.isNaN = false) (item : StoredItem Float) :
    Answers now store.contents (.update item) (store.perform now (.update item)).1
        (store.perform now (.update item)).2.contents ∧
      (store.perform now (.update item)).2.Sound := by
  rw [perform, update, sound.refusal?_eq, isMoment_eq number]
  by_cases fit : fits item.sequence = true
  · rw [if_pos fit]
    dsimp only
    by_cases held : store.items.contains item.infoHash = true
    · have present := (contains_iff _ _).mp held
      rw [held, if_neg (by decide)]
      by_cases undated : item.moment.isNaN = true
      · rw [undated, if_neg (by decide)]
        exact ⟨.noMoment (.inr ⟨rfl, present⟩) fit undated, sound⟩
      have dated := eq_false_of_ne_true undated
      rw [dated, if_pos (by decide)]
      have answered : Answers now store.contents (.update item) (.ok (.told true)) _ :=
        .updated ⟨fit, dated⟩ present
      rw [← contents_replace held] at answered
      exact ⟨answered, sound.replace number dated⟩
    · rw [eq_false_of_ne_true held, if_pos (by decide)]
      exact ⟨.absent fit (of_not_not ((contains_iff _ _).not.mp held)), sound⟩
  · rw [if_neg fit]
    exact ⟨.outOfRange rfl (eq_false_of_ne_true fit), sound⟩

/-- Putting goes by the map. -/
theorem Sound.answers_put (number : now.isNaN = false) (item : StoredItem Float) :
    Answers now store.contents (.put item) (store.perform now (.put item)).1
        (store.perform now (.put item)).2.contents ∧
      (store.perform now (.put item)).2.Sound := by
  rw [perform, put, sound.refusal?_eq, isMoment_eq number]
  by_cases fit : fits item.sequence = true
  · rw [if_pos fit]
    dsimp only
    by_cases undated : item.moment.isNaN = true
    · rw [undated, if_neg (by decide)]
      exact ⟨.noMoment (.inl rfl) fit undated, sound⟩
    have dated := eq_false_of_ne_true undated
    rw [dated, if_pos (by decide)]
    have answered : Answers now store.contents (.put item) (.ok .done) _ := .put ⟨fit, dated⟩
    rw [← contents_insert] at answered
    exact ⟨answered, sound.insert number dated⟩
  · rw [if_neg fit]
    exact ⟨.outOfRange rfl (eq_false_of_ne_true fit), sound⟩

/-- A call of a sound store goes by what it holds, and leaves a sound store. -/
theorem Sound.answers (number : now.isNaN = false) (call : Call Float) :
    Answers now store.contents call (store.perform now call).1 (store.perform now call).2.contents ∧
      (store.perform now call).2.Sound := by
  cases call with
  | add item => exact sound.answers_add number item
  | update item => exact sound.answers_update number item
  | put item => exact sound.answers_put number item
  | erase infoHash =>
    rw [perform, Store.erase, if_pos sound.isOpen]
    have answered : Answers now store.contents (.erase infoHash) _ _ := .erased infoHash
    rw [← contents_erase] at answered
    exact ⟨answered, sound.erase infoHash⟩
  | read infoHash =>
    rw [perform, Store.read, if_pos sound.isOpen]
    exact ⟨.read infoHash, sound⟩
  | list owner =>
    obtain ⟨items, listed, lists⟩ := sound.lists owner
    rw [perform, listed]
    exact ⟨.listed lists, sound⟩
  | count =>
    rw [perform, Store.count, if_pos sound.isOpen]
    exact ⟨.counted sound.size, sound⟩

end

/-- A store answers a row of calls as the map of what it holds does, and holds afterwards what the map
then has. -/
theorem follows_serve (sound : store.Sound) (calls : List (Float × Call Float))
    (numbers : ∀ timed ∈ calls, timed.1.isNaN = false) :
    Follows store.contents calls (store.serve calls).1 (store.serve calls).2.contents ∧
      (store.serve calls).2.Sound := by
  induction calls generalizing store with
  | nil => exact ⟨.nil _, sound⟩
  | cons timed rest ih =>
    obtain ⟨now, call⟩ := timed
    rw [List.forall_mem_cons] at numbers
    obtain ⟨answered, kept⟩ := sound.answers numbers.1 call
    obtain ⟨followed, last⟩ := ih kept numbers.2
    exact ⟨.cons answered followed, last⟩

/-- An item of a name. -/
def note (sequence : Int) (moment : Float) : StoredItem Float where
  infoHash := "note"
  owner := [1]
  salt := ""
  value := [104]
  sequence := sequence
  signature := []
  moment := moment

/-- Calls about a name: the item is added once, cannot be put with too great a number, is updated and
listed, and is gone in the end. -/
def notes : List (Float × Call Float) :=
  [(2, .add (note 1 0)), (3, .add (note 2 1)), (4, .put (note 0x8000000000000000 1)),
    (5, .update (note 3 0)), (6, .list none), (7, .erase "note"), (8, .update (note 4 1)), (9, .count)]

/-- Whether a call tells that something was done, if it tells that. -/
def told? : Except StoreError (Answer Float) → Option Bool
  | .ok (.told happened) => some happened
  | _ => none

theorem notes_served : (({} : Store Float).serve notes).1.map told? =
      [some true, some false, none, some true, none, some true, some false, none] ∧
    Follows (contents {}) notes (({} : Store Float).serve notes).1
      (({} : Store Float).serve notes).2.contents ∧
    (({} : Store Float).serve notes).2.Sound :=
  ⟨by decide, follows_serve sound_empty notes (by decide +kernel)⟩

end Store

end DhtRecords
