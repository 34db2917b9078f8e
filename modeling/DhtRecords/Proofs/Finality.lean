/-
Waits for the final result of a lookup.

A table of results has one place for each item, and the latest result takes it,
be it final or not. Whatever goes on around a correlator, what it holds of an item
is the latest of the results that were accepted since the item was removed
(`result?_run`). So a caller who waits for a final result gets one that was
accepted, unless a later one that is not final has taken its place by the time the
caller looks (`wait_final`).
-/

import DhtRecords.Proofs.Confirming
import DhtRecords.Proofs.Hearing

namespace DhtRecords

variable {τ ν : Type}

/-! ### Accepted results -/

/-- The result of an item that was accepted, if it is that what has happened. -/
def Occurrence.resultOf? (key : String) : Occurrence τ → Option (LookupResult τ)
  | .accepted (.result owner salt value sequence final) moment =>
    if infoHash owner salt = key then some ⟨owner, salt, value, sequence, final, moment⟩ else none
  | _ => none

/-- A result of an item takes the place of the one that was held before. -/
theorem Occurrence.get?_absorb (occurrence : Occurrence τ)
    (results : Entries String (LookupResult τ)) (key : String) :
    (occurrence.absorb results).get? key = (occurrence.resultOf? key).or (results.get? key) := by
  cases occurrence with
  | accepted alert moment =>
    cases alert with
    | result owner salt value sequence final =>
      rw [absorb, resultOf?, Entries.get?_insert]
      split
      · next same => rw [if_pos same.symm, Option.some_or]
      · next other => rw [if_neg (Ne.symm other), Option.none_or]
    | _ => rfl
  | _ => rfl

/-- What is held of an item in the end is the latest of its results. -/
theorem get?_foldr_absorb (fresh : List (Occurrence τ)) (results : Entries String (LookupResult τ))
    (key : String) : (fresh.foldr Occurrence.absorb results).get? key =
      (fresh.filterMap (Occurrence.resultOf? key) ++ (results.get? key).toList).head? := by
  induction fresh with
  | nil => simp
  | cons occurrence rest ih =>
    rw [List.foldr_cons, occurrence.get?_absorb, List.filterMap_cons]
    cases occurrence.resultOf? key with
    | none => exact ih
    | some result => rfl

namespace World

/-- The results of an item that were accepted from one world to a later one, the latest first. -/
def resultsOf (key : String) (before after : World τ ν) : List (LookupResult τ) :=
  (after.journal.take (after.journal.length - before.journal.length)).filterMap
    (Occurrence.resultOf? key)

/-- What is held of an item is the latest result that was accepted, or else what was held before. -/
theorem Continues.result? [Quantity τ] {before after : World τ ν} (continues : Continues before after)
    (key : String) : after.correlator.result? key =
      (before.resultsOf key after ++ (before.correlator.result? key).toList).head? := by
  obtain ⟨fresh, journal, results⟩ := continues.journal
  have accepted : before.resultsOf key after = fresh.filterMap (Occurrence.resultOf? key) := by
    rw [resultsOf, journal]
    simp
  rw [accepted, Correlator.result?, results]
  exact get?_foldr_absorb fresh _ key

variable [Quantity τ] [Overlay τ ν]

theorem continues_perform (event : Event ν) (world : World τ ν) :
    Continues world (world.perform event) := by
  cases event with
  | halt =>
    change Continues world (world.stopCorrelator none).2
    unfold stopCorrelator
    split <;> exact .of_eq rfl rfl rfl rfl rfl rfl
  | _ => exact (meanwhile_perform (by simp) world).upkeep.continues

end World

namespace Correlator

open World

variable [Quantity τ] [Overlay τ ν]

/-- Results are left alone by all that happens around a correlator, but for those that are accepted. -/
theorem Act.continues (act : Act τ ν) (world : World τ ν) : Continues world (act.perform world).2 := by
  cases act with
  | start engine =>
    have listening : Continues world (world.hear true) := .of_eq rfl rfl rfl rfl rfl rfl
    exact listening.trans (continues_ask engine (.setHandler true) _)
  | stop engine =>
    change Continues world (world.stopCorrelator engine).2
    have silenced : Continues world (world.hear false) := .of_eq rfl rfl rfl rfl rfl rfl
    unfold stopCorrelator
    split
    · cases engine with
      | none => exact silenced
      | some engine => exact silenced.trans (continues_ask engine _ _)
    · exact .refl world
  | happen event => exact continues_perform event world
  | plan delay event => exact .of_eq rfl rfl rfl rfl rfl rfl
  | request request => exact (request.upkeep world).continues
  | wait key since timeout sequence =>
    have waited := continues_run (Quantity.add world.clock (Quantity.later Quantity.zero timeout))
      (fun world => (world.correlator.readyAcknowledgement? key since sequence).isSome ||
        !world.correlator.running) world
    unfold perform Put.waitForAcknowledgement
    dsimp only
    split
    · exact waited.trans (.of_eq rfl rfl rfl rfl rfl rfl)
    · exact waited

/-! ### Runs with removals -/

/-- What is done to a correlator whose results are looked at. -/
inductive Move (τ ν : Type) where
  | act (act : Act τ ν)
  /-- What is held of an item is removed. -/
  | remove (key : String)
  /-- A caller waits for a result. -/
  | wait (key : String) (timeout : τ) (onlyFinal : Bool)
  /-- A caller waits for results of several items. -/
  | waitForAll (keys : List String) (timeout : τ)

/-- What a move leads to. -/
def Move.perform : Move τ ν → World τ ν → World τ ν
  | .act done, world => (done.perform world).2
  | remove key, world => { world with correlator := world.correlator.forget key }
  | wait key timeout onlyFinal, world => (Get.waitForResult key timeout onlyFinal world).2
  | waitForAll keys timeout, world => (Get.waitForAll keys timeout world).2

/-- What a run of moves, the latest first, leads to. -/
def Move.run (first : World τ ν) (moves : List (Move τ ν)) : World τ ν := moves.foldr perform first

/-- The results of an item that were accepted since it was removed last, the latest first. What was held
before the run counts as accepted. -/
def sinceRemoval (first : World τ ν) (key : String) : List (Move τ ν) → List (LookupResult τ)
  | [] => (first.correlator.result? key).toList
  | .remove removed :: early => if removed = key then [] else sinceRemoval first key early
  | move :: early =>
    (Move.run first early).resultsOf key (move.perform (Move.run first early)) ++
      sinceRemoval first key early

/-- What is held of an item is the latest of what was accepted since it was removed. -/
theorem result?_run (first : World τ ν) (key : String) (moves : List (Move τ ν)) :
    (Move.run first moves).correlator.result? key = (sinceRemoval first key moves).head? := by
  have joined (results : List (LookupResult τ)) {held : Option (LookupResult τ)}
      {earlier : List (LookupResult τ)} (same : held = earlier.head?) :
      (results ++ held.toList).head? = (results ++ earlier).head? := by
    rw [List.head?_append, List.head?_append, same]
    cases earlier <;> rfl
  induction moves with
  | nil =>
    unfold sinceRemoval
    cases h : first.correlator.result? key with
    | none => exact h
    | some result => exact h
  | cons move early ih =>
    cases move with
    | act done =>
      exact ((done.continues (Move.run first early)).result? key).trans (joined _ ih)
    | remove removed =>
      unfold sinceRemoval
      refine (Entries.get?_erase _ _ _).trans ?_
      by_cases same : removed = key
      · rw [if_pos same.symm, if_pos same]
        rfl
      · rw [if_neg (Ne.symm same), if_neg same]
        exact ih
    | wait awaited timeout onlyFinal =>
      have waited := Get.continues_waitForResult awaited timeout onlyFinal (Move.run first early)
      exact (waited.result? key).trans (joined _ ih)
    | waitForAll keys timeout =>
      have waited := Get.continues_waitForAll keys timeout (Move.run first early)
      exact (waited.result? key).trans (joined _ ih)

/-! ### The result that a wait returns -/

/-- A caller who waits gets what is ready in the end. If nothing is, the correlator was stopped, the
wait was given up, or its time is up. -/
theorem waitForResult_cases {key : String} {timeout : τ} {onlyFinal : Bool} {world after : World τ ν}
    {returned : Option (LookupResult τ)}
    (course : Get.waitForResult key timeout onlyFinal world = (returned, after)) :
    Continues world after ∧ returned = after.correlator.readyResult? key onlyFinal ∧
      (returned = none → after.correlator.running = false ∨ after.stalled = true ∨
        Elapsed (Quantity.add world.clock (Quantity.later Quantity.zero timeout)) after) := by
  let condition (world : World τ ν) : Bool :=
    (world.correlator.readyResult? key onlyFinal).isSome || !world.correlator.running
  obtain ⟨rfl, rfl⟩ := Prod.mk.inj course
  refine ⟨continues_run _ condition world, rfl, fun unready => ?_⟩
  refine (runFor_ends world.patience _ condition world).imp_left fun holds => ?_
  rcases Bool.or_eq_true_iff.mp holds with ready | stopped
  · exact absurd unready (Option.isSome_iff_ne_none.mp ready)
  · exact (Bool.not_eq_true' _).mp stopped

/-- A caller who waits for a final result of an item gets the latest that was accepted since the item was
removed, if that is final, and else nothing. So one that has arrived is missed if and only if what was
accepted last is not final. A caller who gets nothing has waited for as long as the correlator was running and
the time was not up. -/
theorem wait_final (first : World τ ν) (moves : List (Move τ ν)) {key : String} {timeout : τ}
    {returned : Option (LookupResult τ)} {after : World τ ν}
    (course : Get.waitForResult key timeout true (Move.run first moves) = (returned, after))
    {result : LookupResult τ} {late early : List (LookupResult τ)}
    (accepted : (Move.run first moves).resultsOf key after ++ sinceRemoval first key moves
      = late ++ result :: early)
    (final : result.final = true) :
    returned = (late ++ [result]).head?.filter (·.final) ∧
      (returned = none ↔ ∃ newest ∈ late.head?, newest.final = false) ∧
      (returned = none → after.correlator.running = false ∨ after.stalled = true ∨
        Elapsed (Quantity.add (Move.run first moves).clock (Quantity.later Quantity.zero timeout))
          after) := by
  obtain ⟨continues, ready, ends⟩ := waitForResult_cases course
  have held : after.correlator.result? key = (late ++ [result]).head? := by
    have joined := result?_run first key (.wait key timeout true :: moves)
    change (Get.waitForResult key timeout true (Move.run first moves)).2.correlator.result? key =
      ((Move.run first moves).resultsOf key
        (Get.waitForResult key timeout true (Move.run first moves)).2 ++
          sinceRemoval first key moves).head? at joined
    rw [course, accepted] at joined
    rw [joined]
    cases late <;> rfl
  have taken : returned = (late ++ [result]).head?.filter (·.final) := by
    rw [ready, readyResult?, held]
    simp
  refine ⟨taken, ?_, ends⟩
  rw [taken]
  cases late with
  | nil => simp [final]
  | cons newest rest => simp

deriving instance DecidableEq for LookupResult

/-- A result for an item arrives. -/
def answer (sequence : Int) (final : Bool) : Alert := .result [7] "a" [] sequence final

/-- What is held of that item after it has come at a moment. -/
def answered (sequence : Int) (final : Bool) (moment : Nat) : LookupResult Seconds :=
  ⟨[7], "a", [], sequence, final, ⟨moment⟩⟩

/-- A result that is not final is there before a final one comes in the course of a wait. -/
def preceded : List (Move Seconds Session.Placid) :=
  [.act (.start 1), .act (.happen (.alert (answer 1 false))),
    .act (.plan ⟨2⟩ (.alert (answer 2 true)))].reverse

theorem preceded_found :
    (Get.waitForResult (infoHash [7] "a") ⟨5⟩ true
      (Move.run (Session.untouched ⟨⟩ {}) preceded)).1 = some (answered 2 true 2) := by
  have accepted : (Move.run (Session.untouched ⟨⟩ {}) preceded).resultsOf (infoHash [7] "a")
        (Get.waitForResult (infoHash [7] "a") ⟨5⟩ true
          (Move.run (Session.untouched ⟨⟩ {}) preceded)).2 ++
        sinceRemoval (Session.untouched ⟨⟩ {}) (infoHash [7] "a") preceded
      = [] ++ answered 2 true 2 :: [answered 1 false 0] := by
    decide +kernel
  exact (wait_final _ preceded Prod.mk.eta.symm accepted rfl).1

/-- A result that is not final comes after a final one, before anybody waits. -/
def displaced : List (Move Seconds Session.Placid) :=
  [.act (.start 1), .act (.happen (.alert (answer 2 true))),
    .act (.happen (.alert (answer 1 false)))].reverse

theorem displaced_missed :
    sinceRemoval (Session.untouched ⟨⟩ {}) (infoHash [7] "a") displaced
        = [answered 1 false 0, answered 2 true 0] ∧
      (Get.waitForResult (infoHash [7] "a") ⟨5⟩ true
        (Move.run (Session.untouched ⟨⟩ {}) displaced)).1 = none ∧
      (Get.waitForResult (infoHash [7] "a") ⟨5⟩ true
        (Move.run (Session.untouched ⟨⟩ {}) displaced)).2.correlator.running = true := by
  decide +kernel

end Correlator

end DhtRecords
