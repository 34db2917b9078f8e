/-
What is heard while a program runs, and where its results come from.

`World.heard` lists the alerts that were accepted between two worlds. A program
`Gathers` if every result that is held after it was held before it or was heard
in the course of it; a result is `Fresh` if it was heard since some moment. A
lookup forgets what was held of its item first, so what it finds is fresh
(`Get.reported_of_lookup`).
-/

import DhtRecords.Get
import DhtRecords.Proofs.Continuity

namespace DhtRecords

variable {τ ν : Type}

/-! ### Heard alerts -/

/-- The alert that was accepted, if it is that what has happened. -/
def Occurrence.alert? : Occurrence τ → Option Alert
  | .accepted alert _ => some alert
  | _ => none

/-- The alert that a result came with. -/
def LookupResult.alert (result : LookupResult τ) : Alert :=
  .result result.owner result.salt result.value result.sequence result.final

namespace World

/-- The alerts that were accepted from one world to a later one, the latest first. -/
def heard (before after : World τ ν) : List Alert :=
  (after.journal.take (after.journal.length - before.journal.length)).filterMap Occurrence.alert?

theorem heard_of_append {before after : World τ ν} {fresh : List (Occurrence τ)}
    (journal : after.journal = fresh ++ before.journal) :
    before.heard after = fresh.filterMap Occurrence.alert? := by
  rw [heard, journal]
  simp

theorem heard_trans {first second third : World τ ν} (left : first.journal <:+ second.journal)
    (right : second.journal <:+ third.journal) :
    first.heard third = second.heard third ++ first.heard second := by
  obtain ⟨old, oldJournal⟩ := left
  obtain ⟨new, newJournal⟩ := right
  have journal : third.journal = (new ++ old) ++ first.journal := by
    rw [← newJournal, ← oldJournal, List.append_assoc]
  rw [heard_of_append journal, heard_of_append newJournal.symm, heard_of_append oldJournal.symm,
    List.filterMap_append]

/-- Whether everything that is held later was held before or heard in between. -/
structure Gathers (before after : World τ ν) : Prop where
  settings : after.settings = before.settings
  journal : before.journal <:+ after.journal
  held : ∀ key result, after.correlator.results.get? key = some result →
    before.correlator.results.get? key = some result ∨
      (infoHash result.owner result.salt = key ∧ result.alert ∈ before.heard after)

namespace Gathers

theorem refl (world : World τ ν) : Gathers world world :=
  ⟨rfl, List.suffix_refl _, fun _ _ held => .inl held⟩

theorem trans {first second third : World τ ν} (left : Gathers first second)
    (right : Gathers second third) : Gathers first third := by
  refine ⟨right.settings.trans left.settings, left.journal.trans right.journal, ?_⟩
  intro key result held
  rw [heard_trans left.journal right.journal]
  rcases right.held key result held with held | ⟨name, heard⟩
  · rcases left.held key result held with held | ⟨name, heard⟩
    · exact .inl held
    · exact .inr ⟨name, List.mem_append_right _ heard⟩
  · exact .inr ⟨name, List.mem_append_left _ heard⟩

instance : Std.Refl (Gathers (τ := τ) (ν := ν)) := ⟨refl⟩

instance : IsTrans (World τ ν) Gathers := ⟨fun _ _ _ => trans⟩

/-- Changes that have nothing to do with results go unnoticed. -/
theorem of_eq {before after : World τ ν} (settings : after.settings = before.settings)
    (journal : after.journal = before.journal)
    (results : after.correlator.results = before.correlator.results) : Gathers before after :=
  ⟨settings, journal ▸ List.suffix_refl _, fun _ _ held => .inl (results ▸ held)⟩

/-- Forgetting adds nothing to what is held. -/
theorem forget (owner : Bytes) (salt : String) (world : World τ ν) :
    Gathers world (Get.forget owner salt world) := by
  refine ⟨rfl, List.suffix_refl _, ?_⟩
  intro key result held
  simp only [Get.forget, Correlator.forget, Entries.get?_erase] at held
  split at held
  · cases held
  · exact .inl held

end Gathers

/-- Every result comes with an alert. -/
theorem absorb_cases (fresh : List (Occurrence τ)) (results : Entries String (LookupResult τ))
    (key : String) (result : LookupResult τ)
    (held : (fresh.foldr Occurrence.absorb results).get? key = some result) :
    results.get? key = some result ∨
      (infoHash result.owner result.salt = key ∧
        result.alert ∈ fresh.filterMap Occurrence.alert?) := by
  induction fresh with
  | nil => exact .inl held
  | cons occurrence rest ih =>
    have older (held : (rest.foldr Occurrence.absorb results).get? key = some result) :
        results.get? key = some result ∨ (infoHash result.owner result.salt = key ∧
          result.alert ∈ (occurrence :: rest).filterMap Occurrence.alert?) := by
      rcases ih held with held | ⟨name, heard⟩
      · exact .inl held
      · refine .inr ⟨name, ?_⟩
        rw [List.filterMap_cons]
        split
        · exact heard
        · exact List.mem_cons_of_mem _ heard
    rw [List.foldr_cons] at held
    unfold Occurrence.absorb at held
    split at held
    · next owner salt content sequence final moment =>
      rw [Entries.get?_insert] at held
      split at held
      · next same =>
        cases held
        exact .inr ⟨same.symm, by simp [Occurrence.alert?, LookupResult.alert]⟩
      · exact older held
    · exact older held

theorem Continues.gathers [Quantity τ] {before after : World τ ν}
    (continues : Continues before after) : Gathers before after := by
  obtain ⟨fresh, journal, results⟩ := continues.journal
  refine ⟨continues.settings, ⟨fresh, journal.symm⟩, ?_⟩
  intro key result held
  rw [results] at held
  rw [heard_of_append journal]
  exact absorb_cases fresh _ key result held

/-! ### Reports and fresh results -/

/-- Whether something was reported of an item from one world to a later one; items of the same digest
are not told apart. -/
def Reported (before after : World τ ν) (owner : Bytes) (salt : String) (content : Bytes)
    (sequence : Int) : Prop :=
  ∃ owner' salt' final, .result owner' salt' content sequence final ∈ before.heard after ∧
    infoHash owner' salt' = infoHash owner salt

/-- Whether the result that is held of an item, if any, was heard since a moment. -/
structure Fresh (start : World τ ν) (key : String) (world : World τ ν) : Prop where
  gathers : Gathers start world
  held : ∀ result, world.correlator.results.get? key = some result →
    infoHash result.owner result.salt = key ∧ result.alert ∈ start.heard world

theorem Reported.mono {first before after last : World τ ν} {owner : Bytes} {salt : String}
    {content : Bytes} {sequence : Int} (reported : Reported before after owner salt content sequence)
    (early : Gathers first before) (within : Gathers before after) (late : Gathers after last) :
    Reported first last owner salt content sequence := by
  obtain ⟨owner', salt', final, heard, name⟩ := reported
  refine ⟨owner', salt', final, ?_, name⟩
  rw [heard_trans early.journal (within.trans late).journal, heard_trans within.journal late.journal]
  exact List.mem_append_left _ (List.mem_append_right _ heard)

namespace Fresh

variable {start world after : World τ ν} {key : String}

theorem trans (fresh : Fresh start key world) (gathers : Gathers world after) :
    Fresh start key after := by
  refine ⟨fresh.gathers.trans gathers, ?_⟩
  intro result held
  rw [heard_trans fresh.gathers.journal gathers.journal]
  rcases gathers.held key result held with held | ⟨name, heard⟩
  · exact ⟨(fresh.held result held).1, List.mem_append_right _ (fresh.held result held).2⟩
  · exact ⟨name, List.mem_append_left _ heard⟩

theorem since {first : World τ ν} (fresh : Fresh start key world) (early : Gathers first start) :
    Fresh first key world := by
  refine ⟨early.trans fresh.gathers, ?_⟩
  intro result held
  rw [heard_trans early.journal fresh.gathers.journal]
  exact ⟨(fresh.held result held).1, List.mem_append_left _ (fresh.held result held).2⟩

/-- Nothing is held of an item that was just forgotten. -/
theorem forget (gathers : Gathers start world) (owner : Bytes) (salt : String) :
    Fresh start (infoHash owner salt) (Get.forget owner salt world) := by
  refine ⟨gathers.trans (.forget owner salt world), ?_⟩
  intro result held
  simp [Get.forget, Correlator.forget, Entries.get?_erase] at held

theorem reported {owner : Bytes} {salt : String} (fresh : Fresh start (infoHash owner salt) world)
    {result : LookupResult τ}
    (held : world.correlator.results.get? (infoHash owner salt) = some result) :
    Reported start world owner salt result.value result.sequence :=
  ⟨result.owner, result.salt, result.final, (fresh.held result held).2, (fresh.held result held).1⟩

end Fresh

end World

/-! ### Lookups -/

namespace Get

open World Op

variable [Quantity τ] [Overlay τ ν]

section

variable {R : World τ ν → World τ ν → Prop} [Std.Refl R] [IsTrans (World τ ν) R]

/-- Whatever holds of making sure of a session, and of the calls of its engine, holds of firing. -/
theorem upholds_fire (ensures : Keeps R (Session.ensureRunning : Op τ ν (Option ErrorKind)))
    (asked : ∀ engine owner salt world, R world (world.ask engine (.lookup owner salt)).2)
    (owner : Bytes) (salt : String) :
    Keeps R (fire owner salt : Op τ ν (Except (Error τ) Unit)) := by
  refine .bind ensures fun unavailable => ?_
  split
  · exact .pure _
  · refine .get_bind fun world => ?_
    split
    · exact .pure _
    · exact .bind (.ask (asked _ owner salt)) fun _ => .pure _

/-- A lookup is made up of firing, waiting and forgetting. -/
theorem upholds_lookup (waits : ∀ deadline condition world, R world (World.run deadline condition world))
    (fires : ∀ owner salt, Keeps R (fire owner salt : Op τ ν (Except (Error τ) Unit)))
    (forgets : ∀ owner salt world, R world (Get.forget owner salt world)) (owner : Bytes)
    (salt : String) (timeout : τ) (onlyFinal : Bool) :
    Keeps R (lookup owner salt timeout onlyFinal : Op τ ν (Except (Error τ) Found)) := by
  refine .bind (.modify (forgets owner salt)) fun _ => .bind (fires owner salt) fun fired => ?_
  split
  · exact .pure _
  · refine .bind (.modifyGet fun world => waits _ _ world) fun found => ?_
    split
    · exact .pure _
    · refine .bind (.modify (forgets owner salt)) fun _ => .get_bind fun world => ?_
      split
      · exact .pure _
      · exact .pure _

end

theorem keeps_fire (owner : Bytes) (salt : String) :
    Keeps Continues (fire owner salt : Op τ ν (Except (Error τ) Unit)) :=
  upholds_fire Session.keeps_ensureRunning (fun engine _ _ => continues_ask engine _) owner salt

theorem continues_waitForAll (keys : List String) (timeout : τ) (world : World τ ν) :
    Continues world (waitForAll keys timeout world).2 := by
  unfold waitForAll
  split
  · exact .refl world
  · exact continues_run _ _ world

theorem continues_waitForResult (key : String) (timeout : τ) (onlyFinal : Bool)
    (world : World τ ν) : Continues world (waitForResult key timeout onlyFinal world).2 :=
  continues_run _ _ world

theorem gathers_fire (owner : Bytes) (salt : String) :
    Keeps Gathers (fire owner salt : Op τ ν (Except (Error τ) Unit)) :=
  fun world => (keeps_fire owner salt world).gathers

omit [Quantity τ] [Overlay τ ν] in
theorem gathers_forget (owner : Bytes) (salt : String) :
    Keeps Gathers (modify (Get.forget owner salt) : Op τ ν PUnit) :=
  .modify (.forget owner salt)

theorem gathers_lookup (owner : Bytes) (salt : String) (timeout : τ) (onlyFinal : Bool) :
    Keeps Gathers (lookup owner salt timeout onlyFinal : Op τ ν (Except (Error τ) Found)) :=
  upholds_lookup (fun _ _ _ => (continues_run _ _ _).gathers) gathers_fire Gathers.forget owner salt
    timeout onlyFinal

/-- What a lookup finds was heard of its item since it began, and is final if the caller insists on
that. -/
theorem heard_of_lookup {owner : Bytes} {salt : String} {timeout : τ} {onlyFinal : Bool}
    {world after : World τ ν} {found : Found}
    (run : (lookup owner salt timeout onlyFinal).run world = (.ok (.ok found), after)) :
    ∃ result : LookupResult τ, found = ⟨result.value, result.sequence, result.final⟩ ∧
      infoHash result.owner result.salt = infoHash owner salt ∧ result.alert ∈ world.heard after ∧
      (onlyFinal = true → result.final = true) := by
  unfold lookup at run
  rw [run_bind_ok (run_modify _ world)] at run
  obtain ⟨fired, asked, fire, run⟩ := run_bind_eq_ok run
  have forgotten := Fresh.forget (Gathers.refl world) owner salt
  have fresh := forgotten.trans (gathers_fire owner salt (Get.forget owner salt world))
  rw [fire] at fresh
  split at run
  · cases run
  · rw [run_bind_ok (run_modifyGet _ asked)] at run
    have waited := fresh.trans
      (continues_waitForResult (infoHash owner salt) timeout onlyFinal asked).gathers
    split at run
    · next result ready =>
      cases run
      obtain ⟨held, suits⟩ := Option.filter_eq_some_iff.mp ready
      obtain ⟨name, heard⟩ := waited.held result held
      exact ⟨result, rfl, name, heard, fun insists => by simpa [insists] using suits⟩
    · rw [run_bind_ok (run_modify _ _)] at run
      rw [run_bind_ok (run_get _)] at run
      split at run <;> cases run

/-- What a lookup finds was reported of its item since it began. -/
theorem reported_of_lookup {owner : Bytes} {salt : String} {timeout : τ} {onlyFinal : Bool}
    {world after : World τ ν} {found : Found}
    (run : (lookup owner salt timeout onlyFinal).run world = (.ok (.ok found), after)) :
    Reported world after owner salt found.value found.sequence := by
  obtain ⟨result, rfl, name, heard, -⟩ := heard_of_lookup run
  exact ⟨result.owner, result.salt, result.final, heard, name⟩

end Get

end DhtRecords
