/-
Answers to one's own lookup.

A waiting lookup discards what was known of its item, makes sure of the session
and then tells the engine. Nothing that engines are asked, and no stop of the
session, brings an alert to the correlator (`Retains`): unless making sure of the
session comes to wait for a bootstrap, all that is held of the item in the end was
accepted after the engine was told. What arrives in the course of a bootstrap
is taken for the answer, too (`Get.answered_after`).
-/

import DhtRecords.Proofs.Exact
import DhtRecords.Proofs.Hearing

namespace DhtRecords

variable {τ ν : Type}

/-! ### Making sure of a session -/

namespace Session

open World Op

variable [Quantity τ] [Overlay τ ν]

/-- Whether recovering the engine comes to wait for a bootstrap: there is an engine, which is not running
and has no state to go on with. -/
def recoveryAwaitsBootstrap : Op τ ν Bool := do
  match (← get).session.engine with
  | none => return false
  | some engine =>
    if ← checkRunning engine then return false
    return !(← loadState)

/-- Whether making sure of the session comes to wait for a bootstrap. -/
def awaitsBootstrap : Op τ ν Bool := do
  let session := (← get).session
  match session.engine, isDown session.state with
  | some engine, false =>
    if ← checkRunning engine then return false
    recoveryAwaitsBootstrap
  | _, _ => return false

/-- Without a bootstrap nothing is heard in the course of a recovery. -/
theorem retains_recover (waiter : Waiter τ ν) {world : World τ ν}
    (prompt : (recoveryAwaitsBootstrap.run world).1 ≠ .ok true) :
    Retains world ((recover waiter).run world).2 := by
  unfold recoveryAwaitsBootstrap at prompt
  unfold recover
  rw [run_bind_ok (run_get world)] at prompt ⊢
  cases installed : world.session.engine with
  | none => exact refl_of Retains world
  | some engine =>
    rw [installed] at prompt
    dsimp only at prompt ⊢
    have checked := checkRunning_keeps tending_retains installed
    rw [run_bind] at prompt ⊢
    rcases check : (checkRunning engine).run world with ⟨failure | running, middle⟩ <;>
      rw [check] at checked prompt
    · exact checked
    cases running with
    | true => exact checked
    | false =>
      simp only [Bool.false_eq_true, if_false] at prompt ⊢
      have loaded := loadState_keeps tending_retains middle
      rw [run_bind] at prompt ⊢
      rcases load : loadState.run middle with ⟨failure | accepted, restored⟩ <;>
        rw [load] at loaded prompt
      · exact trans_of Retains checked loaded
      cases accepted with
      | true => exact trans_of Retains checked loaded
      | false => exact absurd rfl prompt

/-- Without a bootstrap nothing is heard in the course of making sure of the session. -/
theorem retains_ensureRunning {world : World τ ν}
    (prompt : (awaitsBootstrap.run world).1 ≠ .ok true) :
    Retains world (ensureRunning.run world).2 := by
  unfold awaitsBootstrap at prompt
  unfold ensureRunning
  rw [run_bind_ok (run_get world)] at prompt ⊢
  dsimp only at prompt ⊢
  cases installed : world.session.engine with
  | none => exact refl_of Retains world
  | some engine =>
    cases up : isDown world.session.state with
    | true => exact refl_of Retains world
    | false =>
      rw [installed, up] at prompt
      dsimp only at prompt ⊢
      have checked := checkRunning_keeps tending_retains installed
      rw [run_bind] at prompt ⊢
      rcases check : (checkRunning engine).run world with ⟨failure | running, middle⟩ <;>
        rw [check] at checked prompt
      · exact checked
      cases running with
      | true => exact checked
      | false =>
        simp only [Bool.false_eq_true, if_false] at prompt ⊢
        have recovered := retains_recover World.run prompt
        rw [run_bind]
        rcases back : (recover World.run).run middle with ⟨failure | isBack, after⟩ <;>
          rw [back] at recovered
        · exact trans_of Retains checked recovered
        · cases isBack <;> exact trans_of Retains checked recovered

end Session

/-! ### Lookups -/

namespace Get

open World Op

variable [Quantity τ] [Overlay τ ν]

/-- A lookup that is fired is told to an engine, once the session has been made sure of. -/
theorem fire_cases {owner : Bytes} {salt : String} {world after : World τ ν}
    (run : (fire owner salt).run world = (.ok (.ok ()), after)) :
    ∃ engine middle, Session.ensureRunning.run world = (.ok none, middle) ∧
      after = (middle.ask engine (.lookup owner salt)).2 ∧
      after.journal = .called engine (.lookup owner salt) false :: middle.journal := by
  unfold fire at run
  obtain ⟨unavailable, middle, ensured, run⟩ := run_bind_eq_ok run
  cases unavailable with
  | some kind => cases run
  | none =>
    simp only [Option.isSome_none, Bool.false_eq_true, if_false] at run
    rw [run_bind_ok (run_get middle)] at run
    split at run
    · cases run
    · next engine _ =>
      obtain ⟨_, asked, told, run⟩ := run_bind_eq_ok run
      cases run
      have journal := journal_ask engine (.lookup owner salt) middle
      rw [run_ask] at told
      split at told
      · next answered =>
        cases told
        rw [answered] at journal
        exact ⟨engine, middle, ensured, by rw [answered], journal⟩
      · cases told

/-- What a lookup finds was accepted after it was told to the engine, unless making sure of the session
came to wait for a bootstrap; then it was accepted since the lookup began. -/
theorem answered_after {owner : Bytes} {salt : String} {timeout : τ} {onlyFinal : Bool}
    {world after : World τ ν} {found : Found}
    (run : (lookup owner salt timeout onlyFinal).run world = (.ok (.ok found), after)) :
    ∃ (result : LookupResult τ) (engine : EngineId) (late early : List (Occurrence τ)),
      found = ⟨result.value, result.sequence, result.final⟩ ∧
      (onlyFinal = true → result.final = true) ∧
      infoHash result.owner result.salt = infoHash owner salt ∧
      after.journal = late ++ .called engine (.lookup owner salt) false :: early ∧
      world.journal <:+ early ∧ result.alert ∈ world.heard after ∧
      (result.alert ∈ late.filterMap Occurrence.alert? ∨
        (Session.awaitsBootstrap.run (forget owner salt world)).1 = .ok true) := by
  unfold lookup at run
  rw [run_bind_ok (run_modify _ world)] at run
  obtain ⟨fired, asked, fire, run⟩ := run_bind_eq_ok run
  split at run
  · cases run
  obtain ⟨engine, middle, ensured, told, journal⟩ := fire_cases fire
  obtain ⟨begun, beginning, -⟩ := (Session.keeps_ensureRunning.of_run ensured).journal
  rw [run_bind_ok (run_modifyGet _ asked)] at run
  have waited := continues_waitForResult (infoHash owner salt) timeout onlyFinal asked
  split at run
  · next result ready =>
    cases run
    obtain ⟨held, suits⟩ := Option.filter_eq_some_iff.mp ready
    obtain ⟨late, ending, -⟩ := waited.journal
    -- The item was forgotten in the beginning, so the result was heard since then.
    have forgotten := Fresh.forget (Gathers.refl world) owner salt
    have fresh := (forgotten.trans ((gathers_fire owner salt).of_run fire)).trans waited.gathers
    obtain ⟨name, heard⟩ := fresh.held result held
    refine ⟨result, engine, late, middle.journal, rfl, fun insists => by simpa [insists] using suits,
      name, by rw [ending, journal], ⟨begun, beginning.symm⟩, heard, ?_⟩
    refine or_iff_not_imp_right.mpr fun prompt => ?_
    -- Without a bootstrap it was not there when the engine was told.
    have ensures := Session.retains_ensureRunning prompt
    rw [ensured] at ensures
    have same : asked.correlator.results = (forget owner salt world).correlator.results := by
      rw [told]
      exact (trans_of Retains ensures (retains_ask engine _ middle)).results
    rcases waited.gathers.held _ result held with old | ⟨-, new⟩
    · rw [same] at old
      simp [forget, Correlator.forget, Entries.get?_erase] at old
    · rwa [heard_of_append ending] at new
  · rw [run_bind_ok (run_modify _ _), run_bind_ok (run_get _)] at run
    split at run <;> cases run

/-! ### An answer that comes late -/

/-- An overlay with one item, which takes two seconds to answer a lookup. -/
def slow : World Seconds (Simnet Seconds) :=
  let items : Entries (Bytes × String) Simnet.Item := ⟨[((Seconds.pair.publicKey, "s"), ⟨[97], 1⟩)]⟩
  { Seconds.world items with
    overlay := { Seconds.net items with options := { Simnet.Options.plain with delay := ⟨2⟩ } } }

/-- The item is replaced by a newer one. -/
def renew (world : World Seconds (Simnet Seconds)) : World Seconds (Simnet Seconds) :=
  { world with overlay := world.overlay.place Seconds.pair.publicKey "s" ⟨[98], 2⟩ }

/-- What a lookup has come to, in a world. -/
abbrev Sought := Except Failure (Except (Error Seconds) Found) × World Seconds (Simnet Seconds)

/-- What was found. -/
def Sought.found? (sought : Sought) : Option Found := sought.1.toOption.bind Except.toOption

theorem Sought.eq_of_found? {sought : Sought} {found : Found} (some : sought.found? = some found) :
    sought = (.ok (.ok found), sought.2) := by
  obtain ⟨_ | _ | _, after⟩ := sought <;> cases some
  rfl

/-- A lookup was given up, and the item has changed since. -/
def givenUp : World Seconds (Simnet Seconds) :=
  renew ((lookup Seconds.pair.publicKey "s" ⟨1⟩ false).run slow).2

/-- The lookup is repeated. -/
def repeated : Sought := (lookup Seconds.pair.publicKey "s" ⟨5⟩ false).run givenUp

theorem repeated_answered :
    ∃ (result : LookupResult Seconds) (engine : EngineId) (late early : List (Occurrence Seconds)),
      result.value = [97] ∧
      repeated.2.journal = late ++ .called engine (.lookup Seconds.pair.publicKey "s") false :: early ∧
      result.alert ∈ late.filterMap Occurrence.alert? := by
  have course : repeated.found?.map (·.value) = some [97] ∧
      (Session.awaitsBootstrap.run (forget Seconds.pair.publicKey "s" givenUp)).1.toOption
        = some false := by
    decide +kernel
  obtain ⟨value, prompt⟩ := course
  obtain ⟨found, some, value⟩ := Option.map_eq_some_iff.mp value
  have run : (lookup Seconds.pair.publicKey "s" ⟨5⟩ false).run givenUp = (.ok (.ok found), repeated.2) :=
    Sought.eq_of_found? some
  obtain ⟨result, engine, late, early, rfl, -, -, journal, -, -, heard | awaited⟩ := answered_after run
  · exact ⟨result, engine, late, early, value, journal, heard⟩
  · rw [awaited] at prompt
    cases prompt

/-- Whether an engine is running, from now on. -/
def switch (running : Bool) (net : Simnet Seconds) : Simnet Seconds :=
  net.modifyEngine 1 fun engine => { engine with running }

/-- The engine has stopped after it was told to look the item up, which has changed since. It will have
joined the overlay again after it has answered. -/
def interrupted : World Seconds (Simnet Seconds) :=
  let fired := renew ((fire Seconds.pair.publicKey "s").run slow).2
  let down : World Seconds (Simnet Seconds) := { fired with overlay := switch false fired.overlay }
  (down.schedule ⟨3⟩ (.overlay (switch true))).schedule ⟨3⟩ (.alert (.bootstrap ""))

/-- A lookup after the interruption. -/
def outrun : Sought := (lookup Seconds.pair.publicKey "s" ⟨5⟩ true).run interrupted

/-- Whether nothing has happened since an engine was told to look an item up. -/
def isToldLast : List (Occurrence Seconds) → Bool
  | .called _ (.lookup _ _) false :: _ => true
  | _ => false

theorem outrun_stale :
    outrun.found?.map (fun found => (found.value, found.sequence)) = some ([97], 1) ∧
      isToldLast outrun.2.journal = true := by
  decide +kernel

end Get

end DhtRecords
