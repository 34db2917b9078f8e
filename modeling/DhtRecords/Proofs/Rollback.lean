/-
Submissions that put nothing.

A submission stamps its record before the first item is handed to an engine. If
nothing has been handed over in the end, the log and the count of submissions
are as they were, and so is what holds the other records back. The record itself
is free again if the stamp was released, which is done when the session has lost
its engine; it stays held back if its header has no form or the engine has failed
(`Submit.rolls_back`).
-/

import DhtRecords.Proofs.Cooldown
import DhtRecords.Proofs.Issuing
import DhtRecords.Proofs.RoundTrip

namespace DhtRecords

open ExactQuantity (value)

/-! ### Stamps -/

namespace Ledger

variable {τ : Type} [Quantity τ]

theorem remaining?_stamp_of_ne (ledger : Ledger τ) {key other : RecordKey} (differs : other ≠ key)
    (now moment : τ) : (ledger.stamp key now).remaining? other moment = ledger.remaining? other moment := by
  unfold remaining? stamp
  rw [Entries.get?_insert, if_neg differs]

variable [ExactQuantity τ]

/-- A record that is not held back is not held back later. -/
theorem remaining?_later {ledger : Ledger τ} {key : RecordKey} {now moment : τ}
    (free : ledger.remaining? key now = none) (forward : value now ≤ value moment) :
    ledger.remaining? key moment = none := by
  unfold remaining? at free ⊢
  cases stamped : ledger.stamps.get? key with
  | none => rfl
  | some last =>
    rw [stamped] at free
    have expired : value ledger.cooldown ≤ value now - value last := by simpa [elapsed] using free
    have past : ¬ value moment - value last < value ledger.cooldown := by linarith
    simp [elapsed, past]

/-- A stamp that is taken and released again makes no difference to a record that was not held back, nor
to others. -/
theorem remaining?_stamp_release {ledger : Ledger τ} {key : RecordKey} {now moment : τ}
    (free : ledger.remaining? key now = none) (forward : value now ≤ value moment)
    (other : RecordKey) :
    ((ledger.stamp key now).release key now).remaining? other moment
      = ledger.remaining? other moment := by
  by_cases same : other = key
  · subst same
    rw [remaining?_later free forward, remaining?, get?_stamp_release, if_pos rfl]
  · rw [remaining?, get?_stamp_release, if_neg same, cooldown_release]
    rfl

omit [ExactQuantity τ] in
theorem submissions_release (ledger : Ledger τ) (key : RecordKey) (moment : τ) :
    (ledger.release key moment).submissions = ledger.submissions ∧
      (ledger.release key moment).count = ledger.count := by
  unfold release
  split
  · split <;> exact ⟨rfl, rfl⟩
  · exact ⟨rfl, rfl⟩

end Ledger

/-! ### What was handed over -/

/-- What no engine was told to put was not handed over. -/
theorem Occurrence.handed?_of_untold {τ : Type} {occurrence : Occurrence τ}
    (untold : occurrence.put? = none) (item : Bytes × String) : occurrence.handed? item = none := by
  unfold handed?
  split
  · cases untold
  · rfl

namespace Put

open World

variable {τ ν : Type}

theorem handedItems_of_untold {before after : World τ ν} (untold : before.puts after = []) :
    before.handedItems after = ∅ := by
  refine Set.eq_empty_of_forall_notMem fun item handed => ?_
  refine Option.isSome_iff_ne_none.mp handed (List.findSome?_eq_none_iff.mpr fun occurrence member => ?_)
  exact Occurrence.handed?_of_untold (List.filterMap_eq_nil_iff.mp untold occurrence member) item

variable [Quantity τ] [Overlay τ ν]

/-- Whatever a row of items comes to, the first of them is told to the engine. -/
theorem hands_handOver (engine : EngineId) (owner : Bytes) {items : List (String × Signer)}
    (some : items ≠ []) (world : World τ ν) :
    ∃ handed ≠ [], Hands handed world ((handOver engine owner items).run world).2 := by
  obtain ⟨first, rest, rfl⟩ := List.exists_cons_of_ne_nil some
  unfold handOver
  rw [Op.run_bind, Op.run_ask]
  have told := (ask_put engine owner first.1 first.2 world).2.2
  rcases asked : world.ask engine (.put owner first.1 first.2) with ⟨fault | _, middle⟩
  · rw [asked] at told
    exact ⟨_, List.cons_ne_nil _ _, told⟩
  · rw [asked] at told
    obtain ⟨fresh, journal, -⟩ := (keeps_handOver engine owner rest middle).journal
    exact ⟨_, List.append_ne_nil_of_right_ne_nil _ (List.cons_ne_nil _ _),
      told.trans ⟨fresh, journal, rfl⟩⟩

theorem hands_of_issue {owner privateKey : Bytes} {sequence : Int} {items : List (String × Bytes)}
    (some : items ≠ []) {failure : Failure} {world after : World τ ν}
    (run : (issue owner privateKey sequence items).run world = (.error failure, after)) :
    ∃ handed ≠ [], Hands handed world after := by
  unfold issue at run
  rw [Op.run_bind_ok (Op.run_get world)] at run
  split at run
  · cases run
  · next engine _ =>
    have told (sign : String × Bytes → String × Signer) : ∃ handed ≠ [],
        Hands handed world ((handOver engine owner (items.map sign)).run world).2 :=
      hands_handOver engine owner (mt List.map_eq_nil_iff.mp some) world
    rw [Op.run_bind] at run
    rcases given : (handOver engine owner _).run world with ⟨failure' | _, after'⟩ <;>
      rw [given] at run <;> cases run
    have ended : _ = after := congrArg Prod.snd given
    rw [← ended]
    exact told _

/-- Issuing a record fails because its header has no form, or because of an engine that was told to put
an item of it. -/
theorem hands_of_failure {key : RecordKey} {privateKey : Bytes} {lastSequence : Int} {record : Record}
    {failure : Failure} {world after : World τ ν}
    (run : (issueRecord key privateKey lastSequence record).run world = (.error failure, after))
    (encodes : (items? record).isSome = true) : ∃ handed ≠ [], Hands handed world after := by
  obtain ⟨items, encoded⟩ := Option.isSome_iff_exists.mp encodes
  have some : items ≠ [] := by
    obtain ⟨header, -, rfl⟩ := Option.map_eq_some_iff.mp encoded
    exact List.cons_ne_nil _ _
  unfold issueRecord at run
  rw [Op.run_bind_ok (Op.run_get world), Op.run_bind_ok (Op.run_modify _ world), encoded] at run
  dsimp only at run
  rw [Op.run_bind] at run
  rcases issued : (issue key.owner privateKey (lastSequence + 1) items).run
    (modifyLedger (·.stamp key world.clock) world) with ⟨failure' | hasEngine, after'⟩
  · rw [issued] at run
    cases run
    have told : ∃ handed ≠ [], Hands handed (modifyLedger (·.stamp key world.clock) world) after :=
      hands_of_issue some issued
    exact told
  · rw [issued] at run
    cases hasEngine <;> cases run

theorem issue_unissued {owner privateKey : Bytes} {sequence : Int} {items : List (String × Bytes)}
    {world after : World τ ν}
    (run : (issue owner privateKey sequence items).run world = (.ok false, after)) : after = world := by
  unfold issue at run
  rw [Op.run_bind_ok (Op.run_get world)] at run
  split at run
  · cases run
    rfl
  · obtain ⟨_, _, -, run⟩ := Op.run_bind_eq_ok run
    cases run

/-- A record whose stamp is released has a header with a form, and no engine was told to put any of it. -/
theorem hands_of_stopped {key : RecordKey} {privateKey : Bytes} {lastSequence : Int} {record : Record}
    {world after : World τ ν}
    (run : (issueRecord key privateKey lastSequence record).run world = (.ok (.error .stopped), after)) :
    (items? record).isSome = true ∧ Hands [] world after := by
  unfold issueRecord at run
  rw [Op.run_bind_ok (Op.run_get world), Op.run_bind_ok (Op.run_modify _ world)] at run
  cases encoded : items? record with
  | none =>
    rw [encoded] at run
    cases run
  | some items =>
    rw [encoded] at run
    obtain ⟨hasEngine, issued, issue, run⟩ := Op.run_bind_eq_ok run
    cases hasEngine with
    | true => cases run
    | false =>
      obtain rfl := issue_unissued issue
      cases run
      exact ⟨rfl, .of_journal rfl⟩

/-- Issuing a record without a receipt leaves its stamp behind, or releases it; that is done if the header
has a form and no engine was told to put anything. -/
theorem issueRecord_unentered [ExactQuantity τ] {key : RecordKey} {privateKey : Bytes}
    {lastSequence : Int} {record : Record} {outcome : Except Failure (Except Error (Receipt τ))}
    {world after : World τ ν}
    (run : (issueRecord key privateKey lastSequence record).run world = (outcome, after))
    (fails : ∀ receipt, outcome ≠ .ok (.ok receipt)) :
    (after.ledger = world.ledger.stamp key world.clock ∧
      ((items? record).isSome = true → ∃ handed ≠ [], Hands handed world after)) ∨
    (after.ledger = (world.ledger.stamp key world.clock).release key world.clock ∧
      (items? record).isSome = true ∧ Hands [] world after ∧ value world.clock ≤ value after.clock) := by
  obtain ⟨issued, issues, ⟨failure, issue⟩ | ⟨receipt, submission, issue⟩ | issue⟩ :=
    issueRecord_cases key privateKey lastSequence record world
  · cases run.symm.trans issue
    exact .inl ⟨issues.ledger, hands_of_failure issue⟩
  · cases run.symm.trans issue
    exact absurd rfl (fails receipt)
  · cases run.symm.trans issue
    obtain ⟨encodes, untold⟩ := hands_of_stopped issue
    refine .inr ⟨?_, encodes, untold, issues.clock_le⟩
    exact congrArg (fun ledger : Ledger τ => ledger.release key world.clock) issues.ledger

/-! ### Submissions -/

namespace Submit

theorem ensured_of_checked? {submit : Submit} {world checked : World τ ν}
    (past : submit.checked? world = some checked) :
    Session.ensureRunning.run world = (.ok none, checked) := by
  unfold checked? at past
  split at past
  · next after step =>
    split at past
    · exact (Option.some_inj.mp past) ▸ step
    · cases past
  · cases past

/-- A submission with a receipt has handed something over. -/
theorem handed_of_receipt {submit : Submit} {before after : World τ ν} {receipt : Receipt τ}
    (run : submit.run before = (.ok (.ok receipt), after)) : before.handedItems after ≠ ∅ := by
  obtain ⟨-, items, engine, fresh, encoded, journal⟩ := journal_record run
  obtain ⟨header, -, rfl⟩ := Option.map_eq_some_iff.mp encoded
  refine Set.nonempty_iff_ne_empty.mp ⟨(submit.owner, headerSalt submit.record.operation), ?_⟩
  change Option.isSome _ = true
  rw [handed_of_append journal, Option.isSome_iff_ne_none, Ne, List.findSome?_eq_none_iff]
  intro nothing
  have first := nothing (.called engine (.put submit.owner (headerSalt submit.record.operation)
    ⟨header, submit.lastSequence + 1, submit.owner, submit.privateKey⟩) false) (by simp [calls, signed])
  simp [Occurrence.handed?] at first

/-- A submission that has handed nothing over is not entered, and holds back no other record. Its own one
is held back as before, if its header has a form and no engine was told to put any of it; else it is
held back as if it had been put. -/
theorem rolls_back [ExactQuantity τ] {submit : Submit} {before after : World τ ν}
    {outcome : Except Failure (Except Error (Receipt τ))}
    (run : submit.run before = (outcome, after)) (nothing : before.handedItems after = ∅) :
    after.ledger.submissions = before.ledger.submissions ∧
      after.ledger.count = before.ledger.count ∧
      (∀ key moment, value after.clock ≤ value moment →
        (key = submit.key → (items? submit.record).isSome = true ∧ before.puts after = []) →
        after.ledger.remaining? key moment = before.ledger.remaining? key moment) ∧
      ∀ checked, submit.checked? before = some checked →
        before.ledger.remaining? submit.key checked.clock = none →
        ¬ ((items? submit.record).isSome = true ∧ before.puts after = []) →
        after.ledger = before.ledger.stamp submit.key checked.clock := by
  cases past : submit.checked? before with
  | none =>
    have continues := (run_of_unchecked past).1
    rw [run] at continues
    have ledger : after.ledger = before.ledger := continues.ledger
    rw [ledger]
    refine ⟨rfl, rfl, fun _ _ _ _ => rfl, fun checked absurd => ?_⟩
    cases absurd
  | some checked =>
    have continues := continues_checked? past
    have spared := (Session.spares_ensureRunning.of_run (ensured_of_checked? past)).hands
    have course := run_of_checked past
    rw [run, heldBack?_eq, continues.ledger] at course
    simp only [Option.some.injEq, forall_eq']
    cases free : before.ledger.remaining? submit.key checked.clock with
    | some rest =>
      rw [free] at course
      cases course
      rw [continues.ledger]
      refine ⟨rfl, rfl, fun _ _ _ _ => rfl, fun absurd => ?_⟩
      cases absurd
    | none =>
      rw [free] at course
      obtain ⟨ledger, handed⟩ | ⟨ledger, encodes, untold, clock⟩ :=
        issueRecord_unentered course.symm fun receipt same =>
          handed_of_receipt (run.trans (congrArg (·, after) same)) nothing
      · rw [ledger, continues.ledger]
        refine ⟨rfl, rfl, fun key moment _ unissued => Ledger.remaining?_stamp_of_ne _ ?_ _ _,
          fun _ _ => rfl⟩
        -- The stamp is left behind, which has a reason if it is that of the record itself.
        intro same
        obtain ⟨encodes, untold⟩ := unissued same
        obtain ⟨told, some, hands⟩ := handed encodes
        rw [(spared.trans hands).puts_eq, List.append_nil] at untold
        exact some untold
      · rw [ledger, continues.ledger]
        obtain ⟨submissions, count⟩ := (before.ledger.stamp submit.key checked.clock).submissions_release
          submit.key checked.clock
        refine ⟨submissions, count, fun key moment later _ => ?_, fun _ told => absurd ?_ told⟩
        · exact Ledger.remaining?_stamp_release free (clock.trans later) key
        · exact ⟨encodes, (spared.trans untold).puts_eq⟩

/-- Another record. -/
def other : RecordKey := ⟨Seconds.pair.publicKey, "other"⟩

/-- A session that is stopped while it is asked whether its engine is running. The sample was put long
ago, and another record just now. -/
def losing : World Seconds (Simnet Seconds) :=
  { Seconds.world {} with
    overlay := { Seconds.net {} with
      options := { Simnet.Options.plain with stopDuringCheck := true } }
    ledger := ((Seconds.world {}).ledger.stamp sample.key ⟨-20⟩).stamp other ⟨0⟩ }

theorem losing_rolled_back :
    (sample.run losing).2.ledger.remaining? other ⟨4⟩ = some ⟨6⟩ ∧
      (sample.run losing).2.ledger.remaining? sample.key ⟨4⟩ = none := by
  have course : losing.puts (sample.run losing).2 = [] ∧
      (items? sample.record).isSome = true ∧ (sample.run losing).2.clock = ⟨0⟩ ∧
      losing.ledger.remaining? other ⟨4⟩ = some ⟨6⟩ ∧
      losing.ledger.remaining? sample.key ⟨4⟩ = none := by
    decide +kernel
  obtain ⟨untold, encodes, clock, held, free⟩ := course
  have later : value (sample.run losing).2.clock ≤ value (⟨4⟩ : Seconds) := by
    rw [clock]
    change ((0 : Int) : ℚ) ≤ ((4 : Int) : ℚ)
    norm_num
  have same := (rolls_back Prod.mk.eta.symm (handedItems_of_untold untold)).2.2.1
  exact ⟨(same other ⟨4⟩ later fun _ => ⟨encodes, untold⟩).trans held,
    (same sample.key ⟨4⟩ later fun _ => ⟨encodes, untold⟩).trans free⟩

/-- The sample under a header with a version that has no form. -/
def unencodable : Submit :=
  { sample with
    record :=
      Record.assemble "op" 4
        { Record.describe "op" [] [] with version := .int 18446744073709551616 } [] [] 0 }

theorem unencodable_locks :
    (unencodable.run (Seconds.world {})).1.isOk = false ∧
      (Seconds.world {}).handedItems (unencodable.run (Seconds.world {})).2 = ∅ ∧
      (Seconds.world {}).ledger.remaining? unencodable.key ⟨1⟩ = none ∧
      (unencodable.run (Seconds.world {})).2.ledger.remaining? unencodable.key ⟨1⟩ = some ⟨9⟩ := by
  have course : (Seconds.world {}).puts (unencodable.run (Seconds.world {})).2 = [] ∧
      (unencodable.run (Seconds.world {})).1.isOk = false ∧
      (Seconds.world {}).ledger.remaining? unencodable.key ⟨1⟩ = none ∧
      (unencodable.run (Seconds.world {})).2.ledger.remaining? unencodable.key ⟨1⟩ = some ⟨9⟩ := by
    decide +kernel
  exact ⟨course.2.1, handedItems_of_untold course.1, course.2.2⟩

end Submit

end Put

end DhtRecords
