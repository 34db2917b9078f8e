/-
What a session leaves alone while it is at work.

`Continues before after` says that the settings and the ledger of puts are the
same, that the clock has only been put forward, and that the journal has grown
by what happened since, with every result that the correlator holds now being
an old one or the latest of those that were accepted. The upkeep of a session is
of that kind (`Upkeep.continues`), and so are waits (`continues_run`) and making
sure of a session (`keeps_ensureRunning`).
-/

import DhtRecords.Proofs.Passing

namespace DhtRecords

variable {τ ν : Type}

/-- The results that are held after an occurrence. -/
def Occurrence.absorb :
    Occurrence τ → Entries String (LookupResult τ) → Entries String (LookupResult τ)
  | .accepted (.result owner salt value sequence final) moment, results =>
    results.insert (infoHash owner salt) ⟨owner, salt, value, sequence, final, moment⟩
  | _, results => results

namespace World

variable [Quantity τ]

/-- Whether a world can have come of another one without the doing of a coordinator. -/
structure Continues (before after : World τ ν) : Prop where
  settings : after.settings = before.settings
  patience : after.patience = before.patience
  ledger : after.ledger = before.ledger
  clock : ∃ readings : List τ, after.clock = readings.foldl Quantity.later before.clock
  journal : ∃ fresh, after.journal = fresh ++ before.journal ∧
    after.correlator.results = fresh.foldr Occurrence.absorb before.correlator.results

namespace Continues

theorem refl (world : World τ ν) : Continues world world :=
  ⟨rfl, rfl, rfl, ⟨[], rfl⟩, ⟨[], rfl, rfl⟩⟩

theorem trans {first second third : World τ ν} (left : Continues first second)
    (right : Continues second third) : Continues first third := by
  obtain ⟨early, earlyClock⟩ := left.clock
  obtain ⟨late, lateClock⟩ := right.clock
  obtain ⟨old, oldJournal, oldResults⟩ := left.journal
  obtain ⟨new, newJournal, newResults⟩ := right.journal
  refine ⟨right.settings.trans left.settings, right.patience.trans left.patience,
    right.ledger.trans left.ledger, ⟨early ++ late, ?_⟩, ⟨new ++ old, ?_, ?_⟩⟩
  · rw [lateClock, earlyClock, List.foldl_append]
  · rw [newJournal, oldJournal, List.append_assoc]
  · rw [newResults, oldResults, List.foldr_append]

instance : Std.Refl (Continues (τ := τ) (ν := ν)) := ⟨refl⟩

instance : IsTrans (World τ ν) Continues := ⟨fun _ _ _ => trans⟩

/-- Changes of the session, the tasks, the queue, the overlay and the disk go unnoticed. -/
theorem of_eq {before after : World τ ν} (settings : after.settings = before.settings)
    (patience : after.patience = before.patience) (ledger : after.ledger = before.ledger)
    (clock : after.clock = before.clock) (journal : after.journal = before.journal)
    (results : after.correlator.results = before.correlator.results) : Continues before after :=
  ⟨settings, patience, ledger, ⟨[], clock⟩, ⟨[], journal, results⟩⟩

/-- Of what is noted in the journal, only accepted alerts have to do with results. -/
theorem note {occurrence : Occurrence τ}
    (silent : ∀ results, occurrence.absorb results = results) (world : World τ ν) :
    Continues world (world.note occurrence) :=
  ⟨rfl, rfl, rfl, ⟨[], rfl⟩, ⟨[occurrence], rfl, (silent _).symm⟩⟩

end Continues

/-! ### Steps -/

theorem continues_deliver (alert : Alert) (world : World τ ν) :
    Continues world (world.deliver alert) := by
  unfold deliver
  by_cases running : world.correlator.running = true
  · refine ⟨?_, ?_, ?_, ⟨[], ?_⟩, ⟨[.accepted alert world.clock], ?_, ?_⟩⟩ <;>
      simp only [running, if_true, note]
    · rfl
    · rfl
    · cases alert <;> simp [Correlator.receive, Correlator.accept, running, Occurrence.absorb]
  · refine .of_eq ?_ ?_ ?_ ?_ ?_ ?_ <;> simp [running, Correlator.receive]

theorem Idle.continues {before after : World τ ν} (idle : Idle before after) :
    Continues before after := by
  cases idle with
  | advance time => exact ⟨rfl, rfl, rfl, ⟨[time], rfl⟩, ⟨[], rfl, rfl⟩⟩
  | called engine failed => exact .note (fun _ => rfl) before
  | deliver alert => exact continues_deliver alert before
  | _ => exact .of_eq rfl rfl rfl rfl rfl rfl

theorem Idles.continues {before after : World τ ν} (idles : Idles before after) :
    Continues before after :=
  Relation.reflTransGen_le_of_le (fun _ _ idle => idle.continues) _ _ idles

omit [Quantity τ] in
/-- Changes of a session have nothing to do with results. -/
theorem absorb_changes {noted : List (Occurrence τ)}
    (changes : ∀ occurrence ∈ noted, occurrence.isChange = true)
    (results : Entries String (LookupResult τ)) : noted.foldr Occurrence.absorb results = results := by
  induction noted with
  | nil => rfl
  | cons occurrence rest ih =>
    have change := changes occurrence List.mem_cons_self
    have same := ih fun other member => changes other (List.mem_cons_of_mem _ member)
    cases occurrence with
    | built engine => exact same
    | moved source target => exact same
    | _ => cases change

theorem Alters.continues {before after : World τ ν} (alters : Alters before after) :
    Continues before after := by
  obtain ⟨session, tasks, engines, running, noted, rfl, changes⟩ := alters
  exact ⟨rfl, rfl, rfl, ⟨[], rfl⟩, noted, rfl, (absorb_changes changes _).symm⟩

variable [Overlay τ ν]

theorem Upkeep.continues {before after : World τ ν} (upkeep : Upkeep before after) :
    Continues before after :=
  upkeep.keeps (fun _ _ idle => idle.continues) fun _ _ alters => alters.continues

/-! ### Calls and waits -/

theorem continues_ask (engine : EngineId) (call : EngineCall) (world : World τ ν) :
    Continues world (world.ask engine call).2 :=
  (Continues.note (fun _ => rfl) world).trans (idles_react engine _ _).continues

theorem keeps_ask (engine : EngineId) (call : EngineCall) :
    Op.Keeps Continues (Op.ask engine call : Op τ ν call.Answer) :=
  .ask (continues_ask engine call)

theorem continues_run (deadline : τ) (condition : World τ ν → Bool) (world : World τ ν) :
    Continues world (world.run deadline condition) :=
  (upkeep_run _ _ world).continues

end World

theorem Session.keeps_ensureRunning [Quantity τ] [Overlay τ ν] :
    Op.Keeps World.Continues (ensureRunning : Op τ ν (Option ErrorKind)) :=
  upholds_ensureRunning fun _ _ upkeep => upkeep.continues

end DhtRecords
