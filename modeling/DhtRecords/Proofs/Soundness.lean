/-
The invariant of a session.

`World.Sound` ties the session's state to its tasks, its engine and the
correlator, and accounts for every engine that was built. It holds whenever no
operation of the session is in progress, as long as the session is not
`Overtaken` by the end of a stop that began before it was started. Between two such
moments a world `Leads` to another one by a course of steps that keep the laws;
what goes on around a session does so, and so does stopping and starting it.
-/

import DhtRecords.Proofs.Steps
import Mathlib.Data.Set.Insert

namespace DhtRecords

open Relation (ReflTransGen)

variable {τ ν : Type}

namespace World

/-! ### What has become of engines -/

/-- Whether an engine was ended. -/
def Aborted (journal : List (Occurrence τ)) (engine : EngineId) : Prop :=
  ∃ failed, .called engine .abort failed ∈ journal

theorem aborted_iff {journal : List (Occurrence τ)} {engine : EngineId} :
    Aborted journal engine ↔ journal.any (·.aborts engine) = true := by
  simp only [List.any_eq_true]
  constructor
  · rintro ⟨failed, called⟩
    exact ⟨_, called, by simp [Occurrence.aborts]⟩
  · rintro ⟨occurrence, called, aborts⟩
    unfold Occurrence.aborts at aborts
    split at aborts
    · next failed =>
      obtain rfl := eq_of_beq aborts
      exact ⟨failed, called⟩
    · cases aborts

instance (journal : List (Occurrence τ)) (engine : EngineId) : Decidable (Aborted journal engine) :=
  decidable_of_iff' _ aborted_iff

theorem mem_built_iff {journal : List (Occurrence τ)} {engine : EngineId} :
    .built engine ∈ journal ↔ engine ∈ journal.filterMap Occurrence.built? := by
  rw [List.mem_filterMap]
  constructor
  · exact fun built => ⟨_, built, rfl⟩
  · rintro ⟨occurrence, there, same⟩
    cases occurrence with
    | built other =>
      obtain rfl := Option.some_inj.mp same
      exact there
    | _ => cases same

instance (journal : List (Occurrence τ)) (engine : EngineId) :
    Decidable (Occurrence.built engine ∈ journal) :=
  decidable_of_iff' _ mem_built_iff

/-- Whether an engine refused to leave the overlay. -/
def Refused (journal : List (Occurrence τ)) (engine : EngineId) : Prop :=
  .called engine (.configure false 0) true ∈ journal

/-- Whether a session that had failed was started again before an engine was ended. -/
def Abandoned (journal : List (Occurrence τ)) (engine : EngineId) : Prop :=
  ∃ late early, journal = late ++ .moved .error .starting :: early ∧ .built engine ∈ early ∧
    ¬ Aborted early engine

/-- What can have become of an engine that is no longer that of the session. -/
def Gone (journal : List (Occurrence τ)) (engine : EngineId) : Prop :=
  Aborted journal engine ∨ Refused journal engine ∨ Abandoned journal engine

theorem Gone.append {journal : List (Occurrence τ)} {engine : EngineId} (gone : Gone journal engine)
    (fresh : List (Occurrence τ)) : Gone (fresh ++ journal) engine := by
  rcases gone with ⟨failed, called⟩ | refused | ⟨late, early, rfl, built, alive⟩
  · exact .inl ⟨failed, List.mem_append_right _ called⟩
  · exact .inr (.inl (List.mem_append_right _ refused))
  · exact .inr (.inr ⟨fresh ++ late, early, (List.append_assoc ..).symm, built, alive⟩)

/-- An engine that is left behind when a failed session is started again. -/
theorem gone_of_restart {journal : List (Occurrence τ)} {engine : EngineId}
    (built : .built engine ∈ journal) : Gone (.moved .error .starting :: journal) engine := by
  by_cases aborted : Aborted journal engine
  · obtain ⟨failed, called⟩ := aborted
    exact .inl ⟨failed, List.mem_cons_of_mem _ called⟩
  · exact .inr (.inr ⟨[], journal, rfl, built, aborted⟩)

theorem Gone.of_records {before after : List (Occurrence τ)} {engine : EngineId}
    (gone : Gone before engine) (records : Records before after) : Gone after engine := by
  obtain ⟨fresh, rfl, -⟩ := records
  exact gone.append fresh

/-- Whether every engine that was built is accounted for. -/
structure Accounted (world : World τ ν) : Prop where
  /-- The session's engine was built. -/
  owned : ∀ engine, world.session.engine = some engine → .built engine ∈ world.journal
  kept : ∀ engine, .built engine ∈ world.journal →
    world.session.engine = some engine ∨ Gone world.journal engine

/-- Whether every engine that was built has a number of its own. -/
structure Numbered (world : World τ ν) : Prop where
  bounded : ∀ engine, .built engine ∈ world.journal → engine ≤ world.engines
  distinct : (world.journal.filterMap Occurrence.built?).Nodup

theorem Records.mem_built {before after : List (Occurrence τ)} (records : Records before after)
    (engine : EngineId) : .built engine ∈ after ↔ .built engine ∈ before := by
  obtain ⟨fresh, rfl, unbuilt⟩ := records
  simp [unbuilt engine]

theorem Records.filterMap_built {before after : List (Occurrence τ)}
    (records : Records before after) :
    after.filterMap Occurrence.built? = before.filterMap Occurrence.built? := by
  obtain ⟨fresh, rfl, unbuilt⟩ := records
  have silent : fresh.filterMap Occurrence.built? = [] := by
    refine List.filterMap_eq_nil_iff.mpr fun occurrence member => ?_
    cases occurrence with
    | built engine => exact absurd member (unbuilt engine)
    | _ => rfl
  rw [List.filterMap_append, silent, List.nil_append]

theorem Numbered.carry {before after : World τ ν} (numbered : before.Numbered)
    (records : Records before.journal after.journal) (engines : after.engines = before.engines) :
    after.Numbered := by
  refine ⟨?_, ?_⟩
  · simpa only [engines, records.mem_built] using numbered.bounded
  · rw [records.filterMap_built]
    exact numbered.distinct

/-- A new engine has a number of its own. -/
theorem Numbered.built {world : World τ ν} (numbered : world.Numbered) :
    Numbered (world.built (world.engines + 1)) := by
  have unbuilt : .built (world.engines + 1) ∉ world.journal :=
    fun built => Nat.not_succ_le_self _ (numbered.bounded _ built)
  refine ⟨fun engine built => ?_, List.nodup_cons.mpr
    ⟨fun member => unbuilt (mem_built_iff.mpr member), numbered.distinct⟩⟩
  rcases List.mem_cons.mp built with same | built
  · exact (Occurrence.built.inj same).le
  · exact (numbered.bounded engine built).trans (Nat.le_succ _)

theorem Step.numbered [Quantity τ] [Overlay τ ν] {actor : Option TaskId} {before after : World τ ν}
    (step : Step actor before after) (numbered : before.Numbered) : after.Numbered := by
  cases step with
  | idle idle => exact numbered.carry idle.around.journal idle.around.engines
  | start down =>
    rw [start_eq down]
    exact numbered.carry (.cons (by simp) _) rfl
  | stop =>
    obtain ⟨tasks, -, requested⟩ := (before.moveTo .stopping).requestStop_eq
    rw [requested]
    exact numbered.carry (.cons (by simp) _) rfl
  | join =>
    obtain ⟨tasks, -, joined⟩ := before.joinTask_eq
    rw [joined]
    exact numbered.carry (.refl _) rfl
  | build => exact numbered.built
  | close | bootstrap | run | fail => exact numbered.carry (.cons (by simp) _) rfl
  | silence | begin | install | listen | finish | park => exact numbered.carry (.refl _) rfl

namespace Accounted

variable {before after : World τ ν}

theorem carry (accounted : before.Accounted) (records : Records before.journal after.journal)
    (engine : after.session.engine = before.session.engine) : after.Accounted := by
  refine ⟨?_, ?_⟩
  · simpa only [engine, records.mem_built] using accounted.owned
  · intro origin built
    rw [engine]
    exact (accounted.kept origin ((records.mem_built origin).mp built)).imp_right
      (·.of_records records)

/-- The session may be left without its engine once something has become of that. -/
theorem drop (accounted : before.Accounted) (records : Records before.journal after.journal)
    (none : after.session.engine = none)
    (gone : ∀ engine, before.session.engine = some engine → Gone after.journal engine) :
    after.Accounted := by
  refine ⟨?_, ?_⟩
  · intro engine installed
    rw [none] at installed
    cases installed
  · intro engine built
    rcases accounted.kept engine ((records.mem_built engine).mp built) with installed | left
    · exact .inr (gone engine installed)
    · exact .inr (left.of_records records)

end Accounted

/-! ### Stops that come too late -/

/-- Whether the end of a stop has come too late: the session had been started in the meantime. -/
def Overtaken (journal : List (Occurrence τ)) : Prop := journal.any Occurrence.overtakes = true

instance (journal : List (Occurrence τ)) : Decidable (Overtaken journal) :=
  inferInstanceAs (Decidable (_ = true))

theorem Overtaken.of_suffix {before after : List (Occurrence τ)} (overtaken : Overtaken before)
    (suffix : before <:+ after) : Overtaken after := by
  obtain ⟨fresh, rfl⟩ := suffix
  rw [Overtaken, List.any_append, overtaken, Bool.or_true]

/-- Only a session that is stopping, or was stopped, is stopped without being overtaken. -/
theorem state_of_closed {world : World τ ν} (timely : ¬ Overtaken world.closed.journal) :
    world.session.state = .stopping ∨ world.session.state = .stopped := by
  by_contra other
  rw [not_or] at other
  refine timely ?_
  rw [Overtaken, closed, moveTo, note, List.any_cons]
  simp [Occurrence.overtakes, other]

/-- No step takes anything back that was noted. -/
theorem Step.suffix [Quantity τ] [Overlay τ ν] {actor : Option TaskId} {before after : World τ ν}
    (step : Step actor before after) : before.journal <:+ after.journal := by
  rcases step.apart with idle | ⟨session, tasks, engines, running, noted, rfl, -⟩
  · obtain ⟨fresh, journal, -⟩ := idle.around.journal
    exact ⟨fresh, journal.symm⟩
  · exact List.suffix_append noted before.journal

/-! ### Sound worlds -/

/-- Whether a session's parts fit together. -/
structure Sound (world : World τ ν) : Prop where
  /-- A task that is live is the session's, which is up. -/
  live : ∀ id task, world.tasks[id]? = some task → task.isLive = true →
    world.session.task = some id ∧ Session.isUp world.session.state = true ∧
      (task.phase = .polling → world.session.state = .starting) ∧
      (task.phase = .watching → world.session.state = .running)
  known : ∀ id, world.session.task = some id → id < world.tasks.length
  served : world.session.state = .bootstrapping ∨ world.session.state = .running →
    world.session.engine ≠ none ∧ world.correlator.running = true
  silent : world.session.state = .stopped →
    world.session.engine = none ∧ world.correlator.running = false
  ended : world.session.state = .stopped → world.session.task = none
  deaf : world.session.state = .stopping → world.correlator.running = false
  told : world.session.signalled = true →
    world.session.state ≠ .starting ∧ world.session.state ≠ .bootstrapping
  unhalted : ∀ pending ∈ world.queue, pending.event ≠ .halt
  accounted : world.Accounted
  /-- An engine that will be replaced has been seen to. -/
  leftover : ∀ engine, world.session.engine = some engine →
    world.session.state = .starting ∨ world.session.state = .stopping → Gone world.journal engine

namespace Sound

variable {before after : World τ ν}

theorem single (sound : Sound before) {first second : TaskId} (left : before.IsLive first)
    (right : before.IsLive second) : first = second := by
  obtain ⟨task, found, live⟩ := left
  obtain ⟨task', found', live'⟩ := right
  have same := (sound.live first task found live).1.symm.trans (sound.live second task' found' live').1
  exact Option.some_inj.mp same

theorem consistent (sound : Sound before) : before.Consistent :=
  ⟨fun _ _ => sound.single, sound.served, sound.silent⟩

/-- Of a session that is not up no task is live. -/
theorem not_isLive (sound : Sound before) (down : Session.isUp before.session.state = false)
    (id : TaskId) : ¬ before.IsLive id := by
  rintro ⟨task, found, live⟩
  simp [(sound.live id task found live).2.1] at down

/-- A world stays sound as long as its session does and engines are accounted for. -/
theorem of_same (sound : Sound before)
    (session : after.session = { before.session with bootstrapped := after.session.bootstrapped })
    (tasks : after.tasks = before.tasks)
    (listening : after.correlator.running = before.correlator.running)
    (unhalted : ∀ pending ∈ after.queue, pending.event ≠ .halt) (accounted : after.Accounted)
    (gone : ∀ engine, Gone before.journal engine → Gone after.journal engine) : Sound after := by
  obtain ⟨state, engine, task, signalled⟩ : after.session.state = before.session.state ∧
      after.session.engine = before.session.engine ∧ after.session.task = before.session.task ∧
      after.session.signalled = before.session.signalled := by
    rw [session]
    exact ⟨rfl, rfl, rfl, rfl⟩
  refine ⟨?_, ?_, ?_, ?_, ?_, ?_, ?_, unhalted, accounted, ?_⟩
  · simpa only [tasks, state, task] using sound.live
  · simpa only [tasks, task] using sound.known
  · simpa only [listening, state, engine] using sound.served
  · simpa only [listening, state, engine] using sound.silent
  · simpa only [state, task] using sound.ended
  · simpa only [listening, state] using sound.deaf
  · simpa only [state, signalled] using sound.told
  · intro origin installed leaving
    rw [state] at leaving
    rw [engine] at installed
    exact gone origin (sound.leftover origin installed leaving)

/-- What goes on around a session leaves it sound. -/
theorem around (sound : Sound before) (around : Around before after) : Sound after :=
  sound.of_same around.session around.tasks around.listening (around.unhalted sound.unhalted)
    (sound.accounted.carry around.journal around.same.2.1) fun _ gone => gone.of_records around.journal

end Sound

/-! ### Sessions on their way -/

/-- Whether no task is live but one, or none at all, and a world is sound but for its session. -/
structure Manned (who : Option TaskId) (world : World τ ν) : Prop where
  only : ∀ id, world.IsLive id → who = some id
  known : ∀ id, world.session.task = some id → id < world.tasks.length
  unhalted : ∀ pending ∈ world.queue, pending.event ≠ .halt
  accounted : world.Accounted

theorem Sound.manned {world : World τ ν} (sound : world.Sound) :
    Manned world.session.task world :=
  ⟨fun id ⟨task, found, live⟩ => (sound.live id task found live).1, sound.known, sound.unhalted,
    sound.accounted⟩

theorem IsLive.of_requestStop {world : World τ ν} {id : TaskId} (live : world.requestStop.IsLive id) :
    world.IsLive id ∧ world.session.task ≠ some id := by
  unfold requestStop at live
  split at live
  · next task installed =>
    refine ⟨live.of_modifyTask (by simp [Task.isLive]), ?_⟩
    rw [installed]
    rintro same
    obtain rfl := Option.some_inj.mp same
    obtain ⟨task, found, live⟩ := live
    rw [getElem?_modifyTask] at found
    obtain ⟨old, place, rfl⟩ := Option.map_eq_some_iff.mp found
    simp [Task.isLive] at live
  · next absent => exact ⟨live, by simp [absent]⟩

theorem IsLive.of_joinTask [Overlay τ ν] {world : World τ ν} {id : TaskId}
    (live : world.joinTask.IsLive id) : world.IsLive id := by
  unfold joinTask at live
  split at live
  · split at live
    · exact live
    · refine live.of_modifyTask fun task _ => ?_
      split
      · simp [Task.isLive]
      · exact fun live => live
  · exact live

namespace Manned

variable {before after : World τ ν} {who : Option TaskId}

theorem around (manned : Manned who before) (around : Around before after) : Manned who after := by
  obtain ⟨-, engine, task, -⟩ := around.same
  refine ⟨fun id live => manned.only id (.of_tasks around.tasks live), ?_, ?_, ?_⟩
  · simpa only [around.tasks, task] using manned.known
  · exact around.unhalted manned.unhalted
  · exact manned.accounted.carry around.journal engine

theorem hear (manned : Manned who before) (running : Bool) : Manned who (before.hear running) :=
  ⟨manned.only, manned.known, manned.unhalted, manned.accounted.carry (.refl _) rfl⟩

theorem joinTask [Overlay τ ν] (manned : Manned who before) : Manned who before.joinTask := by
  obtain ⟨tasks, length, joined⟩ := before.joinTask_eq
  refine ⟨fun id live => manned.only id live.of_joinTask, ?_, ?_, ?_⟩ <;> rw [joined]
  · exact fun id task => length ▸ manned.known id task
  · exact manned.unhalted
  · exact manned.accounted.carry (.refl _) rfl

/-- When a session is stopped, its task is live no longer. -/
theorem requestStop (manned : Manned before.session.task before) :
    Manned none (before.moveTo .stopping).requestStop := by
  obtain ⟨tasks, length, requested⟩ := (before.moveTo .stopping).requestStop_eq
  refine ⟨fun id live => ?_, ?_, ?_, ?_⟩
  · obtain ⟨live, other⟩ := live.of_requestStop
    exact absurd (manned.only id live) other
  · rw [requested]
    intro id task
    rw [length]
    exact manned.known id task
  · rw [requested]
    exact manned.unhalted
  · rw [requested]
    exact manned.accounted.carry (.cons (by simp) _) rfl

/-- A session that is stopped is sound once its engine has been seen to, though the stop may not come to
its end. -/
theorem sound_of_stopping (manned : Manned none before) (state : before.session.state = .stopping)
    (off : before.correlator.running = false)
    (gone : ∀ engine, before.session.engine = some engine → Gone before.journal engine) :
    Sound before := by
  refine ⟨?_, manned.known, ?_, ?_, ?_, fun _ => off, ?_, manned.unhalted, manned.accounted,
    fun engine installed _ => gone engine installed⟩
  · exact fun id task found live => absurd (manned.only id ⟨task, found, live⟩) nofun
  all_goals simp [state]

end Manned

/-! ### Lawful steps -/

/-- A session stays in order if no task becomes live and its parts stay the same. -/
theorem Consistent.mono {before after : World τ ν} (consistent : before.Consistent)
    (live : ∀ id, after.IsLive id → before.IsLive id)
    (state : after.session.state = before.session.state)
    (engine : after.session.engine = before.session.engine)
    (listening : after.correlator.running = before.correlator.running) : after.Consistent := by
  refine ⟨fun first second left right => consistent.single first second (live first left)
    (live second right), ?_, ?_⟩
  · rw [state, engine, listening]
    exact consistent.served
  · rw [state, engine, listening]
    exact consistent.silent

/-- A session is in order in a state in which nothing is asked of its engine. -/
theorem Consistent.of_live {before after : World τ ν} (consistent : before.Consistent)
    (live : ∀ id, after.IsLive id → before.IsLive id)
    (state : after.session.state = .starting ∨ after.session.state = .stopping ∨
      after.session.state = .error) : after.Consistent := by
  refine ⟨fun first second left right => consistent.single first second (live first left)
    (live second right), ?_, ?_⟩
  · rintro (same | same) <;> simp [same] at state
  · intro same
    simp [same] at state

section

variable [Quantity τ] [Overlay τ ν]

omit [Overlay τ ν] in
theorem Idle.lawful {before after : World τ ν} (idle : Idle before after) : Lawful before after := by
  have around := idle.around
  obtain ⟨state, engine, -, -⟩ := around.same
  exact ⟨.inl state,
    fun consistent => consistent.mono (fun _ => .of_tasks around.tasks) state engine around.listening⟩

/-! ### Courses -/

/-- Whether one world comes of another by steps of these actors that keep the laws under a
condition, as long as the session is not overtaken. -/
def Course (actors : Set (Option TaskId)) (condition : Prop) : World τ ν → World τ ν → Prop :=
  ReflTransGen fun before after => ∃ actor ∈ actors, Step actor before after ∧
    (condition → ¬ Overtaken after.journal → Lawful before after)

/-- Whether a course leads from one world to another: if it begins where one thing holds, it keeps the
laws and ends where another does, unless the session is overtaken. -/
structure Leads (actors : Set (Option TaskId)) (pre post : World τ ν → Prop)
    (before after : World τ ν) : Prop where
  course : Course actors (pre before) before after
  arrives : pre before → ¬ Overtaken after.journal → post after

namespace Course

variable {actors others : Set (Option TaskId)} {condition weaker : Prop} {before after : World τ ν}

theorem refl (world : World τ ν) : Course actors condition world world := ReflTransGen.refl

theorem trans {middle : World τ ν} (first : Course actors condition before middle)
    (second : Course actors condition middle after) : Course actors condition before after :=
  ReflTransGen.trans first second

theorem single {actor : Option TaskId} (member : actor ∈ actors) (step : Step actor before after)
    (lawful : condition → ¬ Overtaken after.journal → Lawful before after) :
    Course actors condition before after :=
  ReflTransGen.single ⟨actor, member, step, lawful⟩

/-- What every step keeps holds to the end of a course. -/
theorem invariant (course : Course actors condition before after) (holds : World τ ν → Prop)
    (kept : ∀ actor ∈ actors, ∀ first second, Step actor first second → holds first → holds second)
    (begun : holds before) : holds after := by
  induction course with
  | refl => exact begun
  | tail _ last ih =>
    obtain ⟨actor, member, step, -⟩ := last
    exact kept actor member _ _ step ih

theorem suffix (course : Course actors condition before after) : before.journal <:+ after.journal :=
  course.invariant (before.journal <:+ ·.journal) (fun _ _ _ _ step noted => noted.trans step.suffix)
    (List.suffix_refl _)

/-- The condition may be weakened to one that implies it where the course begins. -/
theorem mono (course : Course actors condition before after) (sub : actors ⊆ others)
    (implies : weaker → ¬ Overtaken before.journal → condition) : Course others weaker before after := by
  induction course with
  | refl => exact .refl before
  | tail course last ih =>
    obtain ⟨actor, member, step, lawful⟩ := last
    refine ih.trans (.single (sub member) step fun holds timely => lawful (implies holds fun late => ?_) timely)
    exact timely (late.of_suffix ((suffix course).trans step.suffix))

theorem of_idles (member : none ∈ actors) (idles : Idles before after) :
    Course actors condition before after :=
  ReflTransGen.mono (fun _ _ idle => ⟨none, member, .idle idle, fun _ _ => idle.lawful⟩) _ _ idles

end Course

namespace Leads

variable {actors others : Set (Option TaskId)} {first second third : World τ ν → Prop}
  {before middle after : World τ ν}

theorem refl (world : World τ ν) : Leads actors first first world world := ⟨.refl world, fun holds _ => holds⟩

theorem trans (left : Leads actors first second before middle)
    (right : Leads actors second third middle after) : Leads actors first third before after :=
  ⟨left.course.trans (right.course.mono Set.Subset.rfl left.arrives), fun holds timely =>
    right.arrives (left.arrives holds fun late => timely (late.of_suffix right.course.suffix)) timely⟩

instance : Std.Refl (Leads (τ := τ) (ν := ν) actors first first) := ⟨refl⟩

instance : IsTrans (World τ ν) (Leads actors first first) := ⟨fun _ _ _ => trans⟩

theorem mono (leads : Leads actors first second before after) (sub : actors ⊆ others) :
    Leads others first second before after :=
  ⟨leads.course.mono sub fun holds _ => holds, leads.arrives⟩

/-- What goes on beside a task. -/
theorem beside (leads : Leads {none} first second before after) (id : TaskId) :
    Leads {none, some id} first second before after :=
  leads.mono (Set.singleton_subset_iff.mpr (Set.mem_insert none {some id}))

theorem own {id : TaskId} (leads : Leads {some id} first second before after) :
    Leads {none, some id} first second before after :=
  leads.mono (Set.subset_insert none {some id})

theorem weaken (leads : Leads actors second third before after) (implies : first before → second before) :
    Leads actors first third before after :=
  ⟨leads.course.mono Set.Subset.rfl fun holds _ => implies holds, leads.arrives ∘ implies⟩

end Leads

/-- What goes on without the doing of a task. -/
abbrev Meanwhile (before after : World τ ν) : Prop := Leads {none} Sound Sound before after

theorem Meanwhile.of_idles {before after : World τ ν} (idles : Idles before after) :
    Meanwhile before after :=
  ⟨.of_idles rfl idles, fun sound _ => sound.around idles.around⟩

/-! ### Starting -/

section

variable {world : World τ ν} (sound : world.Sound) (down : Session.isUp world.session.state = false)

omit [Quantity τ] [Overlay τ ν]

include sound down

/-- After a start only the new task is live. -/
theorem Sound.live_start {id : TaskId} {task : Task τ}
    (found : (Session.start world).tasks[id]? = some task) (live : task.isLive = true) :
    id = world.tasks.length ∧ task = { wake := world.clock } := by
  rw [start_eq down, List.getElem?_append] at found
  split at found
  · exact absurd ⟨task, found, live⟩ (sound.not_isLive down id)
  · next beyond =>
    obtain ⟨position, same⟩ := List.getElem?_eq_some_iff.mp found
    have last : id - world.tasks.length = 0 := Nat.lt_one_iff.mp position
    simp only [last, List.getElem_cons_zero] at same
    exact ⟨Nat.le_antisymm (Nat.sub_eq_zero_iff_le.mp last) (Nat.le_of_not_lt beyond), same.symm⟩

omit sound in
theorem moves_start : world.session.state.MayBecome (Session.start world).session.state ∨
    Rushes world (Session.start world) := by
  rw [start_eq down]
  cases state : world.session.state with
  | stopped => exact .inl .start
  | error => exact .inl .restart
  | stopping => exact .inr ⟨state, rfl⟩
  | _ => simp [state, Session.isUp] at down

/-- The engine that a start finds was left by a failure, which the start makes up for, or by a stop. -/
theorem Sound.gone_start {engine : EngineId}
    (installed : (Session.start world).session.engine = some engine) :
    Gone (Session.start world).journal engine := by
  rw [start_eq down] at installed ⊢
  have gone (gone : Gone world.journal engine) :
      Gone (.moved world.session.state .starting :: world.journal) engine :=
    gone.append [_]
  cases state : world.session.state with
  | stopped =>
    rw [(sound.silent state).1] at installed
    cases installed
  | error => exact gone_of_restart (sound.accounted.owned engine installed)
  | stopping => exact state ▸ gone (sound.leftover engine installed (.inr state))
  | _ => simp [state, Session.isUp] at down

theorem Sound.start : (Session.start world).Sound where
  live id task found live := by
    obtain ⟨rfl, rfl⟩ := sound.live_start down found live
    simp [start_eq down, Session.isUp]
  known := by simp [start_eq down]
  served := by simp [start_eq down]
  silent := by simp [start_eq down]
  ended := by simp [start_eq down]
  deaf := by simp [start_eq down]
  told := by simp [start_eq down]
  unhalted := by
    rw [start_eq down]
    exact sound.unhalted
  accounted := by
    rw [start_eq down]
    exact sound.accounted.carry (.cons (by simp) _) rfl
  leftover engine installed _ := sound.gone_start down installed

end

theorem meanwhile_start (world : World τ ν) : Meanwhile world (Session.start world) := by
  cases down : Session.isUp world.session.state with
  | true =>
    have same : Session.start world = world := if_pos down
    rw [same]
    exact .refl world
  | false =>
    refine ⟨.single rfl (.start down) fun sound _ => ?_, fun sound _ => sound.start down⟩
    exact ⟨.inr (moves_start down), fun _ => (sound.start down).consistent⟩

/-! ### Leaving -/

theorem aborted_ask (engine : EngineId) (world : World τ ν) :
    Aborted (world.ask engine .abort).2.journal engine :=
  ⟨_, by rw [journal_ask]; exact List.mem_cons_self⟩

/-- An engine that is shut down is ended, unless it refuses to leave the overlay. -/
theorem gone_shutDown (engine : EngineId) (world : World τ ν) :
    Gone (world.shutDown engine).journal engine := by
  unfold shutDown
  split
  · next step =>
    have noted := journal_ask engine (.configure false 0) world
    rw [step] at noted
    refine .inr (.inl ?_)
    rw [Refused, noted]
    exact List.mem_cons_self
  · exact .inl (aborted_ask engine _)

/-- A correlator that stops drops alerts, and what it tells an engine fails only if that does not let go
of its handler. -/
theorem idles_stopCorrelator (engine : Option EngineId) (world : World τ ν) :
    Idles (world.hear false) (world.stopCorrelator engine).2 := by
  unfold stopCorrelator
  split
  · cases engine with
    | none => exact .refl
    | some engine => exact idles_ask engine rfl _
  · next off =>
    have same : world.hear false = world := by
      rw [← eq_false_of_ne_true off]
      rfl
    rw [same]

/-- What a stop does first, up to the correlator: the engine is seen to. -/
theorem leave_eq (world : World τ ν) :
    ∃ shut, Idles (world.moveTo .stopping).requestStop shut ∧
      (∀ engine, world.session.engine = some engine → Gone shut.journal engine) ∧
      world.leave = match shut.stopCorrelator world.session.engine with
        | (.ok (), world) => (world.joinTime, world.joinTask)
        | (.error fault, world) => (.error (.engine fault), world) := by
  unfold leave
  cases installed : world.session.engine with
  | none => exact ⟨_, .refl, by simp, rfl⟩
  | some engine =>
    refine ⟨_, ?_, fun other same => ?_, rfl⟩
    · dsimp only
      split
      · exact (idles_saveState _).trans (idles_shutDown engine _)
      · exact idles_shutDown engine _
    · obtain rfl := Option.some_inj.mp same
      exact gone_shutDown engine _

/-- How a stop begins: the engine is seen to, the correlator stops, and the session's task is waited
for, unless the engine does not let go of its handler. -/
theorem leave_cases (world : World τ ν) :
    ∃ shut after, Idles (world.moveTo .stopping).requestStop shut ∧
      (∀ engine, world.session.engine = some engine → Gone shut.journal engine) ∧
      Idles (shut.hear false) after ∧
      (world.leave = (after.joinTime, after.joinTask) ∨
        ∃ fault, world.leave = (.error (.engine fault), after)) := by
  obtain ⟨shut, reached, gone, left⟩ := leave_eq world
  refine ⟨shut, (shut.stopCorrelator world.session.engine).2, reached, gone,
    idles_stopCorrelator _ _, ?_⟩
  rw [left]
  split
  · next step => exact .inl (by rw [step])
  · next fault _ step => exact .inr ⟨fault, by rw [step]⟩

/-- Whatever a stop does first, it leaves the session stopping, with a correlator that is stopped. -/
theorem left_of_leave (world : World τ ν) :
    world.leave.2.session.state = .stopping ∧ world.leave.2.correlator.running = false := by
  obtain ⟨shut, after, tidied, -, silenced, ending⟩ := leave_cases world
  obtain ⟨tasks, -, requested⟩ := (world.moveTo .stopping).requestStop_eq
  have state : after.session.state = .stopping :=
    silenced.around.same.1.trans (tidied.around.same.1.trans (by rw [requested]; rfl))
  have off : after.correlator.running = false := silenced.around.listening
  rcases ending with left | ⟨fault, left⟩ <;> rw [left]
  · obtain ⟨tasks, -, joined⟩ := after.joinTask_eq
    rw [joined]
    exact ⟨state, off⟩
  · exact ⟨state, off⟩

theorem meanwhile_leave {world : World τ ν}
    (due : ¬ (world.session.state = .stopped ∧ world.session.task = none)) :
    Meanwhile world world.leave.2 := by
  obtain ⟨shut, after, tidied, gone, silenced, ending⟩ := leave_cases world
  obtain ⟨tasks, -, requested⟩ := (world.moveTo .stopping).requestStop_eq
  have state : shut.session.state = .stopping := tidied.around.same.1.trans (by rw [requested]; rfl)
  have state' : after.session.state = .stopping := silenced.around.same.1.trans state
  have off : after.correlator.running = false := silenced.around.listening
  have settled (engine : EngineId) (installed : after.session.engine = some engine) :
      Gone after.journal engine := by
    refine (gone engine ?_).of_records silenced.around.journal
    rw [← installed, silenced.around.same.2.1]
    exact (tidied.around.same.2.1.trans (by rw [requested]; rfl)).symm
  have manned (sound : world.Sound) : Manned none after :=
    ((sound.manned.requestStop.around tidied.around).hear false).around silenced.around
  -- The steps that every stop takes.
  have asked : Course {none} world.Sound world (world.moveTo .stopping).requestStop := by
    refine .single rfl (.stop due) fun sound _ => ⟨.inr (.inl ?_), fun consistent => ?_⟩
    · rw [requested]
      exact .stop fun stopped => due ⟨stopped, sound.ended stopped⟩
    · refine consistent.of_live (fun id live => live.of_requestStop.1) (.inr (.inl ?_))
      rw [requested]
      rfl
  have muted : Course {none} world.Sound shut (shut.hear false) := by
    refine .single rfl (.silence shut) fun sound _ => ⟨.inl rfl, fun consistent => ?_⟩
    exact consistent.of_live (fun id live => live) (.inr (.inl state))
  have course : Course {none} world.Sound world after :=
    ((asked.trans (.of_idles rfl tidied)).trans muted).trans (.of_idles rfl silenced)
  rcases ending with left | ⟨fault, left⟩
  -- Without a failure, its task is waited for.
  · rw [left]
    obtain ⟨tasks, -, joined⟩ := after.joinTask_eq
    have waited : Course {none} world.Sound after after.joinTask := by
      refine .single rfl (.join state') fun sound _ => ⟨.inl ?_, fun consistent => ?_⟩
      · rw [joined]
      · exact consistent.of_live (fun id live => live.of_joinTask)
          (.inr (.inl (by rw [joined]; exact state')))
    refine ⟨course.trans waited, fun sound _ => ?_⟩
    exact (manned sound).joinTask.sound_of_stopping (by rw [joined]; exact state')
      (by rw [joined]; exact off) (by rw [joined]; exact settled)
  · rw [left]
    exact ⟨course, fun sound _ => (manned sound).sound_of_stopping state' off settled⟩

/-! ### Stopping -/

omit [Quantity τ] [Overlay τ ν] in
/-- A sound session that was not started since it has begun to stop comes to its end. -/
theorem Sound.closed {world : World τ ν} (sound : world.Sound)
    (state : world.session.state = .stopping ∨ world.session.state = .stopped) : world.closed.Sound := by
  have down : Session.isUp world.session.state = false := by rcases state with state | state <;> rw [state] <;> rfl
  have off : world.correlator.running = false := state.elim sound.deaf fun stopped => (sound.silent stopped).2
  refine ⟨fun id task found live => absurd ⟨task, found, live⟩ (sound.not_isLive down id), ?_, ?_, ?_, ?_, ?_,
    ?_, sound.unhalted, sound.accounted.drop (.cons (by simp) _) rfl fun engine installed => ?_, ?_⟩
  · simp [World.closed]
  · simp [World.closed, moveTo]
  · exact fun _ => ⟨rfl, off⟩
  · simp [World.closed]
  · simp [World.closed, moveTo]
  · simp [World.closed]
  · rcases state with stopping | stopped
    · exact (sound.leftover engine installed (.inr stopping)).append [_]
    · rw [(sound.silent stopped).1] at installed
      cases installed
  · simp [World.closed]

theorem meanwhile_close (world : World τ ν) : Meanwhile world world.closed := by
  refine ⟨.single rfl (.close world) fun sound timely => ?_,
    fun sound timely => sound.closed (state_of_closed timely)⟩
  have state := state_of_closed timely
  refine ⟨?_, fun _ => (sound.closed state).consistent⟩
  rcases state with stopping | stopped
  · exact .inr (.inl (stopping ▸ .close))
  · exact .inl stopped.symm

/-- Whatever holds of its beginning, of its end and of the wait in between holds of a stop. -/
theorem stopBy_keeps {R : World τ ν → World τ ν → Prop} [Std.Refl R] [IsTrans (World τ ν) R]
    {await : τ → World τ ν → World τ ν} {world : World τ ν}
    (leaves : ¬ (world.session.state = .stopped ∧ world.session.task = none) → R world world.leave.2)
    (closes : ∀ world : World τ ν, R world world.closed)
    (awaits : ∀ time world, R world (await time world)) : R world (world.stopBy await).2 := by
  unfold stopBy
  split
  · exact refl_of R world
  · next due =>
    have left := leaves due
    rcases leave : world.leave with ⟨failure | time, begun⟩ <;> rw [leave] at left
    · exact left
    · cases time with
      | none => exact trans_of R left (closes begun)
      | some time => exact trans_of R left (awaits time begun)

theorem isDown_stop (world : World τ ν) : Session.isDown world.stop.2.session.state = true := by
  unfold stop stopBy
  split
  · next stopped => rw [stopped.1]; rfl
  · have left := (left_of_leave world).1
    rcases leave : world.leave with ⟨failure | time, begun⟩ <;> rw [leave] at left
    · rw [show begun.session.state = _ from left]
      rfl
    · cases time with
      | none => rfl
      | some time =>
        rw [show (begun.schedule time .close).session.state = _ from left]
        rfl

/-- A stop leads from any state on; if it takes time, its end is due later. -/
theorem meanwhile_stop (world : World τ ν) : Meanwhile world world.stop.2 :=
  stopBy_keeps meanwhile_leave meanwhile_close
    fun _ world => .of_idles (.single (.schedule _ world (by simp)))

end

end World

end DhtRecords
