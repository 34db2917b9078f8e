/-
Sessions that nobody else starts.

Where no event is due that starts the session (`Alone`) and nobody starts it in the
course of a call (`Unprompted`), nothing but the end of a stop becomes due. So a
session that has begun to stop is not started before that end, which finds it
stopping or stopped (`Timely`); no engine is left behind by a start after a
failure, and none refuses to leave the overlay, as long as engines obey. All that
tasks and callers do keeps to that (`Orderly`), up to a stop, which comes to its
end (`orderly_stop`).
-/

import DhtRecords.Proofs.Leftovers

namespace DhtRecords

variable {τ ν : Type} [Quantity τ] [Overlay τ ν]

namespace World

omit [Quantity τ] in
/-- Whether nobody starts a session in the course of a call. -/
def Unprompted (τ ν : Type) [Overlay τ ν] : Prop :=
  (∀ engine (call : EngineCall) (overlay : ν),
    (Overlay.ask (τ := τ) engine call overlay).restarts = false) ∧
  ∀ engine (overlay : ν), (Overlay.build (τ := τ) engine overlay).restarts = false

theorem consult_cases_of_unprompted (unprompted : Unprompted τ ν) (engine : EngineId) (call : EngineCall)
    (world : World τ ν) : (world.consult engine call).2 = (world.ask engine call).2 ∨
      (world.consult engine call).2 = (world.ask engine call).2.stop.2 := by
  have never := unprompted.1 engine call world.overlay
  rcases afterStop_cases (Overlay.ask (τ := τ) engine call world.overlay).stops
    (Overlay.ask (τ := τ) engine call world.overlay).restarts (world.ask engine call).1
    (world.ask engine call).2 with same | same | ⟨restarts, -⟩
  · exact .inl (congrArg Prod.snd same)
  · exact .inr same
  · exact nomatch never.symm.trans restarts

theorem asked_cases_of_unprompted (unprompted : Unprompted τ ν) (world : World τ ν) :
    world.asked = world.react (world.engines + 1)
        (Overlay.build (world.engines + 1) world.overlay : Reaction τ ν Bool) ∨
      world.asked = (world.react (world.engines + 1)
        (Overlay.build (world.engines + 1) world.overlay : Reaction τ ν Bool)).stop.2 := by
  let reaction : Reaction τ ν Bool := Overlay.build (world.engines + 1) world.overlay
  have never : reaction.restarts = false := unprompted.2 (world.engines + 1) world.overlay
  rcases afterStop_cases reaction.stops reaction.restarts reaction.outcome
    (world.react (world.engines + 1) reaction) with same | same | ⟨restarts, -⟩
  · exact .inl (congrArg Prod.snd same)
  · exact .inr same
  · exact nomatch never.symm.trans restarts

/-! ### What becomes due -/

/-- Whether nothing but alerts of engines has become due, and no end of a stop has come too late. -/
structure Admits (before after : World τ ν) : Prop where
  queue : ∀ pending ∈ after.queue, pending ∈ before.queue ∨
    ∃ engine alert, pending.event = .emission engine alert
  journal : Overtaken after.journal → Overtaken before.journal

namespace Admits

omit [Quantity τ] [Overlay τ ν] in
theorem refl (world : World τ ν) : Admits world world := ⟨fun _ => .inl, id⟩

omit [Quantity τ] [Overlay τ ν] in
theorem trans {first second third : World τ ν} (left : Admits first second) (right : Admits second third) :
    Admits first third where
  queue pending member := (right.queue pending member).elim (left.queue pending) .inr
  journal := left.journal ∘ right.journal

instance : Std.Refl (Admits (τ := τ) (ν := ν)) := ⟨refl⟩

instance : IsTrans (World τ ν) Admits := ⟨fun _ _ _ => trans⟩

omit [Quantity τ] [Overlay τ ν] in
theorem of_same {before after : World τ ν} (queue : after.queue = before.queue)
    (journal : after.journal = before.journal) : Admits before after :=
  ⟨fun _ member => .inl (queue ▸ member), by rw [journal]; exact id⟩

omit [Quantity τ] [Overlay τ ν] in
theorem note {occurrence : Occurrence τ} (timely : occurrence.overtakes = false) (world : World τ ν) :
    Admits world (world.note occurrence) := by
  refine ⟨fun _ => .inl, fun late => ?_⟩
  rwa [Overtaken, World.note, List.any_cons, timely, Bool.false_or] at late

omit [Quantity τ] [Overlay τ ν] in
theorem moveTo {state : SessionState} (other : state ≠ .stopped) (world : World τ ν) :
    Admits world (world.moveTo state) := by
  refine (note ?_ world).trans (.of_same rfl rfl)
  cases state with
  | stopped => exact absurd rfl other
  | _ => rfl

omit [Overlay τ ν] in
theorem emission (delay : τ) (engine : EngineId) (alert : Alert) (world : World τ ν) :
    Admits world (world.schedule delay (.emission engine alert)) := by
  refine ⟨fun pending member => ?_, id⟩
  rcases List.mem_cons.mp ((insertPending_perm _ _).mem_iff.mp member) with rfl | member
  · exact .inr ⟨engine, alert, rfl⟩
  · exact .inl member

omit [Overlay τ ν] in
theorem react {α : Type} (engine : EngineId) (reaction : Reaction τ ν α) (world : World τ ν) :
    Admits world (world.react engine reaction) := by
  have scheduled (alerts : List (τ × Alert)) (start : World τ ν) :
      Admits start (alerts.foldl
        (fun world entry => world.schedule entry.1 (.emission engine entry.2)) start) := by
    induction alerts generalizing start with
    | nil => exact .refl start
    | cons alert rest ih => exact (emission alert.1 engine alert.2 start).trans (ih _)
  have reacted : Admits world { world with overlay := reaction.overlay } := .of_same rfl rfl
  exact reacted.trans (scheduled reaction.alerts _)

theorem ask (engine : EngineId) (call : EngineCall) (world : World τ ν) :
    Admits world (world.ask engine call).2 :=
  trans (note rfl world) (react engine _ _)

theorem tidying : Tidying (Admits (τ := τ) (ν := ν)) where
  asks engine call world _ := ask engine call world
  disks _ _ := .of_same rfl rfl
  tasks _ _ := .of_same rfl rfl
  silences _ := .of_same rfl rfl
  moves := moveTo (by simp)

omit [Quantity τ] [Overlay τ ν] in
theorem deliver (alert : Alert) (world : World τ ν) : Admits world (world.deliver alert) := by
  unfold World.deliver
  split
  · exact trans (note rfl world) (.of_same rfl rfl)
  · exact .of_same rfl rfl

theorem install (engine : EngineId) (world : World τ ν) : Admits world (world.install engine).2 := by
  have heard : Admits world ((world.installed engine).hear true) := .of_same rfl rfl
  have asked : Admits world ((world.installed engine).startCorrelator engine).2 :=
    heard.trans (ask engine (.setHandler true) _)
  rw [install_eq]
  split
  · next step =>
    rw [step] at asked
    exact asked.trans (moveTo (by simp) _)
  · next step => rwa [step] at asked

omit [Quantity τ] [Overlay τ ν] in
theorem start (world : World τ ν) : Admits world (Session.start world) := by
  unfold Session.start
  split
  · exact .refl world
  · exact (moveTo (by simp) world).trans (.of_same rfl rfl)

omit [Quantity τ] [Overlay τ ν] in
/-- No event of another kind comes to be due. -/
theorem other {before after : World τ ν} (admits : Admits before after) {event : Event ν}
    (unlike : ∀ engine alert, event ≠ .emission engine alert)
    (absent : ∀ pending ∈ before.queue, pending.event ≠ event) :
    ∀ pending ∈ after.queue, pending.event ≠ event := by
  rintro pending member rfl
  rcases admits.queue pending member with member | ⟨engine, alert, emitted⟩
  · exact absent pending member rfl
  · exact unlike engine alert emitted

end Admits

/-! ### Sessions alone -/

/-- Whether nothing is due that starts a session, no start has followed on a failure, and no engine has
refused to leave the overlay. -/
structure Alone (world : World τ ν) : Prop where
  due : ∀ pending ∈ world.queue, pending.event ≠ .start
  unrevived : .moved .error .starting ∉ world.journal
  obeyed : ∀ engine, ¬ Refused world.journal engine

omit [Quantity τ] [Overlay τ ν] in
theorem Alone.not_abandoned {world : World τ ν} (alone : Alone world) (engine : EngineId) :
    ¬ Abandoned world.journal engine := by
  rintro ⟨late, early, same, -⟩
  refine alone.unrevived ?_
  rw [same]
  exact List.mem_append_right _ List.mem_cons_self

/-- Whether a session that is alone in one world is so in another. -/
def StaysAlone (before after : World τ ν) : Prop := Alone before → Alone after

namespace StaysAlone

variable {before after : World τ ν}

omit [Quantity τ] [Overlay τ ν] in
theorem refl (world : World τ ν) : StaysAlone world world := id

omit [Quantity τ] [Overlay τ ν] in
theorem trans {first second third : World τ ν} (left : StaysAlone first second)
    (right : StaysAlone second third) : StaysAlone first third := right ∘ left

omit [Quantity τ] [Overlay τ ν] in
theorem of_admits (admits : Admits before after) (journal : after.journal = before.journal) :
    StaysAlone before after :=
  fun alone => ⟨admits.other (by simp) alone.due, journal ▸ alone.unrevived, journal ▸ alone.obeyed⟩

omit [Quantity τ] [Overlay τ ν] in
theorem of_same (queue : after.queue = before.queue) (journal : after.journal = before.journal) :
    StaysAlone before after := .of_admits (.of_same queue journal) journal

omit [Quantity τ] [Overlay τ ν] in
/-- Most of what is noted is neither a start after a failure nor a refusal. -/
theorem note {occurrence : Occurrence τ} (other : occurrence ≠ .moved .error .starting)
    (obeyed : ∀ engine, occurrence ≠ .called engine (.configure false 0) true) (world : World τ ν) :
    StaysAlone world (world.note occurrence) := by
  rintro ⟨due, unrevived, none⟩
  refine ⟨due, ?_, fun engine => ?_⟩
  · rw [World.note, List.mem_cons, not_or]
    exact ⟨other.symm, unrevived⟩
  · rw [World.note, Refused, List.mem_cons, not_or]
    exact ⟨(obeyed engine).symm, none engine⟩

omit [Quantity τ] [Overlay τ ν] in
theorem moveTo {state : SessionState} {world : World τ ν}
    (other : world.session.state = .error → state ≠ .starting) : StaysAlone world (world.moveTo state) := by
  refine (note ?_ (by nofun) world).trans (.of_same rfl rfl)
  intro same
  obtain ⟨failed, starting⟩ := Occurrence.moved.inj same
  exact other failed starting

omit [Overlay τ ν] in
theorem schedule (delay : τ) {event : Event ν} (other : event ≠ .start) (world : World τ ν) :
    StaysAlone world (world.schedule delay event) := by
  rintro ⟨due, unrevived, obeyed⟩
  refine ⟨fun pending member => ?_, unrevived, obeyed⟩
  rcases List.mem_cons.mp ((insertPending_perm _ _).mem_iff.mp member) with rfl | member
  · exact other
  · exact due pending member

omit [Quantity τ] [Overlay τ ν] in
theorem deliver (alert : Alert) (world : World τ ν) : StaysAlone world (world.deliver alert) := by
  unfold World.deliver
  split
  · exact StaysAlone.trans (.note (by nofun) (by nofun) world) (.of_same rfl rfl)
  · exact .of_same rfl rfl

end StaysAlone

instance : Std.Refl (StaysAlone (τ := τ) (ν := ν)) := ⟨.refl⟩

instance : IsTrans (World τ ν) StaysAlone := ⟨fun _ _ _ => .trans⟩

omit [Quantity τ] [Overlay τ ν] in
/-- A session that has not failed may be started. -/
theorem staysAlone_start {world : World τ ν} (sane : world.session.state ≠ .error) :
    StaysAlone world (Session.start world) := by
  have moved : StaysAlone world (world.moveTo .starting) := .moveTo fun failed => absurd failed sane
  unfold Session.start
  split
  · exact .refl world
  · exact moved.trans (.of_same rfl rfl)

section

variable (obedient : Obedient τ ν)

include obedient

theorem staysAlone_ask (engine : EngineId) (call : EngineCall) (world : World τ ν) :
    StaysAlone world (world.ask engine call).2 := by
  refine StaysAlone.trans (.note (by nofun) (fun other same => ?_) world)
    (.of_admits (.react engine _ _) (journal_react engine _ _))
  obtain ⟨-, rfl, failed⟩ := Occurrence.called.inj same
  have obeys := obedient engine (.configure false 0) world.overlay rfl nofun
  exact Bool.false_ne_true (obeys.symm.trans failed)

theorem tidying_staysAlone : Tidying (StaysAlone (τ := τ) (ν := ν)) where
  asks engine call world _ := staysAlone_ask obedient engine call world
  disks _ _ := .of_same rfl rfl
  tasks _ _ := .of_same rfl rfl
  silences _ := .of_same rfl rfl
  moves _ := .moveTo (by nofun)

omit obedient [Quantity τ] [Overlay τ ν] in
theorem staysAlone_closed (world : World τ ν) : StaysAlone world world.closed :=
  StaysAlone.trans (.moveTo (by nofun)) (.of_same rfl rfl)

theorem staysAlone_stop (world : World τ ν) : StaysAlone world world.stop.2 :=
  stopBy_keeps (fun _ => (tidying_staysAlone obedient).leaves world) staysAlone_closed
    fun _ world => .schedule _ (by nofun) world

theorem staysAlone_perform {event : Event ν} (other : event ≠ .start) (world : World τ ν) :
    StaysAlone world (world.perform event) := by
  cases event with
  | alert alert => exact .deliver alert world
  | emission engine alert =>
    simp only [perform]
    split
    · exact .deliver alert world
    · exact .refl world
  | announcement alert =>
    simp only [perform]
    split
    · exact .refl world
    · exact .schedule _ (by rintro ⟨⟩) world
  | start => exact absurd rfl other
  | stop => exact staysAlone_stop obedient world
  | close => exact staysAlone_closed world
  | halt => exact (tidying_staysAlone obedient).stops none world
  | overlay change => exact .of_same rfl rfl
  | readiness change => exact .of_same rfl rfl

variable (unprompted : Unprompted τ ν)

include unprompted

theorem staysAlone_consult (engine : EngineId) (call : EngineCall) (world : World τ ν) :
    StaysAlone world (world.consult engine call).2 := by
  have asked := staysAlone_ask obedient engine call world
  rcases consult_cases_of_unprompted unprompted engine call world with same | same <;> rw [same]
  · exact asked
  · exact asked.trans (staysAlone_stop obedient _)

theorem staysAlone_build (world : World τ ν) : StaysAlone world world.build.2 := by
  let reaction : Reaction τ ν Bool := Overlay.build (world.engines + 1) world.overlay
  have reacted : StaysAlone world (world.react (world.engines + 1) reaction) :=
    .of_admits (.react _ _ _) (journal_react _ _ _)
  have asked : StaysAlone world world.asked := by
    rcases asked_cases_of_unprompted unprompted world with same | same <;> rw [same]
    · exact reacted
    · exact reacted.trans (staysAlone_stop obedient _)
  have built (engine : EngineId) : StaysAlone world.asked (world.asked.built engine) :=
    StaysAlone.trans (.note (by nofun) (by nofun) _) (.of_same rfl rfl)
  rcases build_eq world with ⟨fault, build⟩ | build | build <;> rw [build]
  · exact asked
  · exact asked
  · exact asked.trans (built _)

omit unprompted in
theorem staysAlone_install (engine : EngineId) (world : World τ ν) :
    StaysAlone world (world.install engine).2 := by
  have heard : StaysAlone world ((world.installed engine).hear true) := .of_same rfl rfl
  have asked : StaysAlone world ((world.installed engine).startCorrelator engine).2 :=
    heard.trans (staysAlone_ask obedient engine (.setHandler true) _)
  rw [install_eq]
  split
  · next step =>
    rw [step] at asked
    exact asked.trans (.moveTo (by nofun))
  · next step => rwa [step] at asked

/-- Whatever tasks and callers do, the session stays alone. -/
theorem ongoing_staysAlone : Ongoing (StaysAlone (τ := τ) (ν := ν)) where
  checks engine world _ := staysAlone_consult obedient unprompted engine .isRunning world
  loads engine blob world _ := staysAlone_consult obedient unprompted engine (.loadState blob) world
  saves := (tidying_staysAlone obedient).saves
  joins _ := .of_same rfl rfl
  advances _ _ := .of_same rfl rfl
  givesUp _ := .of_same rfl rfl
  performs world next rest queue := by
    intro alone
    have due := alone.due
    rw [queue, List.forall_mem_cons] at due
    have taken : Alone ({ world with queue := rest }.advance next.time) :=
      ⟨due.2, alone.unrevived, alone.obeyed⟩
    exact staysAlone_perform obedient due.1 _ taken
  builds := staysAlone_build obedient unprompted
  installs := staysAlone_install obedient
  readies _ := StaysAlone.trans (.moveTo (by nofun)) (.of_same rfl rfl)
  fails reason world := by
    have moved (world : World τ ν) : StaysAlone world (world.moveTo .error) := .moveTo (by nofun)
    have said : StaysAlone world { world with session := { world.session with lastError := reason } } :=
      .of_same rfl rfl
    exact said.trans (moved _)
  aborts engine world := staysAlone_ask obedient engine .abort world
  modifies _ _ _ _ := .of_same rfl rfl

end

/-! ### Stops in time -/

/-- Whether a session is stopping or stopped. -/
def IsEnding (world : World τ ν) : Prop :=
  world.session.state = .stopping ∨ world.session.state = .stopped

/-- Whether the ends of stops come in time: none has come too late, and none is due unless the session is
ending. -/
structure Timely (world : World τ ν) : Prop where
  timely : ¬ Overtaken world.journal
  closing : ∀ pending ∈ world.queue, pending.event = .close → world.IsEnding

namespace Timely

variable {world after : World τ ν}

omit [Quantity τ] [Overlay τ ν] in
theorem along (timely : Timely world) (admits : Admits world after)
    (state : after.session.state = world.session.state) : Timely after where
  timely := timely.timely ∘ admits.journal
  closing pending member close := by
    rw [IsEnding, state]
    rcases admits.queue pending member with member | ⟨engine, alert, emitted⟩
    · exact timely.closing pending member close
    · exact nomatch emitted.symm.trans close

omit [Quantity τ] [Overlay τ ν] in
/-- In a session that is ending the end of a stop may be due. -/
theorem of_ending (timely : ¬ Overtaken world.journal) (ending : world.IsEnding) : Timely world :=
  ⟨timely, fun _ _ _ => ending⟩

theorem leave (timely : Timely world) : Timely world.leave.2 :=
  .of_ending (timely.timely ∘ (Admits.tidying.leaves world).journal) (.inl (left_of_leave world).1)

omit [Quantity τ] [Overlay τ ν] in
theorem closed (timely : ¬ Overtaken world.journal) (ending : world.IsEnding) : Timely world.closed := by
  refine .of_ending (fun late => ?_) (.inr rfl)
  rw [Overtaken, World.closed, moveTo, note, List.any_cons] at late
  rcases ending with state | state <;> rw [state] at late <;> exact timely late

/-- A stop leaves a session that is ending. -/
theorem stop (timely : Timely world) : Timely world.stop.2 ∧ world.stop.2.IsEnding := by
  have left := timely.leave
  have state := (left_of_leave world).1
  unfold World.stop stopBy
  split
  · next stopped => exact ⟨timely, .inr stopped.1⟩
  · rcases leave : world.leave with ⟨failure | time, begun⟩ <;> rw [leave] at left state
    · exact ⟨left, .inl state⟩
    · cases time with
      | none => exact ⟨.closed left.timely (.inl state), .inr rfl⟩
      | some time => exact ⟨.of_ending left.timely (.inl state), .inl state⟩

end Timely

/-! ### Tasks of sessions alone -/

/-- Whether a task at work is in time: its session is its own and up, and no end of a stop is due, or it was
stopped since. -/
structure Steady (id : TaskId) (world : World τ ν) : Prop where
  timely : ¬ Overtaken world.journal
  unhalted : ∀ pending ∈ world.queue, pending.event ≠ .halt
  place : ((∀ pending ∈ world.queue, pending.event ≠ .close) ∧ world.session.task = some id ∧
      Session.isUp world.session.state = true ∧ ∃ task, world.tasks[id]? = some task) ∨
    world.IsEnding ∧ world.correlator.running = false ∧ world.isStopRequested id = true

namespace Steady

variable {id : TaskId} {world after : World τ ν}

omit [Quantity τ] [Overlay τ ν] in
theorem toTimely (steady : Steady id world) : Timely world :=
  ⟨steady.timely, fun pending member close => steady.place.elim
    (fun ⟨absent, _⟩ => absurd close (absent pending member)) And.left⟩

omit [Quantity τ] [Overlay τ ν] in
theorem around (steady : Steady id world) (admits : Admits world after) (around : Around world after) :
    Steady id after := by
  obtain ⟨state, -, task, -⟩ := around.same
  refine ⟨steady.timely ∘ admits.journal, around.unhalted steady.unhalted, ?_⟩
  rw [IsEnding, state, task, around.listening, World.isStopRequested, around.tasks]
  exact steady.place.imp_left (And.imp_left (admits.other (by simp)))

theorem stop (steady : Steady id world) : Steady id world.stop.2 := by
  obtain ⟨timely, ending⟩ := steady.toTimely.stop
  have unhalted := (Goes.stop world steady.unhalted).1
  refine ⟨timely.timely, unhalted, .inr ⟨ending, ?_⟩⟩
  have off (due : ¬ (world.session.state = .stopped ∧ world.session.task = none)) :
      world.stop.2.correlator.running = false := by
    have left := (left_of_leave world).2
    unfold World.stop stopBy
    rw [if_neg due]
    rcases leave : world.leave with ⟨failure | time, begun⟩ <;> rw [leave] at left
    · exact left
    · cases time <;> exact left
  rcases steady.place with ⟨-, own, -, task, found⟩ | ⟨-, deaf, asked⟩
  · exact ⟨off (by simp [own]), isStopRequested_stop own found⟩
  · refine ⟨?_, (meanwhile_stop world).course.follows.asked id asked⟩
    by_cases stopped : world.session.state = .stopped ∧ world.session.task = none
    · rwa [show world.stop = (.ok (), world) from if_pos stopped]
    · exact off stopped

theorem perform (steady : Steady id world) {event : Event ν} (unhalted : event ≠ .halt)
    (unclosed : event ≠ .close) (up : Session.isUp world.session.state = true) :
    Steady id (world.perform event) := by
  have delivered (alert : Alert) : Steady id (world.deliver alert) :=
    steady.around (.deliver alert world) (Idle.deliver alert world).around
  cases event with
  | alert alert => exact delivered alert
  | emission engine alert =>
    simp only [World.perform]
    split
    · exact delivered alert
    · exact steady
  | announcement alert =>
    simp only [World.perform]
    split
    · exact steady
    · exact steady.around (.emission _ _ alert world) (Idle.schedule _ world (by simp)).around
  | start => rwa [show world.perform .start = world from if_pos up]
  | stop => exact steady.stop
  | close => exact absurd rfl unclosed
  | halt => exact absurd rfl unhalted
  | overlay change => exact steady.around (.of_same rfl rfl) (Idle.overlay _ world).around
  | readiness change => exact steady.around (.of_same rfl rfl) (Idle.readiness _ world).around

omit [Overlay τ ν] in
theorem advance (steady : Steady id world) (time : τ) : Steady id (world.advance time) :=
  steady.around (.of_same rfl rfl) (Idle.advance time world).around

/-- A task that waits for the bootstrap does not see the end of a stop: the stop ends the wait. -/
theorem waits (steady : Steady id world) (fuel : Nat) (deadline since : τ) :
    Steady id (world.runQueueFor fuel deadline (joins since)) := by
  induction fuel generalizing world with
  | zero => exact (steady.advance deadline).around (.of_same rfl rfl) (Idle.giveUp _).around
  | succ fuel ih =>
    rcases steady.place with ⟨absent, own, up, task⟩ | ⟨-, deaf, -⟩
    · unfold runQueueFor
      split
      · exact steady
      · split
        · exact steady.advance deadline
        · next next rest queue =>
          split
          · exact steady.advance deadline
          · have first : next ∈ world.queue := by
              rw [queue]
              exact List.mem_cons_self
            have dequeued : Steady id { world with queue := rest } := by
              refine ⟨steady.timely, fun pending member => steady.unhalted pending ?_,
                .inl ⟨fun pending member => absent pending ?_, own, up, task⟩⟩ <;>
              · rw [queue]
                exact List.mem_cons_of_mem _ member
            exact ih ((dequeued.advance next.time).perform (steady.unhalted next first)
              (absent next first) up)
    · rcases waits_of_deaf deaf (fuel + 1) deadline since with same | same <;> rw [same]
      · exact steady
      · exact (steady.advance deadline).around (.of_same rfl rfl) (Idle.giveUp _).around

theorem bootstraps (steady : Steady id world) (since : Option τ) :
    Steady id ((Session.bootstrap runQueue since).run world).2 := by
  have waited := steady.waits world.patience
    (Quantity.add world.clock (Quantity.later Quantity.zero world.settings.bootstrapTimeout))
    (since.getD world.clock)
  rcases bootstrap_run runQueue since (Eq.refl (world.wait runQueue _ _)) with ⟨-, run⟩ | run <;> rw [run]
  · exact waited.around (.of_same rfl rfl) (Idle.joined _).around
  · exact waited

theorem installs (steady : Steady id world) (unasked : world.isStopRequested id = false) (engine : EngineId) :
    Steady id (world.install engine).2 := by
  rcases steady.place with ⟨absent, own, up, task⟩ | ⟨-, -, asked⟩
  swap
  · exact nomatch asked.symm.trans unasked
  have admits := Admits.install engine world
  obtain ⟨heard, listened, ending⟩ := install_cases engine world
  have around := listened.around
  refine ⟨steady.timely ∘ admits.journal, (Goes.install engine world steady.unhalted).1,
    .inl ⟨admits.other (by simp) absent, ?_⟩⟩
  rcases ending with ⟨fault, installed⟩ | installed <;> rw [installed]
  · exact ⟨around.same.2.2.1.trans own, (congrArg Session.isUp around.same.1).trans up,
      by rw [around.tasks]; exact task⟩
  · exact ⟨around.same.2.2.1.trans own, rfl, by rw [show (heard.moveTo .bootstrapping).tasks = _ from around.tasks]; exact task⟩

omit [Quantity τ] [Overlay τ ν] in
theorem readies (steady : Steady id world) (unasked : world.isStopRequested id = false) :
    Steady id world.ready := by
  rcases steady.place with ⟨absent, own, up, task⟩ | ⟨-, -, asked⟩
  · have admits : Admits world world.ready := (Admits.moveTo (by simp) world).trans (.of_same rfl rfl)
    exact ⟨steady.timely ∘ admits.journal, steady.unhalted, .inl ⟨absent, own, rfl, task⟩⟩
  · exact nomatch asked.symm.trans unasked

omit [Quantity τ] [Overlay τ ν] in
/-- Whatever a task does to itself, its session is in time. -/
theorem finishes (steady : Steady id world) (change : Task τ → Task τ) :
    Timely (world.modifyTask id change) :=
  steady.toTimely.along (.of_same rfl rfl) rfl

omit [Quantity τ] [Overlay τ ν] in
theorem finishesFailed (steady : Steady id world) (reason : String) :
    Timely (if world.isStopRequested id then world.finish id else (world.failed reason).finish id) := by
  split
  · exact steady.finishes _
  · next unasked =>
    rcases steady.place with ⟨absent, -⟩ | ⟨-, -, asked⟩
    · have said : Admits world { world with session := { world.session with lastError := reason } } :=
        .of_same rfl rfl
      have admits : Admits world (world.failed reason) := said.trans (.moveTo (by simp) _)
      exact ⟨steady.timely ∘ admits.journal, fun pending member close => absurd close (absent pending member)⟩
    · exact absurd asked unasked

omit [Overlay τ ν] in
theorem parksWatching (steady : Steady id world) : Timely (world.parkWatching id) := by
  unfold parkWatching
  split
  · exact steady.finishes _
  · exact steady.finishesFailed _

end Steady

/-- Whether a task that was in time is so afterwards. -/
def StaysSteady (id : TaskId) (before after : World τ ν) : Prop := Steady id before → Steady id after

instance (id : TaskId) : Std.Refl (StaysSteady (τ := τ) (ν := ν) id) := ⟨fun _ steady => steady⟩

instance (id : TaskId) : IsTrans (World τ ν) (StaysSteady id) := ⟨fun _ _ _ left right => right ∘ left⟩

section

variable (unprompted : Unprompted τ ν) {id : TaskId} {world : World τ ν}

include unprompted

theorem Steady.consult (steady : Steady id world) (engine : EngineId) {call : EngineCall}
    (upkeep : call.isUpkeep = true) : Steady id (world.consult engine call).2 := by
  have asked := steady.around (.ask engine call world) (idles_ask engine upkeep world).around
  rcases consult_cases_of_unprompted unprompted engine call world with same | same <;> rw [same]
  · exact asked
  · exact asked.stop

theorem toiling_steady (id : TaskId) (begun : τ) :
    Toiling id begun (StaysSteady (τ := τ) (ν := ν) id) where
  checks engine _ _ steady := steady.consult unprompted engine rfl
  loads engine _ _ _ steady := steady.consult unprompted engine rfl
  saves world steady := steady.around (Admits.tidying.saves world) (idles_saveState world).around
  bootstraps since _ _ steady := steady.bootstraps since
  installs engine _ unasked steady := steady.installs unasked engine
  readies _ unasked steady := steady.readies unasked

theorem timely_startEngine (steady : Steady id world) : Timely (world.startEngine id) := by
  have asked : Steady id world.asked := by
    have reacted := steady.around (.react (world.engines + 1) (Overlay.build (world.engines + 1) world.overlay :
      Reaction τ ν Bool) world) (idles_react _ _ world).around
    rcases asked_cases_of_unprompted unprompted world with same | same <;> rw [same]
    · exact reacted
    · exact reacted.stop
  unfold startEngine
  rcases build_eq world with ⟨fault, built⟩ | built | built <;> rw [built] <;> dsimp only
  · exact asked.finishesFailed _
  · exact asked.finishesFailed _
  have built : Steady id (world.asked.built (world.engines + 1)) := by
    have admits : Admits world.asked (world.asked.built (world.engines + 1)) :=
      Admits.trans (.note rfl _) (.of_same rfl rfl)
    exact ⟨asked.timely ∘ admits.journal, asked.unhalted, asked.place⟩
  split
  · exact (built.around (.ask _ .abort _) (idles_ask _ rfl _).around).finishes _
  · next unasked =>
    have brought := (toiling_steady unprompted id world.clock).bringsUp (world.engines + 1)
      (eq_false_of_ne_true unasked) built
    rcases run : (bringUp id (world.engines + 1) world.clock).run (world.asked.built (world.engines + 1)) with
      ⟨failure | running, after⟩ <;> rw [run] at brought
    · exact brought.finishesFailed _
    · cases running with
      | false => exact brought.finishes _
      | true => exact brought.parksWatching

/-- A task that goes on leaves its session in time. -/
theorem timely_resume (sound : world.Sound) (timely : Timely world) (id : TaskId) :
    Timely (world.resume id) := by
  have same (tasks : List (Task τ)) : Timely { world with tasks } := timely.along (.of_same rfl rfl) rfl
  unfold resume
  split
  · exact timely
  · next task found =>
    split
    · exact same _
    · next unasked =>
      have steady (waits : task.phase ≠ .finished) :
          Steady id (world.modifyTask id fun task => { task with phase := .active }) := by
        obtain ⟨own, up, -⟩ := sound.live id task found (by simp [Task.isLive, waits, unasked])
        refine ⟨timely.timely, sound.unhalted, .inl ⟨fun pending member close => ?_, own, up,
          { task with phase := .active }, ?_⟩⟩
        · rcases timely.closing pending member close with state | state <;> rw [state] at up <;> cases up
        · rw [getElem?_modifyTask, found, Option.map_some, if_pos rfl]
      dsimp only
      split
      · next polling =>
        split
        · exact timely_startEngine unprompted (steady (by simp [polling]))
        · exact same _
      · next watching =>
        have watched := (toiling_steady unprompted id world.clock).watches _ (steady (by simp [watching]))
        rcases run : watch.run (world.modifyTask id fun task => { task with phase := .active }) with
          ⟨failure | ⟨⟩, after⟩ <;> rw [run] at watched
        · exact watched.finishesFailed _
        · exact watched.parksWatching
      · exact timely

end

/-! ### Orderly sessions -/

/-- Whether a session is sound and alone, and stops of it come to their ends in time. -/
structure Orderly (world : World τ ν) : Prop where
  sound : world.Sound
  alone : Alone world
  timely : Timely world

/-- Whether an orderly session stays so, and goes on ending if it was. -/
def StaysOrderly (before after : World τ ν) : Prop :=
  Orderly before → Orderly after ∧ (before.IsEnding → after.IsEnding)

namespace StaysOrderly

omit [Quantity τ] [Overlay τ ν] in
theorem refl (world : World τ ν) : StaysOrderly world world := fun orderly => ⟨orderly, id⟩

omit [Quantity τ] [Overlay τ ν] in
theorem trans {first second third : World τ ν} (left : StaysOrderly first second)
    (right : StaysOrderly second third) : StaysOrderly first third := by
  intro orderly
  obtain ⟨orderly, early⟩ := left orderly
  obtain ⟨orderly, late⟩ := right orderly
  exact ⟨orderly, late ∘ early⟩

instance : Std.Refl (StaysOrderly (τ := τ) (ν := ν)) := ⟨refl⟩

instance : IsTrans (World τ ν) StaysOrderly := ⟨fun _ _ _ => trans⟩

omit [Quantity τ] [Overlay τ ν] in
/-- What goes on around a session leaves it orderly. -/
theorem around {before after : World τ ν} (around : Around before after) (admits : Admits before after)
    (alone : StaysAlone before after) : StaysOrderly before after := by
  intro orderly
  refine ⟨⟨orderly.sound.around around, alone orderly.alone, orderly.timely.along admits around.same.1⟩, ?_⟩
  rw [IsEnding, IsEnding, around.same.1]
  exact id

omit [Overlay τ ν] in
theorem idle {before after : World τ ν} (idle : Idle before after) (queue : after.queue = before.queue)
    (journal : after.journal = before.journal) : StaysOrderly before after :=
  .around idle.around (.of_same queue journal) (.of_same queue journal)

end StaysOrderly

/-- Of a session that is ending no task does anything. -/
theorem session_resume_of_ending {world : World τ ν} (sound : world.Sound) (ending : world.IsEnding)
    (id : TaskId) : (world.resume id).session = world.session := by
  have down : Session.isUp world.session.state = false := by
    rcases ending with state | state <;> rw [state] <;> rfl
  unfold resume
  split
  · rfl
  · next task found =>
    split
    · rfl
    · next unasked =>
      have finished : task.phase = .finished := by
        by_contra unfinished
        exact sound.not_isLive down id ⟨task, found, by simp [Task.isLive, unfinished, unasked]⟩
      dsimp only
      rw [finished]

section

variable (obedient : Obedient τ ν)

include obedient

theorem orderly_ask (engine : EngineId) (call : EngineCall) (world : World τ ν) :
    StaysOrderly world (world.ask engine call).2 := by
  have noted : Around world (world.note (.called engine call
      (isFailure (Overlay.ask (τ := τ) engine call world.overlay).outcome))) :=
    { Around.refl world with journal := .cons (by nofun) _ }
  exact .around (noted.trans (idles_react engine _ _).around) (.ask engine call world)
    (staysAlone_ask obedient engine call world)

theorem orderly_saveState (world : World τ ν) : StaysOrderly world world.saveState.2 :=
  .around (idles_saveState world).around (Admits.tidying.saves world) ((tidying_staysAlone obedient).saves world)

/-- A stop by somebody else begins, and comes to its end or will do so. -/
theorem staysOrderly_stop (world : World τ ν) : StaysOrderly world world.stop.2 := by
  intro orderly
  obtain ⟨timely, ending⟩ := orderly.timely.stop
  exact ⟨⟨(meanwhile_stop world).arrives orderly.sound timely.timely,
    staysAlone_stop obedient world orderly.alone, timely⟩, fun _ => ending⟩

omit obedient [Quantity τ] [Overlay τ ν] in
theorem orderly_closed {world : World τ ν} (orderly : Orderly world) (ending : world.IsEnding) :
    Orderly world.closed :=
  ⟨orderly.sound.closed ending, staysAlone_closed world orderly.alone, .closed orderly.timely.timely ending⟩

omit obedient in
/-- A session that has not failed may be started, unless the end of a stop is due. -/
theorem orderly_start {world : World τ ν} (orderly : Orderly world) (sane : world.session.state ≠ .error)
    (unclosed : ∀ pending ∈ world.queue, pending.event ≠ .close) : Orderly (Session.start world) := by
  have admits := Admits.start world
  have timely := orderly.timely.timely ∘ admits.journal
  refine ⟨(meanwhile_start world).arrives orderly.sound timely, staysAlone_start sane orderly.alone, timely,
    fun pending member close => ?_⟩
  exact absurd close (admits.other (by simp) unclosed pending member)

theorem orderly_perform {world : World τ ν} {event : Event ν} (unstarted : event ≠ .start)
    (unhalted : event ≠ .halt) (closing : event = .close → world.IsEnding) :
    StaysOrderly world (world.perform event) := by
  have delivered (alert : Alert) : StaysOrderly world (world.deliver alert) :=
    .around (Idle.deliver alert world).around (.deliver alert world) (.deliver alert world)
  cases event with
  | alert alert => exact delivered alert
  | emission engine alert =>
    simp only [perform]
    split
    · exact delivered alert
    · exact .refl world
  | announcement alert =>
    simp only [perform]
    split
    · exact .refl world
    · exact .around (Idle.schedule _ world (by simp)).around (.emission _ _ alert world)
        (.schedule _ (by rintro ⟨⟩) world)
  | start => exact absurd rfl unstarted
  | stop => exact staysOrderly_stop obedient world
  | close =>
    intro orderly
    exact ⟨orderly_closed orderly (closing rfl), fun _ => .inr rfl⟩
  | halt => exact absurd rfl unhalted
  | overlay change => exact .idle (.overlay _ world) rfl rfl
  | readiness change => exact .idle (.readiness _ world) rfl rfl

variable (unprompted : Unprompted τ ν)

include unprompted

theorem orderly_consult (engine : EngineId) (call : EngineCall) (world : World τ ν) :
    StaysOrderly world (world.consult engine call).2 := by
  have asked := orderly_ask obedient engine call world
  rcases consult_cases_of_unprompted unprompted engine call world with same | same <;> rw [same]
  · exact asked
  · exact asked.trans (staysOrderly_stop obedient _)

theorem tending_staysOrderly : Session.Tending (StaysOrderly (τ := τ) (ν := ν)) :=
  .of_consults (fun engine call world _ => orderly_consult obedient unprompted engine call world)
    (orderly_saveState obedient)

theorem orderly_handle (world : World τ ν) (due : Due τ ν) (next : world.due? = some due) :
    StaysOrderly world (world.handle due) := by
  intro orderly
  cases due with
  | event first rest =>
    have queue := queue_of_due? next
    have member : first ∈ world.queue := by
      rw [queue]
      exact List.mem_cons_self
    have remains : ∀ pending ∈ rest, pending ∈ world.queue := by
      intro pending member
      rw [queue]
      exact List.mem_cons_of_mem _ member
    have taken : Orderly ({ world with queue := rest }.advance first.time) :=
      ⟨(orderly.sound.around (Idle.dequeue queue).around).around (Idle.advance first.time _).around,
        ⟨fun pending member => orderly.alone.due pending (remains pending member), orderly.alone.unrevived,
          orderly.alone.obeyed⟩,
        orderly.timely.timely, fun pending member => orderly.timely.closing pending (remains pending member)⟩
    exact orderly_perform obedient (orderly.alone.due first member) (orderly.sound.unhalted first member)
      (orderly.timely.closing first member) taken
  | task id time =>
    obtain ⟨advanced, still⟩ := StaysOrderly.idle (.advance time world) rfl rfl orderly
    have timely := timely_resume unprompted advanced.sound advanced.timely id
    refine ⟨⟨(leads_resume id _).arrives advanced.sound timely.timely,
      (ongoing_staysAlone obedient unprompted).resumes id _ advanced.alone, timely⟩, fun ending => ?_⟩
    change IsEnding (resume id _)
    rw [IsEnding, session_resume_of_ending advanced.sound (still ending) id]
    exact still ending

theorem orderly_run (deadline : τ) (condition : World τ ν → Bool) (world : World τ ν) :
    StaysOrderly world (world.run deadline condition) :=
  run_keeps (fun time world => .idle (.advance time world) rfl rfl) (fun world => .idle (.giveUp world) rfl rfl)
    (orderly_handle obedient unprompted) deadline condition world

theorem orderly_waitUntilRunning (timeout : Option τ) (world : World τ ν) :
    StaysOrderly world (Session.waitUntilRunning timeout world).2 :=
  waitUntilRunning_keeps (fun world => .idle (.giveUp world) rfl rfl) (orderly_run obedient unprompted)
    timeout world

theorem orderly_ensureRunning :
    Op.Keeps StaysOrderly (Session.ensureRunning : Op τ ν (Option ErrorKind)) :=
  Session.ensureRunning_keeps (tending_staysOrderly obedient unprompted)
    (Session.bootstrap_keeps (fun world => .idle (.joined world) rfl rfl) (orderly_run obedient unprompted) none)

/-- A stop of an orderly session comes to its end, if the settings say how long it may wait. -/
theorem orderly_stop {world : World τ ν} (orderly : Orderly world) (timed : world.settings.Timed) :
    ∃ after, Session.stop world = (.ok (), after) ∧ Orderly after ∧ after.session.state = .stopped := by
  by_cases stopped : world.session.state = .stopped ∧ world.session.task = none
  · exact ⟨world, if_pos stopped, orderly, stopped.1⟩
  have left : Orderly world.leave.2 :=
    ⟨(meanwhile_leave stopped).arrives orderly.sound orderly.timely.leave.timely,
      (tidying_staysAlone obedient).leaves world orderly.alone, orderly.timely.leave⟩
  have ending : world.leave.2.IsEnding := .inl (left_of_leave world).1
  have told := leave_told obedient world
  unfold Session.stop stopBy
  rw [if_neg stopped]
  rcases leave : world.leave with ⟨failure | time, begun⟩ <;> rw [leave] at left ending told
  · rcases told with prompt | ⟨-, ⟨time, prompt⟩ | ⟨-, untimed⟩⟩
    · cases prompt
    · cases prompt
    · exact absurd timed untimed
  · cases time with
    | none => exact ⟨_, rfl, orderly_closed left ending, rfl⟩
    | some time =>
      obtain ⟨waited, still⟩ := orderly_run obedient unprompted _ _ begun left
      exact ⟨_, rfl, orderly_closed waited (still ending), rfl⟩

end

end World

end DhtRecords
