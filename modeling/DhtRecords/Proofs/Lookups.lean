/-
Which items a fetch of one record has engines look up.

`World.lookups` lists what engines were told to look up between two worlds.
Nothing that a session does on its own is a lookup, and a program that looks an
item up has it looked up once, or not at all if no engine can be called
(`Get.lookup_asks`). So the fetch of a record looks its header up for a number of
times, then its chunks one after the other, and the chunks only if the last
lookup of the header has led to one that declares no more of them than there are
slots (`pursued_record`).
-/

import DhtRecords.Proofs.Untorn

namespace DhtRecords

variable {τ ν : Type}

/-! ### Lookups -/

/-- The item that an engine was told to look up, whether it has failed or not, if it is that what has
happened. -/
def Occurrence.lookup? : Occurrence τ → Option (Bytes × String)
  | .called _ (.lookup owner salt) _ => some (owner, salt)
  | _ => none

/-- How often the header of a record may be looked up; not at all if that is not told by a number. -/
def Settings.headerTries (settings : Settings τ) : Nat :=
  match settings.headerRetries with
  | none => 0
  | some retries => (1 + retries).toNat

namespace World

/-- The items that engines were told to look up from one world to a later one, in that order. -/
def lookups (before after : World τ ν) : List (Bytes × String) :=
  ((after.journal.take (after.journal.length - before.journal.length)).filterMap
    Occurrence.lookup?).reverse

/-- Whether a journal has grown, and engines were told to look these items up, in that order. -/
def Asks (items : List (Bytes × String)) (before after : World τ ν) : Prop :=
  ∃ fresh, after.journal = fresh ++ before.journal ∧
    (fresh.filterMap Occurrence.lookup?).reverse = items

namespace Asks

variable {first second third : World τ ν} {early late : List (Bytes × String)}

theorem lookups_eq (asks : Asks late first second) : first.lookups second = late := by
  obtain ⟨fresh, journal, rfl⟩ := asks
  rw [lookups, journal]
  simp

theorem of_journal (same : second.journal = first.journal) : Asks [] first second :=
  ⟨[], same, rfl⟩

theorem note {occurrence : Occurrence τ} (other : occurrence.lookup? = none) (world : World τ ν) :
    Asks [] world (world.note occurrence) :=
  ⟨[occurrence], rfl, by rw [List.filterMap_cons, other]; rfl⟩

theorem trans (left : Asks early first second) (right : Asks late second third) :
    Asks (early ++ late) first third := by
  obtain ⟨old, oldJournal, rfl⟩ := left
  obtain ⟨new, newJournal, rfl⟩ := right
  exact ⟨new ++ old, by rw [newJournal, oldJournal, List.append_assoc], by simp⟩

/-- What is looked up after a time without lookups. -/
theorem after_none (left : Asks [] first second) (right : Asks late second third) :
    Asks late first third := left.trans right

/-- What is looked up before a time without lookups. -/
theorem before_none (left : Asks early first second) (right : Asks [] second third) :
    Asks early first third := by
  have both := left.trans right
  rwa [List.append_nil] at both

instance : Std.Refl (Asks (τ := τ) (ν := ν) []) := ⟨fun _ => of_journal rfl⟩

instance : IsTrans (World τ ν) (Asks []) := ⟨fun _ _ _ => after_none⟩

end Asks

/-! ### Steps of a session -/

section

variable [Quantity τ]

theorem Idle.asks {before after : World τ ν} (idle : Idle before after) : Asks [] before after := by
  cases idle with
  | @called engine call failed _ upkeep =>
    refine .note ?_ before
    cases call with
    | lookup => cases upkeep
    | _ => rfl
  | deliver alert =>
    unfold World.deliver
    split
    · exact (Asks.note rfl before).trans (.of_journal rfl)
    · exact .of_journal rfl
  | _ => exact .of_journal rfl

omit [Quantity τ] in
theorem Alters.asks {before after : World τ ν} (alters : Alters before after) :
    Asks [] before after := by
  obtain ⟨session, tasks, engines, running, noted, rfl, changes⟩ := alters
  refine ⟨noted, rfl, ?_⟩
  rw [List.reverse_eq_nil_iff, List.filterMap_eq_nil_iff]
  intro occurrence member
  have change := changes occurrence member
  cases occurrence with
  | called => cases change
  | _ => rfl

variable [Overlay τ ν]

theorem Upkeep.asks {before after : World τ ν} (upkeep : Upkeep before after) :
    Asks [] before after :=
  upkeep.keeps (fun _ _ idle => idle.asks) fun _ _ alters => alters.asks

/-- A lookup that an engine is told is noted, whether it has failed or not. -/
theorem ask_lookup (engine : EngineId) (owner : Bytes) (salt : String) (world : World τ ν) :
    Asks [(owner, salt)] world (world.ask engine (.lookup owner salt)).2 :=
  ⟨[_], journal_ask engine _ world, rfl⟩

end

end World

/-! ### Lookups of single items -/

namespace Get

open World Op

variable [Quantity τ] [Overlay τ ν] {owner : Bytes} {salt : String} {timeout : τ} {onlyFinal : Bool}
  {before after : World τ ν}

/-- Whether there is no engine to call: making sure of the session does not lead to one. -/
def Unavailable (world : World τ ν) : Prop :=
  ∀ after, Session.ensureRunning.run world = (.ok none, after) → after.session.engine = none

theorem unavailable_of {world middle : World τ ν} {outcome : Except Failure (Option ErrorKind)}
    (ensured : Session.ensureRunning.run world = (outcome, middle))
    (absent : outcome = .ok none → middle.session.engine = none) : Unavailable world := by
  intro after made
  rw [ensured] at made
  cases made
  exact absent rfl

/-- An item is looked up once, unless there is no engine to call. -/
theorem fire_asks {outcome : Except Failure (Except (Error τ) Unit)}
    (run : (fire owner salt).run before = (outcome, after)) :
    Unavailable before ∧ Asks [] before after ∧
        (∀ answer, outcome = .ok answer → answer = .error .notRunning) ∨
      Asks [(owner, salt)] before after := by
  unfold fire at run
  rw [run_bind] at run
  have ensures := Session.upholds_ensureRunning (fun _ _ upkeep => upkeep.asks) before
  rcases ensured : Session.ensureRunning.run before with ⟨failure | ⟨_ | kind⟩, middle⟩ <;>
    rw [ensured] at run ensures
  · cases run
    exact .inl ⟨unavailable_of ensured nofun, ensures, nofun⟩
  · simp only [Option.isSome_none, Bool.false_eq_true, if_false] at run
    rw [run_bind_ok (run_get middle)] at run
    split at run
    · next absent =>
      cases run
      exact .inl ⟨unavailable_of ensured fun _ => absent, ensures, fun _ same => (Except.ok.inj same).symm⟩
    · next engine _ =>
      have asked := ask_lookup engine owner salt middle
      rw [run_bind, run_ask] at run
      refine .inr (ensures.after_none ?_)
      rcases told : middle.ask engine (.lookup owner salt) with ⟨fault | answer, told⟩ <;>
        simp only [told] at run asked <;> cases run <;> exact asked
  · cases run
    exact .inl ⟨unavailable_of ensured nofun, ensures, fun _ same => (Except.ok.inj same).symm⟩

/-- A lookup has its item looked up once, unless there is no engine to call; then it has no other answer
than that. -/
theorem lookup_asks {outcome : Except Failure (Except (Error τ) Found)}
    (run : (lookup owner salt timeout onlyFinal).run before = (outcome, after)) :
    Unavailable (forget owner salt before) ∧ Asks [] before after ∧
        (∀ answer, outcome = .ok answer → answer = .error .notRunning) ∨
      Asks [(owner, salt)] before after := by
  have forgotten : Asks [] before (forget owner salt before) := .of_journal rfl
  unfold lookup at run
  rw [run_bind_ok (run_modify _ before), run_bind] at run
  rcases fired : (fire owner salt).run (forget owner salt before) with
    ⟨failure | error | _, told⟩ <;> rw [fired] at run
  · cases run
    rcases fire_asks fired with ⟨unavailable, silent, -⟩ | asked
    · exact .inl ⟨unavailable, forgotten.trans silent, nofun⟩
    · exact .inr (forgotten.after_none asked)
  · cases run
    rcases fire_asks fired with ⟨unavailable, silent, unfired⟩ | asked
    · obtain rfl := Except.error.inj (unfired _ rfl)
      exact .inl ⟨unavailable, forgotten.trans silent, fun _ same => (Except.ok.inj same).symm⟩
    · exact .inr (forgotten.after_none asked)
  · rcases fire_asks fired with ⟨-, -, unfired⟩ | asked
    · cases unfired _ rfl
    refine .inr (forgotten.after_none (asked.before_none ?_))
    dsimp only at run
    rw [run_bind_ok (run_modifyGet _ told)] at run
    have waited : Asks [] told (waitForResult (infoHash owner salt) timeout onlyFinal told).2 :=
      (upkeep_run _ _ told).asks
    split at run
    · cases run
      exact waited
    · rw [run_bind_ok (run_modify _ _), run_bind_ok (run_get _)] at run
      have dropped : Asks [] told (forget owner salt
          (waitForResult (infoHash owner salt) timeout onlyFinal told).2) := waited
      split at run <;> cases run <;> exact dropped

end Get

/-! ### Single records -/

namespace Fetch

open World Op

/-- The items of so many chunks of a record from a position on. -/
def chunkNames (owner : Bytes) (operation : String) (position count : Nat) : List (Bytes × String) :=
  (List.range' position count).map fun (position : Nat) => (owner, chunkSalt operation position)

variable [Quantity τ] [Overlay τ ν]

/-- Whether a header was looked up for a number of times in vain, and then once more, which has led to
it. -/
inductive Headed (owner : Bytes) (salt : String) (kind : ErrorKind) (before : World τ ν) (vain : Nat)
    (header : Header) (sequence : Int) (after : World τ ν) : Prop
  | intro {last : World τ ν} {kind' : ErrorKind} {found : Get.Found} :
    (headerWithin owner salt vain kind).run before = (.ok (.error kind'), last) →
    Asks (List.replicate vain (owner, salt)) before last →
    (Get.lookup owner salt before.settings.fetchTimeout false).run last = (.ok (.ok found), after) →
    Asks [(owner, salt)] last after →
    Header.decode? found.value = some header → found.sequence = sequence →
    Headed owner salt kind before vain header sequence after

/-- Whether a header was looked up so many times at most, until the last time has led to it, if any
has. -/
inductive Tried (owner : Bytes) (salt : String) (kind : ErrorKind) (attempts : Nat)
    (before after : World τ ν) : Except Failure (Except ErrorKind (Header × Int)) → Prop
  | vain {tries : Nat} {outcome : Except Failure (Except ErrorKind (Header × Int))} :
    tries ≤ attempts → Asks (List.replicate tries (owner, salt)) before after →
    (∀ answer, outcome ≠ .ok (.ok answer)) → Tried owner salt kind attempts before after outcome
  | headed {vain : Nat} {header : Header} {sequence : Int} :
    vain < attempts → Headed owner salt kind before vain header sequence after →
    Tried owner salt kind attempts before after (.ok (.ok (header, sequence)))

section

variable {owner : Bytes} {salt : String} {kind kind' : ErrorKind} {before middle after : World τ ν}

/-- Without an answer the header is looked up again. -/
theorem headerWithin_of_error {error : Get.Error τ}
    (looked : (Get.lookup owner salt before.settings.fetchTimeout false).run before =
      (.ok (.error error), middle))
    (available : error.kind ≠ .engineUnavailable) (left : Nat) :
    (headerWithin owner salt (left + 1) kind).run before =
      (headerWithin owner salt left error.kind).run middle := by
  rw [headerWithin, run_bind_ok (run_get before), run_bind_ok looked]
  dsimp only
  rw [if_neg available]

/-- If what is found is no header, it is looked up again. -/
theorem headerWithin_of_undecoded {found : Get.Found}
    (looked : (Get.lookup owner salt before.settings.fetchTimeout false).run before =
      (.ok (.ok found), middle))
    (undecoded : Header.decode? found.value = none) (left : Nat) :
    (headerWithin owner salt (left + 1) kind).run before =
      (headerWithin owner salt left .notFound).run middle := by
  rw [headerWithin, run_bind_ok (run_get before), run_bind_ok looked]
  dsimp only
  rw [undecoded]

/-- One more lookup in vain comes first. -/
theorem Headed.cons {vain : Nat} {header : Header} {sequence : Int}
    (goes : (headerWithin owner salt (vain + 1) kind).run before =
      (headerWithin owner salt vain kind').run middle)
    (settings : middle.settings = before.settings) (asked : Asks [(owner, salt)] before middle)
    (headed : Headed owner salt kind' middle vain header sequence after) :
    Headed owner salt kind before (vain + 1) header sequence after := by
  obtain ⟨tried, asks, looked, askedLast, decoded, same⟩ := headed
  rw [settings] at looked
  exact ⟨goes.trans tried, asked.trans asks, looked, askedLast, decoded, same⟩

/-- A header is looked up until there is one, and no more often than it may be tried. -/
theorem tried_headerWithin {attempts : Nat}
    {outcome : Except Failure (Except ErrorKind (Header × Int))}
    (run : (headerWithin owner salt attempts kind).run before = (outcome, after)) :
    Tried owner salt kind attempts before after outcome := by
  induction attempts generalizing kind before with
  | zero =>
    cases run
    exact .vain (Nat.zero_le 0) (.of_journal rfl) (by simp)
  | succ attempts ih =>
    rcases looked : (Get.lookup owner salt before.settings.fetchTimeout false).run before with
      ⟨answer, middle⟩
    have asks := Get.lookup_asks looked
    have again {kind' : ErrorKind} (asked : Asks [(owner, salt)] before middle)
        (goes : ∀ left, (headerWithin owner salt (left + 1) kind).run before =
          (headerWithin owner salt left kind').run middle) :
        Tried owner salt kind (attempts + 1) before after outcome := by
      have settings := ((Get.gathers_lookup owner salt _ _).of_run looked).settings
      rw [goes] at run
      cases ih run with
      | vain few asks unheaded => exact .vain (Nat.succ_le_succ few) (asked.trans asks) unheaded
      | headed few headed => exact .headed (Nat.succ_lt_succ few) (headed.cons (goes _) settings asked)
    -- It is over if the call has failed, or there is no engine to call.
    have ended (unheaded : ∀ answer, outcome ≠ .ok (.ok answer)) (last : middle = after) :
        Tried owner salt kind (attempts + 1) before after outcome := by
      subst last
      rcases asks with ⟨-, silent, -⟩ | asked
      · exact .vain (Nat.zero_le (attempts + 1)) silent unheaded
      · exact .vain (Nat.succ_le_succ (Nat.zero_le attempts)) asked unheaded
    have first := run
    rw [headerWithin, run_bind_ok (run_get before), run_bind, looked] at first
    rcases answer with failure | error | found <;> dsimp only at first
    · cases first
      exact ended (by simp) rfl
    · split at first
      · cases first
        exact ended (by simp) rfl
      · next available =>
        rcases asks with ⟨-, -, unavailable⟩ | asked
        · obtain rfl := Except.error.inj (unavailable _ rfl)
          exact absurd rfl available
        · exact again asked (headerWithin_of_error looked available)
    · rcases asks with ⟨-, -, unavailable⟩ | asked
      · cases unavailable _ rfl
      split at first
      · next header decoded =>
        cases first
        exact .headed (Nat.succ_pos attempts) ⟨rfl, .of_journal rfl, looked, asked, decoded, rfl⟩
      · next undecoded => exact again asked (headerWithin_of_undecoded looked undecoded)

/-- How often a header is looked up at most; not at all where it cannot be told. -/
theorem tried_header {owner : Bytes} {operation : String} {before after : World τ ν}
    {outcome : Except Failure (Except ErrorKind (Header × Int))}
    (run : (header owner operation).run before = (outcome, after)) :
    Tried owner (headerSalt operation) .notFound before.settings.headerTries before after outcome := by
  unfold Settings.headerTries
  rw [header, run_bind_ok (run_get before)] at run
  cases tries : before.settings.headerRetries with
  | none =>
    rw [tries] at run
    cases run
    exact .vain (Nat.zero_le 0) (.of_journal rfl) (by simp)
  | some retries =>
    rw [tries] at run
    exact tried_headerWithin run

end

/-- Whether a fetch of chunks from a position on has got so many of them and has ended with the next one,
for which there was no engine to call, or which was looked up and not to be had under the sequence number.
The number is that of the chunks that were looked up. -/
inductive Breaks (owner : Bytes) (operation : String) (total : Whole) (sequence : Int) (position : Nat)
    (before : World τ ν) : Nat → World τ ν → Prop
  | unavailable {count : Nat} {chunks : List Chunk} {last after : World τ ν} :
    (chunksFrom owner operation total sequence count position).run before = (.ok (.ok chunks), last) →
    Get.Unavailable (Get.forget owner (chunkSalt operation (position + count : Nat)) last) →
    Asks [] last after → Breaks owner operation total sequence position before count after
  | missing {count : Nat} {chunks : List Chunk} {last after : World τ ν}
      {outcome : Except Failure (Except (Get.Error τ) Get.Found)} :
    (chunksFrom owner operation total sequence count position).run before = (.ok (.ok chunks), last) →
    (Get.lookup owner (chunkSalt operation (position + count : Nat)) before.settings.fetchTimeout
      false).run last = (outcome, after) →
    (∀ found, outcome = .ok (.ok found) → found.sequence ≠ sequence) →
    Breaks owner operation total sequence position before (count + 1) after

section

variable {owner : Bytes} {operation : String} {total : Whole} {sequence : Int} {position : Nat}
  {before middle after : World τ ν}

/-- A chunk of the right sequence number comes before the others. -/
theorem chunksFrom_of_found {found : Get.Found} {count : Nat} {chunks : List Chunk}
    (looked : (Get.lookup owner (chunkSalt operation position) before.settings.fetchTimeout false).run
      before = (.ok (.ok found), middle))
    (same : found.sequence = sequence)
    (rest : (chunksFrom owner operation total sequence count (position + 1)).run middle =
      (.ok (.ok chunks), after)) :
    ∃ chunks, (chunksFrom owner operation total sequence (count + 1) position).run before =
      (.ok (.ok chunks), after) := by
  rw [chunksFrom, run_bind_ok (run_get before), run_bind_ok looked]
  dsimp only
  rw [if_neg (not_not.mpr same), run_bind_ok rest]
  exact ⟨_, rfl⟩

theorem Breaks.cons {found : Get.Found} {count : Nat}
    (looked : (Get.lookup owner (chunkSalt operation position) before.settings.fetchTimeout false).run
      before = (.ok (.ok found), middle))
    (same : found.sequence = sequence)
    (breaks : Breaks owner operation total sequence (position + 1) middle count after) :
    Breaks owner operation total sequence position before (count + 1) after := by
  have settings := ((Get.gathers_lookup owner _ _ _).of_run looked).settings
  have shift (count : Nat) : position + 1 + count = position + (count + 1) := by omega
  cases breaks with
  | unavailable rest unavailable silent =>
    obtain ⟨chunks, run⟩ := chunksFrom_of_found looked same rest
    rw [shift] at unavailable
    exact .unavailable run unavailable silent
  | missing rest missed other =>
    obtain ⟨chunks, run⟩ := chunksFrom_of_found looked same rest
    rw [shift, settings] at missed
    exact .missing run missed other

/-- Chunks are looked up one after the other until one is not to be had. -/
theorem chunksFrom_asks {left : Nat} {outcome : Except Failure (Except Error (List Chunk))}
    (run : (chunksFrom owner operation total sequence left position).run before = (outcome, after)) :
    ∃ count ≤ left, Asks (chunkNames owner operation position count) before after ∧
      ((∃ chunks, outcome = .ok (.ok chunks)) ∧ count = left ∨
        (∀ chunks, outcome ≠ .ok (.ok chunks)) ∧
          Breaks owner operation total sequence position before count after) := by
  induction left generalizing position before after outcome with
  | zero =>
    cases run
    exact ⟨0, le_rfl, .of_journal rfl, .inl ⟨⟨_, rfl⟩, rfl⟩⟩
  | succ left ih =>
    rcases looked : (Get.lookup owner (chunkSalt operation position) before.settings.fetchTimeout
      false).run before with ⟨answer, middle⟩
    have asks := Get.lookup_asks looked
    have ended (unfound : ∀ chunks, outcome ≠ .ok (.ok chunks)) (last : middle = after)
        (other : ∀ found, answer = .ok (.ok found) → found.sequence ≠ sequence) :
        ∃ count ≤ left + 1, Asks (chunkNames owner operation position count) before after ∧
          ((∃ chunks, outcome = .ok (.ok chunks)) ∧ count = left + 1 ∨
            (∀ chunks, outcome ≠ .ok (.ok chunks)) ∧
              Breaks owner operation total sequence position before count after) := by
      subst last
      rcases asks with ⟨unavailable, silent, -⟩ | asked
      · exact ⟨0, Nat.zero_le _, silent, .inr ⟨unfound, .unavailable rfl unavailable silent⟩⟩
      · exact ⟨1, by omega, asked, .inr ⟨unfound, .missing rfl looked other⟩⟩
    rw [chunksFrom, run_bind_ok (run_get before), run_bind, looked] at run
    rcases answer with failure | error | found <;> dsimp only at run
    · cases run
      exact ended (by simp) rfl (by simp)
    · cases run
      exact ended (by simp) rfl (by simp)
    · rcases asks with ⟨-, -, unavailable⟩ | asked
      · cases unavailable _ rfl
      split at run
      · next other =>
        obtain ⟨unfound, last⟩ := of_refuse run
        exact ended unfound last fun _ same => by cases same; exact other
      · next same =>
        have same := not_not.mp same
        rw [run_bind] at run
        rcases rest : (chunksFrom owner operation total sequence left (position + 1)).run middle with
          ⟨taken, last⟩
        obtain ⟨count, few, asks, ending⟩ := ih rest
        refine ⟨count + 1, by omega, ?_⟩
        have names : Asks (chunkNames owner operation position (count + 1)) before last :=
          asked.trans asks
        rw [rest] at run
        rcases taken with failure | error | chunks <;> cases run
        · rcases ending with ⟨⟨_, complete⟩, -⟩ | ⟨-, breaks⟩
          · cases complete
          · exact ⟨names, .inr ⟨by simp, breaks.cons looked same⟩⟩
        · rcases ending with ⟨⟨_, complete⟩, -⟩ | ⟨-, breaks⟩
          · cases complete
          · exact ⟨names, .inr ⟨by simp, breaks.cons looked same⟩⟩
        · rcases ending with ⟨-, all⟩ | ⟨broken, -⟩
          · exact ⟨names, .inl ⟨⟨_, rfl⟩, by rw [all]⟩⟩
          · exact absurd rfl (broken _)

end

/-- How the fetch of a record goes: its header is looked up for a number of times, and then so many of its
chunks. -/
inductive Pursued (owner : Bytes) (operation : String) (before after : World τ ν)
    (outcome : Except Failure (Except Error Record)) : Nat → Nat → Prop
  /-- There is no header, or one that declares too many chunks. -/
  | headless {tries : Nat} :
    Asks (List.replicate tries (owner, headerSalt operation)) before after →
    (∀ record, outcome ≠ .ok (.ok record)) → Pursued owner operation before after outcome tries 0
  /-- The last lookup has led to a header, and its chunks are looked up as long as they are to be had. -/
  | headed {vain count : Nat} {header : Header} {sequence : Int} {middle : World τ ν} :
    Headed owner (headerSalt operation) .notFound before vain header sequence middle →
    header.chunks.value ≤ before.settings.totalSlots → count ≤ header.chunks.value.toNat →
    Asks (chunkNames owner operation 0 count) middle after →
    ((∃ record, outcome = .ok (.ok record)) → count = header.chunks.value.toNat) →
    (count < header.chunks.value.toNat →
      Breaks owner operation header.chunks sequence 0 middle count after) →
    Pursued owner operation before after outcome (vain + 1) count

section

variable {owner : Bytes} {operation : String} {before middle after : World τ ν}
  {outcome : Except Failure (Except Error Record)}

theorem Headed.settings {salt : String} {kind : ErrorKind} {vain : Nat} {header : Header}
    {sequence : Int} (headed : Headed owner salt kind before vain header sequence middle) :
    middle.settings = before.settings := by
  obtain ⟨tried, -, looked, -, -, -⟩ := headed
  exact ((Get.gathers_lookup owner _ _ _).of_run looked).settings.trans
    ((gathers_headerWithin owner _ _ _).of_run tried).settings

theorem Headed.asks {salt : String} {kind : ErrorKind} {vain : Nat} {header : Header}
    {sequence : Int} (headed : Headed owner salt kind before vain header sequence middle) :
    Asks (List.replicate (vain + 1) (owner, salt)) before middle := by
  obtain ⟨-, asks, -, asked, -, -⟩ := headed
  rw [List.replicate_succ']
  exact asks.trans asked

theorem Pursued.asks {tries count : Nat}
    (pursued : Pursued owner operation before after outcome tries count) :
    Asks (List.replicate tries (owner, headerSalt operation) ++ chunkNames owner operation 0 count)
      before after := by
  cases pursued with
  | headless asks =>
    have none : Asks [] after after := .of_journal rfl
    exact asks.trans none
  | headed headed _ _ asks => exact headed.asks.trans asks

/-- No more chunks are looked up than there are slots. -/
theorem Pursued.room {tries count : Nat}
    (pursued : Pursued owner operation before after outcome tries count) :
    count ≤ before.settings.totalSlots.toNat := by
  cases pursued with
  | headless => exact Nat.zero_le _
  | headed _ room within => exact within.trans (Int.toNat_le_toNat room)

/-- A record is fetched by lookups of its header, as many as it may be tried at most, and of its chunks. -/
theorem pursued_record {seed : Bytes}
    (run : (record owner seed operation).run before = (outcome, after)) :
    ∃ tries ≤ before.settings.headerTries, ∃ count,
      Pursued owner operation before after outcome tries count := by
  rw [record, run_bind] at run
  rcases asking : (header owner operation).run before with ⟨answer, middle⟩
  rw [asking] at run
  cases tried_header asking with
  | @vain tries _ few asks unheaded =>
    have unfound : (∀ record, outcome ≠ .ok (.ok record)) ∧ middle = after := by
      rcases answer with failure | error | headed
      · obtain ⟨rfl, rfl⟩ := Prod.mk.inj run
        exact ⟨fun _ => by simp, rfl⟩
      · obtain ⟨rfl, rfl⟩ := Prod.mk.inj run
        exact ⟨fun _ => by simp, rfl⟩
      · exact absurd rfl (unheaded _)
    obtain ⟨unfound, rfl⟩ := unfound
    exact ⟨tries, few, 0, .headless asks unfound⟩
  | @headed vain header sequence few headed =>
    refine ⟨vain + 1, few, ?_⟩
    dsimp only at run
    rw [run_bind_ok (run_get middle)] at run
    rw [headed.settings] at run
    split at run
    · obtain ⟨unfound, rfl⟩ := of_refuse run
      exact ⟨0, .headless headed.asks unfound⟩
    · next room =>
      rw [run_bind] at run
      rcases collecting : (chunksFrom owner operation header.chunks sequence
        header.chunks.value.toNat 0).run middle with ⟨taken, last⟩
      obtain ⟨count, few, asks, ending⟩ := chunksFrom_asks collecting
      rw [collecting] at run
      refine ⟨count, ?_⟩
      have ended : last = after := by
        rcases taken with failure | error | chunks
        · exact (Prod.mk.inj run).2
        · exact (Prod.mk.inj run).2
        · dsimp only at run
          rw [run_accept] at run
          exact (Prod.mk.inj run).2
      subst ended
      refine .headed headed (not_lt.mp room) few asks ?_ ?_
      · rintro ⟨record, rfl⟩
        rcases ending with ⟨-, all⟩ | ⟨broken, -⟩
        · exact all
        rcases taken with failure | error | chunks
        · cases (Prod.mk.inj run).1
        · cases (Prod.mk.inj run).1
        · exact absurd rfl (broken chunks)
      · intro fewer
        rcases ending with ⟨-, all⟩ | ⟨-, breaks⟩
        · omega
        · exact breaks

end

end Fetch

end DhtRecords
