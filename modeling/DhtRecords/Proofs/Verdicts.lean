/-
What a fetch makes of a header and chunks that it has.

A fetch passes over what is wrong, with an error that says why. It fails where
the error has an integer that is too long to be written: `told` is what becomes
of an outcome, and `refuse` and `accept` come to it without a change of the
world.
-/

import DhtRecords.Fetch
import DhtRecords.Proofs.Patience

namespace DhtRecords.Fetch

open Op (Keeps)

variable {τ ν α : Type}

/-- A record without a defect, or its defect. -/
def verdict (record : Record) : Except Error Record :=
  match record.defect with
  | none => .ok record
  | some defect => .error (.defective defect)

/-- An outcome that can be told: a fetch fails if its error cannot be written. -/
def told : Except Error α → Except Failure (Except Error α)
  | .ok result => .ok (.ok result)
  | .error error => if error.hasLongInteger then .error .tooLong else .ok (.error error)

theorem told_of_long {error : Error} (long : error.hasLongInteger = true) :
    told (.error error : Except Error α) = .error .tooLong := if_pos long

theorem told_of_short {error : Error} (short : error.hasLongInteger = false) :
    told (.error error : Except Error α) = .ok (.error error) := if_neg (by simp [short])

theorem run_refuse (error : Error) (world : World τ ν) :
    (refuse error : Op τ ν (Except Error α)).run world = (told (.error error), world) := by
  unfold refuse
  cases long : error.hasLongInteger with
  | true => simp [told_of_long long]
  | false => simp [told_of_short long]

theorem run_accept (record : Record) (world : World τ ν) :
    (accept record).run world = (told (verdict record), world) := by
  unfold accept verdict
  cases record.defect with
  | none => rfl
  | some defect => exact run_refuse _ world

theorem verdict_eq_ok {record found : Record} :
    verdict record = .ok found ↔ record.isValid = true ∧ record = found := by
  unfold verdict Record.isValid
  cases record.defect with
  | none => simp
  | some defect => simp

theorem told_eq_ok {outcome : Except Error α} {result : α} :
    told outcome = .ok (.ok result) ↔ outcome = .ok result := by
  cases outcome with
  | ok result => simp [told]
  | error error =>
    cases long : error.hasLongInteger with
    | true => simp [told_of_long long]
    | false => simp [told_of_short long]

theorem told_error_ne_ok (error : Error) (result : α) : told (.error error) ≠ .ok (.ok result) := by
  simp [told_eq_ok]

/-- What is refused is not found. -/
theorem of_refuse {error : Error} {outcome : Except Failure (Except Error α)} {world after : World τ ν}
    (run : (refuse error).run world = (outcome, after)) :
    (∀ result, outcome ≠ .ok (.ok result)) ∧ world = after := by
  rw [run_refuse] at run
  obtain ⟨rfl, same⟩ := Prod.mk.inj run
  exact ⟨told_error_ne_ok error, same⟩

theorem not_ok_of_refuse {error : Error} {result : α} {world after : World τ ν}
    (run : (refuse error).run world = (.ok (.ok result), after)) : False :=
  (of_refuse run).1 result rfl

/-- What is accepted is valid. -/
theorem of_accept_eq_ok {record found : Record} {world after : World τ ν}
    (run : (accept record).run world = (.ok (.ok found), after)) :
    record.isValid = true ∧ record = found ∧ world = after := by
  rw [run_accept] at run
  obtain ⟨outcome, same⟩ := Prod.mk.inj run
  obtain ⟨valid, kept⟩ := verdict_eq_ok.mp (told_eq_ok.mp outcome)
  exact ⟨valid, kept, same⟩

theorem mapError_eq_ok {words : Error → String} {outcome : Except Error α} {result : α} :
    outcome.mapError words = .ok result ↔ outcome = .ok result := by
  cases outcome with
  | ok found => exact ⟨fun same => congrArg _ (Except.ok.inj same), fun same => congrArg _ (Except.ok.inj same)⟩
  | error error => exact ⟨nofun, nofun⟩

/-- What a program finds under other words for its errors it finds. -/
theorem run_of_retold {program : Op τ ν (Except Error α)} {words : Error → String} {result : α}
    {world after : World τ ν}
    (run : (program >>= fun outcome => pure (outcome.mapError words)).run world
      = (.ok (.ok result), after)) : program.run world = (.ok (.ok result), after) := by
  rw [Op.run_map] at run
  rcases ran : program.run world with ⟨failure | outcome, last⟩
  · rw [ran] at run
    cases run
  · rw [ran] at run
    obtain ⟨told, rfl⟩ := Prod.mk.inj run
    rw [mapError_eq_ok.mp (Except.ok.inj told)]

section Keeps

variable {R : World τ ν → World τ ν → Prop} [Std.Refl R]

theorem keeps_refuse (error : Error) : Keeps R (refuse error : Op τ ν (Except Error α)) := by
  intro world
  rw [run_refuse]
  exact refl_of R world

theorem keeps_accept (record : Record) : Keeps R (accept record : Op τ ν (Except Error Record)) := by
  intro world
  rw [run_accept]
  exact refl_of R world

end Keeps

end DhtRecords.Fetch

namespace DhtRecords.Op.EndsIn

open Fetch

variable {τ ν α β : Type} {program : Op τ ν (Except Error α)}
  {next : Except Error α → Op τ ν (Except Error β)} {world after : World τ ν}

theorem refuse (error : Error) (world : World τ ν) :
    EndsIn (refuse error : Op τ ν (Except Error α)) world (told (.error error)) world :=
  ⟨0, fun _ _ => run_refuse error _⟩

theorem accept (record : Record) (world : World τ ν) :
    EndsIn (accept record) world (told (verdict record)) world :=
  ⟨0, fun _ _ => run_accept record _⟩

/-- A program that hands an error on ends as its first step does. -/
theorem of_told {error : Error} (first : EndsIn program world (told (.error error)) after)
    (hands : next (.error error) = Pure.pure (.error error)) :
    EndsIn (program >>= next) world (told (.error error)) after := by
  cases long : error.hasLongInteger with
  | true =>
    rw [told_of_long long] at first ⊢
    exact .bind_error first
  | false =>
    rw [told_of_short long] at first ⊢
    refine .bind first ?_
    rw [hands]
    exact .pure _ _

end DhtRecords.Op.EndsIn
