/-
The ledger of puts: when each record was last put, and the newest submissions.

A record is held back until its cooldown has passed since it was last
admitted. A stamp is released again if nothing of the record was put.
-/

import DhtRecords.Config.Settings
import DhtRecords.Record.Basic

namespace DhtRecords

/-- A record that was put. -/
structure Submission (τ : Type) where
  key : RecordKey
  record : Record
  sequence : Int
  /-- When it was admitted. -/
  moment : τ

/-- The moments of the latest puts, and the newest submissions. -/
structure Ledger (τ : Type) where
  cooldown : τ
  /-- After every so many submissions the stamps that hold nothing back are dropped. -/
  sweepEvery : Nat
  /-- The most submissions that are kept. -/
  capacity : Nat
  stamps : Entries RecordKey τ := {}
  /-- The number of submissions. -/
  count : Nat := 0
  /-- The newest submissions, the latest first. -/
  submissions : List (Submission τ) := []
  sweepEvery_pos : 0 < sweepEvery := by omega

namespace Ledger

variable {τ : Type} [Quantity τ]

/-- The empty ledger of a node; `none` if it shall keep a negative number of submissions. -/
def ofSettings? (settings : Settings τ) : Option (Ledger τ) :=
  if settings.submissionLogSize < 0 then none
  else some {
    cooldown := settings.putCooldown
    sweepEvery := max 1 settings.lockSweepEvery.toNat
    capacity := settings.submissionLogSize.toNat }

/-- The time since a moment. -/
def elapsed (now moment : τ) : τ := Quantity.sub now moment

/-- How long a record is still held back at a moment, if it is. -/
def remaining? (ledger : Ledger τ) (key : RecordKey) (now : τ) : Option τ :=
  match ledger.stamps.get? key with
  | none => none
  | some last =>
    if Quantity.lt (elapsed now last) ledger.cooldown then
      some (Quantity.sub ledger.cooldown (elapsed now last))
    else none

/-- The ledger with a stamp for a record. -/
def stamp (ledger : Ledger τ) (key : RecordKey) (now : τ) : Ledger τ :=
  { ledger with stamps := ledger.stamps.insert key now }

/-- The ledger without the stamp of a record, if it is of that moment. -/
def release (ledger : Ledger τ) (key : RecordKey) (moment : τ) : Ledger τ :=
  match ledger.stamps.get? key with
  | some last =>
    if Quantity.eq last moment then { ledger with stamps := ledger.stamps.erase key } else ledger
  | none => ledger

/-- Whether a stamp holds nothing back any more. -/
def isExpired (ledger : Ledger τ) (now moment : τ) : Bool :=
  Quantity.atLeast (elapsed now moment) ledger.cooldown

/-- The records whose stamps hold nothing back any more. -/
def expired (ledger : Ledger τ) (now : τ) : List RecordKey :=
  (ledger.stamps.pairs.filter fun (_, moment) => ledger.isExpired now moment).map Prod.fst

/-- The ledger without these stamps. -/
def sweep (ledger : Ledger τ) (now : τ) : Ledger τ :=
  { ledger with
    stamps := ⟨ledger.stamps.pairs.filter fun (_, moment) => !ledger.isExpired now moment⟩ }

/-- The ledger with one more submission. -/
def submit (ledger : Ledger τ) (submission : Submission τ) : Ledger τ :=
  { ledger with
    count := ledger.count + 1
    submissions := (submission :: ledger.submissions).take ledger.capacity }

/-- Whether the stamps are due to be swept. -/
def sweepDue (ledger : Ledger τ) : Bool := ledger.count % ledger.sweepEvery = 0

end Ledger

end DhtRecords
