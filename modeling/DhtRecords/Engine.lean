/-
Overlay engines: what they are asked, what they report, and how they answer.

An overlay is everything beyond this library that engines are built from. It
is given by its states `ν` and the reactions of `Overlay`: to being asked for
an engine, and to each call of an engine. A reaction brings an outcome, the
overlay's next state and alerts that arrive later. The library is generic in
the overlay, so what is proved of it holds for every behaviour of engines.
-/

import DhtRecords.Item

namespace DhtRecords

/-- Engines are numbered in the order in which they are built, from one on. -/
abbrev EngineId := Nat

/-- What an engine reports. -/
inductive Alert where
  /-- A lookup has led to an item, which is the last word if `final` is set. -/
  | result (owner : Bytes) (salt : String) (value : Bytes) (sequence : Int) (final : Bool)
  /-- A put was acknowledged by so many nodes. -/
  | acknowledgement (owner : Bytes) (salt : String) (sequence successes : Int) (message : String)
  | bootstrap (message : String)
  | unknown
  deriving DecidableEq, Repr

/-- What an engine is asked to do. -/
inductive EngineCall where
  | lookup (owner : Bytes) (salt : String)
  /-- To put the item that the signer makes for the salt. -/
  | put (owner : Bytes) (salt : String) (signer : Signer)
  | isRunning
  | configure (enabled : Bool) (alertMask : Nat)
  | abort
  | saveState
  | loadState (blob : Bytes)
  /-- To hand its alerts over, or to keep them. -/
  | setHandler (present : Bool)
  deriving DecidableEq, Repr

/-- The type of the answer to a call. -/
abbrev EngineCall.Answer : EngineCall → Type
  | isRunning => Bool
  | saveState => Bytes
  | _ => Unit

/-- What a call is named. -/
def EngineCall.name : EngineCall → String
  | lookup _ _ => "lookup"
  | put _ _ _ => "put"
  | isRunning => "is_running"
  | configure _ _ => "apply_settings"
  | abort => "abort"
  | saveState => "save_state"
  | loadState _ => "load_state"
  | setHandler _ => "set_alert_handler"

/-- The ways in which an engine, or the attempt to build one, can fail. -/
inductive FaultKind where
  | failed
  /-- It was given something that it cannot read. -/
  | rejected
  | mistyped
  | io
  /-- It does not know the call. -/
  | missing
  deriving DecidableEq, Repr

/-- A failure of an engine. -/
structure EngineFault where
  kind : FaultKind
  message : String
  deriving DecidableEq, Repr

/-- How the overlay reacts. -/
structure Reaction (τ ν α : Type) where
  outcome : Except EngineFault α
  overlay : ν
  /-- Alerts with their delays. -/
  alerts : List (τ × Alert) := []
  /-- Whether the session is stopped in the course of it. -/
  stops : Bool := false
  /-- Whether the session is started in the course of it, after it was stopped. -/
  restarts : Bool := false

/-- How a stop waits for the session's task, which it has asked to end. -/
inductive Join (τ : Type) where
  /-- It takes no time, and a task that waits has ended. -/
  | ends
  /-- It takes no time, and the task is left to itself. -/
  | abandons
  /-- It takes a time, at most as long as the settings allow. A task that waits has ended. -/
  | lasts (duration : τ)

/-- What the library asks of an overlay with states `ν`, for times in `τ`. -/
class Overlay (τ ν : Type) where
  /-- From now on engines come from the constructor of the given name. -/
  choose : String → ν → ν
  /-- An engine of the given number is asked for; there may be none. -/
  build : EngineId → ν → Reaction τ ν Bool
  ask : EngineId → (call : EngineCall) → ν → Reaction τ ν call.Answer
  /-- Whether an engine would hand over an alert now. -/
  delivers : EngineId → ν → Bool
  /-- How it goes when a background task is waited for. -/
  join : ν → Join τ

end DhtRecords
