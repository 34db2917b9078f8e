/-
A node as a whole: its world before anything has happened, and its start and
end.
-/

import DhtRecords.Mutable

namespace DhtRecords

namespace World

variable {τ ν : Type} [Quantity τ]

/-- The world of a node to which nothing has happened; `none` if its settings ask for a negative
number of kept submissions. -/
def fresh? (settings : Settings τ) (overlay : ν) (clock : τ) (disk : Disk (ItemTable τ))
    (home : Path) (freshKeys : Nat → KeyPair) : Option (World τ ν) :=
  (Ledger.ofSettings? settings).map fun ledger =>
    { settings, overlay, clock, disk, home, freshKeys, ledger }

/-- The world with a new session for the given settings; `none` if these ask for a negative number of
kept submissions. What is due and the overlay, tasks and disk stay as they are, but for stops of the
session before. -/
def renew? (settings : Settings τ) (store : Option (Store τ)) (world : World τ ν) :
    Option (World τ ν) :=
  (Ledger.ofSettings? settings).map fun ledger =>
    { world with
      settings, ledger, store, session := {}, correlator := {}
      queue := world.queue.filter (!·.event.isClose) }

end World

namespace Service

variable {τ ν : Type} [Quantity τ] [Overlay τ ν]

/-- Starts the session and waits until it is running, for a time if one is given. -/
def start (timeout : Option τ) (world : World τ ν) : Bool × World τ ν :=
  Session.waitUntilRunning timeout (Session.start world)

/-- Closes the store, if there is one. -/
def closeStore (world : World τ ν) : World τ ν :=
  match world.store with
  | none => world
  | some store =>
    let (store, disk) := store.close world.disk
    { world with store := some store, disk }

/-- Stops the session and closes the store, if the session comes to its end. -/
def close (world : World τ ν) : Except Failure Unit × World τ ν :=
  match Session.stop world with
  | (.ok (), world) => (.ok (), closeStore world)
  | (.error failure, world) => (.error failure, world)

end Service

end DhtRecords
