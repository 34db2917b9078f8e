/-
The store: a table of the items that this node has put, by their info hash.

`add` refuses an item that is present and `update` one that is absent; `put`
takes either. An item whose moment is nought gets the moment of writing; one
whose moment is no number is not written, which `add` passes over in silence. A
store is kept in memory or in a file, and answers nothing once it is closed.
-/

import DhtRecords.Digest
import DhtRecords.Disk
import DhtRecords.Quantity

namespace DhtRecords

/-- An item as it is stored. -/
structure StoredItem (τ : Type) where
  infoHash : String
  owner : Bytes
  salt : String
  value : Bytes
  sequence : Int
  signature : Bytes
  /-- When it was written. -/
  moment : τ

/-- Items by info hash, those that were put last at the end. -/
abbrev ItemTable (τ : Type) := Entries String (StoredItem τ)

/-- Why a store does not answer. -/
inductive StoreError where
  | closed
  /-- The sequence number has more than sixty-four bits. -/
  | outOfRange
  /-- The moment is no number. -/
  | noMoment
  /-- The table's file cannot be opened. -/
  | cannotOpen
  | disk (error : DiskError)
  deriving DecidableEq, Repr

/-- A store. -/
structure Store (τ : Type) where
  items : ItemTable τ := {}
  /-- The file that it is kept in, if any. -/
  path : Option Path := none
  isOpen : Bool := true

namespace Store

variable {τ : Type} [Quantity τ]

/-- The file of a store in a folder. -/
def filePath (folder : Path) : Path := folder ++ Path.ofName "mutable_data.db"

/-- The most bytes of the path from the root to a store's file. -/
def maxLocation : Nat := 504

/-- The file's path, or the name of a store without one. -/
def location (store : Store τ) : String := (store.path.map Path.text).getD ":memory:"

/-- Whether a sequence number can be stored. -/
def fits (sequence : Int) : Bool :=
  -0x8000000000000000 ≤ sequence && sequence < 0x8000000000000000

/-- The item as it is written at a moment. -/
def stamped (now : τ) (item : StoredItem τ) : StoredItem τ :=
  if Quantity.eq item.moment Quantity.zero then { item with moment := now } else item

/-- Whether a moment is a number, equal to itself, as the clock's reading is if the clock shows numbers. -/
def isMoment (now moment : τ) : Bool := Quantity.eq moment moment || !Quantity.eq now now

/-- What keeps an item from being passed to the table. -/
def refusal? (store : Store τ) (item : StoredItem τ) : Option StoreError :=
  if !store.isOpen then some .closed else if !fits item.sequence then some .outOfRange else none

/-- Adds an item, unless there is one with its info hash; tells whether it did. -/
def add (store : Store τ) (now : τ) (item : StoredItem τ) : Except StoreError (Bool × Store τ) :=
  match store.refusal? item with
  | some error => .error error
  | none =>
    if store.items.contains item.infoHash || !isMoment now (stamped now item).moment then
      .ok (false, store)
    else .ok (true, { store with items := store.items.insert item.infoHash (stamped now item) })

/-- Replaces an item, if there is one with its info hash; tells whether it did. -/
def update (store : Store τ) (now : τ) (item : StoredItem τ) : Except StoreError (Bool × Store τ) :=
  match store.refusal? item with
  | some error => .error error
  | none =>
    if !store.items.contains item.infoHash then .ok (false, store)
    else if isMoment now (stamped now item).moment then
      .ok (true, { store with items := store.items.replace item.infoHash (stamped now item) })
    else .error .noMoment

/-- Writes an item in any case. -/
def put (store : Store τ) (now : τ) (item : StoredItem τ) : Except StoreError (Store τ) :=
  match store.refusal? item with
  | some error => .error error
  | none =>
    if isMoment now (stamped now item).moment then
      .ok { store with items := store.items.insert item.infoHash (stamped now item) }
    else .error .noMoment

/-- The item of an info hash. -/
def read (store : Store τ) (infoHash : String) : Except StoreError (Option (StoredItem τ)) :=
  if store.isOpen then .ok (store.items.get? infoHash) else .error .closed

/-- Removes the item of an info hash; tells whether there was one. -/
def erase (store : Store τ) (infoHash : String) : Except StoreError (Bool × Store τ) :=
  if store.isOpen then
    .ok (store.items.contains infoHash, { store with items := store.items.erase infoHash })
  else .error .closed

/-- The items of an owner, or all items, the latest moment first. -/
def list (store : Store τ) (owner : Option Bytes) : Except StoreError (List (StoredItem τ)) :=
  if store.isOpen then
    let items := (store.items.pairs.map Prod.snd).filter fun item => owner.all (· = item.owner)
    .ok (items.mergeSort fun a b => !Quantity.lt a.moment b.moment)
  else .error .closed

/-- The number of items. -/
def count (store : Store τ) : Except StoreError Nat :=
  if store.isOpen then .ok store.items.size else .error .closed

/-! ### Files -/

/-- The table in a file, which is made if it is missing. -/
def openTable (path : Path) (disk : Disk (ItemTable τ)) :
    Except DiskError (ItemTable τ × Disk (ItemTable τ)) :=
  match disk.table? path with
  | some items => .ok (items, disk)
  | none =>
    if disk.isFile path then .error .otherContent
    else (disk.write path (.table {})).map fun disk => ({}, disk)

/-- Opens the store of a folder; the folder and the file are made if they are missing. -/
def openIn (data : Path) (disk : Disk (ItemTable τ)) :
    Except StoreError (Store τ × Disk (ItemTable τ)) := do
  let path := filePath data
  let disk ← (disk.makeFolders data).mapError .disk
  let place ← (disk.find path).mapError fun _ => .cannotOpen
  if maxLocation < (Path.ofLocation place).text.utf8ByteSize then throw .cannotOpen
  let (items, disk) ← (openTable path disk).mapError fun error =>
    if error = .otherContent then .disk error else .cannotOpen
  return ({ items, path := some path }, disk)

/-- Closes a store; one that is kept in a file leaves its items there. -/
def close (store : Store τ) (disk : Disk (ItemTable τ)) : Store τ × Disk (ItemTable τ) :=
  let closed := { store with isOpen := false }
  match store.isOpen, store.path with
  | true, some path =>
    if (disk.table? path).isNone then (closed, disk)
    else match disk.write path (.table store.items) with
      | .ok disk => (closed, disk)
      | .error _ => (closed, disk)
  | _, _ => (closed, disk)

end Store

end DhtRecords
