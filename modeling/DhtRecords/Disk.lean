/-
Files and folders.

A file holds bytes or an item table. A path is followed part by part: every
part but the last must be a folder, the folder of a parent included. An
operation keeps what it is not about, and a failed one changes nothing.
-/

import DhtRecords.Bytes
import DhtRecords.Entries
import DhtRecords.Path

namespace DhtRecords

/-- Why a file or folder cannot be used. -/
inductive DiskError where
  | notFound
  /-- A folder is where a file is asked for. -/
  | isFolder
  /-- A file is where a folder is asked for. -/
  | notAFolder
  /-- A file is where a folder shall be made. -/
  | exists
  /-- The file holds something else. -/
  | otherContent
  /-- A name or the whole path has too many bytes. -/
  | tooLong
  /-- A name has a character that no name may have. -/
  | badName
  deriving DecidableEq, Repr

/-- The text of an error; most have none. -/
def DiskError.message : DiskError → String
  | badName => "embedded null byte"
  | _ => ""

/-- What a file holds: bytes, or a table of type `α`. -/
inductive FileContent (α : Type) where
  | bytes (content : Bytes)
  | table (content : α)

/-- The files and folders, by location. The root is always a folder. -/
structure Disk (α : Type) where
  files : Entries Location (FileContent α) := {}
  folders : List Location := []
  /-- The folder that relative paths start at. -/
  here : Location := []

namespace Disk

variable {α : Type}

instance : Inhabited (Disk α) := ⟨{}⟩

/-! ### Locations -/

def isFolderAt (disk : Disk α) (place : Location) : Bool :=
  place.isEmpty || disk.folders.contains place

def isFileAt (disk : Disk α) (place : Location) : Bool := disk.files.contains place

/-- The most bytes of a name. -/
def maxName : Nat := 255

/-- The most bytes of a path. -/
def maxPath : Nat := 4095

/-- What is wrong with a path, wherever it leads. -/
def refusal? (path : Path) : Option DiskError :=
  if path.parts.any fun part => part.toList.contains '\x00' then some .badName
  else if maxPath < path.text.utf8ByteSize then some .tooLong
  else none

/-- One step from a folder: to its parent, or to what has a name in it. -/
def step (place : Location) (part : String) : Except DiskError Location :=
  if part = ".." then .ok place.dropLast
  else if maxName < part.utf8ByteSize then .error .tooLong
  else .ok (place ++ [part])

/-- Where the parts lead from a location on. -/
def follow (disk : Disk α) (place : Location) : List String → Except DiskError Location
  | [] => .ok place
  | part :: rest =>
    if disk.isFolderAt place then (step place part).bind fun place => follow disk place rest
    else .error (if disk.isFileAt place then .notAFolder else .notFound)

/-- The location that a path starts at. -/
def start (disk : Disk α) (path : Path) : Location :=
  match path.root with
  | .relative => disk.here
  | _ => []

/-- Where a path leads; there need not be anything at its end. -/
def find (disk : Disk α) (path : Path) : Except DiskError Location :=
  match refusal? path with
  | some error => .error error
  | none => disk.follow (disk.start path) path.parts

/-- Whether a path leads to something of a kind. -/
def leadsTo (disk : Disk α) (path : Path) (isKind : Location → Bool) : Bool :=
  match disk.find path with
  | .ok place => isKind place
  | .error _ => false

def isFile (disk : Disk α) (path : Path) : Bool := disk.leadsTo path disk.isFileAt

/-- Whether a path leads to a file or a folder. -/
def holds (disk : Disk α) (path : Path) : Bool :=
  disk.leadsTo path fun place => disk.isFileAt place || disk.isFolderAt place

/-! ### Files -/

/-- The bytes of a file. -/
def read (disk : Disk α) (path : Path) : Except DiskError Bytes := do
  let place ← disk.find path
  match disk.files.get? place with
  | some (.bytes content) => return content
  | some (.table _) => throw .otherContent
  | none => throw (if disk.isFolderAt place then .isFolder else .notFound)

/-- The table of a file, if there is one. -/
def table? (disk : Disk α) (path : Path) : Option α :=
  match (disk.find path).map disk.files.get? with
  | .ok (some (.table content)) => some content
  | _ => none

/-- Puts content into a file, which is made if it is missing. -/
def write (disk : Disk α) (path : Path) (content : FileContent α) : Except DiskError (Disk α) := do
  let place ← disk.find path
  if disk.isFolderAt place then throw .isFolder
  return { disk with files := disk.files.insert place content }

/-- Moves a file to another path, whose file it replaces. -/
def move (disk : Disk α) (source target : Path) : Except DiskError (Disk α) := do
  let (source, target) := (← disk.find source, ← disk.find target)
  match disk.files.get? source with
  | none => throw .notFound
  | some content =>
    if disk.isFolderAt target then throw .isFolder
    return { disk with files := (disk.files.erase source).insert target content }

/-! ### Folders -/

/-- The folders along the parts from a location on; those that are missing are made. -/
def makeAlong (disk : Disk α) (place : Location) : List String → Except DiskError (Disk α)
  | [] => .ok disk
  | part :: rest => do
    let place ← step place part
    if disk.isFolderAt place then makeAlong disk place rest
    else if disk.isFileAt place then throw (if rest.isEmpty then .exists else .notAFolder)
    else makeAlong { disk with folders := disk.folders ++ [place] } place rest

/-- Makes a folder and those on the way to it; existing folders stay. -/
def makeFolders (disk : Disk α) (path : Path) : Except DiskError (Disk α) :=
  match refusal? path with
  | some error => .error error
  | none => disk.makeAlong (disk.start path) path.parts

/-! ### Transfer -/

/-- The disk with a file and the folders on the way to it. -/
def place (disk : Disk α) (path : Path) (content : Bytes) : Except DiskError (Disk α) := do
  (← disk.makeFolders path.parent).write path (.bytes content)

/-- The files of bytes that another disk does not have, or has with other bytes. -/
def newer (disk other : Disk α) : List (Location × Bytes) :=
  disk.files.pairs.filterMap fun (place, content) =>
    match content, other.files.get? place with
    | .bytes content, some (.bytes held) => if held = content then none else some (place, content)
    | .bytes content, _ => some (place, content)
    | .table _, _ => none

/-- Removes the file or empty folder that a path leads to. -/
def remove (disk : Disk α) (path : Path) : Disk α :=
  match disk.find path with
  | .error _ => disk
  | .ok place =>
    { disk with files := disk.files.erase place, folders := disk.folders.filter (· ≠ place) }

end Disk

end DhtRecords
