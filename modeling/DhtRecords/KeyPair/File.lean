/-
Key files: a pair kept as a PEM file in a folder.

`KeyPair.ensure` never writes over a file that exists, even if no pair can be
read from it.
-/

import DhtRecords.Disk
import DhtRecords.KeyPair.Basic
import DhtRecords.KeyPair.Pem

namespace DhtRecords

/-- Why no pair can be read from a folder. -/
inductive KeyFileError where
  | notFound (path : String)
  /-- The file holds a key of another algorithm. -/
  | otherAlgorithm (path : String)
  | unreadable
  | encrypted
  | unknownCurve
  | disk (error : DiskError)
  deriving DecidableEq, Repr

/-- The text of an error; those of the file's format and of the file system have none here. -/
def KeyFileError.message : KeyFileError → String
  | notFound path => "Private key not found: " ++ path
  | otherAlgorithm path => "Not an Ed25519 key: " ++ path
  | unreadable => ""
  | encrypted => ""
  | unknownCurve => ""
  | disk _ => ""

namespace KeyPair

variable {α : Type}

/-- The name of key files. -/
def fileName : String := "private.pem"

/-- The file in a folder of keys. -/
def filePath (keys : Path) : Path := keys ++ Path.ofName fileName

/-- The folder of keys in a data folder. -/
def keysPath (data : Path) : Path := data ++ Path.ofName "keys"

/-- The pair of a key file in a folder. -/
def load (keys : Path) (disk : Disk α) : Except KeyFileError KeyPair :=
  let path := filePath keys
  if disk.holds path then do
    match Pem.read (← (disk.read path).mapError .disk) with
    | .seed seed => (KeyPair.ofPrivate seed).mapError fun _ => .unreadable
    | .otherAlgorithm => throw (.otherAlgorithm path.text)
    | .encrypted => throw .encrypted
    | .unknownCurve => throw .unknownCurve
    | .unreadable => throw .unreadable
  else .error (.notFound path.text)

/-- Writes a pair into a folder, which is made if it is missing. -/
def save (keys : Path) (pair : KeyPair) (disk : Disk α) : Except DiskError (Disk α) := do
  (← disk.makeFolders keys).write (filePath keys) (.bytes (Utf8.encode (Pem.write pair.seed)))

/-- Whether a data folder has a key file. -/
def hasFile (data : Path) (disk : Disk α) : Bool := disk.holds (filePath (keysPath data))

/-- The pair of a data folder; a fresh pair is written there if there is no file. -/
def ensure (data : Path) (fresh : KeyPair) (disk : Disk α) :
    Except KeyFileError (KeyPair × Disk α) :=
  if hasFile data disk then (load (keysPath data) disk).map fun pair => (pair, disk)
  else ((save (keysPath data) fresh disk).map fun disk => (fresh, disk)).mapError .disk

end KeyPair

end DhtRecords
