/-
The program: a command line on the files, the environment and the clock of the
machine, with the simulated overlay.

What a command does is `Cli.run`'s. Here the files that it may read are put on
a disk, and the files that it has made or changed are written back.
-/

import DhtRecords.Cli.Run
import DhtRecords.Simnet

namespace DhtRecords.Program

/-- The environment variables of the settings. -/
def readEnvironment : IO Config.Environment := do
  let found ← Setting.all.mapM fun setting => do
    return (setting.variableName, ← IO.getEnv setting.variableName)
  return fun name => (found.lookup name).join

/-- What the machine calls a location. -/
def nameOf (location : Location) : String := "/" ++ "/".intercalate location

/-- The disk with a file of the machine, if it can be read. -/
def addFile (disk : Disk (ItemTable Float)) (path : Path) : IO (Disk (ItemTable Float)) := do
  let location := path.locate disk.here
  try
    let content ← IO.FS.readBinFile (nameOf location)
    return ((disk.place (Path.ofLocation location) content.toList).toOption).getD disk
  catch _ => return disk

/-- The disk with all files that a command may read. -/
def readDisk (home : Path) (here : Location) (environment : Config.Environment) :
    IO (Disk (ItemTable Float)) := do
  let path := Config.defaultPath home
  let known := [home.locate [], here].filterMap fun place =>
    (({} : Disk (ItemTable Float)).makeFolders (Path.ofLocation place)).toOption
  let disk : Disk (ItemTable Float) := { folders := known.flatMap (·.folders), here }
  let disk ← addFile disk path
  match Config.load (τ := Float) home environment path disk with
  | .error _ => return disk
  | .ok (config, _) => (Cli.filesOf home config).foldlM addFile disk

/-- The rights of a file that only its owner may read and write. -/
def ownerOnly : IO.FileRight := { user := { read := true, write := true } }

/-- Writes a file, which only the owner may read if it is a key file. -/
def writeFile (location : Location) (content : Bytes) : IO Unit := do
  let name := nameOf location
  IO.FS.createDirAll (nameOf location.dropLast)
  IO.FS.writeBinFile name ⟨content.toArray⟩
  if location.getLast? = some KeyPair.fileName then IO.setAccessRights name ownerOnly

/-- A world with default settings. -/
def startWorld? (home : Path) (disk : Disk (ItemTable Float)) (clock : Float) (secret : Bytes) :
    Option (World Float (Simnet Float)) := do
  let settings ← Settings.ofConfig? (Config.ofDefaults home)
  let overlay : Simnet Float := { options := .plain }
  World.fresh? settings overlay clock disk home fun n =>
    KeyPair.derived (secret ++ Utf8.encode (toString n))

/-- Shows how a command has ended. -/
def report (outcome : Cli.Outcome) : IO Unit := do
  IO.print outcome.output
  match outcome.usageError, outcome.failure with
  | some error, _ => IO.eprintln ("Error: " ++ error.message)
  | none, some failure => IO.eprintln failure.message
  | none, none => return ()

end DhtRecords.Program

open DhtRecords Program in
/-- Runs the command line. -/
def main (words : List String) : IO UInt32 := do
  let environment ← readEnvironment
  let home := Path.ofText ((← IO.getEnv "HOME").getD "/")
  let here := (Path.ofText (← IO.currentDir).toString).locate []
  let disk ← readDisk home here environment
  let clock := (← IO.monoMsNow).toFloat / 1000
  let secret := (← IO.getRandomBytes 32).toList
  match startWorld? home disk clock secret with
  | none => return 1
  | some world =>
    let (outcome, world) := Cli.run ⟨[Simnet.engineModule], environment⟩ words world
    (world.disk.newer disk).forM fun (location, content) => writeFile location content
    report outcome
    return UInt32.ofNat outcome.exit
