/-
Paths of files.

A path is kept normalized: without empty parts and without parts that name
the folder itself; a part that names the parent stays. `Location` is where a
path leads, from the root on and with all parents resolved.
-/

import DhtRecords.Text.Split

namespace DhtRecords

/-- Where a path starts. -/
inductive PathRoot where
  | relative
  | absolute
  /-- Two slashes at the front are not the same as one. -/
  | doubled
  deriving DecidableEq, Repr

/-- A normalized path. -/
structure Path where
  root : PathRoot
  parts : List String
  deriving DecidableEq, Repr

/-- The names that lead from the root to a file or folder. -/
abbrev Location := List String

namespace Path

/-- The slashes at the front. -/
def rootOf (cs : List Char) : PathRoot :=
  match (cs.takeWhile (· = '/')).length with
  | 0 => .relative
  | 2 => .doubled
  | _ => .absolute

/-- The path that a text names. -/
def ofText (text : String) : Path where
  root := rootOf text.toList
  parts := ((Text.splitAt '/' text.toList).filter fun part => part ≠ [] ∧ part ≠ ['.']).map String.ofList

/-- The path as text; a path without parts is the folder itself. -/
def text (path : Path) : String :=
  let parts := "/".intercalate path.parts
  match path.root with
  | .absolute => "/" ++ parts
  | .doubled => "//" ++ parts
  | .relative => if path.parts.isEmpty then "." else parts

/-- A path that starts where the first one leads, unless it starts at the root. -/
def append (path other : Path) : Path :=
  match other.root with
  | .relative => ⟨path.root, path.parts ++ other.parts⟩
  | _ => other

instance : Append Path := ⟨append⟩

/-- The path of a single name. -/
def ofName (name : String) : Path := ⟨.relative, [name]⟩

/-- The folder that holds what the path names. -/
def parent (path : Path) : Path := ⟨path.root, path.parts.dropLast⟩

/-- The path beside it whose name is longer by an ending; `none` if the path has no name. -/
def addEnding? (path : Path) (ending : String) : Option Path :=
  path.parts.getLast?.map fun name => ⟨path.root, path.parts.dropLast ++ [name ++ ending]⟩

/-- The home folders of the accounts that a system comes with. -/
def systemHomes : List (String × String) :=
  [("root", "/root"), ("daemon", "/usr/sbin"), ("bin", "/bin"), ("sys", "/dev"), ("sync", "/bin"),
    ("games", "/usr/games"), ("man", "/var/cache/man"), ("lp", "/var/spool/lpd"),
    ("mail", "/var/mail"), ("news", "/var/spool/news"), ("uucp", "/var/spool/uucp"),
    ("proxy", "/bin"), ("www-data", "/var/www"), ("backup", "/var/backups"), ("list", "/var/list"),
    ("irc", "/run/ircd"), ("_apt", "/nonexistent"), ("nobody", "/nonexistent")]

/-- The home folder of another user than the one whose program this is. -/
def homeOf? (user : String) : Option Path := (systemHomes.lookup user).map ofText

/-- The path with its first part replaced by a home folder if that part is a tilde, with or without the
name of a user; `none` if the user is unknown. -/
def expandHome? (home path : Path) : Option Path :=
  match path.root, path.parts with
  | .relative, first :: rest =>
    match first.toList with
    | ['~'] => some ⟨home.root, home.parts ++ rest⟩
    | '~' :: user => (homeOf? (String.ofList user)).map fun home => ⟨home.root, home.parts ++ rest⟩
    | _ => some path
  | _, _ => some path

/-- Where the parts lead from a location on: each parent undoes the last step. -/
def walk (start : Location) (parts : List String) : Location :=
  parts.foldl (fun at_ part => if part = ".." then at_.dropLast else at_ ++ [part]) start

/-- Where a path leads, if it is followed from a working folder. Nothing needs to be there. -/
def locate (folder : Location) (path : Path) : Location :=
  match path.root with
  | .relative => walk folder path.parts
  | _ => walk [] path.parts

/-- The path from the root without parents that leads to a location. -/
def ofLocation (location : Location) : Path := ⟨.absolute, location⟩

/-- The location's names without those of a folder that holds it. -/
def within? (folder location : Location) : Option Location :=
  if folder.isPrefixOf location then some (location.drop folder.length) else none

end Path

end DhtRecords
