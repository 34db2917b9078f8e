/-
Command lines: the commands, their arguments and options, and what is wrong
with a line that is none of them.

Options may stand among the arguments of a command, and all that follows `--`
is an argument. An option's value is the next word or follows an equals sign.
A word that is misspelled is refused with those that are similar to it.
-/

import DhtRecords.Text.Quoted
import DhtRecords.Text.Similarity

namespace DhtRecords.Cli

/-- A command with its arguments. -/
inductive Command where
  | help
  /-- A group was named without one of its commands. -/
  | incomplete
  | version
  | get (publicKey salt : String)
  | put (value salt : String) (publicKey privateKey : Option String)
  | generateKeys
  | showKeys
  | showConfig
  | setConfig (key value : String)
  deriving DecidableEq, Repr

/-- What is wrong with a command line. -/
inductive UsageError where
  | missingCommand
  | unknownCommand (name : String) (similar : List String)
  | unknownOption (name : String) (similar : List String)
  | missingValue (option : String)
  | unwantedValue (option : String)
  | missingArgument (name : String)
  | extraArguments (words : List String)
  | keyFormat
  | unknownSection (name : String)
  | unknownKey (key : String)
  | invalidValue (key reason : String)
  deriving DecidableEq, Repr

namespace UsageError

/-- What a misspelled word may have meant, in alphabetical order. -/
def suggestion (similar : List String) : String :=
  match similar.mergeSort fun a b => a ≤ b with
  | [] => ""
  | [word] => " Did you mean " ++ Text.quoted word ++ "?"
  | words => " (Did you mean one of: " ++ ", ".intercalate (words.map Text.quoted) ++ "?)"

/-- The text of a usage error. -/
def message : UsageError → String
  | missingCommand => "Missing command."
  | unknownCommand name similar => "No such command " ++ Text.quoted name ++ "." ++ suggestion similar
  | unknownOption name similar => "No such option " ++ Text.quoted name ++ "." ++ suggestion similar
  | missingValue option => "Option " ++ Text.quoted option ++ " requires an argument."
  | unwantedValue option => "Option " ++ Text.quoted option ++ " does not take a value."
  | missingArgument name => "Missing argument '" ++ name ++ "'."
  | extraArguments [word] => "Got unexpected extra argument (" ++ word ++ ")"
  | extraArguments words => "Got unexpected extra arguments (" ++ " ".intercalate words ++ ")"
  | keyFormat => "Key must be in 'section.key' format (e.g., records.fetch_timeout)"
  | unknownSection name => "Unknown section: " ++ name
  | unknownKey key => "Unknown key: " ++ key
  | invalidValue key reason => "Invalid value for " ++ key ++ ": " ++ reason

end UsageError

/-- An option that a command has. -/
structure OptionSpec where
  name : String
  takesValue : Bool

/-- Options with their values, and the other words; both in order. -/
structure Words where
  options : List (String × String) := []
  arguments : List String := []

/-- A word before and after its first equals sign. -/
def splitValue (word : String) : String × Option String :=
  let cs := word.toList
  match cs.dropWhile (· ≠ '=') with
  | [] => (word, none)
  | _ :: value => (String.ofList (cs.takeWhile (· ≠ '=')), some (String.ofList value))

/-- The error of an option that a command does not have. Only after two dashes a name may be
misspelled. -/
def noOption (specs : List OptionSpec) (word : String) : UsageError :=
  match word.toList with
  | '-' :: '-' :: _ =>
    let name := (splitValue word).1
    .unknownOption name ((specs.map (·.name)).filter fun known => Text.isSimilar known name)
  | '-' :: c :: _ => .unknownOption (String.ofList ['-', c]) []
  | _ => .unknownOption word []

/-- Whether a word is an option: a dash and something after it. -/
def isOption (word : String) : Bool :=
  match word.toList with
  | '-' :: _ :: _ => true
  | _ => false

/-- Words with one more option at the front. -/
def Words.addOption (name value : String) (words : Words) : Words :=
  { words with options := (name, value) :: words.options }

/-- Words with one more argument at the front. -/
def Words.addArgument (argument : String) (words : Words) : Words :=
  { words with arguments := argument :: words.arguments }

/-- Tells options from arguments. If options do not stand among arguments, the first argument ends
them. -/
def readWords (specs : List OptionSpec) (among : Bool) : List String → Except UsageError Words
  | [] => .ok {}
  | "--" :: rest => .ok { arguments := rest }
  | word :: rest =>
    if isOption word then
      let (name, value) := splitValue word
      match specs.find? (·.name = name), value, rest with
      | none, _, _ => .error (noOption specs word)
      | some ⟨_, true⟩, some value, rest => (readWords specs among rest).map (·.addOption name value)
      | some ⟨_, true⟩, none, value :: rest =>
        (readWords specs among rest).map (·.addOption name value)
      | some ⟨_, true⟩, none, [] => .error (.missingValue name)
      | some ⟨_, false⟩, some _, _ => .error (.unwantedValue name)
      | some ⟨_, false⟩, none, rest => (readWords specs among rest).map (·.addOption name "")
    else if among then (readWords specs among rest).map (·.addArgument word)
    else .ok { arguments := word :: rest }

/-- The value of an option; the last one counts. -/
def Words.value? (words : Words) (name : String) : Option String :=
  (words.options.reverse.find? (·.1 = name)).map Prod.snd

/-- The arguments of the given names, which must all be there and no others. -/
def Words.match? (words : Words) (names : List String) : Except UsageError (List String) :=
  match names.drop words.arguments.length, words.arguments.drop names.length with
  | name :: _, _ => .error (.missingArgument name)
  | [], [] => .ok words.arguments
  | [], extra => .error (.extraArguments extra)

namespace Command

def helpOption : OptionSpec := ⟨"--help", false⟩

/-- A command with one of its options asking for help instead. -/
def orHelp (words : Words) (command : Except UsageError Command) : Except UsageError Command :=
  if (words.value? "--help").isSome then .ok .help else command

/-- A command with the arguments of the given names and the given options. -/
def read (names : List String) (options : List OptionSpec) (rest : List String)
    (make : List String → Words → Command) : Except UsageError Command := do
  let words ← readWords (options ++ [helpOption]) true rest
  orHelp words ((words.match? names).map fun arguments => make arguments words)

def readGet (rest : List String) : Except UsageError Command :=
  read ["PUBKEY", "SALT"] [] rest fun arguments _ =>
    .get (arguments.getD 0 "") (arguments.getD 1 "")

def readPut (rest : List String) : Except UsageError Command :=
  read ["VALUE", "SALT"] [⟨"--pubkey", true⟩, ⟨"--privkey", true⟩] rest fun arguments words =>
    .put (arguments.getD 0 "") (arguments.getD 1 "") (words.value? "--pubkey")
      (words.value? "--privkey")

def readSet (rest : List String) : Except UsageError Command :=
  read ["KEY", "VALUE"] [] rest fun arguments _ =>
    .setConfig (arguments.getD 0 "") (arguments.getD 1 "")

/-- What the first option of a group asks for. -/
def ofOption? (words : Words) : Option Command :=
  words.options.head?.map fun option => if option.1 = "--version" then .version else .help

/-- The command for a word that is none of a group's: after `--` it may still be an option. -/
def readStray (options : List OptionSpec) (commands : List String) (name : String)
    (rest : List String) : Except UsageError Command := do
  let words ← if isOption name then readWords options false (name :: rest) else .ok {}
  match ofOption? words with
  | some command => return command
  | none => throw (.unknownCommand name (commands.filter fun known => Text.isSimilar known name))

/-- A command of a group, whose commands are given by name. -/
def readGroup (options : List OptionSpec)
    (commands : List (String × (List String → Except UsageError Command))) (rest : List String) :
    Except UsageError Command :=
  let options := options ++ [helpOption]
  if rest.isEmpty then .ok .incomplete
  else do
    let words ← readWords options false rest
    match ofOption? words, words.arguments with
    | some command, _ => return command
    | none, [] => throw .missingCommand
    | none, name :: rest =>
      match commands.lookup name with
      | some readRest => readRest rest
      | none => readStray options (commands.map Prod.fst) name rest

/-- The command of a command line. -/
def parse (words : List String) : Except UsageError Command :=
  readGroup [⟨"--version", false⟩]
    [("get-mutable", readGet),
      ("put-mutable", readPut),
      ("keys", readGroup []
        [("generate", fun rest => read [] [] rest fun _ _ => .generateKeys),
          ("show", fun rest => read [] [] rest fun _ _ => .showKeys)]),
      ("config", readGroup []
        [("show", fun rest => read [] [] rest fun _ _ => .showConfig),
          ("set", readSet)])]
    words

end Command

end DhtRecords.Cli
