/-
Key files as text: labelled blocks of bytes in base 64.

A block stands between a line with its label and a line that repeats it, and
may start with headers, which an empty line ends. Text around the blocks is
ignored, but every block of a file must be sound. `Pem.write` writes the file
of a seed; `Pem.read` finds the first private key of a file.
-/

import DhtRecords.KeyPair.PrivateKey
import DhtRecords.Text.Base64
import DhtRecords.Text.Blank
import DhtRecords.Text.Split
import DhtRecords.Text.Utf8

namespace DhtRecords.Pem

open Text (isNumberBlank trim)

/-- The structure in front of a seed. -/
def seedHead : Bytes :=
  [0x30, 0x2e, 0x02, 0x01, 0x00, 0x30, 0x05, 0x06, 0x03, 0x2b, 0x65, 0x70, 0x04, 0x22, 0x04, 0x20]

def beginMark : List Char := "-----BEGIN ".toList
def endMark : List Char := "-----END ".toList
def dashes : List Char := "-----".toList
def plainLabel : List Char := "PRIVATE KEY".toList

/-- The file of a seed. -/
def write (seed : Bytes) : String :=
  String.ofList (beginMark ++ plainLabel ++ dashes ++ '\n' :: Base64.encode (seedHead ++ seed)
    ++ '\n' :: endMark ++ plainLabel ++ dashes ++ ['\n'])

/-! ### Blocks -/

/-- A block: its label, its headers and its bytes. -/
structure Block where
  label : String
  headers : List (String × String)
  content : Bytes
  deriving DecidableEq, Repr

/-- Walks on to the end of a mark, `left` of which is still to come; `passed` is what lies behind, the
last character first. A character that breaks a mark off does not begin another. -/
def scan (mark : List Char) : List Char → List Char → List Char → Option (List Char × List Char)
  | [], passed, rest => some ((passed.drop mark.length).reverse, rest)
  | _ :: _, _, [] => none
  | next :: left, passed, c :: rest =>
    scan mark (if c = next then left else mark) (c :: passed) rest

/-- What stands before a mark, and what follows it. -/
def splitAt? (mark cs : List Char) : Option (List Char × List Char) := scan mark mark [] cs

/-- Whether a character may follow a line of dashes without meaning anything. -/
def isLineBlank (c : Char) : Bool := c == ' ' || c == '\t' || c == '\n' || c == '\r'

/-- The headers of a block's body, if there are any, and its data. -/
def splitBody (body : List Char) : List Char × List Char :=
  ((splitAt? ['\n', '\n'] body).or (splitAt? ['\r', '\n', '\r', '\n'] body)).getD ([], body)

/-- A header: a name, a colon and a value. -/
def readHeader? (line : List Char) : Option (String × String) :=
  match Text.splitAt ':' line with
  | name :: value :: more =>
    let value := List.intercalate [':'] (value :: more)
    some (String.ofList (trim isNumberBlank name), String.ofList (trim isNumberBlank value))
  | _ => none

/-- The headers, one a line; the last line may be empty. -/
def readHeaders? (text : List Char) : Option (List (String × String)) :=
  let lines := Text.splitAt '\n' text
  let lines := if lines.getLast? = some [] then lines.dropLast else lines
  lines.mapM readHeader?

/-- The block with a label, a body and a closing label. -/
def readBlock? (label body closing : List Char) : Option Block := do
  guard (label ≠ [] ∧ label = closing)
  let (headers, data) := splitBody body
  let content ← Base64.decode? (data.filter fun c => !isNumberBlank c)
  return ⟨String.ofList label, ← readHeaders? headers, content⟩

/-- The blocks of a text, in a row of at most `fuel`; `none` if one of them is not sound. What starts
like a block and does not end is none. -/
def readBlocks? : Nat → List Char → Option (List Block)
  | 0, _ => some []
  | fuel + 1, cs =>
    let parts := do
      let (_, rest) ← splitAt? beginMark cs
      let (label, rest) ← splitAt? dashes rest
      let (body, rest) ← splitAt? endMark (rest.dropWhile isLineBlank)
      let (closing, rest) ← splitAt? dashes rest
      return (label, body, closing, rest)
    match parts with
    | none => some []
    | some (label, body, closing, rest) => do
      return (← readBlock? label body closing) :: (← readBlocks? fuel (rest.dropWhile isLineBlank))

/-- The blocks of a text. -/
def blocks? (text : String) : Option (List Block) := readBlocks? text.length text.toList

/-! ### Keys -/

namespace Block

/-- The value of a header; the last of a name counts. -/
def header? (block : Block) (name : String) : Option String :=
  (block.headers.reverse.find? (·.1 = name)).map (·.2)

/-- What the headers say about a block's bytes: nothing, or that they are encrypted with a named
method. -/
def protect (block : Block) (content : KeyContent) : KeyContent :=
  match block.header? "Proc-Type" with
  | none => content
  | some kind =>
    let method := (block.header? "DEK-Info").any fun method => method.toList.contains ','
    if kind = "4,ENCRYPTED" ∧ method then .encrypted else .unreadable

/-- The key of a block; `none` if its label is not one of a private key. -/
def key? (block : Block) : Option KeyContent :=
  (PrivateKey.read? block.label block.content).map block.protect

end Block

/-- What a key file holds: its first private key. -/
def read (file : Bytes) : KeyContent :=
  (((Utf8.decode? file).bind blocks?).bind fun blocks => blocks.findSome? Block.key?).getD .unreadable

end DhtRecords.Pem
