/-
The parts of a text between separators.
-/

namespace DhtRecords.Text

/-- The parts of a text between the characters that separate them; one more than there are of
these. -/
def splitAt (separator : Char) : List Char → List (List Char)
  | [] => [[]]
  | c :: rest =>
    match c == separator, splitAt separator rest with
    | true, parts => [] :: parts
    | false, part :: parts => (c :: part) :: parts
    | false, [] => [[c]]

end DhtRecords.Text
