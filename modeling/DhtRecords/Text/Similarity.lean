/-
How alike two texts are: the characters in their longest common block, and in
the blocks to the left and to the right of it, counted against all.
-/

namespace DhtRecords.Text

/-- The number of characters that two texts begin with in common. -/
def commonStart : List Char → List Char → Nat
  | a :: as, b :: bs => if a = b then commonStart as bs + 1 else 0
  | _, _ => 0

/-- The longest block that starts at a position of the second text: where it starts in the second,
and its size. The first of several counts. -/
def blockAt (as : List Char) : Nat → List Char → Nat × Nat
  | position, [] => (position, 0)
  | position, b :: bs =>
    let size := commonStart as (b :: bs)
    let (other, otherSize) := blockAt as (position + 1) bs
    if size < otherSize then (other, otherSize) else (position, size)

/-- The longest common block: where it starts in both texts, and its size. -/
def longestBlock : Nat → List Char → List Char → Nat × Nat × Nat
  | position, [], _ => (position, 0, 0)
  | position, a :: as, bs =>
    let (start, size) := blockAt (a :: as) 0 bs
    let (other, otherStart, otherSize) := longestBlock (position + 1) as bs
    if size < otherSize then (other, otherStart, otherSize) else (position, start, size)

/-- The number of characters in common blocks; `fuel` bounds how often texts are divided. -/
def commonWithin : Nat → List Char → List Char → Nat
  | 0, _, _ => 0
  | fuel + 1, as, bs =>
    let (i, j, size) := longestBlock 0 as bs
    if size = 0 then 0
    else
      commonWithin fuel (as.take i) (bs.take j) + size
        + commonWithin fuel (as.drop (i + size)) (bs.drop (j + size))

/-- The number of characters in common blocks. -/
def common (as bs : List Char) : Nat := commonWithin (as.length + 1) as bs

/-- Whether three fifths of all characters of two texts are in common blocks. -/
def isSimilar (a b : String) : Bool :=
  3 * (a.length + b.length) ≤ 10 * common a.toList b.toList

end DhtRecords.Text
