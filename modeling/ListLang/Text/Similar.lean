/-!
# Similar Names

How alike two names are is measured by their common blocks: take the longest
run of characters that occurs in both, then do the same with what lies to the
left of it in both and with what lies to the right of it in both. The
likeness is twice the number of characters in blocks over the number of
characters in both names, and names with a likeness of at least three fifths
count as similar.

In a long word the characters that occur often would make every name look
similar, so they do not start a block; a block still grows over them at either
end.

## Main definitions

* `Block`: A run that two texts share.
* `longestBlock`: The longest run, grown over frequent characters.
* `sharedLength`: The number of characters in common blocks.
* `Likeness`: A candidate with its likeness.
* `closeMatches`: The most similar of a list of names.
-/

namespace ListLang

/-- A run that two texts share: where it starts in either, and its length. -/
structure Block where
  /-- Start in the first text. -/
  left : Nat
  /-- Start in the second text. -/
  right : Nat
  /-- Number of characters. -/
  size : Nat
deriving DecidableEq

/-- The characters of a word that are too frequent to start a block. Only a
    word of two hundred characters or more has any. -/
def frequentChars (word : List Char) : List Char :=
  if word.length < 200 then []
  else word.eraseDups.filter fun c => word.length / 100 + 1 < word.count c

/-- Lengths of the common runs that end at a character `c` of the first text
    and at each character of the second. `before` holds the same for the
    preceding character of the first text, moved on by one place. -/
def runsAt (frequent : List Char) (c : Char) (before : List Nat) (second : List Char) : List Nat :=
  List.zipWith (fun n d => if c = d ∧ d ∉ frequent then n + 1 else 0) before second

/-- Replace `best` by every run that is strictly longer. The runs end at place
    `i` of the first text and at places `j`, `j + 1`, … of the second. -/
def improve (i : Nat) : (j : Nat) → List Nat → Block → Block
  | _, [], best => best
  | j, n :: runs, best =>
      improve i (j + 1) runs (if best.size < n then ⟨i + 1 - n, j + 1 - n, n⟩ else best)

/-- The longest common run free of frequent characters, the first in the first
    text and then in the second among equally long ones. -/
def longestRun (frequent second : List Char) :
    (i : Nat) → (before : List Nat) → (first : List Char) → Block → Block
  | _, _, [], best => best
  | i, before, c :: first, best =>
      let runs := runsAt frequent c before second
      longestRun frequent second (i + 1) (0 :: runs) first (improve i 0 runs best)

/-- The length of the common start of two texts. -/
def commonStart : List Char → List Char → Nat
  | a :: as, b :: bs => if a = b then commonStart as bs + 1 else 0
  | _, _ => 0

/-- The longest block of two texts: the longest run, grown to the left and to
    the right as far as the texts agree. -/
def longestBlock (frequent first second : List Char) : Block :=
  let run := longestRun frequent second 0 (List.replicate second.length 0) first ⟨0, 0, 0⟩
  let back := commonStart (first.take run.left).reverse (second.take run.right).reverse
  let front := commonStart (first.drop (run.left + run.size)) (second.drop (run.right + run.size))
  ⟨run.left - back, run.right - back, back + run.size + front⟩

/-- The number of characters in the common blocks of two texts. Each block is
    followed by the texts left and right of it, so `fuel` need only exceed the
    length of the first text. -/
def sharedLengthWithin (frequent : List Char) : (fuel : Nat) → List Char → List Char → Nat
  | 0, _, _ => 0
  | fuel + 1, first, second =>
      let block := longestBlock frequent first second
      if block.size = 0 then 0
      else
        block.size
          + sharedLengthWithin frequent fuel (first.take block.left) (second.take block.right)
          + sharedLengthWithin frequent fuel (first.drop (block.left + block.size))
              (second.drop (block.right + block.size))

/-- The number of characters in the common blocks of a candidate and a word. -/
def sharedLength (candidate word : List Char) : Nat :=
  sharedLengthWithin (frequentChars word) (candidate.length + 1) candidate word

/-- A candidate with its likeness `2 * shared / total`. -/
structure Likeness where
  /-- The candidate. -/
  name : String
  /-- Characters in common blocks. -/
  shared : Nat
  /-- Characters of candidate and word together. -/
  total : Nat

namespace Likeness

/-- The likeness of a candidate to a word. -/
def of (word candidate : String) : Likeness :=
  { name := candidate
    shared := sharedLength candidate.toList word.toList
    total := candidate.length + word.length }

/-- Whether the likeness is at least three fifths. -/
def isClose (l : Likeness) : Bool :=
  3 * l.total ≤ 10 * l.shared

/-- Whether `l` comes before `m` in a list of matches: a greater likeness comes
    first, and of two equal ones the later name. -/
def precedes (l m : Likeness) : Bool :=
  let ours := l.shared * m.total
  let theirs := m.shared * l.total
  theirs < ours || (ours == theirs && decide (m.name ≤ l.name))

end Likeness

/-- Why no matches can be given. -/
inductive MatchError where
  /-- Fewer than one match was asked for. -/
  | countNotPositive (count : Int)
deriving DecidableEq

/-- The text of a match error. -/
def MatchError.message : MatchError → String
  | .countNotPositive count => "n must be > 0: " ++ toString count

/-- The names similar to `word`, the most similar first, at most `count` of
    them. An empty word, or no names, has no matches whatever the count. -/
def closeMatches (word : String) (names : List String) (count : Int) :
    Except MatchError (List String) :=
  if word.isEmpty ∨ names.isEmpty then .ok []
  else if count ≤ 0 then .error (.countNotPositive count)
  else
    let close := (names.map (Likeness.of word)).filter Likeness.isClose
    .ok (((close.mergeSort Likeness.precedes).map (·.name)).take count.toNat)

/-- The number of names that an error text suggests. -/
def suggestionCount : Nat := 3

/-- The names that an error text suggests for `word`. -/
def suggestions (word : String) (names : List String) : List String :=
  match closeMatches word names suggestionCount with
  | .ok found => found
  | .error _ => []

end ListLang
