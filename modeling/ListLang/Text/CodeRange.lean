/-!
# Ranges of Code Points

A property of characters given by a standard is a long list of code points. It
is kept here as ascending ranges, so a search may stop at the first range that
ends at or after the point it looks for.

## Main definitions

* `CodeRange`: A range of code points, both ends included.
* `CodeRange.covers`: Whether ascending ranges hold a code point.
-/

namespace ListLang

/-- A first and a last code point, both included. -/
abbrev CodeRange := Nat × Nat

namespace CodeRange

/-- Whether one of the ranges, which ascend, holds the code point `n`. -/
def covers : List CodeRange → Nat → Bool
  | [], _ => false
  | (first, last) :: rest, n => if n ≤ last then decide (first ≤ n) else covers rest n

end CodeRange

end ListLang
