import ListLang.Builtin.Signature
import ListLang.Number.Binary

/-!
# Arithmetic on Reals

All arithmetic is done on reals. A result that is whole is then an integer
again, so `divide` on 6 and 3 gives 2 and on 3 and 2 gives 1.5. The evaluator
and the constant folder compute with the same functions, so a call computed in
advance gives what it would have given later.

## Main definitions

* `Number`: An integer or a real.
* `Number.ofReal`: A result, as an integer if it is whole.
* `Arithmetic.apply?`: Arithmetic, undefined on division by zero.
* `Comparison.apply`, `Connective.apply`: Comparisons and connectives.
-/

namespace ListLang

/-- An integer or a real. -/
inductive Number where
  /-- An integer. -/
  | integer (n : Int)
  /-- A real. -/
  | real (x : Float)

/-- A result as an integer if it is whole, and as a real otherwise. -/
def Number.ofReal (x : Float) : Number :=
  match wholePart? x with
  | some n => .integer n
  | none => .real x

/-- The result of arithmetic on two reals, before it is made an integer. -/
def Arithmetic.onReals : Arithmetic → Float → Float → Float
  | .plus, x, y => x + y
  | .minus, x, y => x - y
  | .times, x, y => x * y
  | .divide, x, y => x / y

/-- The result of arithmetic on two reals. Division by zero has none. -/
def Arithmetic.apply? (op : Arithmetic) (x y : Float) : Option Number :=
  if op = .divide ∧ y == 0 then none else some (.ofReal (op.onReals x y))

/-- A comparison of two reals. -/
def Comparison.apply : Comparison → Float → Float → Bool
  | .less, x, y => x < y
  | .lesseq, x, y => x ≤ y
  | .greater, x, y => y < x
  | .greatereq, x, y => y ≤ x
  | .equal, x, y => x == y
  | .nonequal, x, y => x != y

/-- A connective of two truth values. -/
def Connective.apply : Connective → Bool → Bool → Bool
  | .and, a, b => a && b
  | .or, a, b => a || b
  | .xor, a, b => a != b

/-- The real that stands for a truth value in a comparison. -/
def realOfBool (b : Bool) : Float :=
  if b then 1.0 else 0.0

end ListLang
