import ListLang.Eval.Error
import ListLang.Number.Arithmetic

/-!
# Builtins on Values

What the builtins other than `eval` do with their arguments, once these are
values and of the right number.

## Main definitions

* `Arithmetic.compute`: Arithmetic on two reals, an error on division by zero.
* `Arithmetic.onValues`, `Comparison.onValues`, `Connective.onValues`: The
  families of builtins on two values.
* `Builtin.apply`: A builtin on a list of values.
-/

namespace ListLang

/-- A number as a value. -/
def Number.toValue : Number → Value
  | .integer n => .integer n
  | .real x => .real x

/-- An integer argument as a real. -/
def integerArgument (b : Builtin) (position : Nat) (n : Int) : Except EvalCause Float :=
  match realOfInt? n with
  | some x => .ok x
  | none => .error (.integerTooLarge b position (bitLength n))

/-- An argument of arithmetic as a real. -/
def Arithmetic.argument (op : Arithmetic) (position : Nat) : Value → Except EvalCause Float
  | .integer n => integerArgument (.arithmetic op) position n
  | .real x => .ok x
  | v => .error (.about (.arithmetic op) v.shown (.notNumber op position))

/-- An argument of a comparison as a real. -/
def Comparison.argument (op : Comparison) (position : Nat) : Value → Except EvalCause Float
  | .boolean b => .ok (realOfBool b)
  | .integer n => integerArgument (.comparison op) position n
  | .real x => .ok x
  | v => .error (.about (.comparison op) v.shown (.notComparable op position))

/-- An argument of a builtin on truth values. -/
def booleanArgument (b : Builtin) (position : Nat) : Value → Except EvalCause Bool
  | .boolean c => .ok c
  | v => .error (.about b v.shown (.notBoolean b position))

/-- An argument of a builtin on lists. -/
def listArgument (b : Builtin) (position : Nat) : Value → Except EvalCause (List Value)
  | .list items => .ok items
  | v => .error (.about b v.shown (.notList b position))

/-- Arithmetic on two reals. -/
def Arithmetic.compute (op : Arithmetic) (x y : Float) : Except EvalCause Number :=
  match op.apply? x y with
  | some n => .ok n
  | none => .error (.divisionByZero y)

/-- Arithmetic on two values. -/
def Arithmetic.onValues (op : Arithmetic) (v w : Value) : Except EvalCause Value := do
  let x ← op.argument 1 v
  let y ← op.argument 2 w
  return (← op.compute x y).toValue

/-- A comparison of two values. -/
def Comparison.onValues (op : Comparison) (v w : Value) : Except EvalCause Value := do
  let x ← op.argument 1 v
  let y ← op.argument 2 w
  .ok (.boolean (op.apply x y))

/-- A connective of two values. -/
def Connective.onValues (op : Connective) (v w : Value) : Except EvalCause Value := do
  let a ← booleanArgument (.connective op) 1 v
  let b ← booleanArgument (.connective op) 2 w
  .ok (.boolean (op.apply a b))

/-- The kind that a predicate asks for. -/
def Predicate.kind : Predicate → Kind
  | .isint => .integer
  | .isreal => .real
  | .isbool => .boolean
  | .isnull => .null
  | .isatom => .atom
  | .islist => .list

/-- The first item of a list value. -/
def headOf (v : Value) : Except EvalCause Value := do
  match ← listArgument .head 1 v with
  | [] => .error .headOfEmpty
  | item :: _ => .ok item

/-- A list value without its first item. -/
def tailOf (v : Value) : Except EvalCause Value := do
  .ok (.list (← listArgument .tail 1 v).tail)

/-- A list value with an item put in front. -/
def consOf (item v : Value) : Except EvalCause Value := do
  .ok (.list (item :: (← listArgument .cons 2 v)))

/-- The opposite of a truth value. -/
def notOf (v : Value) : Except EvalCause Value := do
  .ok (.boolean !(← booleanArgument .not 1 v))

/-- A builtin on its arguments. `eval` needs more than values and is left to the
    evaluator; here it gives its argument back. A wrong number of arguments is
    an error. -/
def Builtin.apply : Builtin → List Value → Except EvalCause Value
  | .arithmetic op, [v, w] => op.onValues v w
  | .comparison op, [v, w] => op.onValues v w
  | .connective op, [v, w] => op.onValues v w
  | .not, [v] => notOf v
  | .head, [v] => headOf v
  | .tail, [v] => tailOf v
  | .cons, [v, w] => consOf v w
  | .predicate p, [v] => .ok (.boolean (decide (v.kind = p.kind)))
  | .eval, [v] => .ok v
  | b, args => .error (.builtinArity b (args.map Value.text?))

end ListLang
