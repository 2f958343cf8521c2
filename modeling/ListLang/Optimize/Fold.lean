import ListLang.Number.Arithmetic
import ListLang.Optimize.Rebound

/-!
# Constant Folding

A call of a foldable builtin on literals is replaced by the literal it gives.
The calls left alone are those that would fail, those in places that are never
evaluated, and those of a name that the program might bind.

## Main definitions

* `foldCall?`: The literal that a call on the given arguments gives.
* `foldedFrom?`: The first item of a special form that is evaluated.
* `fold`: Folding in an expression.
* `foldConstants`: Folding in a program.
-/

namespace ListLang

/-- A number as a literal without a line. -/
def Number.toExpr : Number → Expr
  | .integer n => .integer none n
  | .real x => .real none x

/-- The real that a number literal stands for in arithmetic. -/
def numberLiteral? : Expr → Option Float
  | .integer _ n => realOfInt? n
  | .real _ x => some x
  | _ => none

/-- The real that a literal stands for in a comparison. -/
def comparableLiteral? : Expr → Option Float
  | .boolean _ b => some (realOfBool b)
  | e => numberLiteral? e

/-- The truth value of a literal. -/
def booleanLiteral? : Expr → Option Bool
  | .boolean _ b => some b
  | _ => none

/-- The literal that a call on the given arguments gives, if it can be told in
    advance. -/
def foldCall? (b : Builtin) (args : List Expr) : Option Expr :=
  match b, args with
  | .arithmetic op, [e, f] => do
      let x ← numberLiteral? e
      let y ← numberLiteral? f
      return (← op.apply? x y).toExpr
  | .comparison op, [e, f] => do
      let x ← comparableLiteral? e
      let y ← comparableLiteral? f
      return .boolean none (op.apply x y)
  | .connective op, [e, f] => do
      let a ← booleanLiteral? e
      let b ← booleanLiteral? f
      return .boolean none (op.apply a b)
  | .not, [e] => do
      let a ← booleanLiteral? e
      return .boolean none (!a)
  | _, _ => none

/-- The place of the first item of a special form that is evaluated when the
    form is. A form that is not written as it should be has none. -/
def foldedFrom? (form : SpecialForm) (args : List Expr) : Option Nat :=
  match form, args with
  | .setq, [.atom .., _] => some 2
  | .func, [.atom .., params, _] => params.names?.map fun _ => 3
  | .lambda, [params, _] => params.names?.map fun _ => 2
  | .prog, locals :: _ => locals.names?.map fun _ => 2
  | .cond, [_, _] | .cond, [_, _, _] => some 1
  | .whileLoop, _ :: _ => some 1
  | .returnValue, [] | .returnValue, [_] => some 1
  | _, _ => none

/-- A list with the given items, of which `folded` are the folded ones. -/
def foldList (bound : List String) (line : Option Int) (items folded : List Expr) : Expr :=
  match items with
  | .atom own name :: args => match SpecialForm.ofName? name with
    | some form => match foldedFrom? form args with
      | some first => .list line (items.take first ++ folded.drop first)
      | none => .list line items
    | none => match Builtin.ofName? name with
      | some b =>
          if b.isFoldable ∧ name ∉ bound then match foldCall? b folded.tail with
            | some literal => literal.onLine line
            | none => .list line (.atom own name :: folded.tail)
          else .list line folded
      | none => .list line folded
  | _ => .list line folded

mutual

/-- Fold in an expression. The names in `bound` may not stand for builtins. -/
def fold (bound : List String) : Expr → Expr
  | .list line items => foldList bound line items (foldAll bound items)
  | .atom line name => .atom line name
  | .integer line n => .integer line n
  | .real line x => .real line x
  | .boolean line b => .boolean line b
  | .null line => .null line

/-- Fold in several expressions. -/
def foldAll (bound : List String) : List Expr → List Expr
  | [] => []
  | e :: es => fold bound e :: foldAll bound es

end

theorem foldAll_eq_map (bound : List String) (es : List Expr) :
    foldAll bound es = es.map (fold bound) := by
  induction es with
  | nil => rfl
  | cons e es ih => simp only [foldAll, List.map_cons, ih]

/-- Fold in a program. -/
def foldConstants (forms : List Form) : List Form :=
  let bound := reboundNames forms
  forms.map fun form => { form with expr := fold bound form.expr }

end ListLang
