import ListLang.Builtin.Signature
import ListLang.Expr
import ListLang.SpecialForm

/-!
# Rebound Names

A program may bind the name of a builtin, and a call of that name is then no
longer a call of the builtin. This module collects, for a whole program, every
foldable name that it might bind: those in the binding places of its forms, and
all those in quoted data, because `eval` can turn data into a form.

## Main definitions

* `isFoldableName`: Whether a name is that of a foldable builtin.
* `foldableAtoms`: All foldable names in an expression.
* `boundBy`: The foldable names that a form binds.
* `rebound`, `reboundNames`: The foldable names that an expression, or a
  program, might bind.
-/

namespace ListLang

/-- Whether a name is that of a builtin whose calls may be computed in
    advance. -/
def isFoldableName (name : String) : Bool :=
  (Builtin.ofName? name).any Builtin.isFoldable

mutual

/-- All foldable names in an expression. -/
def foldableAtoms : Expr → List String
  | .atom _ name => if isFoldableName name then [name] else []
  | .integer .. | .real .. | .boolean .. | .null .. => []
  | .list _ items => foldableAtomsAll items

/-- All foldable names in several expressions. -/
def foldableAtomsAll : List Expr → List String
  | [] => []
  | e :: es => foldableAtoms e ++ foldableAtomsAll es

end

/-- The expressions in the binding places of a list with the given items. -/
def bindingPlaces (items : List Expr) : List Expr :=
  match items with
  | .atom _ name :: args => match SpecialForm.ofName? name, args with
    | some .setq, target :: _ => [target]
    | some .func, target :: .list _ params :: _ => target :: params
    | some .func, target :: _ => [target]
    | some .lambda, .list _ params :: _ => params
    | some .prog, .list _ locals :: _ => locals
    | _, _ => []
  | _ => []

/-- The foldable names in the binding places of a list with the given items. -/
def boundBy (items : List Expr) : List String :=
  ((bindingPlaces items).filterMap Expr.atomName?).filter isFoldableName

/-- Whether a list with the given items is quoted data. -/
def isQuotation (items : List Expr) : Bool :=
  (items.head?.bind Expr.atomName?) == some SpecialForm.quote.name

mutual

/-- The foldable names that evaluating an expression might bind. -/
def rebound : Expr → List String
  | .atom .. | .integer .. | .real .. | .boolean .. | .null .. => []
  | .list _ items =>
      if isQuotation items then foldableAtomsAll items.tail
      else boundBy items ++ reboundAll items

/-- The foldable names that evaluating several expressions might bind. -/
def reboundAll : List Expr → List String
  | [] => []
  | e :: es => rebound e ++ reboundAll es

end

/-- The foldable names that a program might bind. -/
def reboundNames (forms : List Form) : List String :=
  forms.flatMap fun form => rebound form.expr

end ListLang
