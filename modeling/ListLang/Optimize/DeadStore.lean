import ListLang.Expr
import ListLang.SpecialForm

/-!
# Dead Stores

An assignment at the top level whose name occurs nowhere else is replaced by
the expression it assigns. The value is still computed, so whatever else the
expression does still happens.

## Main definitions

* `storeTarget?`: The name that an assignment assigns.
* `usedNames`: The names that occur other than as a target.
* `deadNames`: The names that a program assigns and never uses.
* `eliminateDeadStores`: Replacing the assignments to dead names.
-/

namespace ListLang

/-- Whether the list with the given items is an assignment of some name. -/
def assignsName : List Expr → Bool
  | .atom _ head :: .atom .. :: _ => head == SpecialForm.setq.name
  | _ => false

mutual

/-- The names that occur in an expression other than as the target of an
    assignment. -/
def usedNames : Expr → List String
  | .atom _ name => [name]
  | .integer .. | .real .. | .boolean .. | .null .. => []
  | .list _ items => ((usedNamesEach items).drop (if assignsName items then 2 else 0)).flatten

/-- The used names of several expressions, one by one. -/
def usedNamesEach : List Expr → List (List String)
  | [] => []
  | e :: es => usedNames e :: usedNamesEach es

end

theorem usedNamesEach_eq_map (es : List Expr) : usedNamesEach es = es.map usedNames := by
  induction es with
  | nil => rfl
  | cons e es ih => simp only [usedNamesEach, List.map_cons, ih]

/-- Target and value of an assignment that is written as it should be. -/
def store? : Expr → Option (String × Expr)
  | .list _ [.atom _ head, .atom _ name, value] =>
      if head = SpecialForm.setq.name then some (name, value) else none
  | _ => none

/-- The name that an assignment assigns. -/
def storeTarget? (e : Expr) : Option String :=
  (store? e).map (·.1)

/-- The names that a program assigns at the top level and uses nowhere. -/
def deadNames (forms : List Form) : List String :=
  let used := forms.flatMap fun form => usedNames form.expr
  (forms.filterMap fun form => storeTarget? form.expr).filter fun name => name ∉ used

/-- The expression, or the value it assigns if it assigns a dead name. -/
def withoutDeadStore (dead : List String) (e : Expr) : Expr :=
  match store? e with
  | some (name, value) => if name ∈ dead then value else e
  | none => e

/-- Replace every assignment to a dead name by the value it assigns. -/
def eliminateDeadStores (forms : List Form) : List Form :=
  let dead := deadNames forms
  forms.map fun form => { form with expr := withoutDeadStore dead form.expr }

end ListLang
