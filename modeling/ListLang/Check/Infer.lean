import ListLang.Scope.Basic
import ListLang.SpecialForm

/-!
# Inferring Types

The type of an expression, as far as it can be told without running it. Where
nothing is known the answer is `any`, and so it is beyond a fixed number of
levels.

## Main definitions

* `inferenceDepth`: The deepest level that is looked at.
* `listType`: The type of a list, given the types of its items.
* `inferType`: The type of an expression.
-/

namespace ListLang

/-- The deepest level that inference looks at. -/
def inferenceDepth : Int := 10

/-- The type of a list, given the types of its items. Assignments have the type
    of the value and choices that of both branches if it is the same; a function
    that a program defines hides a builtin of its name. -/
def listType (chain : Chain) (items : List Expr) (types : List Ty) : Ty :=
  match items with
  | [] => .list
  | .atom _ name :: _ => match SpecialForm.ofName? name, types with
    | some .quote, _ => .list
    | some .setq, [_, _, value] => value
    | some .cond, [_, _, yes, no] => if yes = no then yes else .any
    | some _, _ => .any
    | none, _ =>
        if (chain.function? name).isSome then .any
        else match Builtin.ofName? name with
          | some b => b.resultType
          | none => .any
  | _ :: _ => .any

mutual

/-- The type of an expression at the given level. -/
def inferType (chain : Chain) (depth : Int) : Expr → Ty
  | .atom _ name => if inferenceDepth < depth then .any else (chain.typeOf? name).getD .any
  | .integer .. | .real .. => if inferenceDepth < depth then .any else .number
  | .boolean .. => if inferenceDepth < depth then .any else .bool
  | .null .. => if inferenceDepth < depth then .any else .null
  | .list _ items =>
      if inferenceDepth < depth then .any
      else listType chain items (inferTypes chain (depth + 1) items)

/-- The types of several expressions at the given level. -/
def inferTypes (chain : Chain) (depth : Int) : List Expr → List Ty
  | [] => []
  | e :: es => inferType chain depth e :: inferTypes chain depth es

end

theorem inferTypes_eq_map (chain : Chain) (depth : Int) (es : List Expr) :
    inferTypes chain depth es = es.map (inferType chain depth) := by
  induction es with
  | nil => rfl
  | cons e es ih => simp only [inferTypes, List.map_cons, ih]

end ListLang
