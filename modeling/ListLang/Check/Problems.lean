import ListLang.Check.Finding
import ListLang.Expr

/-!
# Problems with Names and Arguments

The problems that can be told from a list of bound names or from the types of
the arguments of a call, without a look at anything else.

## Main definitions

* `boundNames`: The names in a binding place, and what else stands there.
* `Ty.isComparable`, `Ty.isCondition`, `Ty.fits`: What a type is good for.
* `builtinProblems`: Problems with the arguments of a builtin.
-/

namespace ListLang

/-- The names in a list where names are bound, and a problem for everything else
    in it. -/
def boundNames (form : SpecialForm) : List Expr → List String × List Finding
  | [] => ([], [])
  | e :: es =>
      let (names, problems) := boundNames form es
      match e with
      | .atom _ name => (name :: names, problems)
      | other => (names, .nameNotAtom form other.text? :: problems)

/-- Whether a value of the type may be compared. -/
def Ty.isComparable (t : Ty) : Bool :=
  t = .number || t = .bool || t = .any

/-- Whether a value of the type may be a condition. -/
def Ty.isCondition (t : Ty) : Bool :=
  t = .bool || t = .any

/-- Whether a value of type `got` may be an argument of type `expected`. -/
def Ty.fits (expected got : Ty) : Bool :=
  expected = .any || got = expected || got = .any

/-- Problems with the types of arguments, the first of them at `position`. -/
def argumentProblems (b : Builtin) : (position : Nat) → List Ty → List Ty → List Finding
  | position, expected :: rest, got :: types =>
      (if expected.fits got then [] else [.argumentType b position expected got])
        ++ argumentProblems b (position + 1) rest types
  | _, _, _ => []

/-- Problems with the types of the arguments of an ordering, the first of them
    at `position`. -/
def orderingProblems (op : Comparison) : (position : Nat) → List Ty → List Finding
  | _, [] => []
  | position, type :: types =>
      (if type.isComparable then [] else [.orderingType op position type])
        ++ orderingProblems op (position + 1) types

/-- Problems with the types of the arguments of a builtin. -/
def typeProblems (b : Builtin) (types : List Ty) : List Finding :=
  match b with
  | .comparison .equal =>
      if types.all Ty.isComparable then [] else [.equalityType .equal]
  | .comparison .nonequal =>
      if types.all Ty.isComparable then [] else [.equalityType .nonequal]
  | .comparison op => orderingProblems op 1 types
  | b => argumentProblems b 1 (b.argumentTypes.getD []) types

/-- Problems with the number and the types of the arguments of a builtin. -/
def builtinProblems (b : Builtin) (types : List Ty) : List Finding :=
  (if types.length = b.arity then [] else [.callArity b.name b.arity types.length])
    ++ typeProblems b types

end ListLang
