/-!
# Builtin Functions

The functions that every program may call without defining them, what they
take and what they give. Their effect on values is defined elsewhere; here they
are names with signatures.

## Main definitions

* `Ty`: The types that the checker tells apart.
* `Arithmetic`, `Comparison`, `Connective`, `Predicate`: Families of builtins.
* `Builtin`: All builtins.
* `Builtin.ofName?`: The builtin that a name stands for.
* `Builtin.arity`, `Builtin.argumentTypes`, `Builtin.resultType`: Signatures.
* `Builtin.isFoldable`: Whether a call on literals may be computed in advance.

## Theorems

* `ofName?_name`: A builtin is found under its own name.
* `name_of_ofName?`: A name finds only the builtin it names.
-/

namespace ListLang

/-- The types that the checker tells apart. -/
inductive Ty where
  /-- Integers and reals. -/
  | number
  /-- Truth values. -/
  | bool
  /-- No knowledge. -/
  | any
  /-- The null value. -/
  | null
  /-- Lists. -/
  | list
deriving DecidableEq

/-- The name of a type in messages. -/
def Ty.name : Ty → String
  | .number => "number"
  | .bool => "bool"
  | .any => "any"
  | .null => "null"
  | .list => "list"

/-- The type with the given name. -/
def Ty.ofName? (s : String) : Option Ty :=
  [Ty.number, .bool, .any, .null, .list].find? fun t => t.name == s

/-- The builtins that compute a number from two. -/
inductive Arithmetic where
  | plus | minus | times | divide
deriving DecidableEq

/-- The builtins that compare two numbers or truth values. -/
inductive Comparison where
  | less | lesseq | greater | greatereq | equal | nonequal
deriving DecidableEq

/-- The builtins that combine two truth values. -/
inductive Connective where
  | and | or | xor
deriving DecidableEq

/-- The builtins that ask for the kind of a value. -/
inductive Predicate where
  | isint | isreal | isbool | isnull | isatom | islist
deriving DecidableEq

/-- The builtin functions. -/
inductive Builtin where
  /-- Arithmetic on two numbers. -/
  | arithmetic (op : Arithmetic)
  /-- Comparison of two numbers or truth values. -/
  | comparison (op : Comparison)
  /-- The first item of a list. -/
  | head
  /-- A list without its first item. -/
  | tail
  /-- A list with an item put in front. -/
  | cons
  /-- A connective of two truth values. -/
  | connective (op : Connective)
  /-- The opposite truth value. -/
  | not
  /-- The question for a kind of value. -/
  | predicate (p : Predicate)
  /-- The value of a list read as an expression. -/
  | eval
deriving DecidableEq

/-- The name of an arithmetic builtin. -/
def Arithmetic.name : Arithmetic → String
  | .plus => "plus"
  | .minus => "minus"
  | .times => "times"
  | .divide => "divide"

/-- The name of a comparison. -/
def Comparison.name : Comparison → String
  | .less => "less"
  | .lesseq => "lesseq"
  | .greater => "greater"
  | .greatereq => "greatereq"
  | .equal => "equal"
  | .nonequal => "nonequal"

/-- The name of a connective. -/
def Connective.name : Connective → String
  | .and => "and"
  | .or => "or"
  | .xor => "xor"

/-- The name of a predicate. -/
def Predicate.name : Predicate → String
  | .isint => "isint"
  | .isreal => "isreal"
  | .isbool => "isbool"
  | .isnull => "isnull"
  | .isatom => "isatom"
  | .islist => "islist"

namespace Builtin

/-- Every builtin. -/
def all : List Builtin :=
  [arithmetic .plus, arithmetic .minus, arithmetic .times, arithmetic .divide,
   comparison .less, comparison .lesseq, comparison .greater, comparison .greatereq,
   comparison .equal, comparison .nonequal,
   head, tail, cons,
   connective .and, connective .or, connective .xor, not,
   predicate .isint, predicate .isreal, predicate .isbool, predicate .isnull,
   predicate .isatom, predicate .islist,
   eval]

/-- The name under which a program calls the builtin. -/
def name : Builtin → String
  | arithmetic op => op.name
  | comparison op => op.name
  | head => "head"
  | tail => "tail"
  | cons => "cons"
  | connective op => op.name
  | not => "not"
  | predicate p => p.name
  | eval => "eval"

/-- The builtin that a name stands for. -/
def ofName? (s : String) : Option Builtin :=
  all.find? fun b => b.name == s

/-- The number of arguments. -/
def arity : Builtin → Nat
  | arithmetic _ | comparison _ | cons | connective _ => 2
  | head | tail | not | predicate _ | eval => 1

/-- The types of the arguments, for the builtins whose arguments are checked one
    by one. -/
def argumentTypes : Builtin → Option (List Ty)
  | arithmetic _ => some [.number, .number]
  | comparison .equal | comparison .nonequal => none
  | comparison _ => some [.any, .any]
  | head | tail => some [.list]
  | cons => some [.any, .list]
  | connective _ => some [.bool, .bool]
  | not => some [.bool]
  | predicate _ | eval => none

/-- The type of the result. -/
def resultType : Builtin → Ty
  | arithmetic _ => .number
  | comparison _ | connective _ | not | predicate _ => .bool
  | head | eval => .any
  | tail | cons => .list

/-- Whether a call on literals may be computed before the program runs. -/
def isFoldable : Builtin → Bool
  | arithmetic _ | comparison _ | connective _ | not => true
  | head | tail | cons | predicate _ | eval => false

theorem mem_all (b : Builtin) : b ∈ all := by
  cases b with
  | arithmetic op => cases op <;> decide
  | comparison op => cases op <;> decide
  | connective op => cases op <;> decide
  | predicate p => cases p <;> decide
  | head => decide
  | tail => decide
  | cons => decide
  | not => decide
  | eval => decide

theorem ofName?_name (b : Builtin) : ofName? b.name = some b := by
  cases b with
  | arithmetic op => cases op <;> decide
  | comparison op => cases op <;> decide
  | connective op => cases op <;> decide
  | predicate p => cases p <;> decide
  | head => decide
  | tail => decide
  | cons => decide
  | not => decide
  | eval => decide

theorem name_of_ofName? {s : String} {b : Builtin} (h : ofName? s = some b) : b.name = s := by
  simpa only [beq_iff_eq] using List.find?_some h

end Builtin

end ListLang
