import ListLang.Builtin.Signature
import ListLang.Expr
import ListLang.Table
import ListLang.Text.Quoted

/-!
# Scopes

What the checker knows about names. A scope records the type of every variable
and the parameters and body of every function bound in one place of a program;
a chain of scopes, innermost first, is everything that can be seen from there.

## Main definitions

* `FunctionEntry`: What is known of a function.
* `Scope`: Variables and functions bound in one place.
* `Chain`: A scope and those that enclose it.
* `Chain.typeOf?`, `Chain.function?`: The innermost entry of a name.
-/

namespace ListLang

/-- What is known of a function. -/
structure FunctionEntry where
  /-- The parameters. -/
  params : List String
  /-- The body. -/
  body : Expr

/-- Variables and functions bound in one place of a program. -/
structure Scope where
  /-- The variables with their types. -/
  variableTypes : Table Ty := {}
  /-- The functions. -/
  functions : Table FunctionEntry := {}

/-- A scope and those that enclose it, innermost first. -/
abbrev Chain := List Scope

namespace Scope

/-- Record a variable. -/
def defineVariable (s : Scope) (name : String) (type : Ty) : Scope :=
  { s with variableTypes := s.variableTypes.insert name type }

/-- Record a function. -/
def defineFunction (s : Scope) (name : String) (entry : FunctionEntry) : Scope :=
  { s with functions := s.functions.insert name entry }

/-- A scope with the given variables, of which no type is known. -/
def ofNames (names : List String) : Scope :=
  { variableTypes := Table.insertAll {} names .any }

/-- The names of a scope as text, for debugging. -/
def inspect (s : Scope) : String :=
  "FLangSymbolTable(variables=" ++ quotedList s.variableTypes.names ++ ", functions="
    ++ quotedList s.functions.names ++ ")"

end Scope

namespace Chain

/-- The type of the innermost variable with the given name. -/
def typeOf? (c : Chain) (name : String) : Option Ty :=
  c.findSome? fun s => s.variableTypes.find? name

/-- The innermost function with the given name. -/
def function? (c : Chain) (name : String) : Option FunctionEntry :=
  c.findSome? fun s => s.functions.find? name

end Chain

end ListLang
