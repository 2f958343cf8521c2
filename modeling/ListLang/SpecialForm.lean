/-!
# Special Forms

The nine list heads that decide for themselves which of their arguments are
evaluated.

## Main definitions

* `SpecialForm`: The special forms.
* `SpecialForm.ofName?`: The special form that a name stands for.
* `SpecialForm.shape`: How the form is written.

## Theorems

* `ofName?_name`: A special form is found under its own name.
* `name_of_ofName?`: A name finds only the form it names.
-/

namespace ListLang

/-- The special forms. -/
inductive SpecialForm where
  /-- Data left unevaluated. -/
  | quote
  /-- Binding a name in the current frame. -/
  | setq
  /-- Defining a named function. -/
  | func
  /-- An anonymous function. -/
  | lambda
  /-- A block with local names. -/
  | prog
  /-- A choice between two expressions. -/
  | cond
  /-- A loop. -/
  | whileLoop
  /-- Leaving a function or a block with a value. -/
  | returnValue
  /-- Leaving a loop. -/
  | breakLoop
deriving DecidableEq

namespace SpecialForm

/-- Every special form. -/
def all : List SpecialForm :=
  [quote, setq, func, lambda, prog, cond, whileLoop, returnValue, breakLoop]

/-- The name under which a program uses the form. -/
def name : SpecialForm → String
  | quote => "quote"
  | setq => "setq"
  | func => "func"
  | lambda => "lambda"
  | prog => "prog"
  | cond => "cond"
  | whileLoop => "while"
  | returnValue => "return"
  | breakLoop => "break"

/-- How the form is written. -/
def shape : SpecialForm → String
  | quote => "(quote expr)"
  | setq => "(setq name value)"
  | func => "(func name (params) body)"
  | lambda => "(lambda (params) body)"
  | prog => "(prog (locals) forms...)"
  | cond => "(cond test then [else])"
  | whileLoop => "(while test forms...)"
  | returnValue => "(return [value])"
  | breakLoop => "(break)"

/-- The special form that a name stands for. -/
def ofName? (s : String) : Option SpecialForm :=
  all.find? fun f => f.name == s

theorem mem_all (f : SpecialForm) : f ∈ all := by
  cases f <;> decide

theorem ofName?_name (f : SpecialForm) : ofName? f.name = some f := by
  cases f <;> decide

theorem name_of_ofName? {s : String} {f : SpecialForm} (h : ofName? s = some f) : f.name = s := by
  simpa only [beq_iff_eq] using List.find?_some h

end SpecialForm

end ListLang
