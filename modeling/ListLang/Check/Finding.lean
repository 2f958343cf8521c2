import ListLang.Builtin.Signature
import ListLang.Diagnostic
import ListLang.SpecialForm

/-!
# Findings

What the checker can find wrong with a program.

## Main definitions

* `Finding`: The problems that the checker finds.
* `Finding.message`: A problem in words.
* `Finding.on`: A problem on a line, as a diagnostic.
-/

namespace ListLang

/-- The problems that the checker finds. -/
inductive Finding where
  /-- A name is used and bound nowhere. -/
  | undeclared (name : String)
  /-- A name is called and bound nowhere. -/
  | undefinedFunction (name : String)
  /-- A special form has the wrong number of arguments. -/
  | formArity (form : SpecialForm) (got : Nat)
  /-- A special form binds something other than a name. -/
  | targetNotAtom (form : SpecialForm)
  /-- A special form has no list where it binds names. -/
  | namesNotList (form : SpecialForm)
  /-- A special form has something other than a name where it binds names. -/
  | nameNotAtom (form : SpecialForm) (exprText : Option String)
  /-- A function that is called on the spot is not written as it should be. -/
  | calledLambdaShape
  /-- A function that is called on the spot has no list of parameters. -/
  | calledLambdaParams
  /-- A function that is called on the spot gets the wrong number of arguments. -/
  | calledLambdaArity (expected got : Nat)
  /-- The condition of a special form cannot be a truth value. -/
  | conditionType (form : SpecialForm) (type : Ty)
  /-- Nothing catches a `return`. -/
  | strayReturn
  /-- Nothing catches a `break`. -/
  | strayBreak
  /-- A function or builtin gets the wrong number of arguments. -/
  | callArity (name : String) (expected got : Nat)
  /-- An argument of an ordering can be neither number nor truth value. -/
  | orderingType (op : Comparison) (position : Nat) (type : Ty)
  /-- An argument of an equality can be neither number nor truth value. -/
  | equalityType (op : Comparison)
  /-- An argument of a builtin cannot have the right type. -/
  | argumentType (b : Builtin) (position : Nat) (expected got : Ty)
deriving DecidableEq

namespace Finding

/-- How many arguments a special form wants, in words, given how many it has. -/
def formArityMessage (form : SpecialForm) (got : Nat) : String :=
  let count := ", got " ++ toString got
  match form with
  | .quote => "quote requires exactly 1 argument" ++ count
  | .setq => "setq requires exactly 2 arguments" ++ count
  | .func => "func requires exactly 3 arguments" ++ count
  | .lambda => "lambda requires exactly 2 arguments" ++ count
  | .prog => "prog requires a list of locals and at least one body form"
  | .cond => "cond requires 2 or 3 arguments" ++ count
  | .whileLoop => "while requires at least 2 arguments" ++ count
  | .returnValue => "return expects 0 or 1 arguments" ++ count
  | .breakLoop => "break expects no arguments" ++ count

/-- What is missing where a special form binds names, in words. -/
def namesNotListMessage (form : SpecialForm) : String :=
  match form with
  | .func => "second argument of func must be a list of parameters"
  | .prog => "first argument of prog must be a list of local variables"
  | form => "first argument of " ++ form.name ++ " must be a list of parameters"

/-- What a name bound by a special form is called. -/
def boundNameNoun (form : SpecialForm) : String :=
  match form with
  | .prog => "prog local variable"
  | form => form.name ++ " parameter"

/-- A problem in words, unless it shows something that cannot be written. -/
def message : Finding → Option String
  | undeclared name => some ("Undeclared identifier '" ++ name ++ "'")
  | undefinedFunction name => some ("Call to undefined function '" ++ name ++ "'")
  | formArity form got => some (formArityMessage form got)
  | targetNotAtom form => some ("first argument of " ++ form.name ++ " must be an atom")
  | namesNotList form => some (namesNotListMessage form)
  | nameNotAtom form exprText =>
      exprText.map fun text => boundNameNoun form ++ " must be an atom, got " ++ text
  | calledLambdaShape => some "lambda must have exactly 2 arguments (parameters and body)"
  | calledLambdaParams => some "lambda parameters must be a list"
  | calledLambdaArity expected got => some
      ("anonymous lambda expects " ++ toString expected ++ " argument(s), got " ++ toString got)
  | conditionType form type =>
      some (form.name ++ " expects a boolean condition, got " ++ type.name)
  | strayReturn => some "return used outside of prog or function"
  | strayBreak => some "break used outside of while"
  | callArity name expected got =>
      some (name ++ " expects " ++ toString expected ++ " argument(s), got " ++ toString got)
  | orderingType op position type => some
      (op.name ++ " expects number or bool for argument " ++ toString position ++ ", got "
        ++ type.name)
  | equalityType op => some (op.name ++ " expects integer, real, or bool arguments")
  | argumentType b position expected got => some
      (b.name ++ " expects " ++ expected.name ++ " for argument " ++ toString position ++ ", got "
        ++ got.name)

/-- A problem on a line, as a diagnostic, if there are words for it. -/
def on (f : Finding) (line : Int) : Option Diagnostic :=
  f.message.map fun message => { line := line, message := message, stage := checkingStage }

end Finding

end ListLang
