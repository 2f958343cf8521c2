import ListLang.Check.Basic
import ListLang.Eval.Session
import ListLang.Optimize.Pass
import ListLang.Parser.Basic
import ListLang.Token.Lexer

/-!
# Programs

From the text of a program to what it yields: the text is cut into tokens, the
tokens are read as forms, the forms are checked and perhaps optimized, and then
they are evaluated one after another in a session of their own.

## Main definitions

* `Options`: How a program is to be treated.
* `Failure`: Why a program yields nothing.
* `parse`: The forms of a program.
* `checkProgram`: All that is wrong with a program.
* `runProgram`: The values of all forms, with all diagnostics.
* `evaluateProgram`: The value of the last form.
* `formatProgram`: The text of that value.
-/

namespace ListLang

/-- How a program is to be treated. -/
structure Options where
  /-- Take unknown words for names. -/
  lenient : Bool := false
  /-- Optimize the program before it is run. -/
  optimize : Bool := false
  /-- Refuse a program with diagnostics. -/
  strict : Bool := false
  /-- The limits of evaluation. -/
  limits : Limits

/-- Why a program yields nothing. -/
inductive Failure where
  /-- The text has no tokens. -/
  | lexing (e : LexError)
  /-- The text does not read as a program: the first of `count` problems. -/
  | parsing (first : Diagnostic) (count : Nat)
  /-- The program has diagnostics and must not. -/
  | checking (ds : List Diagnostic)
  /-- Evaluation failed. -/
  | running (e : EvalError)
  /-- Evaluation failed, and there are no words for it. -/
  | unworded (cause : EvalCause)
  /-- Something that was to be shown cannot be written. -/
  | unwritten
  /-- The call stack refused the limits of evaluation. -/
  | refused (e : StackError)
  /-- A loop used up its allowance of rounds. -/
  | stalled

/-- Why the evaluation of a form stopped, as a failure of the program. -/
def Halt.failure : Halt → Failure
  | .failed e => .running e
  | .unworded cause => .unworded cause
  | .refused e => .refused e
  | .stalled => .stalled

/-- What is to be shown, where it is a failure if it cannot be written. -/
def written {α : Type} (x : Option α) : Except Failure α :=
  x.elim (.error .unwritten) .ok

/-- The report of a program that does not read. -/
def unreadable (first : Diagnostic) (count : Nat) : Report :=
  { message := first.message
    context := if 1 < count then some (toString count ++ " syntax error(s) in program") else none
    line := some first.line }

/-- The text of a failure. What the call stack says for itself is not told here,
    and a loop that goes on says nothing. -/
def Failure.message : Failure → Option String
  | .lexing e => some e.message
  | .parsing first count => some (unreadable first count).text
  | .checking ds => some (Diagnostic.summary ds).text
  | .running e => some e.report.text
  | .unworded _ | .unwritten => some digitsRefused
  | .refused _ | .stalled => none

/-- The forms of a program, with the problems met while reading it. -/
def parse (lenient : Bool) (source : String) : Except LexError (List Form × List Diagnostic) :=
  (tokenize source).map (parseTokens lenient)

/-- The forms of a program, where a text without tokens is a failure. -/
def parseOrFail (lenient : Bool) (source : String) :
    Except Failure (List Form × List Diagnostic) :=
  (parse lenient source).mapError Failure.lexing

/-- All that is wrong with a program: what its reading met, then what its check
    found. -/
def checkProgram (lenient : Bool) (source : String) : Except Failure (List Diagnostic) := do
  let (forms, problems) ← parseOrFail lenient source
  let found ← written (analyze forms).diagnostics
  return problems ++ found

/-- The forms that are evaluated in place of the forms of a program. -/
def Options.prepare (o : Options) (forms : List Form) : List Form :=
  if o.optimize then ListLang.optimize Pass.all forms else forms

/-- Evaluate the forms of a program in a session of its own inside a store. -/
def Options.interpret (o : Options) (store : Store) (forms : List Form) :
    Except Failure (List Value) × Store :=
  let (outcome, session) := (Session.within o.limits store).interpret (o.prepare forms)
  (outcome.mapError Halt.failure, session.store)

/-- The special forms whose value is not shown at the top level. -/
def SpecialForm.isSilent : SpecialForm → Bool
  | .setq | .func | .whileLoop => true
  | _ => false

/-- Whether the value of a form is not shown. -/
def Form.isSilent (form : Form) : Bool :=
  (form.expr.headName?.bind SpecialForm.ofName?).any SpecialForm.isSilent

/-- What running a program yields. -/
structure RunResult where
  /-- The values of all forms. -/
  values : List Value
  /-- The values that are shown. -/
  shown : List Value
  /-- The problems met while reading. -/
  parseDiagnostics : List Diagnostic
  /-- The problems that the check found. -/
  checkDiagnostics : List Diagnostic

/-- All problems, those met while reading first. -/
def RunResult.diagnostics (r : RunResult) : List Diagnostic :=
  r.parseDiagnostics ++ r.checkDiagnostics

/-- The texts of the values that are shown, if they can be written. -/
def RunResult.display (r : RunResult) : Option (List String) :=
  r.shown.mapM Value.text?

/-- Run a program for the values of all its forms. -/
def runProgram (o : Options) (source : String) : Except Failure RunResult := do
  let (forms, problems) ← parseOrFail o.lenient source
  let found ← written (analyze forms).diagnostics
  if o.strict ∧ (problems ++ found) ≠ [] then throw (.checking (problems ++ found))
  let values ← (o.interpret {} forms).1
  let shown := (forms.zip values).filterMap fun (form, v) => if form.isSilent then none else some v
  return ⟨values, shown, problems, found⟩

/-- The forms of a program that reads without problems and, if it must, checks
    without problems. -/
def Options.accept (o : Options) (source : String) : Except Failure (List Form) := do
  let (forms, problems) ← parseOrFail o.lenient source
  match problems with
  | first :: _ => throw (.parsing first problems.length)
  | [] =>
      let found ← if o.strict then written (analyze forms).diagnostics else .ok []
      if found ≠ [] then throw (.checking found)
      return forms

/-- Evaluate a program inside a store for the value of its last form. A program
    without forms has the value null. -/
def evaluateWithStore (o : Options) (store : Store) (source : String) :
    Except Failure Value × Store :=
  match o.accept source with
  | .error failure => (.error failure, store)
  | .ok forms =>
      let (outcome, store) := o.interpret store forms
      (outcome.map fun values => values.getLast?.getD .null, store)

/-- Evaluate a program for the value of its last form. -/
def evaluateProgram (o : Options) (source : String) : Except Failure Value :=
  (evaluateWithStore o {} source).1

/-- Evaluate a program for the text of the value of its last form. -/
def formatProgram (o : Options) (source : String) : Except Failure String :=
  (evaluateProgram o source).bind fun v => written v.text?

end ListLang
