import ListLang.Eval.Evaluate

/-!
# Sessions

A session is a store with a global frame in which one form after another is
evaluated. What a form binds is there for the next, and what a failing form
bound before it failed stays bound.

At the top level nothing catches a `return` or a `break`, so either is an
error there; and an error that does not know its line gets the line of the
form. For an error without words there is another one, which shows the form.

Two failures are not reported as errors: the call stack may refuse the limits
before evaluation begins, and there may be no words for an error nor any for the
form.

## Main definitions

* `Session`: A store, its global frame and the limits of evaluation.
* `Halt`: Why the evaluation of a form has no value.
* `Session.evaluateForm`: Evaluating one form.
* `Session.interpret`: Evaluating forms up to the first that fails.
* `Session.evaluateEach`: Evaluating forms, whether they fail or not.
-/

namespace ListLang

/-- A store, its global frame and the limits of evaluation. -/
structure Session where
  /-- The limits of evaluation. -/
  limits : Limits
  /-- The global frame. -/
  globals : Nat
  /-- All frames. -/
  store : Store

/-- Why the evaluation of a form has no value. -/
inductive Halt where
  /-- An error, which now knows its line. -/
  | failed (e : EvalError)
  /-- There are no words for an error, nor for the form that it is in. -/
  | unworded (cause : EvalCause)
  /-- The call stack refused the limits. -/
  | refused (e : StackError)
  /-- A loop used up its allowance of rounds. -/
  | stalled

/-- What an error means at the top level, in the given form. -/
def EvalError.halt (form : Form) (e : EvalError) : Halt :=
  if e.cause.isWorded then .failed { e with line := some (e.line.getD form.line) }
  else match form.expr.text? with
    | some text => .failed ⟨.unexpected text e.cause, some form.line⟩
    | none => .unworded e.cause

/-- What an exit means at the top level, in the given form. -/
def Exit.halt (form : Form) : Exit → Halt
  | .fault e => e.halt form
  | .returned _ => .failed ⟨.strayReturn, some form.line⟩
  | .broke => .failed ⟨.strayBreak, some form.line⟩
  | .stalled => .stalled

namespace Session

/-- A session with an empty global frame of its own in a store. -/
def within (limits : Limits) (store : Store) : Session :=
  let (globals, store) := store.push { label := "global", parent := none }
  ⟨limits, globals, store⟩

/-- A session in a store of its own. -/
def new (limits : Limits) : Session :=
  within limits {}

/-- The global bindings. -/
def bindings (s : Session) : Table Value :=
  s.store.bindings s.globals

/-- Bind a global name. -/
def define (s : Session) (name : String) (v : Value) : Session :=
  { s with store := s.store.define s.globals name v }

/-- Evaluate one form, with room for all levels on the call stack. -/
def evaluateForm : Session → Form → Except Halt Value × Session
  | ⟨limits, globals, store⟩, form =>
      match limits.refusal? with
      | some e => (.error (.refused e), ⟨limits, globals, store⟩)
      | none => match evaluate limits 0 form.expr globals store with
        | .ok v store => (.ok v, ⟨limits, globals, store⟩)
        | .error exit store => (.error (exit.halt form), ⟨limits, globals, store⟩)

/-- Evaluate forms up to the first that fails. -/
def interpret (s : Session) : List Form → Except Halt (List Value) × Session
  | [] => (.ok [], s)
  | form :: forms =>
      match s.evaluateForm form with
      | (.error halt, s) => (.error halt, s)
      | (.ok v, s) =>
          let (rest, s) := s.interpret forms
          (rest.map (v :: ·), s)

/-- Evaluate forms one after another, whether they fail or not. -/
def evaluateEach (s : Session) : List Form → List (Except Halt Value) × Session
  | [] => ([], s)
  | form :: forms =>
      let (outcome, s) := s.evaluateForm form
      let (rest, s) := s.evaluateEach forms
      (outcome :: rest, s)

end Session

end ListLang
