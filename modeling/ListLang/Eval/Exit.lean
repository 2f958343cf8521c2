import ListLang.Eval.Error
import ListLang.Store
import ListLang.Text.Similar

/-!
# Exits

Evaluating an expression changes the store and gives a value, unless it leaves
early: with an error, with a `return` or a `break` on its way to whatever
catches it, or because a loop used up its allowance of rounds. The changes made
before leaving stay.

## Main definitions

* `Exit`: The ways of leaving early.
* `EvalM`: Evaluation with a store.
* `lookup`, `bindName`, `newFrame`: Names and frames.
* `catchReturn`, `catchBreak`, `catchCall`: What stops a `return` or a `break`.
-/

namespace ListLang

/-- The ways in which evaluation leaves an expression early. -/
inductive Exit where
  /-- An error. -/
  | fault (e : EvalError)
  /-- A `return` with its value. -/
  | returned (v : Value)
  /-- A `break`. -/
  | broke
  /-- A loop used up its allowance of rounds. -/
  | stalled

/-- Evaluation: it may leave early, and it changes the store either way. -/
abbrev EvalM := EStateM Exit Store

/-- The value of a name, seen from a frame. A name without a value is an error
    that suggests the names most similar to it. -/
def Store.lookup (s : Store) (env : Nat) (name : String) : Except EvalCause Value :=
  match s.find? env name with
  | some v => .ok v
  | none => .error (.undefinedAtom name (suggestions name (s.available env)))

namespace EvalM

/-- Leave with an error whose line is not known. -/
def fault {α : Type} (cause : EvalCause) : EvalM α :=
  throw (.fault ⟨cause, none⟩)

/-- Leave with an error that belongs to a line, if the line is known. -/
def faultOn {α : Type} (line : Option Int) (cause : EvalCause) : EvalM α :=
  throw (.fault ⟨cause, line⟩)

/-- The value of a computation that fails with a cause. -/
def ofExcept {α : Type} : Except EvalCause α → EvalM α
  | .ok a => pure a
  | .error cause => fault cause

/-- The value of a name, seen from a frame. -/
def lookup (name : String) (env : Nat) : EvalM Value := do
  ofExcept ((← get).lookup env name)

/-- Bind a name in a frame. -/
def bindName (name : String) (v : Value) (env : Nat) : EvalM Unit :=
  modify fun s => s.define env name v

/-- Make a frame with the given bindings inside another. -/
def newFrame (label : String) (parent : Nat) (bindings : Table Value) : EvalM Nat :=
  modifyGet fun s => s.push { label := label, parent := some parent, bindings := bindings }

/-- Stop a `return`, whose value becomes the value. -/
def catchReturn (x : EvalM Value) : EvalM Value :=
  tryCatch x fun
    | .returned v => pure v
    | exit => throw exit

/-- Stop a `break`, which leaves no value. -/
def catchBreak (x : EvalM Value) : EvalM (Option Value) :=
  tryCatch (some <$> x) fun
    | .broke => pure none
    | exit => throw exit

/-- The boundary of a call: a `return` ends the call and a `break` may not leave
    it. -/
def catchCall (f : Closure) (x : EvalM Value) : EvalM Value :=
  tryCatch x fun
    | .returned v => pure v
    | .broke => fault (.breakEscaped f.text)
    | exit => throw exit

end EvalM

end ListLang
