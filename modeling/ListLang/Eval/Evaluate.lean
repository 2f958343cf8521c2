import ListLang.Eval.Stack
import ListLang.Eval.Step

/-!
# Evaluation

Evaluation goes one level deeper with every expression inside an expression and
with every body of a called function, and a limit says how deep it may go. What
is left of the limit is the budget of the recursion, so evaluation of any
expression ends, except that a loop may go round forever; `fuel` bounds the
rounds of every single loop.

## Main definitions

* `Limits`: How deep evaluation may go, and how often a loop may go round.
* `Limits.refusal?`: Whether the call stack refuses to hold so many levels.
* `evaluateWithin`: Evaluation with a budget of levels.
* `evaluate`: Evaluation at a depth.
-/

namespace ListLang

/-- How deep evaluation may go, and how often a loop may go round. -/
structure Limits where
  /-- The greatest depth. -/
  depth : Int
  /-- The greatest number of rounds of a loop. -/
  fuel : Nat
  /-- The call stack that the levels are kept on. -/
  stack : CallStack

/-- How many calls one level of evaluation makes at most. -/
def callsPerLevel : Int := 4

/-- How many calls the stack has to hold for evaluation to go as deep as it may. -/
def Limits.stackLimit (limits : Limits) : Int :=
  limits.stack.limit + limits.depth * callsPerLevel

/-- Why the call stack refuses to hold so many calls, if it does. -/
def Limits.refusal? (limits : Limits) : Option StackError :=
  limits.stack.refusal? limits.stackLimit

/-- Evaluate an expression, going through at most `budget` levels. -/
def evaluateWithin (limits : Limits) : (budget : Nat) → Evaluator
  | 0, e, _ => EvalM.fault (.tooDeep limits.depth e.text?)
  | budget + 1, e, env => step limits.fuel (evaluateWithin limits budget) e env

/-- Evaluate an expression that stands at the given depth. -/
def evaluate (limits : Limits) (depth : Int) : Evaluator :=
  evaluateWithin limits (limits.depth - depth + 1).toNat

end ListLang
