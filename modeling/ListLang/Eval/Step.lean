import ListLang.Builtin.Apply
import ListLang.Eval.Exit

/-!
# One Level of Evaluation

How the value of an expression is made from the values of the expressions
directly inside it and of the bodies of the functions it calls. Those values
come from `sub`, the evaluator for one level further in, so everything here is
free of recursion through expressions.

## Main definitions

* `Evaluator`: What evaluates an expression in a frame.
* `evalAll`, `evalSequence`: Several expressions, for all values or the last.
* `callClosure`, `callBuiltin`, `callNamed`, `callComputed`: Calls.
* `special`: The special forms.
* `step`: Any expression.
-/

namespace ListLang

/-- What evaluates an expression in a frame. -/
abbrev Evaluator := Expr → Nat → EvalM Value

/-- Evaluate expressions from left to right, for all their values. -/
def evalAll (sub : Evaluator) (env : Nat) : List Expr → EvalM (List Value)
  | [] => pure []
  | e :: es => do
      let v ← sub e env
      let vs ← evalAll sub env es
      pure (v :: vs)

/-- Evaluate expressions from left to right, for the value of the last. Without
    any the value is `result`. -/
def evalSequence (sub : Evaluator) (env : Nat) : Value → List Expr → EvalM Value
  | result, [] => pure result
  | _, e :: es => do
      let v ← sub e env
      evalSequence sub env v es

/-- Call a function. Its parameters are bound in a new frame inside the frame in
    which the function was made. -/
def callClosure (sub : Evaluator) (f : Closure) (args : List Value) : EvalM Value := do
  if args.length ≠ f.params.length then
    EvalM.fault (.functionArity f.label? f.params (args.map Value.text?))
  else
    let frame ← EvalM.newFrame (f.label?.getD "lambda" ++ "-call") f.frame
      (Table.insertEach {} (f.params.zip args))
    EvalM.catchCall f (sub f.body frame)

/-- Evaluate a list as an expression. Any other value stands for itself. -/
def evalValue (sub : Evaluator) (env : Nat) : Value → EvalM Value
  | .list items => do
      let e ← EvalM.ofExcept ((Value.list items).toCode none)
      sub e env
  | v => pure v

/-- Call a builtin. -/
def callBuiltin (sub : Evaluator) (env : Nat) (b : Builtin) (args : List Value) :
    EvalM Value :=
  match b, args with
  | .eval, [v] => evalValue sub env v
  | b, args => EvalM.ofExcept (b.apply args)

/-- Call whatever has the given name: a function that is bound to it, else a
    builtin, else nothing. -/
def callNamed (sub : Evaluator) (env : Nat) (name : String) (args : List Expr) :
    EvalM Value := do
  let vs ← evalAll sub env args
  let s ← get
  match s.find? env name with
  | some (.function f) => callClosure sub f vs
  | bound => match Builtin.ofName? name, bound with
    | some b, _ => callBuiltin sub env b vs
    | none, some v => EvalM.fault (.notFunction name v.shown)
    | none, none =>
        let names := s.available env ++ Builtin.all.map Builtin.name
        EvalM.fault (.undefinedFunction name (suggestions name names))

/-- Call the function that an expression evaluates to. -/
def callComputed (sub : Evaluator) (env : Nat) (callee : Expr) (args : List Expr) :
    EvalM Value := do
  match ← sub callee env with
  | .function f =>
      let vs ← evalAll sub env args
      callClosure sub f vs
  | v => EvalM.fault (.headNotFunction v.shown)

/-- The truth value of a condition. -/
def evalCondition (sub : Evaluator) (env : Nat) (form : SpecialForm) (e : Expr) :
    EvalM Bool := do
  match ← sub e env with
  | .boolean b => pure b
  | v => EvalM.fault (.conditionKind form v.shown)

/-- Go round a loop while its test holds, at most `fuel` times. The value is
    that of the last expression evaluated in the body, or null after a
    `break`. -/
def evalLoop (sub : Evaluator) (env : Nat) (test : Expr) (body : List Expr) :
    (fuel : Nat) → Value → EvalM Value
  | 0, _ => throw .stalled
  | fuel + 1, result => do
      if ← evalCondition sub env .whileLoop test then
        match ← EvalM.catchBreak (evalSequence sub env result body) with
        | some v => evalLoop sub env test body fuel v
        | none => pure .null
      else pure result

/-- A special form with the arguments `args`. The whole list `e` is shown when it
    is not written as it should be. -/
def special (fuel : Nat) (sub : Evaluator) (env : Nat) (e : Expr) :
    SpecialForm → List Expr → EvalM Value
  | .quote, [datum] => pure datum.quoted
  | .setq, [.atom _ name, value] => do
      let v ← sub value env
      EvalM.bindName name v env
      pure v
  | .func, [.atom _ name, params, body] => match params.names? with
    | some names => do
        let v := Value.function ⟨names, body, env, some name⟩
        EvalM.bindName name v env
        pure v
    | none => EvalM.faultOn e.line (.namesExpected .func e.text?)
  | .lambda, [params, body] => match params.names? with
    | some names => pure (.function ⟨names, body, env, none⟩)
    | none => EvalM.faultOn e.line (.namesExpected .lambda e.text?)
  | .prog, locals :: forms => match locals.names? with
    | some names => do
        let frame ← EvalM.newFrame "prog" env (Table.insertAll {} names .null)
        EvalM.catchReturn (evalSequence sub frame .null forms)
    | none => EvalM.faultOn e.line (.namesExpected .prog e.text?)
  | .cond, [test, yes] => do
      if ← evalCondition sub env .cond test then sub yes env else pure .null
  | .cond, [test, yes, no] => do
      if ← evalCondition sub env .cond test then sub yes env else sub no env
  | .whileLoop, test :: body => evalLoop sub env test body fuel .null
  | .returnValue, [] => throw (.returned .null)
  | .returnValue, [value] => do
      let v ← sub value env
      throw (.returned v)
  | .breakLoop, [] => throw .broke
  | form, _ => EvalM.faultOn e.line (.malformed form e.text?)

/-- A list with the given head and arguments. -/
def evalList (fuel : Nat) (sub : Evaluator) (env : Nat) (e : Expr) :
    Expr → List Expr → EvalM Value
  | .atom _ name, args => match SpecialForm.ofName? name with
    | some form => special fuel sub env e form args
    | none => callNamed sub env name args
  | callee, args => callComputed sub env callee args

/-- Any expression. -/
def step (fuel : Nat) (sub : Evaluator) (e : Expr) (env : Nat) : EvalM Value :=
  match e with
  | .atom _ name => EvalM.lookup name env
  | .integer _ n => pure (.integer n)
  | .real _ x => pure (.real x)
  | .boolean _ b => pure (.boolean b)
  | .null _ => pure .null
  | .list _ [] => pure .null
  | .list _ (head :: args) => evalList fuel sub env e head args

end ListLang
