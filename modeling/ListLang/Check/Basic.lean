import ListLang.Check.Infer
import ListLang.Check.Monad
import ListLang.Check.Problems

/-!
# Checking a Program

A program is checked without running it. The checker walks through every
expression that would be evaluated, keeps a chain of scopes for the names bound
on the way, and notes whatever is bound to fail: names bound nowhere, forms not
written as they should be, wrong numbers of arguments, arguments that cannot
have the right type, and a `return` or `break` that nothing would catch. It
never stops at a problem.

A function is recorded before its body is checked, so it may call itself.

How an expression is checked depends on what it is there for: a function that
is called on the spot and a quoted list that `eval` gets are looked into in
their own ways. So an expression has a check for each use, made from the checks
of its items.

## Main definitions

* `Use`: What an expression is there for.
* `Checker`: The check of an expression, given its use.
* `checkSpecial`, `checkCall`, `checkList`: Lists, from the checks of their items.
* `checker`: The check of any expression.
* `check`: Checking an expression that is evaluated.
* `analyze`: Checking a program.

## Theorems

* `partsOf_eq_map`, `map_expr_partsOf`, `forall_mem_partsOf`: The items of a list.
* `diagnostics_eq_some_nil_iff`: When there are no diagnostics.
-/

namespace ListLang

/-- Check that a name is bound somewhere. -/
def checkName (line : Int) (name : String) : CheckM Unit := do
  let chain ← CheckM.sight
  let known := (SpecialForm.ofName? name).isSome || (Builtin.ofName? name).isSome
    || (chain.typeOf? name).isSome || (chain.function? name).isSome
  CheckM.noteIf (!known) line (.undeclared name)

/-- Check that a condition may be a truth value. -/
def checkCondition (line : Int) (form : SpecialForm) (e : Expr) : CheckM Unit := do
  let type := inferType (← CheckM.sight) 0 e
  CheckM.noteIf (!type.isCondition) (e.line.getD line) (.conditionType form type)

/-- What an expression is there for. -/
inductive Use where
  /-- It is evaluated. -/
  | value
  /-- It is called with `count` arguments, which `args` checks. -/
  | callee (count : Nat) (args : CheckM Unit)
  /-- It is the argument of `eval`, whose value is evaluated in turn. -/
  | code

/-- A check of one expression, given its use, its surroundings and the line it
    is taken to stand on if it has none of its own. -/
abbrev Checker := Use → Surroundings → Int → CheckM Unit

/-- An item of a list, with its check. -/
structure Part where
  /-- The item. -/
  expr : Expr
  /-- Its check. -/
  check : Checker

/-- Check items from left to right, as they are evaluated. -/
def checkParts (around : Surroundings) (line : Int) : List Part → CheckM Unit
  | [] => pure ()
  | part :: parts => do
      part.check .value around line
      checkParts around line parts

/-- Check the body of a function with the given parameters. -/
def checkBody (line : Int) (names : List String) (body : Part) : CheckM Unit :=
  CheckM.inScope (.ofNames names) (body.check .value .body line)

/-- Check a special form with the given arguments. -/
def checkSpecial (around : Surroundings) (line : Int) (form : SpecialForm) (args : List Part) :
    CheckM Unit :=
  match form, args with
  | .quote, [_] => pure ()
  | .setq, [⟨.atom _ name, _⟩, value] => do
      value.check .value around line
      let type := inferType (← CheckM.sight) 0 value.expr
      CheckM.updateScope fun s => s.defineVariable name type
  | .setq, [_, _] => CheckM.note line (.targetNotAtom .setq)
  | .func, [⟨.atom _ name, _⟩, ⟨.list _ params, _⟩, body] => do
      let (names, problems) := boundNames .func params
      CheckM.noteAll line problems
      CheckM.updateScope fun s => s.defineFunction name ⟨names, body.expr⟩
      checkBody line names body
  | .func, [⟨.atom .., _⟩, _, _] => CheckM.note line (.namesNotList .func)
  | .func, [_, _, _] => CheckM.note line (.targetNotAtom .func)
  | .lambda, [⟨.list _ params, _⟩, body] => do
      let (names, problems) := boundNames .lambda params
      CheckM.noteAll line problems
      checkBody line names body
  | .lambda, [_, _] => CheckM.note line (.namesNotList .lambda)
  | .prog, ⟨.list _ locals, _⟩ :: form :: forms => do
      let (names, problems) := boundNames .prog locals
      CheckM.noteAll line problems
      CheckM.inScope (.ofNames names)
        (checkParts { around with inProg := true } line (form :: forms))
  | .prog, _ :: _ :: _ => CheckM.note line (.namesNotList .prog)
  | .cond, [test, yes] => do
      test.check .value around line
      checkCondition line .cond test.expr
      checkParts around line [yes]
  | .cond, [test, yes, no] => do
      test.check .value around line
      checkCondition line .cond test.expr
      checkParts around line [yes, no]
  | .whileLoop, test :: form :: forms => do
      test.check .value around line
      checkCondition line .whileLoop test.expr
      checkParts { around with inWhile := true } line (form :: forms)
  | .returnValue, args =>
      if around.inProg || around.inFunc then do
        CheckM.noteIf (args.length > 1) line (.formArity .returnValue args.length)
        checkParts around line args
      else CheckM.note line .strayReturn
  | .breakLoop, args =>
      if around.inWhile then
        CheckM.noteIf (args.length > 0) line (.formArity .breakLoop args.length)
      else CheckM.note line .strayBreak
  | form, args => CheckM.note line (.formArity form args.length)

/-- Check the code that `eval` gets, if it has a single argument. -/
def checkEvaluated (around : Surroundings) (line : Int) : List Part → CheckM Unit
  | [arg] => arg.check .code around line
  | _ => pure ()

/-- Check a call of a name with the given arguments. A function that the program
    defines hides a builtin of its name. -/
def checkCall (around : Surroundings) (line : Int) (name : String) (args : List Part) :
    CheckM Unit := do
  let chain ← CheckM.sight
  let entry := chain.function? name
  let builtin := Builtin.ofName? name
  CheckM.noteIf (builtin.isNone && entry.isNone && (chain.typeOf? name).isNone) line
    (.undefinedFunction name)
  checkParts around line args
  match entry, builtin with
  | some f, _ =>
      CheckM.noteIf (f.params.length ≠ args.length) line
        (.callArity name f.params.length args.length)
  | none, some b => do
      let types := inferTypes (← CheckM.sight) 0 (args.map (·.expr))
      CheckM.noteAll line (builtinProblems b types)
      if b = .eval then checkEvaluated around line args
  | none, none => pure ()

/-- Check a list that is evaluated. -/
def checkList (around : Surroundings) (line : Int) : List Part → CheckM Unit
  | [] => pure ()
  | ⟨.atom _ name, _⟩ :: args => match SpecialForm.ofName? name with
    | some form => checkSpecial around line form args
    | none => checkCall around line name args
  | head :: args => head.check (.callee args.length (checkParts around line args)) around line

/-- Check a function that is called on the spot with `count` arguments, which
    `args` checks. The function itself stands on the line `own`. -/
def checkCalledLambda (own line : Int) (count : Nat) (args : CheckM Unit) :
    List Part → CheckM Unit
  | [⟨.list _ params, _⟩, body] => do
      let (names, problems) := boundNames .lambda params
      CheckM.noteAll line problems
      CheckM.noteIf (names.length ≠ count) line (.calledLambdaArity names.length count)
      args
      checkBody own names body
  | [_, _] => CheckM.note line .calledLambdaParams
  | _ => CheckM.note line .calledLambdaShape

/-- Check a list with a line of its own, whatever its use. -/
def listChecker (own : Option Int) (items : List Part) : Checker
  | .value, around, line => checkList around (own.getD line) items
  | .callee count args, around, line => match items with
    | ⟨.atom _ name, _⟩ :: parts =>
        if name = SpecialForm.lambda.name then
          checkCalledLambda (own.getD line) line count args parts
        else do
          checkList around (own.getD line) items
          args
    | _ => do
        checkList around (own.getD line) items
        args
  | .code, around, line => match items with
    | [⟨.atom _ name, _⟩, ⟨.list .., checkDatum⟩] =>
        if name = SpecialForm.quote.name then checkDatum .value around line else pure ()
    | _ => pure ()

/-- Check an expression that is no list. -/
def leafChecker (evaluated : Int → CheckM Unit) : Checker
  | .value, _, line => evaluated line
  | .callee _ args, _, line => do
      evaluated line
      args
  | .code, _, _ => pure ()

mutual

/-- The check of an expression. -/
def checker : Expr → Checker
  | .atom own name => leafChecker fun line => checkName (own.getD line) name
  | .integer .. | .real .. | .boolean .. | .null .. => leafChecker fun _ => pure ()
  | .list own items => listChecker own (partsOf items)

/-- The items of a list, with their checks. -/
def partsOf : List Expr → List Part
  | [] => []
  | e :: es => ⟨e, checker e⟩ :: partsOf es

end

theorem partsOf_eq_map (es : List Expr) : partsOf es = es.map fun e => ⟨e, checker e⟩ := by
  induction es with
  | nil => rfl
  | cons e es ih => simp only [partsOf, List.map_cons, ih]

theorem map_expr_partsOf (es : List Expr) : (partsOf es).map Part.expr = es := by
  rw [partsOf_eq_map, List.map_map]
  exact List.map_id es

theorem forall_mem_partsOf {es : List Expr} {P : Part → Prop} :
    (∀ p ∈ partsOf es, P p) ↔ ∀ e ∈ es, P ⟨e, checker e⟩ := by
  rw [partsOf_eq_map, List.forall_mem_map]

/-- Check an expression that is evaluated. -/
def check (around : Surroundings) (line : Int) (e : Expr) : CheckM Unit :=
  checker e .value around line

/-- What checking a program finds. -/
structure Analysis where
  /-- The problems, in the order in which they were met, `none` for one without
      words. -/
  found : List (Option Diagnostic)
  /-- What the program binds at the top level. -/
  globals : Scope

/-- The problems with a program, unless there are no words for one of them. -/
def Analysis.diagnostics (a : Analysis) : Option (List Diagnostic) :=
  a.found.mapM id

/-- There are no diagnostics if nothing was found, with words or without. -/
theorem Analysis.diagnostics_eq_some_nil_iff (a : Analysis) :
    a.diagnostics = some [] ↔ a.found = [] := by
  unfold diagnostics
  cases a.found with
  | nil => simp only [List.mapM_nil, pure]
  | cons problem found =>
      simp only [List.mapM_cons, id_eq, bind, Option.bind_eq_some_iff, pure, Option.some.injEq,
        reduceCtorEq, and_false, exists_false]

/-- Check the forms of a program from left to right. -/
def checkForms : List Form → CheckM Unit
  | [] => pure ()
  | form :: forms => do
      check {} form.line form.expr
      checkForms forms

/-- Check a program. -/
def analyze (forms : List Form) : Analysis :=
  let result := ((checkForms forms).run { chain := [{}] }).2
  { found := result.found, globals := result.chain.headD {} }

end ListLang
