import ListLang.Eval.Step

/-!
# Layouts of Expressions

Evaluation tells six kinds of expression apart: atoms, literals, the empty list,
and lists that are special forms, calls of a name or calls of a function that
has to be computed first. A special form is either written as it should be, in
one of eleven ways, or it is not, and then evaluating it does nothing but
complain. Every argument about special forms starts from this split, so it is
made once, here. Whoever needs to know what a special form does takes its shape
apart and is left with the parts that are evaluated.

A call of a name has two parts as well: the arguments, and then whatever the
name stands for by the time they are known.

## Main definitions

* `Expr.isLiteral`: Whether an expression evaluates to what it is written as.
* `Expr.Layout`: The kinds of expression that evaluation tells apart.
* `SpecialForm.Shape`: The ways in which a special form is written as it
  should be.
* `SpecialForm.complaint`: What is said about a form that is not.
* `callBound`: A call of a name whose value is known.

## Theorems

* `Expr.layout`: Every expression has a layout.
* `Expr.mem_of_names?`: The names in a list of atoms.
* `step_of_isLiteral`, `step_computed`, `step_special`, `step_call`: Evaluation
  of an expression by its layout.
* `special_of_not_shape`: A form without a shape only complains.
* `callNamed_eq`: A call of a name, arguments first.
* `callBound_of_not_function`: A name without a function stands for a builtin
  or for nothing that can be called.
* `callBuiltin_of_ne_eval`: Only `eval` evaluates anything.
* `Builtin.not_special`: Builtins and special forms share no name.
* `Builtin.apply_of_length_ne`: A wrong number of arguments is an error.
-/

namespace ListLang

namespace Expr

/-- Whether the expression evaluates to what it is written as. -/
def isLiteral : Expr → Bool
  | .integer .. | .real .. | .boolean .. | .null .. => true
  | .atom .. | .list .. => false

/-- The kinds of expression that evaluation tells apart. -/
inductive Layout : Expr → Prop where
  | atom (line : Option Int) (name : String) : Layout (.atom line name)
  | literal {e : Expr} (h : e.isLiteral = true) : Layout e
  | empty (line : Option Int) : Layout (.list line [])
  | computed (line : Option Int) {head : Expr} (args : List Expr) (h : head.atomName? = none) :
      Layout (.list line (head :: args))
  | special (line own : Option Int) {name : String} {form : SpecialForm} (args : List Expr)
      (h : SpecialForm.ofName? name = some form) : Layout (.list line (.atom own name :: args))
  | call (line own : Option Int) {name : String} (args : List Expr)
      (h : SpecialForm.ofName? name = none) : Layout (.list line (.atom own name :: args))

theorem layout (e : Expr) : e.Layout := by
  cases e with
  | atom line name => exact .atom line name
  | integer _ _ | real _ _ | boolean _ _ | null _ => exact .literal rfl
  | list line items =>
      cases items with
      | nil => exact .empty line
      | cons head args =>
          cases head with
          | integer _ _ | real _ _ | boolean _ _ | null _ | list _ _ =>
              exact .computed line args rfl
          | atom own name =>
              cases hname : SpecialForm.ofName? name with
              | some form => exact .special line own args hname
              | none => exact .call line own args hname

theorem atomName?_of_isLiteral {e : Expr} (h : e.isLiteral = true) : e.atomName? = none := by
  cases e with
  | integer _ _ | real _ _ | boolean _ _ | null _ => rfl
  | atom _ _ | list _ _ => exact absurd h Bool.false_ne_true

/-- The names in a list of atoms stand there. -/
theorem mem_of_names? {params : Expr} {names : List String} (h : params.names? = some names)
    {p : String} (hp : p ∈ names) :
    ∃ line items, params = .list line items ∧ ∃ own, .atom own p ∈ items := by
  cases params with
  | atom _ _ | integer _ _ | real _ _ | boolean _ _ | null _ => cases h
  | list line items =>
      refine ⟨line, items, rfl, ?_⟩
      change items.mapM atomName? = some names at h
      induction items generalizing names with
      | nil =>
          cases h
          exact absurd hp List.not_mem_nil
      | cons e es ih =>
          rw [List.mapM_cons] at h
          simp only [bind, pure, Option.bind_eq_some_iff, Option.some.injEq] at h
          rcases h with ⟨name, hname, rest, hrest, rfl⟩
          rcases List.mem_cons.mp hp with rfl | hp
          · cases e with
            | atom own _ =>
                cases hname
                exact ⟨own, List.mem_cons_self⟩
            | integer _ _ | real _ _ | boolean _ _ | null _ | list _ _ => cases hname
          · rcases ih hp hrest with ⟨own, hmem⟩
            exact ⟨own, List.mem_cons_of_mem _ hmem⟩

end Expr

section Step

variable (fuel : Nat) (sub : Evaluator) (env : Nat)

theorem step_of_isLiteral {e : Expr} (h : e.isLiteral = true) :
    step fuel sub e env = pure e.quoted := by
  cases e with
  | integer _ _ | real _ _ | boolean _ _ | null _ => rfl
  | atom _ _ | list _ _ => exact absurd h Bool.false_ne_true

theorem step_computed {head : Expr} (h : head.atomName? = none) (line : Option Int)
    (args : List Expr) :
    step fuel sub (.list line (head :: args)) env = callComputed sub env head args := by
  cases head with
  | atom _ _ => exact absurd h (Option.some_ne_none _)
  | integer _ _ | real _ _ | boolean _ _ | null _ | list _ _ => rfl

theorem step_special {name : String} {form : SpecialForm}
    (h : SpecialForm.ofName? name = some form) (line own : Option Int) (args : List Expr) :
    step fuel sub (.list line (.atom own name :: args)) env =
      special fuel sub env (.list line (.atom own name :: args)) form args := by
  simp only [step, evalList, h]

theorem step_call {name : String} (h : SpecialForm.ofName? name = none) (line own : Option Int)
    (args : List Expr) :
    step fuel sub (.list line (.atom own name :: args)) env = callNamed sub env name args := by
  simp only [step, evalList, h]

end Step

namespace SpecialForm

/-- A name stands for one form only. -/
theorem ofName?_ne {name : String} {form form' : SpecialForm} (h : ofName? name = some form)
    (hne : form ≠ form') : ofName? name ≠ some form' := by
  rw [h, Ne, Option.some.injEq]
  exact hne

/-- The ways in which a special form is written as it should be. -/
inductive Shape : SpecialForm → List Expr → Prop where
  | quote (datum : Expr) : Shape .quote [datum]
  | setq (line : Option Int) (name : String) (value : Expr) :
      Shape .setq [.atom line name, value]
  | func (line : Option Int) (name : String) (params body : Expr) (names : List String)
      (h : params.names? = some names) : Shape .func [.atom line name, params, body]
  | lambda (params body : Expr) (names : List String) (h : params.names? = some names) :
      Shape .lambda [params, body]
  | prog (locals : Expr) (forms : List Expr) (names : List String)
      (h : locals.names? = some names) : Shape .prog (locals :: forms)
  | condThen (test yes : Expr) : Shape .cond [test, yes]
  | condElse (test yes no : Expr) : Shape .cond [test, yes, no]
  | whileLoop (test : Expr) (body : List Expr) : Shape .whileLoop (test :: body)
  | returnNull : Shape .returnValue []
  | returnValue (value : Expr) : Shape .returnValue [value]
  | breakLoop : Shape .breakLoop []

/-- What is said about a special form that is not written as it should be. Where
    only the bound names are at fault, that is what is said. -/
def complaint (form : SpecialForm) (args : List Expr) : Option String → EvalCause :=
  match form, args with
  | .func, [.atom .., _, _] | .lambda, [_, _] | .prog, _ :: _ => .namesExpected form
  | form, _ => .malformed form

/-- A special form that is not written as it should be changes nothing and
    evaluates nothing. -/
theorem special_of_not_shape {form : SpecialForm} {args : List Expr} (h : ¬ Shape form args)
    (fuel : Nat) (sub : Evaluator) (env : Nat) (e : Expr) :
    special fuel sub env e form args = EvalM.faultOn e.line (form.complaint args e.text?) := by
  fun_cases special fuel sub env e form args with
  | case1 datum => exact absurd (Shape.quote datum) h
  | case2 line name value => exact absurd (Shape.setq line name value) h
  | case3 line name params body names hnames =>
      exact absurd (.func line name params body names hnames) h
  | case4 => rfl
  | case5 params body names hnames => exact absurd (.lambda params body names hnames) h
  | case6 => rfl
  | case7 locals forms names hnames => exact absurd (.prog locals forms names hnames) h
  | case8 => rfl
  | case9 test yes => exact absurd (Shape.condThen test yes) h
  | case10 test yes no => exact absurd (Shape.condElse test yes no) h
  | case11 test body => exact absurd (Shape.whileLoop test body) h
  | case12 => exact absurd Shape.returnNull h
  | case13 value => exact absurd (Shape.returnValue value) h
  | case14 => exact absurd Shape.breakLoop h
  | case15 form args _ _ hfunc hlambda hprog =>
      -- The three complaints about names belong to forms handled above.
      unfold complaint
      split
      · exact (hfunc _ _ _ _ rfl rfl).elim
      · exact (hlambda _ _ rfl rfl).elim
      · exact (hprog _ _ rfl rfl).elim
      · rfl

end SpecialForm

/-- Call what a name stands for, given the value it is bound to, if any, and the
    names in sight. -/
def callBound (sub : Evaluator) (env : Nat) (name : String) (vs : List Value)
    (bound : Option Value) (inSight : List String) : EvalM Value :=
  match bound with
  | some (.function f) => callClosure sub f vs
  | bound => match Builtin.ofName? name, bound with
    | some b, _ => callBuiltin sub env b vs
    | none, some v => EvalM.fault (.notFunction name v.shown)
    | none, none =>
        EvalM.fault (.undefinedFunction name
          (suggestions name (inSight ++ Builtin.all.map Builtin.name)))

theorem callNamed_eq (sub : Evaluator) (env : Nat) (name : String) (args : List Expr) :
    callNamed sub env name args = (do
      let vs ← evalAll sub env args
      let s ← get
      callBound sub env name vs (s.find? env name) (s.available env)) :=
  rfl

theorem callBound_of_not_function {v : Value} (h : ∀ f, v ≠ .function f) (sub : Evaluator)
    (env : Nat) (name : String) (vs : List Value) (inSight : List String) :
    callBound sub env name vs (some v) inSight = match Builtin.ofName? name with
      | some b => callBuiltin sub env b vs
      | none => EvalM.fault (.notFunction name v.shown) := by
  cases v with
  | function f => exact absurd rfl (h f)
  | atom _ | integer _ | real _ | boolean _ | null | list _ =>
      cases hb : Builtin.ofName? name <;> simp only [callBound, hb]

theorem callBound_none (sub : Evaluator) (env : Nat) (name : String) (vs : List Value)
    (inSight : List String) :
    callBound sub env name vs none inSight = match Builtin.ofName? name with
      | some b => callBuiltin sub env b vs
      | none => EvalM.fault (.undefinedFunction name
          (suggestions name (inSight ++ Builtin.all.map Builtin.name))) := by
  cases hb : Builtin.ofName? name <;> simp only [callBound, hb]

theorem callBuiltin_of_ne_eval {b : Builtin} (h : b ≠ .eval) (sub : Evaluator) (env : Nat)
    (vs : List Value) : callBuiltin sub env b vs = EvalM.ofExcept (b.apply vs) := by
  cases b with
  | eval => exact absurd rfl h
  | arithmetic _ | comparison _ | connective _ | cons => rfl
  | not | head | tail | predicate _ => rfl

/-- No builtin has the name of a special form. -/
theorem Builtin.not_special (b : Builtin) : SpecialForm.ofName? b.name = none := by
  cases b with
  | arithmetic op => cases op <;> decide
  | comparison op => cases op <;> decide
  | connective op => cases op <;> decide
  | predicate p => cases p <;> decide
  | head | tail | cons | not | eval => decide

/-- A wrong number of arguments is an error whatever they are. -/
theorem Builtin.apply_of_length_ne {b : Builtin} {vs : List Value} (h : vs.length ≠ b.arity) :
    b.apply vs = .error (.builtinArity b (vs.map Value.text?)) := by
  -- No clause for a right number of arguments can apply.
  match vs with
  | [] => cases b <;> rfl
  | [v] =>
      cases b with
      | arithmetic _ | comparison _ | connective _ | cons => rfl
      | not | head | tail | predicate _ | eval => exact absurd rfl h
  | [v, w] =>
      cases b with
      | arithmetic _ | comparison _ | connective _ | cons => exact absurd rfl h
      | not | head | tail | predicate _ | eval => rfl
  | v :: w :: x :: rest => cases b <;> rfl

end ListLang
