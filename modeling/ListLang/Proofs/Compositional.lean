import ListLang.Proofs.Computation
import ListLang.Proofs.Shape

/-!
# Compositional Properties of Evaluation

Evaluation in a frame is put together from few parts: values and exits, one
thing after another, handlers that let everything pass but a `return` or a
`break`, looking at the store, binding a name in the frame, and evaluating in a
new frame. A property that holds of the parts, and of a whole if it holds of
its parts, holds of every level of evaluation as soon as it holds of the
evaluator for one level further in. Where it holds of some expressions only, it
holds of what is made of those.

Properties are stated as relations between two computations in a frame, so that
two evaluators can be compared; a property of one evaluator is a relation that
looks at one side only.

## Main definitions

* `Passive`: Handlers that change no store and let errors and giving up pass.
* `Compositional`, `CompositionalAt`: Relations that hold of a whole if they
  hold of its parts.
* `SpecialForm.isOpen`, `SpecialForm.target?`: What a special form evaluates and
  binds where it stands.

## Theorems

* `Compositional.evalAll`, `Compositional.evalSequence`: Several expressions.
* `Compositional.callBuiltin`, `Compositional.callBound`,
  `Compositional.callComputed`: Calls.
* `Compositional.special`: Special forms.
* `CompositionalAt.callClosure`, `CompositionalAt.callNamed`: Calls in a frame.
* `CompositionalAt.step_of_loops`, `CompositionalAt.step`: One level of evaluation.
-/

namespace ListLang

/-- A handler that leaves the store as it is and lets errors and giving up
    pass. -/
structure Passive {α : Type} (f : Exit → EvalM α) : Prop where
  stalled : f .stalled = throw .stalled
  fault : ∀ e, f (.fault e) = throw (.fault e)
  store : ∀ z s, (f z).storeAfter s = s

/-- A relation between computations in a frame that holds of a whole if it holds
    of its parts. -/
structure Compositional (R : Nat → (α : Type) → EvalM α → EvalM α → Prop) : Prop where
  value : ∀ {env : Nat} {α : Type} (a : α), R env α (pure a) (pure a)
  exit : ∀ {env : Nat} {α : Type} (z : Exit), R env α (throw z) (throw z)
  seq : ∀ {env : Nat} {α β : Type} {x y : EvalM α} {f g : α → EvalM β},
    R env α x y → (∀ a, R env β (f a) (g a)) → R env β (x >>= f) (y >>= g)
  handle : ∀ {env : Nat} {α : Type} {x y : EvalM α} {f : Exit → EvalM α}, Passive f →
    R env α x y → R env α (tryCatch x f) (tryCatch y f)

/-- A relation that holds as well of what is done in one frame: looking at the
    store, binding a name there and evaluating in a frame made for it. -/
structure CompositionalAt (R : Nat → (α : Type) → EvalM α → EvalM α → Prop) (env : Nat) : Prop
    extends Compositional R where
  look : R env Store get get
  define : ∀ name v, R env Unit (EvalM.bindName name v env) (EvalM.bindName name v env)
  scope : ∀ {α : Type} {x y : Nat → EvalM α} (label : String) (parent : Nat)
    (bindings : Table Value), (∀ frame, R frame α (x frame) (y frame)) →
    R env α (EvalM.newFrame label parent bindings >>= x)
      (EvalM.newFrame label parent bindings >>= y)

/-- Whether the special form evaluates its arguments where it stands. -/
def SpecialForm.isOpen : SpecialForm → Bool
  | .setq | .cond | .whileLoop | .returnValue => true
  | .quote | .func | .lambda | .prog | .breakLoop => false

/-- The name that the special form binds where it stands, if any. -/
def SpecialForm.target? : SpecialForm → List Expr → Option String
  | .setq, .atom _ name :: _ | .func, .atom _ name :: _ => some name
  | _, _ => none

/-! ### Handlers -/

theorem passive_catchReturn : Passive fun
    | .returned v => (pure v : EvalM Value)
    | exit => throw exit :=
  ⟨rfl, fun _ => rfl, fun z _ => by cases z <;> rfl⟩

theorem passive_catchBreak : Passive fun
    | .broke => (pure none : EvalM (Option Value))
    | exit => throw exit :=
  ⟨rfl, fun _ => rfl, fun z _ => by cases z <;> rfl⟩

theorem passive_catchCall (f : Closure) : Passive fun
    | .returned v => (pure v : EvalM Value)
    | .broke => EvalM.fault (.breakEscaped f.text)
    | exit => throw exit :=
  ⟨rfl, fun _ => rfl, fun z _ => by cases z <;> rfl⟩

variable {R : Nat → (α : Type) → EvalM α → EvalM α → Prop} {env : Nat} {sub sub' : Evaluator}

namespace Compositional

variable (h : Compositional R)
include h

theorem ofExcept {α : Type} (r : Except EvalCause α) :
    R env α (EvalM.ofExcept r) (EvalM.ofExcept r) := by
  cases r with
  | ok a => exact h.value a
  | error cause => exact h.exit _

theorem catchReturn {x y : EvalM Value} (hxy : R env Value x y) :
    R env Value (EvalM.catchReturn x) (EvalM.catchReturn y) :=
  h.handle passive_catchReturn hxy

theorem catchBreak {x y : EvalM Value} (hxy : R env Value x y) :
    R env (Option Value) (EvalM.catchBreak x) (EvalM.catchBreak y) := by
  unfold EvalM.catchBreak
  rw [map_eq_pure_bind, map_eq_pure_bind]
  exact h.handle passive_catchBreak (h.seq hxy fun v => h.value (some v))

theorem catchCall (f : Closure) {x y : EvalM Value} (hxy : R env Value x y) :
    R env Value (EvalM.catchCall f x) (EvalM.catchCall f y) :=
  h.handle (passive_catchCall f) hxy

/-! ### Several Expressions -/

theorem evalAll {es : List Expr} (hes : ∀ e ∈ es, R env Value (sub e env) (sub' e env)) :
    R env (List Value) (evalAll sub env es) (evalAll sub' env es) := by
  induction es with
  | nil => exact h.value []
  | cons e es ih =>
      exact h.seq (hes e List.mem_cons_self) fun v =>
        h.seq (ih fun e he => hes e (List.mem_cons_of_mem _ he)) fun vs => h.value (v :: vs)

theorem evalSequence {es : List Expr} (hes : ∀ e ∈ es, R env Value (sub e env) (sub' e env))
    (v : Value) : R env Value (evalSequence sub env v es) (evalSequence sub' env v es) := by
  induction es generalizing v with
  | nil => exact h.value v
  | cons e es ih =>
      exact h.seq (hes e List.mem_cons_self) (ih fun e he => hes e (List.mem_cons_of_mem _ he))

theorem evalCondition {e : Expr} (he : R env Value (sub e env) (sub' e env)) (form : SpecialForm) :
    R env Bool (evalCondition sub env form e) (evalCondition sub' env form e) := by
  refine h.seq he fun v => ?_
  cases v with
  | boolean b => exact h.value b
  | atom _ | integer _ | real _ | null | list _ | function _ => exact h.exit _

theorem evalLoop {test : Expr} {body : List Expr}
    (hparts : ∀ e ∈ test :: body, R env Value (sub e env) (sub' e env)) (fuel : Nat) (v : Value) :
    R env Value (evalLoop sub env test body fuel v) (evalLoop sub' env test body fuel v) := by
  induction fuel generalizing v with
  | zero => exact h.exit _
  | succ fuel ih =>
      refine h.seq (h.evalCondition (hparts test List.mem_cons_self) .whileLoop) fun b => ?_
      cases b with
      | false => exact h.value v
      | true =>
          have hbody := h.evalSequence (fun e he => hparts e (List.mem_cons_of_mem _ he)) v
          refine h.seq (h.catchBreak hbody) fun o => ?_
          cases o with
          | none => exact h.value Value.null
          | some w => exact ih w

/-! ### Calls -/

theorem evalValue {v : Value}
    (hcode : ∀ e, v.toCode none = .ok e → R env Value (sub e env) (sub' e env)) :
    R env Value (evalValue sub env v) (evalValue sub' env v) := by
  cases v with
  | list items =>
      simp only [ListLang.evalValue]
      cases hitems : (Value.list items).toCode none with
      | ok e => exact hcode e hitems
      | error cause => exact h.exit _
  | atom _ | integer _ | real _ | boolean _ | null | function _ => exact h.value _

/-- Only `eval` evaluates anything, and that is the code its argument stands for. -/
theorem callBuiltin {b : Builtin} {vs : List Value}
    (hcode : b = .eval → ∀ v e, vs = [v] → v.toCode none = .ok e →
      R env Value (sub e env) (sub' e env)) :
    R env Value (callBuiltin sub env b vs) (callBuiltin sub' env b vs) := by
  by_cases hb : b = .eval
  · subst hb
    cases vs with
    | nil => exact h.ofExcept (Builtin.eval.apply [])
    | cons v rest =>
        cases rest with
        | nil => exact h.evalValue fun e => hcode rfl v e rfl
        | cons w rest => exact h.ofExcept (Builtin.eval.apply (v :: w :: rest))
  · rw [callBuiltin_of_ne_eval hb, callBuiltin_of_ne_eval hb]
    exact h.ofExcept _

theorem callBound {name : String} {vs : List Value}
    (hclosure : ∀ f, R env Value (callClosure sub f vs) (callClosure sub' f vs))
    (hbuiltin : ∀ b, Builtin.ofName? name = some b →
      R env Value (ListLang.callBuiltin sub env b vs) (ListLang.callBuiltin sub' env b vs))
    (bound : Option Value) (inSight : List String) :
    R env Value (callBound sub env name vs bound inSight)
      (callBound sub' env name vs bound inSight) := by
  cases bound with
  | none =>
      rw [callBound_none, callBound_none]
      cases hb : Builtin.ofName? name with
      | some b => exact hbuiltin b hb
      | none => exact h.exit _
  | some v =>
      by_cases hfun : ∃ f, v = .function f
      · rcases hfun with ⟨f, rfl⟩
        exact hclosure f
      · -- A name bound to anything else still stands for the builtin of its name.
        rw [callBound_of_not_function fun f hf => hfun ⟨f, hf⟩,
          callBound_of_not_function fun f hf => hfun ⟨f, hf⟩]
        cases hb : Builtin.ofName? name with
        | some b => exact hbuiltin b hb
        | none => exact h.exit _

theorem callComputed {callee : Expr} {args : List Expr}
    (hcallee : R env Value (sub callee env) (sub' callee env))
    (hargs : ∀ e ∈ args, R env Value (sub e env) (sub' e env))
    (hclosure : ∀ f vs, R env Value (callClosure sub f vs) (callClosure sub' f vs)) :
    R env Value (callComputed sub env callee args) (callComputed sub' env callee args) := by
  refine h.seq hcallee fun v => ?_
  cases v with
  | function f => exact h.seq (h.evalAll hargs) (hclosure f)
  | atom _ | integer _ | real _ | boolean _ | null | list _ => exact h.exit _

/-! ### Special Forms -/

/-- A compositional relation holds of a special form if it holds of its parts, of
    binding its target, of blocks and of loops, which need not be allowed the
    same number of rounds. -/
theorem special {fuel fuel' : Nat} {form : SpecialForm} {args : List Expr}
    (hparts : form.isOpen = true → ∀ e ∈ args, R env Value (sub e env) (sub' e env))
    (htarget : ∀ name v, form.target? args = some name →
      R env Unit (EvalM.bindName name v env) (EvalM.bindName name v env))
    (hblock : ∀ bindings forms, R env Value
      (EvalM.newFrame "prog" env bindings >>= fun frame =>
        EvalM.catchReturn (ListLang.evalSequence sub frame .null forms))
      (EvalM.newFrame "prog" env bindings >>= fun frame =>
        EvalM.catchReturn (ListLang.evalSequence sub' frame .null forms)))
    (hloop : ∀ test body, (∀ e ∈ test :: body, R env Value (sub e env) (sub' e env)) →
      R env Value (ListLang.evalLoop sub env test body fuel .null)
        (ListLang.evalLoop sub' env test body fuel' .null)) (e : Expr) :
    R env Value (special fuel sub env e form args) (special fuel' sub' env e form args) := by
  by_cases hshape : form.Shape args
  · cases hshape with
    | quote datum => exact h.value datum.quoted
    | setq line name value =>
        exact h.seq (hparts rfl value (by simp)) fun v =>
          h.seq (htarget name v rfl) fun _ => h.value v
    | func line name params body names hnames =>
        simp only [ListLang.special, hnames]
        exact h.seq (htarget name _ rfl) fun _ => h.value _
    | lambda params body names hnames =>
        simp only [ListLang.special, hnames]
        exact h.value _
    | prog locals forms names hnames =>
        simp only [ListLang.special, hnames]
        exact hblock _ forms
    | condThen test yes =>
        refine h.seq (h.evalCondition (hparts rfl test (by simp)) .cond) fun b => ?_
        cases b with
        | true => exact hparts rfl yes (by simp)
        | false => exact h.value Value.null
    | condElse test yes no =>
        refine h.seq (h.evalCondition (hparts rfl test (by simp)) .cond) fun b => ?_
        cases b with
        | true => exact hparts rfl yes (by simp)
        | false => exact hparts rfl no (by simp)
    | whileLoop test body => exact hloop test body (hparts rfl)
    | returnNull => exact h.exit _
    | returnValue value => exact h.seq (hparts rfl value (by simp)) fun v => h.exit _
    | breakLoop => exact h.exit _
  · rw [SpecialForm.special_of_not_shape hshape, SpecialForm.special_of_not_shape hshape]
    exact h.exit _

end Compositional

namespace CompositionalAt

variable (h : CompositionalAt R env) (hsub : ∀ e env, R env Value (sub e env) (sub' e env))
include h hsub

theorem callClosure (f : Closure) (vs : List Value) :
    R env Value (callClosure sub f vs) (callClosure sub' f vs) := by
  unfold ListLang.callClosure
  by_cases hlen : vs.length ≠ f.params.length
  · rw [if_pos hlen, if_pos hlen]
    exact h.exit _
  · -- The body is evaluated in the new frame and not in `env`.
    rw [if_neg hlen, if_neg hlen]
    exact h.scope _ _ _ fun frame => h.catchCall f (hsub f.body frame)

theorem callNamed (name : String) (args : List Expr) :
    R env Value (callNamed sub env name args) (callNamed sub' env name args) := by
  rw [callNamed_eq, callNamed_eq]
  exact h.seq (h.evalAll fun e _ => hsub e env) fun vs => h.seq h.look fun s =>
    h.callBound (fun f => h.callClosure hsub f vs)
      (fun _ _ => h.callBuiltin fun _ _ e _ _ => hsub e env) _ _

/-- A compositional relation holds of one level of evaluation if it holds of
    loops and of the evaluators for one level further in. -/
theorem step_of_loops {fuel fuel' : Nat}
    (hloop : ∀ test body, R env Value (evalLoop sub env test body fuel .null)
      (evalLoop sub' env test body fuel' .null)) (e : Expr) :
    R env Value (ListLang.step fuel sub e env) (ListLang.step fuel' sub' e env) := by
  cases e.layout with
  | atom line name => exact h.seq h.look fun s => h.ofExcept (s.lookup env name)
  | literal hlit =>
      rw [step_of_isLiteral _ _ _ hlit, step_of_isLiteral _ _ _ hlit]
      exact h.value _
  | empty line => exact h.value Value.null
  | computed line args hhead =>
      rw [step_computed _ _ _ hhead, step_computed _ _ _ hhead]
      exact h.callComputed (hsub _ env) (fun e _ => hsub e env) (h.callClosure hsub)
  | special line own args hname =>
      rw [step_special _ _ _ hname, step_special _ _ _ hname]
      refine h.special (fun _ e _ => hsub e env) (fun name v _ => h.define name v) ?_
        (fun test body _ => hloop test body) _
      exact fun bindings forms => h.scope _ _ _ fun frame =>
        h.catchReturn (h.evalSequence (fun e _ => hsub e frame) .null)
  | call line own args hname =>
      rw [step_call _ _ _ hname, step_call _ _ _ hname]
      exact h.callNamed hsub _ args

/-- A compositional relation holds of one level of evaluation if it holds of the
    evaluators for one level further in. -/
theorem step (fuel : Nat) (e : Expr) :
    R env Value (step fuel sub e env) (step fuel sub' e env) :=
  h.step_of_loops hsub
    (fun _ _ => h.evalLoop (fun e _ => hsub e env) fuel .null) e

end CompositionalAt

end ListLang
