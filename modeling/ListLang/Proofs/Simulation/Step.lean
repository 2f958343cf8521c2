import ListLang.Proofs.Literal
import ListLang.Proofs.Simulation.Call

/-!
# One Level of Corresponding Code

Which code may stand for which, seen one level deep: everything that is looked
at when an expression is evaluated is the same on both sides, and whatever is
evaluated in turn only has to correspond. Beyond that, a call of a builtin may
be replaced by the literal it gives, provided that its name can never be bound.

Evaluating matching code then does the same on both sides, as long as the
evaluators for one level further in do. A replaced call needs the second of
these to know literals, since the first spends a level on the arguments and the
second does not. Where the first knows nothing at all any more, it gives up.

## Main definitions

* `Forms`: Special forms that match.
* `Matches`: Expressions that match.
* `Ready`: The second evaluator knows literals, or the first nothing.

## Theorems

* `Forms.simulates`: Special forms that match do the same.
* `folded_simulates`: A call does what the literal in its place does.
* `Matches.simulates`: Expressions that match do the same.
-/

namespace ListLang

namespace Correspondence

variable (c : Correspondence)

/-- Special forms that are written in the same way, with corresponding code
    where they evaluate it. -/
inductive Forms : SpecialForm → List Expr → List Expr → Prop where
  | quote {datum datum' : Expr} (h : c.Values datum.quoted datum'.quoted) :
      Forms .quote [datum] [datum']
  | setq (l l' : Option Int) {name : String} {value value' : Expr} (hname : ¬ c.pinned name)
      (h : c.code value value') : Forms .setq [.atom l name, value] [.atom l' name, value']
  | func (l l' : Option Int) {name : String} {params params' body body' : Expr}
      {names : List String} (hname : ¬ c.pinned name) (hparams : params.names? = some names)
      (hparams' : params'.names? = some names) (hnames : ∀ p ∈ names, ¬ c.pinned p)
      (h : c.code body body') :
      Forms .func [.atom l name, params, body] [.atom l' name, params', body']
  | lambda {params params' body body' : Expr} {names : List String}
      (hparams : params.names? = some names) (hparams' : params'.names? = some names)
      (hnames : ∀ p ∈ names, ¬ c.pinned p) (h : c.code body body') :
      Forms .lambda [params, body] [params', body']
  | prog {locals locals' : Expr} {forms forms' : List Expr} {names : List String}
      (hlocals : locals.names? = some names) (hlocals' : locals'.names? = some names)
      (hnames : ∀ p ∈ names, ¬ c.pinned p) (h : List.Forall₂ c.code forms forms') :
      Forms .prog (locals :: forms) (locals' :: forms')
  | condThen {test test' yes yes' : Expr} (htest : c.code test test') (hyes : c.code yes yes') :
      Forms .cond [test, yes] [test', yes']
  | condElse {test test' yes yes' no no' : Expr} (htest : c.code test test')
      (hyes : c.code yes yes') (hno : c.code no no') :
      Forms .cond [test, yes, no] [test', yes', no']
  | whileLoop {test test' : Expr} {body body' : List Expr} (htest : c.code test test')
      (h : List.Forall₂ c.code body body') : Forms .whileLoop (test :: body) (test' :: body')
  | returnNull : Forms .returnValue [] []
  | returnValue {value value' : Expr} (h : c.code value value') :
      Forms .returnValue [value] [value']
  | breakLoop : Forms .breakLoop [] []

/-- Expressions that look the same one level deep, with corresponding code where
    they evaluate it. -/
inductive Matches : Expr → Expr → Prop where
  | atom (l l' : Option Int) {name : String} (h : name ∉ c.hidden) :
      Matches (.atom l name) (.atom l' name)
  | literal {e e' : Expr} (h : e.isLiteral = true) (h' : e'.isLiteral = true)
      (heq : e.quoted = e'.quoted) : Matches e e'
  | empty (l l' : Option Int) : Matches (.list l []) (.list l' [])
  | computed (l l' : Option Int) {head head' : Expr} {args args' : List Expr}
      (hhead : head.atomName? = none) (hhead' : head'.atomName? = none)
      (h : c.code head head') (hargs : List.Forall₂ c.code args args') :
      Matches (.list l (head :: args)) (.list l' (head' :: args'))
  | call (l l' k k' : Option Int) {name : String} {args args' : List Expr}
      (hname : SpecialForm.ofName? name = none)
      (heval : c.EvalsData ∨ Builtin.ofName? name ≠ some .eval) (hvisible : name ∉ c.hidden)
      (hargs : List.Forall₂ c.code args args') :
      Matches (.list l (.atom k name :: args)) (.list l' (.atom k' name :: args'))
  | folded (l k : Option Int) {name : String} {b : Builtin} {args args' : List Expr}
      {literal : Expr} (hname : SpecialForm.ofName? name = none)
      (hb : Builtin.ofName? name = some b) (hpinned : c.pinned name)
      (hargs : List.Forall₂ c.code args args') (h : FoldedCall b args' literal) :
      Matches (.list l (.atom k name :: args)) literal
  | special (l l' k k' : Option Int) {name : String} {form : SpecialForm}
      {args args' : List Expr} (hname : SpecialForm.ofName? name = some form)
      (h : c.Forms form args args') :
      Matches (.list l (.atom k name :: args)) (.list l' (.atom k' name :: args'))
  | misshapen (l l' k k' : Option Int) {name : String} {form : SpecialForm}
      {args args' : List Expr} (hname : SpecialForm.ofName? name = some form)
      (h : ¬ form.Shape args) (h' : ¬ form.Shape args')
      (hcomplaint : form.complaint args (Expr.list l (.atom k name :: args)).text? =
        form.complaint args' (Expr.list l' (.atom k' name :: args')).text?)
      (hlines : c.lines l l') :
      Matches (.list l (.atom k name :: args)) (.list l' (.atom k' name :: args'))

/-- The second evaluator knows literals, or the first gives up on everything. -/
def Ready (sub sub' : Evaluator) : Prop :=
  (∀ e env, e.isLiteral = true → sub' e env = pure e.quoted) ∨
    ∀ e env s, ∃ x t, sub e env s = .error x t ∧ x.gaveUp = true

variable {c} {sub sub' : Evaluator}

/-! ### Special Forms -/

theorem Forms.simulates (hc : c.Lawful) (hsub : c.Agree sub sub') {fuel fuel' : Nat}
    (hfuel : fuel ≤ fuel') (env : Nat) {form : SpecialForm} {args args' : List Expr}
    (h : c.Forms form args args') (e e' : Expr) :
    c.Simulates c.Values (special fuel sub env e form args)
      (special fuel' sub' env e' form args') := by
  cases h with
  | quote h => exact .pure h
  | setq l l' hname h =>
      refine (hsub _ _ env h).bind fun v w hv => ?_
      exact (Simulates.bindName hname env hv).bind fun _ _ _ => .pure hv
  | @func l l' name params params' body body' names hname hparams hparams' hnames h =>
      simp only [ListLang.special, hparams, hparams']
      have hv : c.Values (.function ⟨names, body, env, some name⟩)
          (.function ⟨names, body', env, some name⟩) :=
        .function ⟨rfl, rfl, rfl, hnames, h⟩
      exact (Simulates.bindName hname env hv).bind fun _ _ _ => .pure hv
  | lambda hparams hparams' hnames h =>
      simp only [ListLang.special, hparams, hparams']
      exact .pure (.function ⟨rfl, rfl, rfl, hnames, h⟩)
  | prog hlocals hlocals' hnames h =>
      simp only [ListLang.special, hlocals, hlocals']
      have hempty : c.Bindings {} {} := .nil
      refine (Simulates.newFrame _ _ (hempty.insertAll _ .null) fun b hb => ?_).bind
        fun frame frame' hframe => ?_
      · -- Only the local names are bound in the new frame.
        rcases Table.mem_entries_insertAll hb with hb | ⟨hb, _⟩
        · exact absurd hb List.not_mem_nil
        · exact hnames b.1 hb
      · subst hframe
        exact (hsub.evalSequence frame h .null).catchReturn
  | condThen htest hyes =>
      refine (hsub.evalCondition hc env .cond htest).bind fun b b' hb => ?_
      subst hb
      cases b with
      | true => exact hsub _ _ env hyes
      | false => exact .pure .null
  | condElse htest hyes hno =>
      refine (hsub.evalCondition hc env .cond htest).bind fun b b' hb => ?_
      subst hb
      cases b with
      | true => exact hsub _ _ env hyes
      | false => exact hsub _ _ env hno
  | whileLoop htest h => exact hsub.evalLoop hc env htest h hfuel .null
  | returnNull => exact .exit (.returned .null)
  | returnValue h => exact (hsub _ _ env h).bind fun v w hv => .exit (.returned hv)
  | breakLoop => exact .exit .broke

/-! ### Folded Calls -/

theorem Values.refl_of_isLiteral {e : Expr} (h : e.isLiteral = true) :
    c.Values e.quoted e.quoted := by
  cases e with
  | integer _ n => exact .integer n
  | real _ x => exact .real x
  | boolean _ b => exact .boolean b
  | null _ => exact .null
  | atom _ _ | list _ _ => exact absurd h Bool.false_ne_true

/-- Nothing but the value of a literal corresponds to it. -/
theorem Values.eq_of_isLiteral {v : Value} {e : Expr} (h : c.Values v e.quoted)
    (he : e.isLiteral = true) : v = e.quoted := by
  cases e with
  | integer _ _ | real _ _ | boolean _ _ | null _ => cases h; rfl
  | atom _ _ | list _ _ => exact absurd he Bool.false_ne_true

theorem eq_of_forall₂_isLiteral {vs : List Value} {es : List Expr}
    (h : List.Forall₂ c.Values vs (es.map Expr.quoted)) (hes : ∀ e ∈ es, e.isLiteral = true) :
    vs = es.map Expr.quoted := by
  induction es generalizing vs with
  | nil => cases h; rfl
  | cons e es ih =>
      cases h with
      | cons hv hvs =>
          rw [hv.eq_of_isLiteral (hes e List.mem_cons_self),
            ih hvs fun f hf => hes f (List.mem_cons_of_mem _ hf), List.map_cons]

theorem evalAll_of_isLiteral (hsub : ∀ e env, e.isLiteral = true → sub e env = pure e.quoted)
    (env : Nat) {es : List Expr} (hes : ∀ e ∈ es, e.isLiteral = true) :
    evalAll sub env es = pure (es.map Expr.quoted) := by
  induction es with
  | nil => rfl
  | cons e es ih =>
      rw [evalAll, hsub e env (hes e List.mem_cons_self),
        ih fun f hf => hes f (List.mem_cons_of_mem _ hf)]
      rfl

/-- A call of a pinned builtin does what the literal in its place does. -/
theorem folded_simulates (hsub : c.Agree sub sub') (hready : Ready sub sub') (env : Nat)
    {name : String} {b : Builtin} {args args' : List Expr} {literal : Expr}
    (hb : Builtin.ofName? name = some b) (hpinned : c.pinned name)
    (hargs : List.Forall₂ c.code args args') (h : FoldedCall b args' literal) :
    c.Simulates c.Values (callNamed sub env name args) (pure literal.quoted) := by
  intro s t hst
  rw [callNamed_eq]
  rcases hready with hlit | hup
  · -- The literals on the second side tell what the arguments on the first are.
    have hall : c.Outcomes (List.Forall₂ c.Values) (evalAll sub env args s)
        ((pure (args'.map Expr.quoted) : EvalM (List Value)) t) := by
      rw [← evalAll_of_isLiteral hlit env h.args_isLiteral]
      exact hsub.evalAll env hargs s t hst
    refine hall.bind_left fun vs s' hvs hst' => ?_
    have hcall : callBound sub env name vs (s'.find? env name) (s'.available env) =
        pure literal.quoted := by
      rw [hst'.find?_pinned env hpinned, callBound_none, hb]
      simp only [callBuiltin_of_ne_eval h.ne_eval,
        eq_of_forall₂_isLiteral hvs h.args_isLiteral, h.apply_eq, EvalM.ofExcept]
    change c.Outcomes c.Values (callBound sub env name vs (s'.find? env name)
      (s'.available env) s') (.ok literal.quoted t)
    rw [hcall]
    exact .ok (.refl_of_isLiteral h.isLiteral) hst'
  · -- The first argument already makes the first side give up.
    cases hargs with
    | nil => exact absurd rfl h.args_ne_nil
    | @cons e e' es es' he hes =>
        rcases hup e env s with ⟨x, t, hx, hgave⟩
        have hall : evalAll sub env (e :: es) s = .error x t := EvalM.bind_of_error hx
        rw [EvalM.bind_of_error hall]
        exact .gaveUp hgave

/-- Matching code does the same on both sides. -/
theorem Matches.simulates (hc : c.Lawful) (hsub : c.Agree sub sub') (hready : Ready sub sub')
    {fuel fuel' : Nat} (hfuel : fuel ≤ fuel') (env : Nat) {e e' : Expr} (h : c.Matches e e') :
    c.Simulates c.Values (step fuel sub e env) (step fuel' sub' e' env) := by
  cases h with
  | atom l l' h => exact .lookup hc h env
  | literal h h' heq =>
      rw [step_of_isLiteral _ _ _ h, step_of_isLiteral _ _ _ h', ← heq]
      exact .pure (.refl_of_isLiteral h)
  | empty l l' => exact .pure .null
  | computed l l' hhead hhead' h hargs =>
      rw [step_computed _ _ _ hhead, step_computed _ _ _ hhead']
      exact hsub.callComputed hc env h hargs
  | call l l' k k' hname heval hvisible hargs =>
      rw [step_call _ _ _ hname, step_call _ _ _ hname]
      exact hsub.callNamed hc env heval hvisible hargs
  | folded l k hname hb hpinned hargs h =>
      rw [step_call _ _ _ hname, step_of_isLiteral _ _ _ h.isLiteral]
      exact folded_simulates hsub hready env hb hpinned hargs h
  | special l l' k k' hname h =>
      rw [step_special _ _ _ hname, step_special _ _ _ hname]
      exact h.simulates hc hsub hfuel env _ _
  | misshapen l l' k k' hname h h' hcomplaint hlines =>
      rw [step_special _ _ _ hname, step_special _ _ _ hname, SpecialForm.special_of_not_shape h,
        SpecialForm.special_of_not_shape h', hcomplaint]
      exact .exit (.fault (.refl _) hlines)

end Correspondence

end ListLang
