import ListLang.Proofs.Discipline.Call
import ListLang.Proofs.Moment

/-!
# Code Under a Discipline

What a discipline has to say about an expression, one level deep, so that
evaluating it keeps the discipline: whatever it evaluates is code again, in the
surroundings that it makes for it, and where code has been checked, its forms
have their shapes and a `return` or a `break` stands where it may.

## Main definitions

* `Discipline.Forms`, `Discipline.Permits`: What is asked of an expression.
* `KnowsQuotations`: Evaluators that give a quotation as it is.
* `Stoppable`: Kinds of moment at which evaluation may be stopped.

## Theorems

* `Permits.keeps`: One level of evaluation keeps a discipline.
* `permits_of_items`: What is asked of code that is not checked.
* `disciplined_evaluateUntil`: Evaluation keeps a discipline.
* `interpretUntil`, `Disciplined.evaluateEach`: So do whole programs.
-/

namespace ListLang

namespace Discipline

variable (d : Discipline)

/-- The evaluator gives a quotation as it is, or leaves in a way that is allowed
    everywhere. -/
def KnowsQuotations (sub : Evaluator) : Prop :=
  ∀ line own datum env s,
    sub (.list line [.atom own SpecialForm.quote.name, datum]) env s = .ok datum.quoted s ∨
      ∃ z, sub (.list line [.atom own SpecialForm.quote.name, datum]) env s = .error z s ∧
        ∀ around n, d.Allows around n z

/-- A special form that is written as it should be, and code where it evaluates
    something. -/
inductive Forms (around : Surroundings) : SpecialForm → List Expr → Prop where
  | quote {datum : Expr} (h : d.Admits 0 datum.quoted) : Forms around .quote [datum]
  | setq (line : Option Int) {name : String} {value : Expr} (hname : ¬ d.pinned name)
      (h : d.code around value) : Forms around .setq [.atom line name, value]
  | func (line : Option Int) {name : String} {params body : Expr} {names : List String}
      (hname : ¬ d.pinned name) (hparams : params.names? = some names)
      (hnames : ∀ p ∈ names, ¬ d.pinned p) (h : d.code .body body) :
      Forms around .func [.atom line name, params, body]
  | lambda {params body : Expr} {names : List String} (hparams : params.names? = some names)
      (hnames : ∀ p ∈ names, ¬ d.pinned p) (h : d.code .body body) :
      Forms around .lambda [params, body]
  | prog {locals : Expr} {forms : List Expr} {names : List String}
      (hlocals : locals.names? = some names) (hnames : ∀ p ∈ names, ¬ d.pinned p)
      (h : ∀ e ∈ forms, d.code { around with inProg := true } e) :
      Forms around .prog (locals :: forms)
  | condThen {test yes : Expr} (htest : d.code around test) (hyes : d.code around yes) :
      Forms around .cond [test, yes]
  | condElse {test yes no : Expr} (htest : d.code around test) (hyes : d.code around yes)
      (hno : d.code around no) : Forms around .cond [test, yes, no]
  | whileLoop {test : Expr} {body : List Expr} (hstalls : d.stalls) (htest : d.code around test)
      (h : ∀ e ∈ body, d.code { around with inWhile := true } e) :
      Forms around .whileLoop (test :: body)
  | returnNull (hcaught : d.checked → around.inProg = true ∨ around.inFunc = true) :
      Forms around .returnValue []
  | returnValue {value : Expr} (hcaught : d.checked → around.inProg = true ∨ around.inFunc = true)
      (h : d.code around value) : Forms around .returnValue [value]
  | breakLoop (hcaught : d.checked → around.inWhile = true) : Forms around .breakLoop []

/-- What is asked of an expression, one level deep. -/
inductive Permits (around : Surroundings) : Expr → Prop where
  | atom (line : Option Int) (name : String) : Permits around (.atom line name)
  | literal {e : Expr} (h : e.isLiteral = true) : Permits around e
  | empty (line : Option Int) : Permits around (.list line [])
  | computed (line : Option Int) {head : Expr} {args : List Expr} (hhead : head.atomName? = none)
      (h : d.code around head) (hargs : ∀ e ∈ args, d.code around e) :
      Permits around (.list line (head :: args))
  | call (line own : Option Int) {name : String} {args : List Expr}
      (hname : SpecialForm.ofName? name = none)
      (heval : d.EvalsData ∨ Builtin.ofName? name ≠ some .eval)
      (hargs : ∀ e ∈ args, d.code around e) : Permits around (.list line (.atom own name :: args))
  | evalQuoted (line own line' own' : Option Int) {datum : Expr}
      (hpinned : d.pinned Builtin.eval.name) (hdatum : d.Admits 0 datum.quoted)
      (h : datum.items?.isSome = true → d.code around (datum.relined none)) :
      Permits around (.list line [.atom own Builtin.eval.name,
        .list line' [.atom own' SpecialForm.quote.name, datum]])
  | special (line own : Option Int) {name : String} {form : SpecialForm} {args : List Expr}
      (hname : SpecialForm.ofName? name = some form) (h : d.Forms around form args) :
      Permits around (.list line (.atom own name :: args))
  | misshapen (line own : Option Int) {name : String} {form : SpecialForm} {args : List Expr}
      (hname : SpecialForm.ofName? name = some form) (h : ¬ form.Shape args)
      (hchecked : ¬ d.checked) : Permits around (.list line (.atom own name :: args))

variable {d} {n env : Nat} {around : Surroundings} {sub : Evaluator}

theorem allows_of_gaveUp (hstalls : d.stalls) {z : Exit} (h : z.gaveUp = true) :
    d.Allows around n z := by
  cases z with
  | fault e => exact fun _ => EvalCause.isMisuse_of_isTooDeep h
  | stalled => exact hstalls
  | returned v => exact absurd h Bool.false_ne_true
  | broke => exact absurd h Bool.false_ne_true

theorem admits_literal {e : Expr} (h : e.isLiteral = true) (n : Nat) : d.Admits n e.quoted := by
  cases e with
  | integer _ k => exact .integer k
  | real _ x => exact .real x
  | boolean _ b => exact .boolean b
  | null _ => exact .null
  | atom _ _ | list _ _ => exact absurd h Bool.false_ne_true

/-- Quoted code is valid data if its atoms are, for it holds no function. -/
theorem admits_quoted (hdatum : ∀ name, d.datum name) (e : Expr) (n : Nat) :
    d.Admits n e.quoted := by
  induction e using Expr.induct with
  | atom _ name => exact .atom (hdatum name)
  | integer _ k => exact .integer k
  | real _ x => exact .real x
  | boolean _ b => exact .boolean b
  | null _ => exact .null
  | list _ items ih =>
      refine .list fun v hv => ?_
      rw [Expr.quotedAll_eq_map] at hv
      rcases List.mem_map.mp hv with ⟨e, he, rfl⟩
      exact ih e he

theorem Forms.keeps (hsub : d.Disciplined sub) (henv : env < n) {form : SpecialForm}
    {args : List Expr} (h : d.Forms around form args) (fuel : Nat) (e : Expr) :
    d.Keeps n around d.Admits (special fuel sub env e form args) := by
  cases h with
  | quote h => exact .pure fun m _ => h.mono (Nat.zero_le m)
  | setq line hname h =>
      refine (hsub around _ env n h henv).bind fun v m _ hv => ?_
      exact (Keeps.bindName hname hv env).bind fun _ k hk _ => .pure fun _ hl =>
        hv.mono (Nat.le_trans hk hl)
  | @func line name params body names hname hparams hnames h =>
      have hv : d.Admits n (.function ⟨names, body, env, some name⟩) := .function ⟨henv, h, hnames⟩
      simp only [special, hparams]
      exact (Keeps.bindName hname hv env).bind fun _ k hk _ => .pure fun _ hl =>
        hv.mono (Nat.le_trans hk hl)
  | @lambda params body names hparams hnames h =>
      have hv : d.Admits n (.function ⟨names, body, env, none⟩) := .function ⟨henv, h, hnames⟩
      simp only [special, hparams]
      exact .pure fun _ hl => hv.mono hl
  | @prog locals forms names hlocals hnames h =>
      -- The new frame binds the local names to null and nothing else.
      have hentries : ∀ b ∈ (Table.insertAll {} names Value.null).entries,
          b.1 ∈ names ∧ b.2 = .null := by
        intro b hb
        rcases Table.mem_entries_insertAll hb with hb | hb
        · exact absurd hb List.not_mem_nil
        · exact hb
      simp only [special, hlocals]
      refine (Keeps.newFrame _ henv (fun b hb => hnames b.1 (hentries b hb).1) fun b hb => ?_).bind
        fun frame m _ hframe => (hsub.evalSequence hframe h .null).catchReturn
      rw [(hentries b hb).2]
      exact .null
  | condThen htest hyes =>
      refine (hsub.evalCondition henv htest .cond).bind fun b m hm _ => ?_
      cases b with
      | true => exact hsub around _ env m hyes (Nat.lt_of_lt_of_le henv hm)
      | false => exact .pure fun _ _ => .null
  | condElse htest hyes hno =>
      refine (hsub.evalCondition henv htest .cond).bind fun b m hm _ => ?_
      cases b with
      | true => exact hsub around _ env m hyes (Nat.lt_of_lt_of_le henv hm)
      | false => exact hsub around _ env m hno (Nat.lt_of_lt_of_le henv hm)
  | whileLoop hstalls htest h => exact hsub.evalLoop henv hstalls htest h fuel .null
  | returnNull hcaught => exact .exit fun _ _ => ⟨hcaught, .null⟩
  | returnValue hcaught h =>
      exact (hsub around _ env n h henv).bind fun v m _ hv =>
        .exit fun _ hk => ⟨hcaught, hv.mono hk⟩
  | breakLoop hcaught => exact .exit fun _ _ => hcaught

/-- A quotation handed to `eval` is code, wherever it stands in the store: no
    frame binds `eval`, so the call reaches the builtin. -/
theorem evalQuoted_keeps (hsub : d.Disciplined sub) (hquotes : d.KnowsQuotations sub)
    (henv : env < n) (line own : Option Int) {datum : Expr} (hpinned : d.pinned Builtin.eval.name)
    (hdatum : d.Admits 0 datum.quoted)
    (h : datum.items?.isSome = true → d.code around (datum.relined none)) :
    d.Keeps n around d.Admits (callNamed sub env Builtin.eval.name
      [.list line [.atom own SpecialForm.quote.name, datum]]) := by
  have hvalue : d.Keeps n around d.Admits (evalValue sub env datum.quoted) := by
    cases datum with
    | list l items =>
        have hcode : (Expr.list l items).quoted.toCode none =
            .ok ((Expr.list l items).relined none) := by
          rw [Value.toCode, Expr.toExpr_quoted]
          rfl
        change d.Keeps n around d.Admits
          (EvalM.ofExcept ((Expr.list l items).quoted.toCode none) >>= fun e => sub e env)
        rw [hcode]
        exact hsub around _ env n (h rfl) henv
    | atom _ _ | integer _ _ | real _ _ | boolean _ _ | null _ =>
        exact .pure fun m _ => hdatum.mono (Nat.zero_le m)
  intro s hs hn
  -- The argument is a quotation, so evaluating it leaves the store as it is.
  have hargs : evalAll sub env [.list line [.atom own SpecialForm.quote.name, datum]] s =
      .ok [datum.quoted] s ∨ ∃ z, evalAll sub env
        [.list line [.atom own SpecialForm.quote.name, datum]] s = .error z s ∧
          ∀ around n, d.Allows around n z := by
    rcases hquotes line own datum env s with hok | ⟨z, herror, hz⟩
    · exact .inl (EvalM.bind_of_ok hok)
    · exact .inr ⟨z, EvalM.bind_of_error herror, hz⟩
  have hunbound : s.find? env Builtin.eval.name = none := by
    cases hfind : s.find? env Builtin.eval.name with
    | none => rfl
    | some v => exact absurd hpinned (hs.find? hfind).1
  rw [callNamed_eq]
  rcases hargs with hok | ⟨z, herror, hz⟩
  · rw [EvalM.bind_of_ok hok]
    change d.Ends s.frames.size around d.Admits
      (callBound sub env Builtin.eval.name [datum.quoted] (s.find? env Builtin.eval.name)
        (s.available env) s)
    rw [hunbound, callBound_none, Builtin.ofName?_name]
    exact hvalue s hs hn
  · rw [EvalM.bind_of_error herror]
    exact .exit (Nat.le_refl _) hs (hz around s.frames.size)

/-- One level of evaluation keeps a discipline that the next level keeps. -/
theorem Permits.keeps (hsub : d.Disciplined sub) (hquotes : d.KnowsQuotations sub)
    (henv : env < n) {e : Expr} (h : d.Permits around e) (fuel : Nat) :
    d.Keeps n around d.Admits (step fuel sub e env) := by
  cases h with
  | atom line name => exact .lookup name env
  | literal h =>
      rw [step_of_isLiteral fuel sub env h]
      exact .pure fun m _ => admits_literal h m
  | empty line => exact .pure fun _ _ => .null
  | computed line hhead h hargs =>
      rw [step_computed fuel sub env hhead]
      exact hsub.callComputed henv h hargs
  | call line own hname heval hargs =>
      rw [step_call fuel sub env hname]
      exact hsub.callNamed henv heval hargs
  | evalQuoted line own line' own' hpinned hdatum h =>
      rw [step_call fuel sub env (show SpecialForm.ofName? Builtin.eval.name = none by decide)]
      exact evalQuoted_keeps hsub hquotes henv line' own' hpinned hdatum h
  | special line own hname h =>
      rw [step_special fuel sub env hname]
      exact h.keeps hsub henv fuel _
  | misshapen line own hname h hchecked =>
      rw [step_special fuel sub env hname, SpecialForm.special_of_not_shape h]
      exact .exit fun _ _ hc => absurd hc hchecked

/-! ### Unchecked Code -/

section Unchecked

variable (hpinned : ∀ name, ¬ d.pinned name) (hchecked : ¬ d.checked)
include hpinned hchecked

/-- Where nothing is checked and any name may be bound, a form needs no more than
    its shape and parts that are code. -/
theorem forms_of_shape {form : SpecialForm} {args : List Expr} (h : form.Shape args)
    (hargs : ∀ e ∈ args, d.Admits 0 e.quoted ∧ ∀ around, d.code around e)
    (hloop : form = .whileLoop → d.stalls) : d.Forms around form args := by
  have hcode : ∀ e ∈ args, ∀ around, d.code around e := fun e he => (hargs e he).2
  have huncaught : ∀ {p : Prop}, d.checked → p := fun hc => absurd hc hchecked
  cases h with
  | quote datum => exact .quote (hargs datum List.mem_cons_self).1
  | setq line name value => exact .setq line (hpinned name) (hcode value (by simp) _)
  | func line name params body names hnames =>
      exact .func line (hpinned name) hnames (fun p _ => hpinned p) (hcode body (by simp) _)
  | lambda params body names hnames =>
      exact .lambda hnames (fun p _ => hpinned p) (hcode body (by simp) _)
  | prog locals forms names hnames =>
      exact .prog hnames (fun p _ => hpinned p) fun e he => hcode e (List.mem_cons_of_mem _ he) _
  | condThen test yes => exact .condThen (hcode test (by simp) _) (hcode yes (by simp) _)
  | condElse test yes no =>
      exact .condElse (hcode test (by simp) _) (hcode yes (by simp) _) (hcode no (by simp) _)
  | whileLoop test body =>
      exact .whileLoop (hloop rfl) (hcode test (by simp) _) fun e he =>
        hcode e (List.mem_cons_of_mem _ he) _
  | returnNull => exact .returnNull huncaught
  | returnValue value => exact .returnValue huncaught (hcode value (by simp) _)
  | breakLoop => exact .breakLoop huncaught

/-- The same for any expression, if data may be taken for code. -/
theorem permits_of_items (hdata : d.EvalsData) {e : Expr}
    (hitems : ∀ line items, e = .list line items →
      ∀ f ∈ items, d.Admits 0 f.quoted ∧ ∀ around, d.code around f)
    (hloop : e.headName? = some SpecialForm.whileLoop.name → d.stalls) : d.Permits around e := by
  have hargs : ∀ {line : Option Int} {head : Expr} {args : List Expr},
      e = .list line (head :: args) →
        ∀ f ∈ args, d.Admits 0 f.quoted ∧ ∀ around, d.code around f :=
    fun heq f hf => hitems _ _ heq f (List.mem_cons_of_mem _ hf)
  cases e.layout with
  | atom line name => exact .atom line name
  | literal h => exact .literal h
  | empty line => exact .empty line
  | computed line args h =>
      exact .computed line h ((hitems _ _ rfl _ List.mem_cons_self).2 _) fun f hf =>
        (hargs rfl f hf).2 _
  | @special line own name form args h =>
      by_cases hshape : form.Shape args
      · refine .special line own h (forms_of_shape hpinned hchecked hshape (hargs rfl) ?_)
        rintro rfl
        exact hloop (congrArg some (SpecialForm.name_of_ofName? h).symm)
      · exact .misshapen line own h hshape hchecked
  | call line own args h => exact .call line own h (.inl hdata) fun f hf => (hargs rfl f hf).2 _

end Unchecked

/-! ### Runs -/

/-- Evaluation may be stopped at the moments of a kind: it may stall, or there are
    no such moments. -/
class Stoppable (d : Discipline) (stop : Moment → Bool) : Prop where
  stalls_or_not : d.stalls ∨ ∀ m, stop m = false

instance (d : Discipline) : d.Stoppable never :=
  ⟨.inr fun _ => rfl⟩

section Stopping

variable (stop : Moment → Bool) [hstop : d.Stoppable stop] (limits : Limits)
include hstop

theorem allows_evaluateUntil_zero (active : List Nat) (e : Expr) (env : Nat) (s : Store) :
    ∃ z, evaluateUntil stop limits 0 active e env s = .error z s ∧
      ∀ around n, d.Allows around n z := by
  rcases hstop.stalls_or_not with hstalls | hgo
  · rcases gaveUp_evaluateUntil_zero stop limits active e env s with ⟨z, hrun, hz⟩
    exact ⟨z, hrun, fun _ _ => allows_of_gaveUp hstalls hz⟩
  · refine ⟨.fault ⟨.tooDeep limits.depth e.text?, none⟩, ?_, fun _ _ _ => rfl⟩
    rw [evaluateUntil_zero (hgo _), EvalM.stopAfter_of_not_stop _ (hgo _)]
    rfl

theorem knowsQuotations_evaluateUntil (budget : Nat) (active : List Nat) :
    d.KnowsQuotations (evaluateUntil stop limits budget active) := by
  intro line own datum env s
  cases budget with
  | zero => exact .inr (allows_evaluateUntil_zero stop limits active _ env s)
  | succ budget =>
      have hquote : ∀ sub, step limits.fuel sub
          (.list line [.atom own SpecialForm.quote.name, datum]) env = pure datum.quoted :=
        fun sub => step_special _ _ _ (SpecialForm.ofName?_name .quote) ..
      rcases hstop.stalls_or_not with hstalls | hgo
      · cases hm : stop ⟨env :: active, .list line [.atom own SpecialForm.quote.name, datum],
            s.frames.size, s⟩ with
        | true => exact .inr ⟨_, evaluateUntil_of_stop hm _, fun _ _ => hstalls⟩
        | false =>
            rw [evaluateUntil_succ hm, hquote]
            rcases EvalM.stopAfter_cases _ _ s with heq | heq
            · exact .inl heq
            · exact .inr ⟨_, heq, fun _ _ => hstalls⟩
      · rw [evaluateUntil_succ (hgo _), EvalM.stopAfter_of_not_stop _ (hgo _), hquote]
        exact .inl rfl

end Stopping

/-- Evaluation keeps a discipline whose code is permitted. -/
theorem disciplined_evaluateUntil (hpermits : ∀ around e, d.code around e → d.Permits around e)
    (stop : Moment → Bool) [hstop : d.Stoppable stop] (limits : Limits) (budget : Nat)
    (active : List Nat) : d.Disciplined (evaluateUntil stop limits budget active) := by
  induction budget generalizing active with
  | zero =>
      intro around e env n _ _ s hs _
      rcases allows_evaluateUntil_zero (d := d) stop limits active e env s with ⟨z, hrun, hz⟩
      rw [hrun]
      exact .exit (Nat.le_refl _) hs (hz around s.frames.size)
  | succ budget ih =>
      -- Code is permitted one level deep, and what it evaluates is code again.
      intro around e env n he henv s hs hn
      cases hm : stop ⟨env :: active, e, s.frames.size, s⟩ with
      | true =>
          rw [evaluateUntil_of_stop hm]
          refine .exit (Nat.le_refl _) hs (hstop.stalls_or_not.resolve_right fun hgo => ?_)
          exact absurd hm (by rw [hgo]; exact Bool.noConfusion)
      | false =>
          rw [evaluateUntil_succ hm]
          have hstep := (hpermits around e he).keeps (ih (env :: active))
            (knowsQuotations_evaluateUntil stop limits budget _) henv limits.fuel
          exact hstep.stopAfter (hstop.stalls_or_not.imp_right fun hgo _ _ => hgo _) s hs hn

/-- At the top level nothing catches a `return` or a `break`, so checked code
    leaves with neither. -/
theorem Allows.halt {z : Exit} (h : d.Allows {} n z) (hchecked : d.checked) {form : Form}
    {e : EvalError} (he : z.halt form = .failed e) : e.cause.isMisuse = false := by
  cases z with
  | fault x =>
      -- What is said in place of an error without words is about the same cause.
      simp only [Exit.halt, EvalError.halt] at he
      split at he
      · cases he
        exact h hchecked
      · split at he
        · cases he
          exact h hchecked
        · cases he
  | returned v =>
      rcases h.1 hchecked with hin | hin
      · exact absurd hin Bool.false_ne_true
      · exact absurd hin Bool.false_ne_true
  | broke => exact absurd (h hchecked) Bool.false_ne_true
  | stalled => cases he

/-- A session of valid code stays valid, and if the code is checked, no error is
    a misuse. -/
theorem Disciplined.interpretWith (hsub : d.Disciplined sub) {forms : List Form}
    (hforms : ∀ form ∈ forms, d.code {} form.expr) (s : Session) (hs : d.Valid s.store)
    (hglobals : s.globals < s.store.frames.size) :
    d.Valid (s.interpretWith sub forms).2.store ∧ (d.checked → ∀ e,
      (s.interpretWith sub forms).1 = .error (.failed e) → e.cause.isMisuse = false) := by
  induction forms generalizing s with
  | nil => exact ⟨hs, fun _ _ h => nomatch h⟩
  | cons form forms ih =>
      have hform := hsub {} form.expr s.globals _ (hforms form List.mem_cons_self) hglobals
        s.store hs (Nat.le_refl _)
      unfold Session.interpretWith
      generalize sub form.expr s.globals s.store = r at hform
      cases hform with
      | exit hsize ht hz =>
          refine ⟨ht, fun hchecked e he => ?_⟩
          simp only [Session.conclude, Except.error.injEq] at he
          exact hz.halt hchecked he
      | @ok v t hsize ht hv =>
          have hrest := ih (fun f hf => hforms f (List.mem_cons_of_mem _ hf))
            { s with store := t } ht (Nat.lt_of_lt_of_le hglobals hsize)
          refine ⟨hrest.1, fun hchecked e he => hrest.2 hchecked e ?_⟩
          simp only [Session.conclude] at he
          generalize (Session.interpretWith sub { s with store := t } forms).1 = rest at he ⊢
          cases rest with
          | error halt => exact he
          | ok vs => cases he

/-- So it is however far the session runs, and if the call stack refuses it. -/
theorem interpretUntil (hpermits : ∀ around e, d.code around e → d.Permits around e)
    (stop : Moment → Bool) [hstop : d.Stoppable stop] {forms : List Form}
    (hforms : ∀ form ∈ forms, d.code {} form.expr) (s : Session) (hs : d.Valid s.store)
    (hglobals : s.globals < s.store.frames.size) :
    d.Valid (s.interpretUntil stop forms).2.store ∧ (d.checked → ∀ e,
      (s.interpretUntil stop forms).1 = .error (.failed e) → e.cause.isMisuse = false) := by
  have hrun := (disciplined_evaluateUntil hpermits stop s.limits s.budget []).interpretWith hforms
    s hs hglobals
  unfold Session.interpretUntil
  rcases s.withRoom_cases forms
    (s.interpretWith (evaluateUntil stop s.limits s.budget []) forms) with heq | ⟨e, _, heq⟩
  · rw [heq]
    exact hrun
  · rw [heq]
    exact ⟨hs, fun _ x hx => by cases hx⟩

/-- Forms of valid code are evaluated one after another, whether they fail or not.
    The session stays valid, and unless the call stack refuses the limits each
    form leaves in a way that is allowed. -/
theorem Disciplined.evaluateEach {forms : List Form} (s : Session)
    (hsub : d.Disciplined (evaluateWithin s.limits s.budget))
    (hforms : ∀ form ∈ forms, d.code {} form.expr) (hs : d.Valid s.store)
    (hglobals : s.globals < s.store.frames.size) :
    d.Valid (s.evaluateEach forms).2.store ∧
      ∀ halt, .error halt ∈ (s.evaluateEach forms).1 →
        (∃ e, s.limits.refusal? = some e ∧ halt = .refused e) ∨
          ∃ form ∈ forms, ∃ z size, halt = z.halt form ∧ d.Allows {} size z := by
  induction forms generalizing s with
  | nil => exact ⟨hs, fun _ h => absurd h List.not_mem_nil⟩
  | cons form forms ih =>
      have hrest : ∀ t : Store, s.store.frames.size ≤ t.frames.size → d.Valid t → _ :=
        fun t hsize ht => ih { s with store := t } hsub
          (fun f hf => hforms f (List.mem_cons_of_mem _ hf)) ht (Nat.lt_of_lt_of_le hglobals hsize)
      have hlater : ∀ {P : Prop} {Q : Form → Prop}, (P ∨ ∃ f ∈ forms, Q f) →
          P ∨ ∃ f ∈ form :: forms, Q f :=
        fun h => h.imp_right fun ⟨f, hf, hQ⟩ => ⟨f, List.mem_cons_of_mem form hf, hQ⟩
      unfold Session.evaluateEach
      cases hroom : s.limits.refusal? with
      | some e =>
          rw [Session.evaluateForm_of_refused hroom]
          have hrefused := hrest s.store (Nat.le_refl _) hs
          refine ⟨hrefused.1, fun halt hmem => ?_⟩
          rcases List.mem_cons.mp hmem with heq | hmem
          · cases heq
            exact .inl ⟨e, rfl, rfl⟩
          · rw [← hroom]
            exact hlater (hrefused.2 halt hmem)
      | none =>
          have hform := hsub {} form.expr s.globals _ (hforms form List.mem_cons_self) hglobals
            s.store hs (Nat.le_refl _)
          rw [Session.evaluateForm_of_room hroom]
          generalize evaluateWithin s.limits s.budget form.expr s.globals s.store = r at hform
          rw [← hroom]
          cases hform with
          | ok hsize ht hv =>
              refine ⟨(hrest _ hsize ht).1, fun halt hmem => ?_⟩
              rcases List.mem_cons.mp hmem with heq | hmem
              · cases heq
              · exact hlater ((hrest _ hsize ht).2 halt hmem)
          | @exit z t hsize ht hz =>
              refine ⟨(hrest _ hsize ht).1, fun halt hmem => ?_⟩
              rcases List.mem_cons.mp hmem with heq | hmem
              · cases heq
                exact .inr ⟨form, List.mem_cons_self, z, t.frames.size, rfl, hz⟩
              · exact hlater ((hrest _ hsize ht).2 halt hmem)

theorem valid_new (limits : Limits) : d.Valid (Session.new limits).store := by
  -- The one frame of a new session lies in no other and binds nothing.
  have hframe : ∀ (i : Nat) (f : Frame), (Session.new limits).store.frames[i]? = some f →
      f.parent = none ∧ f.bindings.entries = [] := by
    intro i f hf
    cases i with
    | zero =>
        cases hf
        exact ⟨rfl, rfl⟩
    | succ i => cases hf
  refine ⟨?_, ?_, ?_⟩
  · intro i f p hf hp
    rw [(hframe i f hf).1] at hp
    cases hp
  · intro i f hf b hb
    rw [(hframe i f hf).2] at hb
    cases hb
  · intro i f hf b hb
    rw [(hframe i f hf).2] at hb
    cases hb

end Discipline

end ListLang
