import ListLang.Proofs.Moment
import ListLang.Proofs.Simulation.Step

/-!
# Corresponding Runs of Programs

From one level to whole programs. If corresponding code matches, evaluating it
does the same on both sides, by induction on what is left of the limit on
depth, and so does evaluating one form after another. The second program may
have more levels and more rounds at its disposal than the first, and the first
may be stopped at moments where its code need not match.

## Main definitions

* `Sessions`: Corresponding sessions.
* `FormsAgree`: Forms that do the same.
* `Runs`: Corresponding results of whole programs.
* `SameOutcome`: The same outcome, up to how values and errors correspond.

## Theorems

* `agree_evaluateUntil`: Corresponding code does the same.
* `Runs.halt`: Corresponding errors are reported alike.
* `Runs.map`: What is made of corresponding values corresponds.
* `Runs.interpretWith`, `Runs.interpret`: Corresponding programs do the same.
* `Runs.sameOutcome`: They end in the same outcome.
-/

namespace ListLang

namespace Correspondence

variable {c : Correspondence}

/-! ### Evaluation -/

/-- An evaluator without a budget knows nothing, and one with a budget knows
    literals. -/
theorem ready_evaluateUntil (stop : Moment → Bool) (limits limits' : Limits)
    {budget budget' : Nat} (h : budget ≤ budget') (active : List Nat) :
    Ready (evaluateUntil stop limits budget active) (evaluateWithin limits' budget') := by
  cases budget with
  | zero =>
      refine .inr fun e env s => ?_
      rcases gaveUp_evaluateUntil_zero stop limits active e env s with ⟨x, hx, hup⟩
      exact ⟨x, s, hx, hup⟩
  | succ budget =>
      refine .inl fun e env he => ?_
      obtain ⟨k, rfl⟩ : ∃ k, budget' = k + 1 := ⟨budget' - 1, by omega⟩
      exact step_of_isLiteral _ _ _ he

/-- Corresponding code that matches wherever evaluation is not stopped does the
    same. -/
theorem agree_evaluateUntil (hc : c.Lawful) {stop : Moment → Bool}
    (hmatch : ∀ m e', c.code m.expr e' → stop m = false → c.Matches m.expr e')
    {limits limits' : Limits} (hfuel : limits.fuel ≤ limits'.fuel) {budget budget' : Nat}
    (hbudget : budget ≤ budget') (active : List Nat) :
    c.Agree (evaluateUntil stop limits budget active) (evaluateWithin limits' budget') := by
  -- By induction on the budget: one level is taken apart, and the rest agrees.
  induction budget generalizing budget' active with
  | zero =>
      intro e e' env _ s t _
      rcases gaveUp_evaluateUntil_zero stop limits active e env s with ⟨x, hx, hup⟩
      rw [hx]
      exact .gaveUp hup
  | succ budget ih =>
      intro e e' env hcode s t hst
      obtain ⟨k, rfl⟩ : ∃ k, budget' = k + 1 := ⟨budget' - 1, by omega⟩
      have hk : budget ≤ k := by omega
      cases hstop : stop ⟨env :: active, e, s.frames.size, s⟩ with
      | true =>
          rw [evaluateUntil_of_stop hstop]
          exact .gaveUp rfl
      | false =>
          rw [evaluateUntil_succ hstop]
          rcases EvalM.stopAfter_cases _ _ s with heq | heq
          · rw [heq]
            exact (hmatch _ e' hcode hstop).simulates hc (ih hk (env :: active))
              (ready_evaluateUntil stop limits limits' hk _) hfuel env s t hst
          · rw [heq]
            exact .gaveUp rfl

/-! ### Sessions -/

variable (c)

/-- Sessions with corresponding stores. -/
structure Sessions (s t : Session) : Prop where
  globals : s.globals = t.globals
  stores : c.Stores s.store t.store

/-- Forms on the same line, both with a text or both without, that do the same
    under two evaluators. -/
structure FormsAgree (eval eval' : Evaluator) (f f' : Form) : Prop where
  line : f.line = f'.line
  writable : f.expr.isWritable = f'.expr.isWritable
  simulates : ∀ env, c.Simulates c.Values (eval f.expr env) (eval' f'.expr env)

/-- Results of the same kind, in corresponding sessions, unless the first gave up.
    An error without words is reported with the text of a form, which is that of a
    form on each side. -/
inductive Runs {α : Type} (forms : Form → Form → Prop) (Q : α → α → Prop) :
    Except Halt α × Session → Except Halt α × Session → Prop where
  | ok {a b : α} {s t : Session} (h : Q a b) (hst : c.Sessions s t) :
      Runs forms Q (.ok a, s) (.ok b, t)
  | failed {x y : EvalCause} (line : Option Int) {s t : Session} (h : c.Causes x y)
      (hst : c.Sessions s t) :
      Runs forms Q (.error (.failed ⟨x, line⟩), s) (.error (.failed ⟨y, line⟩), t)
  | unexpected {f f' : Form} {x : EvalCause} {s t : Session} (hforms : forms f f')
      (hx : x.isWorded = false) (hst : c.Sessions s t) :
      Runs forms Q (.error (.failed ⟨.unexpected f.expr.text x, some f.line⟩), s)
        (.error (.failed ⟨.unexpected f'.expr.text x, some f.line⟩), t)
  | unworded {f f' : Form} {x : EvalCause} {s t : Session} (hforms : forms f f')
      (hform : f.expr.isWritable = false) (hx : x.isWorded = false) (hst : c.Sessions s t) :
      Runs forms Q (.error (.unworded x), s) (.error (.unworded x), t)
  | refused (e : StackError) {s t : Session} (hst : c.Sessions s t) :
      Runs forms Q (.error (.refused e), s) (.error (.refused e), t)
  | gaveUp {halt : Halt} {s : Session} {r : Except Halt α × Session} (h : halt.gaveUp = true) :
      Runs forms Q (.error halt, s) r

variable {c}

/-- Sessions that have just begun. -/
theorem sessions_new (limits limits' : Limits) :
    c.Sessions (Session.new limits) (Session.new limits') := by
  have hempty : c.Stores {} {} := ⟨rfl, fun i => by simp only [Array.getElem?_empty]; exact .none⟩
  have hframes : c.Frames { label := "global", parent := none }
      { label := "global", parent := none } :=
    ⟨rfl, rfl, .nil, fun b hb => absurd hb List.not_mem_nil⟩
  exact ⟨(hempty.push hframes).1, (hempty.push hframes).2⟩

theorem Sessions.bindings {s t : Session} (h : c.Sessions s t) :
    c.Bindings s.bindings t.bindings := by
  unfold Session.bindings Store.bindings
  rw [← h.globals]
  rcases optionRel_cases (h.stores.frames s.globals) with ⟨hs, ht⟩ | ⟨f, g, hs, ht, hfg⟩
  · rw [hs, ht]
    exact .nil
  · rw [hs, ht]
    exact hfg.bindings

variable {related : Form → Form → Prop}

/-- Corresponding errors are reported alike. One without a line gets that of its
    form, and one without words is reported with the text of its form. -/
theorem Runs.halt (hlines : ∀ l l' (n : Int), c.lines l l' → l.getD n = l'.getD n)
    {s t : Session} (hst : c.Sessions s t) {f f' : Form} (hforms : related f f')
    (hline : f.line = f'.line) (hwritable : f.expr.isWritable = f'.expr.isWritable)
    {x y : EvalCause} {l l' : Option Int} (hcause : c.Causes x y) (hl : c.lines l l') :
    c.Runs related c.Values (.error ((EvalError.mk x l).halt f), s)
      (.error ((EvalError.mk y l').halt f'), t) := by
  unfold EvalError.halt
  simp only [← hcause.isWorded_eq, ← hline, ← hlines l l' f.line hl]
  cases hworded : x.isWorded with
  | true => exact .failed _ hcause hst
  | false =>
      rw [← hcause.eq_of_not_worded hworded]
      unfold Expr.text?
      rw [← hwritable]
      cases hf : f.expr.isWritable with
      | true => exact .unexpected hforms hworded hst
      | false => exact .unworded hforms hf hworded hst

/-- Corresponding outcomes of evaluating a form lead to corresponding results. -/
theorem Runs.conclude (hlines : ∀ l l' (n : Int), c.lines l l' → l.getD n = l'.getD n)
    {s t : Session} (hst : c.Sessions s t) {f f' : Form} (hforms : related f f')
    (hline : f.line = f'.line) (hwritable : f.expr.isWritable = f'.expr.isWritable)
    {r r' : EStateM.Result Exit Store Value} (h : c.Outcomes c.Values r r') :
    c.Runs related c.Values (s.conclude f r) (t.conclude f' r') := by
  cases h with
  | ok hv hstores => exact .ok hv ⟨hst.globals, hstores⟩
  | gaveUp hup => exact .gaveUp (Exit.gaveUp_halt hup f)
  | @exit x y u u' hexit hstores =>
      have hst' : c.Sessions { s with store := u } { t with store := u' } :=
        ⟨hst.globals, hstores⟩
      cases hexit with
      | fault hcause hl => exact .halt hlines hst' hforms hline hwritable hcause hl
      | returned hv =>
          simp only [Session.conclude, Exit.halt, ← hline]
          exact .failed _ (.refl _) hst'
      | broke =>
          simp only [Session.conclude, Exit.halt, ← hline]
          exact .failed _ (.refl _) hst'

/-- Values may be made into others on both sides. -/
theorem Runs.map {α β : Type} {Q : α → α → Prop} {R : β → β → Prop} {f g : α → β}
    {r r' : Except Halt α × Session} (h : c.Runs related Q r r')
    (hfg : ∀ a b, Q a b → R (f a) (g b)) :
    c.Runs related R (r.1.map f, r.2) (r'.1.map g, r'.2) := by
  cases h with
  | ok hab hst => exact .ok (hfg _ _ hab) hst
  | failed line hcause hst => exact .failed line hcause hst
  | unexpected hforms hx hst => exact .unexpected hforms hx hst
  | unworded hforms hf hx hst => exact .unworded hforms hf hx hst
  | refused e hst => exact .refused e hst
  | gaveUp hup => exact .gaveUp hup

/-- Evaluators that do the same on each pair of forms do the same on all. -/
theorem Runs.interpretWith (hlines : ∀ l l' (n : Int), c.lines l l' → l.getD n = l'.getD n)
    {eval eval' : Evaluator} {forms forms' : List Form}
    (h : List.Forall₂ (fun f f' => related f f' ∧ c.FormsAgree eval eval' f f') forms forms')
    {s t : Session} (hst : c.Sessions s t) :
    c.Runs related (List.Forall₂ c.Values) (s.interpretWith eval forms)
      (t.interpretWith eval' forms') := by
  induction h generalizing s t with
  | nil => exact .ok .nil hst
  | @cons form form' forms forms' hform _ ih =>
      have hrun := Runs.conclude hlines hst hform.1 hform.2.line hform.2.writable
        (hform.2.simulates s.globals s.store t.store hst.stores)
      unfold Session.interpretWith
      rw [← hst.globals]
      generalize s.conclude form (eval form.expr s.globals s.store) = r,
        t.conclude form' (eval' form'.expr s.globals t.store) = r' at hrun
      cases hrun with
      | failed line hcause hst => exact .failed line hcause hst
      | unexpected hforms hx hst => exact .unexpected hforms hx hst
      | unworded hforms hf hx hst => exact .unworded hforms hf hx hst
      | refused e hst => exact .refused e hst
      | gaveUp hup => exact .gaveUp hup
      | @ok v w s t hv hst =>
          -- The sessions still correspond, and so does what comes after.
          exact (ih hst).map fun vs ws hvs => .cons hv hvs

/-- Corresponding programs do the same, or are both refused. -/
theorem Runs.interpret (hlines : ∀ l l' (n : Int), c.lines l l' → l.getD n = l'.getD n)
    {stop : Moment → Bool} {s t : Session} {forms forms' : List Form}
    (h : List.Forall₂ (fun f f' => related f f' ∧ c.FormsAgree
      (evaluateUntil stop s.limits s.budget []) (evaluateWithin t.limits t.budget) f f')
      forms forms') (hroom : s.limits.refusal? = t.limits.refusal?) (hst : c.Sessions s t) :
    c.Runs related (List.Forall₂ c.Values) (s.interpretUntil stop forms) (t.interpret forms') := by
  have hruns := Runs.interpretWith hlines h hst
  rw [Session.interpretUntil, Session.interpret_eq]
  cases hrefused : s.limits.refusal? with
  | none =>
      rw [Session.withRoom_of_room hrefused, Session.withRoom_of_room (hroom ▸ hrefused)]
      exact hruns
  | some e =>
      cases h with
      | nil =>
          rw [Session.withRoom_nil, Session.withRoom_nil]
          exact hruns
      | cons _ _ =>
          rw [Session.withRoom_of_refused hrefused, Session.withRoom_of_refused (hroom ▸ hrefused)]
          exact .refused e hst

/-! ### Outcomes -/

end Correspondence

/-- The second form is one of the program with its expression changed. -/
def Rewritten (forms : List Form) (change : Expr → Expr) (form form' : Form) : Prop :=
  form ∈ forms ∧ form' = { form with expr := change form.expr }

/-- Outcomes of a program and of the program with the expression of each form
    changed: values that correspond one by one, or errors that do. An error for
    which there are no words is reported with the form that it is in, and each
    program has its own. Without words for the form either, and where the call
    stack refuses the limits, the outcomes are the same. -/
inductive SameOutcome (forms : List Form) (change : Expr → Expr)
    (errors : EvalError → EvalError → Prop) (Q : Value → Value → Prop) :
    Except Halt (List Value) → Except Halt (List Value) → Prop where
  | values {vs ws : List Value} (h : List.Forall₂ Q vs ws) :
      SameOutcome forms change errors Q (.ok vs) (.ok ws)
  | failed {e e' : EvalError} (h : errors e e') :
      SameOutcome forms change errors Q (.error (.failed e)) (.error (.failed e'))
  | unexpected {form : Form} (hform : form ∈ forms) {cause : EvalCause}
      (hcause : cause.isWorded = false) :
      SameOutcome forms change errors Q
        (.error (.failed ⟨.unexpected form.expr.text cause, some form.line⟩))
        (.error (.failed ⟨.unexpected (change form.expr).text cause, some form.line⟩))
  | unworded {form : Form} (hform : form ∈ forms) (hwritable : form.expr.isWritable = false)
      {cause : EvalCause} (hcause : cause.isWorded = false) :
      SameOutcome forms change errors Q (.error (.unworded cause)) (.error (.unworded cause))
  | refused (e : StackError) :
      SameOutcome forms change errors Q (.error (.refused e)) (.error (.refused e))

/-- Corresponding runs end in the same outcome, unless the first gave up. -/
theorem Correspondence.Runs.sameOutcome {c : Correspondence} {forms : List Form}
    {change : Expr → Expr} {errors : EvalError → EvalError → Prop}
    (herrors : ∀ x y line, c.Causes x y → errors ⟨x, line⟩ ⟨y, line⟩)
    {r r' : Except Halt (List Value) × Session}
    (h : c.Runs (Rewritten forms change) (List.Forall₂ c.Values) r r')
    (hends : ∀ halt, r.1 = .error halt → halt.gaveUp = false) :
    SameOutcome forms change errors c.Values r.1 r'.1 ∧ c.Sessions r.2 r'.2 := by
  cases h with
  | ok hvs hst => exact ⟨.values hvs, hst⟩
  | failed line hcause hst => exact ⟨.failed (herrors _ _ line hcause), hst⟩
  | unexpected hforms hx hst =>
      rcases hforms with ⟨hform, rfl⟩
      exact ⟨.unexpected hform hx, hst⟩
  | unworded hforms hf hx hst => exact ⟨.unworded hforms.1 hf hx, hst⟩
  | refused e hst => exact ⟨.refused e, hst⟩
  | gaveUp hup => exact absurd (hends _ rfl) (by rw [hup]; exact Bool.noConfusion)

end ListLang
