import ListLang.Proofs.Confined

/-!
# Runs That Are Stopped

A run that is stopped at the moments of one kind does as a run that is stopped
at fewer moments, up to the first moment of the kind. From there the other run
goes on, and what it does to the store then is known: it changes the frames
that are active at that moment and those it makes, and no others. This is how
something is said about two moments of one run, the earlier being where the
first of two runs is stopped and the later where the second is.

## Main definitions

* `Onward`: What holds between a store and any later one, as long as only free
  frames are active.
* `Cut`: A computation does as another does until it is stopped.
* `cutting`: The relation between two such computations in a frame.

## Theorems

* `Cut.bind`, `Cut.tryCatch`, `Cut.stopBefore`, `Cut.stopAfter`: Putting such
  computations together.
* `compositionalAt_cutting`: Computations made of such parts.
* `evaluateUntil_eq_of_not_free`: Nothing stops while a frame is active that is
  not free.
* `cutting_evaluateUntil`: Evaluation up to two kinds of moment.
* `interpretUntil_cut`: Whole programs up to two kinds of moment.
* `interpretUntil_eq_interpret`: A run without a moment of a kind.
-/

namespace ListLang

/-- What holds between a store and any later one, as long as only free frames
    are active. -/
structure Onward (K : Store → Store → Prop) (free : Nat → Prop) : Prop where
  trans : ∀ {s t u}, K s t → K t u → K s u
  evolves : ∀ {env s t}, free env → Evolves env s t → K s t

/-- A computation does as another does, unless it is stopped at a store that the
    other leaves behind. -/
def Cut {α : Type} (K : Store → Store → Prop) (x y : EvalM α) : Prop :=
  ∀ s, x s = y s ∨ ∃ t, x s = .error .stalled t ∧ K t (y.storeAfter s)

/-- Two computations in a frame of which the first may be stopped earlier, though
    not while a frame is active that is not free. -/
def cutting (K : Store → Store → Prop) (free : Nat → Prop) :
    Nat → (α : Type) → EvalM α → EvalM α → Prop :=
  fun env _ x y => Confined env y ∧ (free env → Cut K x y) ∧ (¬ free env → x = y)

variable {K : Store → Store → Prop} {free : Nat → Prop}

/-! ### Computations -/

theorem Cut.of_eq {α : Type} {x y : EvalM α} (h : x = y) : Cut K x y :=
  fun _ => .inl (by rw [h])

theorem Cut.bind {α β : Type} {x y : EvalM α} {f g : α → EvalM β} (hx : Cut K x y)
    (hf : ∀ a, Cut K (f a) (g a)) (hkeep : ∀ a s t, K t s → K t ((g a).storeAfter s)) :
    Cut K (x >>= f) (y >>= g) := by
  intro s
  rw [EvalM.storeAfter_bind]
  rcases hx s with heq | ⟨t, hstop, hkt⟩
  · cases hy : y s with
    | ok a u =>
        rw [hy] at heq
        rcases hf a u with hfg | ⟨t, hstop, hkt⟩
        · left
          rw [EvalM.bind_of_ok heq, EvalM.bind_of_ok hy, hfg]
        · right
          refine ⟨t, ?_, hkt⟩
          rw [EvalM.bind_of_ok heq, hstop]
    | error z u =>
        rw [hy] at heq
        left
        rw [EvalM.bind_of_error heq, EvalM.bind_of_error hy]
  · right
    refine ⟨t, EvalM.bind_of_error hstop, ?_⟩
    unfold EvalM.storeAfter at hkt
    cases hy : y s with
    | ok a u => rw [hy] at hkt; exact hkeep a u t hkt
    | error z u => rw [hy] at hkt; exact hkt

theorem Cut.tryCatch {α : Type} {x y : EvalM α} {f : Exit → EvalM α} (hf : Passive f)
    (hx : Cut K x y) : Cut K (tryCatch x f) (tryCatch y f) := by
  intro s
  rw [EvalM.storeAfter_tryCatch hf]
  rcases hx s with heq | ⟨t, hstop, hkt⟩
  · exact .inl (EvalM.tryCatch_congr heq)
  · right
    refine ⟨t, ?_, hkt⟩
    rw [EvalM.tryCatch_of_error hstop, hf.stalled]
    rfl

/-- A whole can be stopped earlier if its parts can, in a free frame. -/
theorem compositionalAt_cutting (h : Onward K free) {env : Nat} (henv : free env) :
    CompositionalAt (cutting K free) env where
  value a := ⟨fun s => .refl _ s, fun _ => .of_eq rfl, fun _ => rfl⟩
  exit z := ⟨fun s => .refl _ s, fun _ => .of_eq rfl, fun _ => rfl⟩
  seq {env α β x y f g} hx hf := by
    refine ⟨hx.1.bind fun a => (hf a).1, fun hfree => ?_, fun hfree => ?_⟩
    · exact (hx.2.1 hfree).bind (fun a => (hf a).2.1 hfree) fun a s t hts =>
        h.trans hts (h.evolves hfree ((hf a).1 s))
    · rw [hx.2.2 hfree, funext fun a => (hf a).2.2 hfree]
  handle {env α x y f} hf hx := by
    refine ⟨hx.1.tryCatch hf, fun hfree => ?_, fun hfree => ?_⟩
    · exact (hx.2.1 hfree).tryCatch hf
    · rw [hx.2.2 hfree]
  look := ⟨(compositionalAt_confined env).look, fun _ => .of_eq rfl, fun _ => rfl⟩
  define name v := ⟨fun s => .define env s name v, fun _ => .of_eq rfl, fun _ => rfl⟩
  scope {α x y} label parent bindings hx := by
    refine ⟨.newFrame (fun frame => (hx frame).1) env label parent bindings,
      fun _ s => ?_, fun hfree => absurd henv hfree⟩
    -- Inside, the new frame is the one that counts.
    by_cases hframe : free s.frames.size
    · exact (hx s.frames.size).2.1 hframe _
    · left
      change x s.frames.size _ = y s.frames.size _
      rw [(hx s.frames.size).2.2 hframe]

/-! ### Evaluation -/

theorem not_stopped_of_le {p q : Moment → Bool} (hpq : ∀ m, p m = true → q m = true) {m : Moment}
    (hq : q m = false) : p m = false := by
  cases hpm : p m with
  | false => rfl
  | true => rw [hpq m hpm] at hq; cases hq

section Evaluation

variable {p q : Moment → Bool} (hpq : ∀ m, p m = true → q m = true)
  (hfree : ∀ m, q m = true → ∀ k ∈ m.active, free k)
include hpq hfree

theorem not_stopped_of_not_free {m : Moment} {k : Nat} (hk : k ∈ m.active) (hnot : ¬ free k) :
    q m = false ∧ p m = false := by
  have hq : q m = false := by
    cases hqm : q m with
    | false => rfl
    | true => exact absurd (hfree m hqm k hk) hnot
  exact ⟨hq, not_stopped_of_le hpq hq⟩

/-- Nothing stops while a frame is active that is not free. -/
theorem evaluateUntil_eq_of_not_free (limits : Limits) (budget : Nat) {active : List Nat}
    {env k : Nat} (hk : k ∈ env :: active) (hnot : ¬ free k) (e : Expr) :
    evaluateUntil q limits budget active e env = evaluateUntil p limits budget active e env := by
  have hgo : ∀ since s, q ⟨env :: active, e, since, s⟩ = false ∧
      p ⟨env :: active, e, since, s⟩ = false := fun since s =>
    not_stopped_of_not_free (m := ⟨env :: active, e, since, s⟩) hpq hfree hk hnot
  induction budget generalizing active env e with
  | zero =>
      funext s
      rw [evaluateUntil_zero (hgo _ s).1, evaluateUntil_zero (hgo _ s).2,
        EvalM.stopAfter_of_not_stop _ (hgo _ _).1, EvalM.stopAfter_of_not_stop _ (hgo _ _).2]
  | succ budget ih =>
      funext s
      have hsub : evaluateUntil q limits budget (env :: active) =
          evaluateUntil p limits budget (env :: active) := by
        funext e' env'
        have hk' : k ∈ env' :: env :: active := List.mem_cons_of_mem _ hk
        exact ih hk' e' fun since s =>
          not_stopped_of_not_free (m := ⟨env' :: env :: active, e', since, s⟩) hpq hfree hk' hnot
      rw [evaluateUntil_succ (hgo _ s).1, evaluateUntil_succ (hgo _ s).2, hsub,
        EvalM.stopAfter_of_not_stop _ (hgo _ _).1, EvalM.stopAfter_of_not_stop _ (hgo _ _).2]

omit hfree in
/-- A computation that may be stopped after it, at more stores on the first side. -/
theorem Cut.stopAfter {α : Type} (hrefl : ∀ s, K s s) {x y : EvalM α} (h : Cut K x y)
    (moment : Store → Store → Moment) :
    Cut K (x.stopAfter fun s t => q (moment s t)) (y.stopAfter fun s t => p (moment s t)) := by
  intro s
  rw [EvalM.storeAfter_stopAfter]
  rcases h s with heq | ⟨t, hstop, hkt⟩
  · -- Both have come to the same store, where the first may be stopped now.
    have hstore : x.storeAfter s = y.storeAfter s := by simp only [EvalM.storeAfter, heq]
    cases hq : q (moment s (x.storeAfter s)) with
    | true =>
        refine .inr ⟨x.storeAfter s, ?_, hstore ▸ hrefl _⟩
        simp only [EvalM.stopAfter, hq, ↓reduceIte]
    | false =>
        refine .inl ?_
        have hp := not_stopped_of_le hpq hq
        rw [EvalM.stopAfter_of_not_stop _ hq, EvalM.stopAfter_of_not_stop _ (hstore ▸ hp), heq]
  · -- The first was stopped on the way, and stopping it again changes nothing.
    refine .inr ⟨t, ?_, hkt⟩
    rcases EvalM.stopAfter_cases (fun s t => q (moment s t)) x s with heq | heq
    · rw [heq, hstop]
    · rw [heq, EvalM.storeAfter, hstop]

omit hfree in
/-- A computation that may be stopped before it, at more stores on the first
    side. -/
theorem Cut.stopBefore {α : Type} {x y : EvalM α} (hkeep : ∀ s, K s s ∧ K s (y.storeAfter s))
    (h : Cut K x y) (moment : Store → Moment) :
    Cut K (x.stopBefore fun s => q (moment s)) (y.stopBefore fun s => p (moment s)) := by
  intro s
  cases hq : q (moment s) with
  | true =>
      refine .inr ⟨s, by simp only [EvalM.stopBefore, hq, ↓reduceIte], ?_⟩
      cases hp : p (moment s) with
      | true => simp only [EvalM.storeAfter, EvalM.stopBefore, hp, ↓reduceIte, (hkeep s).1]
      | false =>
          have hafter := (hkeep s).2
          unfold EvalM.storeAfter at hafter ⊢
          simp only [EvalM.stopBefore, hp, Bool.false_eq_true, ↓reduceIte]
          exact hafter
  | false =>
      have hcut := h s
      unfold EvalM.storeAfter at hcut ⊢
      simp only [EvalM.stopBefore, hq, not_stopped_of_le hpq hq, Bool.false_eq_true, ↓reduceIte]
      exact hcut

/-- Evaluation that is stopped at more moments does as evaluation that is stopped
    at fewer, until it is stopped. -/
theorem cutting_evaluateUntil (h : Onward K free) (limits : Limits) (budget : Nat)
    (active : List Nat) (e : Expr) (env : Nat) :
    cutting K free env Value (evaluateUntil q limits budget active e env)
      (evaluateUntil p limits budget active e env) := by
  -- One level may be stopped on either side of it, and in a free frame that is harmless.
  have hlevel : ∀ {env : Nat} {x y : EvalM Value} (moment : Store → Store → Moment), free env →
      Confined env y → Cut K x y →
      Cut K ((x.stopAfter fun s t => q (moment s t)).stopBefore fun s => q (moment s s))
        ((y.stopAfter fun s t => p (moment s t)).stopBefore fun s => p (moment s s)) := by
    intro env x y moment henv hy hxy
    have hrefl : ∀ s, K s s := fun s => h.evolves henv (.refl env s)
    refine Cut.stopBefore hpq (fun s => ⟨hrefl s, ?_⟩) (hxy.stopAfter hpq hrefl moment)
      (fun s => moment s s)
    rw [EvalM.storeAfter_stopAfter]
    exact h.evolves henv (hy s)
  induction budget generalizing active e env with
  | zero =>
      refine ⟨confined_evaluateUntil p limits 0 active e env, fun henv => ?_, fun hnot =>
        evaluateUntil_eq_of_not_free hpq hfree limits 0 List.mem_cons_self hnot e⟩
      exact hlevel (fun s t => ⟨env :: active, e, s.frames.size, t⟩) henv (fun s => .refl env s)
        (.of_eq rfl)
  | succ budget ih =>
      refine ⟨confined_evaluateUntil p limits (budget + 1) active e env, fun henv => ?_,
        fun hnot => evaluateUntil_eq_of_not_free hpq hfree limits _ List.mem_cons_self hnot e⟩
      have hstep := (compositionalAt_cutting h henv).step (ih (env :: active)) limits.fuel e
      exact hlevel (fun s t => ⟨env :: active, e, s.frames.size, t⟩) henv hstep.1 (hstep.2.1 henv)

end Evaluation

/-! ### Programs -/

/-- Forms are evaluated in the global frame and confined to it. -/
theorem interpretWith_evolves {eval : Evaluator} (heval : ∀ e env, Confined env (eval e env))
    (s : Session) (forms : List Form) :
    Evolves s.globals s.store (s.interpretWith eval forms).2.store := by
  induction forms generalizing s with
  | nil => exact .refl _ _
  | cons form forms ih =>
      have hform := heval form.expr s.globals s.store
      unfold Session.interpretWith
      unfold EvalM.storeAfter at hform
      cases hresult : eval form.expr s.globals s.store with
      | ok v t =>
          rw [hresult] at hform
          exact hform.trans (ih ⟨s.limits, s.globals, t⟩)
      | error z t =>
          rw [hresult] at hform
          exact hform

theorem interpretWith_cut (h : Onward K free) {eval eval' : Evaluator}
    (heval : ∀ e env, cutting K free env Value (eval e env) (eval' e env)) (s : Session)
    (forms : List Form) :
    s.interpretWith eval forms = s.interpretWith eval' forms ∨
      ∃ t, s.interpretWith eval forms = (.error .stalled, t) ∧
        K t.store (s.interpretWith eval' forms).2.store := by
  induction forms generalizing s with
  | nil => exact .inl rfl
  | cons form forms ih =>
      have hfirst : eval form.expr s.globals s.store = eval' form.expr s.globals s.store ∨
          (free s.globals ∧ ∃ t, eval form.expr s.globals s.store = .error .stalled t ∧
            K t ((eval' form.expr s.globals).storeAfter s.store)) := by
        by_cases hglobals : free s.globals
        · exact ((heval form.expr s.globals).2.1 hglobals s.store).imp_right fun hstop =>
            ⟨hglobals, hstop⟩
        · rw [(heval form.expr s.globals).2.2 hglobals]
          exact .inl rfl
      unfold Session.interpretWith
      rcases hfirst with heq | ⟨hglobals, t, hstop, hkt⟩
      · rw [heq]
        cases eval' form.expr s.globals s.store with
        | error z u => exact .inl rfl
        | ok v u =>
            simp only [Session.conclude]
            rcases ih ⟨s.limits, s.globals, u⟩ with hrest | ⟨t, hrest, hkt⟩
            · rw [hrest]
              exact .inl rfl
            · rw [hrest]
              exact .inr ⟨t, rfl, hkt⟩
      · rw [hstop]
        refine .inr ⟨⟨s.limits, s.globals, t⟩, rfl, ?_⟩
        -- The other run goes on with this form, and perhaps with others.
        unfold EvalM.storeAfter at hkt
        cases hresult : eval' form.expr s.globals s.store with
        | error z u => rw [hresult] at hkt; exact hkt
        | ok v u =>
            rw [hresult] at hkt
            have hrest := interpretWith_evolves (fun e env => (heval e env).1)
              ⟨s.limits, s.globals, u⟩ forms
            exact h.trans hkt (h.evolves hglobals hrest)

/-- A program that is stopped at more moments does as when it is stopped at
    fewer, until it is stopped. -/
theorem interpretUntil_cut {p q : Moment → Bool} (hpq : ∀ m, p m = true → q m = true)
    (hfree : ∀ m, q m = true → ∀ k ∈ m.active, free k) (h : Onward K free) (s : Session)
    (forms : List Form) :
    s.interpretUntil q forms = s.interpretUntil p forms ∨
      ∃ t, s.interpretUntil q forms = (.error .stalled, t) ∧
        K t.store (s.interpretUntil p forms).2.store := by
  unfold Session.interpretUntil
  rcases s.withRoom_both forms
    (s.interpretWith (evaluateUntil q s.limits s.budget []) forms)
    (s.interpretWith (evaluateUntil p s.limits s.budget []) forms) with heq | ⟨hq, hp⟩
  · exact .inl heq
  · rw [hq, hp]
    exact interpretWith_cut h (cutting_evaluateUntil hpq hfree h s.limits s.budget []) s forms

/-- A program that is not stopped runs as it would anyway. -/
theorem interpretUntil_eq_interpret (stop : Moment → Bool) {s : Session} {forms : List Form}
    (h : (s.interpretUntil stop forms).1 ≠ .error .stalled) :
    s.interpretUntil stop forms = s.interpret forms := by
  have honward : Onward (fun _ _ => True) (fun _ => True) :=
    ⟨fun _ _ => trivial, fun _ _ => trivial⟩
  have hcut := interpretUntil_cut (p := never) (q := stop)
    (fun _ hm => absurd hm Bool.false_ne_true) (fun _ _ _ _ => trivial) honward s forms
  rw [Session.interpretUntil_never] at hcut
  rcases hcut with heq | ⟨t, hstop, _⟩
  · exact heq
  · rw [hstop] at h
    exact absurd rfl h

end ListLang
