import ListLang.Proofs.Compositional
import ListLang.Proofs.Moment
import ListLang.Proofs.Writable

/-!
# Room to Go Deeper

How deep an expression stands and how deep evaluation may go matter only through
what lies between the two. An evaluation that does not give up has the same
outcome with more room below it, and with more rounds allowed to its loops:
nothing in the language can tell how much of either is left, and nothing catches
the error that is raised when the room is used up.

## Main definitions

* `Exit.Uncaught`: Kinds of exit that nothing catches.
* `Persists`: A computation does as another does, unless that one leaves with an
  exit of some kind.

## Theorems

* `Persists.seq`, `Persists.handle`: Putting such computations together.
* `compositionalAt_persists`: Computations made of such parts.
* `persists_evalLoop`: Loops with more rounds.
* `persists_evaluateWithin`: Evaluation with more levels and more rounds.
* `Session.interpretWith_persists`: Whole programs.
* `evaluate_with_more_room`: More room changes no outcome.
-/

namespace ListLang

/-- A kind of exit that nothing catches. Stalling is one of the kind. -/
structure Exit.Uncaught (kind : Exit → Bool) : Prop where
  stalled : kind .stalled = true
  passes : ∀ z, kind z = true → z = .stalled ∨ ∃ e, z = .fault e

/-- Nothing catches giving up. -/
theorem Exit.uncaught_gaveUp : Exit.Uncaught Exit.gaveUp where
  stalled := rfl
  passes z hz := by
    cases z with
    | fault e => exact .inr ⟨e, rfl⟩
    | stalled => exact .inl rfl
    | returned v => exact absurd hz Bool.false_ne_true
    | broke => exact absurd hz Bool.false_ne_true

/-- The second computation does as the first does, unless the first leaves with
    an exit of the given kind. -/
def Persists (kind : Exit → Bool) {α : Type} (x y : EvalM α) : Prop :=
  ∀ s, (∀ z t, x s = .error z t → kind z = false) → y s = x s

/-! ### Putting Computations Together -/

namespace Persists

variable {kind : Exit → Bool} {α β : Type}

theorem refl (x : EvalM α) : Persists kind x x :=
  fun _ _ => rfl

theorem seq {x y : EvalM α} {f g : α → EvalM β} (hxy : Persists kind x y)
    (hfg : ∀ a, Persists kind (f a) (g a)) : Persists kind (x >>= f) (y >>= g) := by
  intro s hends
  cases hx : x s with
  | ok a t =>
      have hy : y s = .ok a t := by
        rw [← hx]
        exact hxy s fun z u hz => by rw [hx] at hz; cases hz
      rw [EvalM.bind_of_ok hx] at hends ⊢
      rw [EvalM.bind_of_ok hy]
      exact hfg a t hends
  | error z t =>
      -- What comes after an exit is not reached, so the exit is that of the whole.
      have hz : kind z = false := hends z t (EvalM.bind_of_error hx)
      have hy : y s = .error z t := by
        rw [← hx]
        refine hxy s fun z' u hz' => ?_
        rw [hx] at hz'
        cases hz'
        exact hz
      rw [EvalM.bind_of_error hx, EvalM.bind_of_error hy]

/-- A handler lets an exit that nothing catches pass, so an exit that is handled
    is of another kind. -/
theorem handle (hkind : Exit.Uncaught kind) {x y : EvalM α} {f : Exit → EvalM α}
    (hf : Passive f) (hxy : Persists kind x y) :
    Persists kind (tryCatch x f) (tryCatch y f) := by
  intro s hends
  refine EvalM.tryCatch_congr (hxy s fun z t hx => ?_)
  cases hz : kind z with
  | false => rfl
  | true =>
      have hpass : f z = throw z := by
        rcases hkind.passes z hz with rfl | ⟨e, rfl⟩
        · exact hf.stalled
        · exact hf.fault e
      have hwhole : tryCatch x f s = .error z t := by
        rw [EvalM.tryCatch_of_error hx, hpass]
        rfl
      exact absurd (hends z t hwhole) (by rw [hz]; exact Bool.noConfusion)

end Persists

variable {kind : Exit → Bool}

theorem compositionalAt_persists (hkind : Exit.Uncaught kind) (env : Nat) :
    CompositionalAt (fun _ _ x y => Persists kind x y) env where
  value a := .refl (pure a)
  exit z := .refl (throw z)
  seq := .seq
  handle := .handle hkind
  look := .refl get
  define name v := .refl (EvalM.bindName name v env)
  scope label parent bindings hxy := .seq (.refl (EvalM.newFrame label parent bindings)) hxy

variable {sub sub' : Evaluator}

/-! ### Evaluation -/

/-- A loop that ends within some rounds ends in the same way if more are
    allowed. -/
theorem persists_evalLoop (hkind : Exit.Uncaught kind) {env : Nat}
    (hsub : ∀ e, Persists kind (sub e env) (sub' e env)) (test : Expr) (body : List Expr)
    {fuel fuel' : Nat} (hfuel : fuel ≤ fuel') (v : Value) :
    Persists kind (evalLoop sub env test body fuel v) (evalLoop sub' env test body fuel' v) := by
  have hparts := (compositionalAt_persists hkind env).toCompositional
  induction fuel generalizing fuel' v with
  | zero =>
      intro s hends
      exact absurd (hends .stalled s rfl) (by rw [hkind.stalled]; exact Bool.noConfusion)
  | succ fuel ih =>
      obtain ⟨more, rfl⟩ : ∃ more, fuel' = more + 1 := ⟨fuel' - 1, by omega⟩
      refine .seq (hparts.evalCondition (hsub test) .whileLoop) fun b => ?_
      cases b with
      | false => exact .refl (pure v)
      | true =>
          have hbody := hparts.evalSequence (fun e (_ : e ∈ body) => hsub e) v
          refine .seq (@Compositional.catchBreak _ env hparts _ _ hbody) fun o => ?_
          cases o with
          | none => exact .refl (pure Value.null)
          | some w => exact ih (by omega) w

theorem persists_step (hkind : Exit.Uncaught kind)
    (hsub : ∀ e env, Persists kind (sub e env) (sub' e env)) {fuel fuel' : Nat}
    (hfuel : fuel ≤ fuel') (e : Expr) (env : Nat) :
    Persists kind (step fuel sub e env) (step fuel' sub' e env) :=
  (compositionalAt_persists hkind env).step_of_loops hsub
    (fun test body => persists_evalLoop hkind (fun e => hsub e env) test body hfuel .null) e

/-- Evaluation that does not give up does the same with more levels and more
    rounds. -/
theorem persists_evaluateWithin {limits limits' : Limits} (hfuel : limits.fuel ≤ limits'.fuel)
    {budget budget' : Nat} (hbudget : budget ≤ budget') (e : Expr) (env : Nat) :
    Persists Exit.gaveUp (evaluateWithin limits budget e env)
      (evaluateWithin limits' budget' e env) := by
  induction budget generalizing budget' e env with
  | zero =>
      intro s hends
      exact absurd (hends _ s rfl) Bool.noConfusion
  | succ budget ih =>
      obtain ⟨more, rfl⟩ : ∃ more, budget' = more + 1 := ⟨budget' - 1, by omega⟩
      exact persists_step Exit.uncaught_gaveUp (ih (by omega)) hfuel e env

/-! ### Programs -/

/-- A program that does not give up does the same with an evaluator that does the
    same as long as it does not give up. -/
theorem Session.interpretWith_persists
    (hsub : ∀ e env, Persists Exit.gaveUp (sub e env) (sub' e env)) (limits' : Limits)
    (s : Session) (forms : List Form)
    (hends : ∀ halt, (s.interpretWith sub forms).1 = .error halt → halt.gaveUp = false) :
    Session.interpretWith sub' { s with limits := limits' } forms =
      ((s.interpretWith sub forms).1,
        { (s.interpretWith sub forms).2 with limits := limits' }) := by
  induction forms generalizing s with
  | nil => rfl
  | cons form forms ih =>
      unfold interpretWith at hends ⊢
      have hform : sub' form.expr s.globals s.store = sub form.expr s.globals s.store := by
        -- Giving up on a form would be giving up on the program.
        refine hsub form.expr s.globals s.store fun z t hz => ?_
        rw [hz] at hends
        cases hup : z.gaveUp with
        | false => rfl
        | true => exact absurd (Exit.gaveUp_halt hup form) (by rw [hends _ rfl]; decide)
      simp only [hform]
      cases hrun : sub form.expr s.globals s.store with
      | error z t => rfl
      | ok v t =>
          have hrest := ih ⟨s.limits, s.globals, t⟩ fun halt hhalt => by
            refine hends halt ?_
            simp only [hrun, conclude, hhalt]
            rfl
          simp only [conclude]
          rw [hrest]

/-- With a greater limit of depth the call stack has room as long as the limit of
    calls is a machine integer. -/
theorem Limits.refusal?_eq_none_of_le {limits limits' : Limits} (hroom : limits.refusal? = none)
    (hstack : limits'.stack = limits.stack) (hdepth : limits.depth ≤ limits'.depth)
    (hfits : limits'.stackLimit ≤ CallStack.greatestLimit) : limits'.refusal? = none := by
  have hheight := ((CallStack.refusal?_eq_none_iff ..).1 hroom).1
  refine (CallStack.refusal?_eq_none_iff ..).2 ⟨?_, hfits⟩
  simp only [stackLimit, callsPerLevel, hstack] at hheight ⊢
  omega

theorem Limits.refusal?_of_greatestLimit_lt {limits : Limits}
    (h : CallStack.greatestLimit < limits.stackLimit) : limits.refusal? = some .overflow := by
  unfold refusal? CallStack.refusal?
  rw [if_pos (.inr h)]

/-- Only the room that is left matters. Evaluation that does not give up, with
    words for it or without, has the same outcome, and leaves the same store,
    wherever there is no less room below the expression and no fewer rounds are
    allowed to loops. So raising the limit of depth changes nothing about a
    program that stays within it, as long as the call stack can count the calls.
    Beyond that every form is refused. -/
theorem evaluate_with_more_room (limits' : Limits) :
    (∀ (limits : Limits) (depth depth' : Int) (e : Expr) (env : Nat) (s : Store),
      limits.depth - depth ≤ limits'.depth - depth' → limits.fuel ≤ limits'.fuel →
      (∀ exit t, evaluate limits depth e env s = .error exit t → exit.gaveUp = false) →
      evaluate limits' depth' e env s = evaluate limits depth e env s) ∧
    (∀ (s : Session) (forms : List Form),
      s.limits.refusal? = none → limits'.stack = s.limits.stack →
      s.limits.depth ≤ limits'.depth → s.limits.fuel ≤ limits'.fuel →
      (∀ halt, (s.interpret forms).1 = .error halt → halt.gaveUp = false) →
      (limits'.stackLimit ≤ CallStack.greatestLimit →
        Session.interpret { s with limits := limits' } forms =
          ((s.interpret forms).1, { (s.interpret forms).2 with limits := limits' })) ∧
      (CallStack.greatestLimit < limits'.stackLimit → forms ≠ [] →
        Session.interpret { s with limits := limits' } forms =
          (.error (.refused .overflow), { s with limits := limits' }))) := by
  refine ⟨?_, ?_⟩
  · intro limits depth depth' e env s hroom hfuel hends
    have hbudget : (limits.depth - depth + 1).toNat ≤ (limits'.depth - depth' + 1).toNat := by
      omega
    exact persists_evaluateWithin hfuel hbudget e env s hends
  · intro s forms hroom hstack hdepth hfuel hends
    refine ⟨fun hfits => ?_, fun hover hforms => ?_⟩
    · have hroom' := Limits.refusal?_eq_none_of_le hroom hstack hdepth hfits
      have hbudget : s.budget ≤ Session.budget { s with limits := limits' } := by
        simp only [Session.budget]
        omega
      simp only [Session.interpret_eq, Session.withRoom_of_room hroom] at hends ⊢
      rw [Session.withRoom_of_room (s := { s with limits := limits' }) hroom']
      exact Session.interpretWith_persists (persists_evaluateWithin hfuel hbudget) limits' s
        forms hends
    · obtain ⟨form, rest, rfl⟩ := List.exists_cons_of_ne_nil hforms
      have hrefused := Limits.refusal?_of_greatestLimit_lt hover
      rw [Session.interpret_eq,
        Session.withRoom_of_refused (s := { s with limits := limits' }) hrefused]

/-- A block with a loop that goes round once and a `return`. It needs three levels
    below its own. -/
def loopOnce : Expr :=
  .list none [.atom none "prog", .list none [.atom none "go"],
    .list none [.atom none "setq", .atom none "go", .boolean none true],
    .list none [.atom none "while", .atom none "go",
      .list none [.atom none "setq", .atom none "go", .boolean none false]],
    .list none [.atom none "return", .list none [.atom none "quote", .atom none "done"]]]

theorem evaluate_with_more_room_loopOnce :
    (∃ t, evaluate ⟨5, 2, {}⟩ 2 loopOnce 0 (Session.new ⟨3, 2, {}⟩).store =
        .ok (.atom "done") t) ∧
      evaluate ⟨9, 4, {}⟩ 1 loopOnce 0 (Session.new ⟨3, 2, {}⟩).store =
        evaluate ⟨5, 2, {}⟩ 2 loopOnce 0 (Session.new ⟨3, 2, {}⟩).store ∧
      ((Session.new ⟨3, 2, {}⟩).interpret [⟨loopOnce, 1⟩]).1 = .ok [.atom "done"] ∧
      Session.interpret { Session.new ⟨3, 2, {}⟩ with limits := ⟨8, 2, {}⟩ } [⟨loopOnce, 1⟩] =
        (((Session.new ⟨3, 2, {}⟩).interpret [⟨loopOnce, 1⟩]).1,
          { ((Session.new ⟨3, 2, {}⟩).interpret [⟨loopOnce, 1⟩]).2 with
            limits := ⟨8, 2, {}⟩ }) ∧
      Session.interpret { Session.new ⟨3, 2, {}⟩ with limits := ⟨1000000000, 2, {}⟩ }
          [⟨loopOnce, 1⟩] =
        (.error (.refused .overflow),
          { Session.new ⟨3, 2, {}⟩ with limits := ⟨1000000000, 2, {}⟩ }) := by
  have hvalue : ∃ t, evaluate ⟨5, 2, {}⟩ 2 loopOnce 0 (Session.new ⟨3, 2, {}⟩).store =
      .ok (.atom "done") t := ⟨_, rfl⟩
  have hvalues : ((Session.new ⟨3, 2, {}⟩).interpret [⟨loopOnce, 1⟩]).1 = .ok [.atom "done"] :=
    rfl
  have hends : ∀ halt, ((Session.new ⟨3, 2, {}⟩).interpret [⟨loopOnce, 1⟩]).1 = .error halt →
      halt.gaveUp = false := by
    intro halt herror
    rw [hvalues] at herror
    cases herror
  have hwithin := (evaluate_with_more_room ⟨8, 2, {}⟩).2 _ _ rfl rfl (by decide) (by decide) hends
  have hbeyond := (evaluate_with_more_room ⟨1000000000, 2, {}⟩).2 _ _ rfl rfl (by decide)
    (by decide) hends
  refine ⟨hvalue, (evaluate_with_more_room _).1 _ _ _ _ _ _ (by decide) (by decide) ?_, hvalues,
    hwithin.1 (by decide), hbeyond.2 (by decide) (List.cons_ne_nil _ _)⟩
  intro exit t herror
  rcases hvalue with ⟨u, hok⟩
  rw [hok] at herror
  cases herror

/-- Raising the limit of depth can turn a value into a failure that no evaluation
    has a part in. And at the limit there need not be words for the error, so
    what comes out is another one. -/
theorem outcome_changed_by_more_room :
    (((Session.new ⟨20000, 0, {}⟩).interpret [⟨.integer (some 1) 1, 1⟩]).1 = .ok [.integer 1] ∧
      ((Session.new ⟨1000000000, 0, {}⟩).interpret [⟨.integer (some 1) 1, 1⟩]).1 =
        .error (.refused .overflow)) ∧
    (evaluate ⟨0, 0, {}⟩ 1 (.integer none longInteger) 0 {} =
        .error (.fault ⟨.tooDeep 0 none, none⟩) {} ∧
      (EvalCause.tooDeep 0 none).isWorded = false ∧
      evaluate ⟨1, 0, {}⟩ 1 (.integer none longInteger) 0 {} = .ok (.integer longInteger) {}) := by
  have htext : (Expr.integer none longInteger).text? = none := by
    simp only [Expr.text?, Expr.isWritable, isWritable_longInteger, Bool.false_eq_true, if_false]
  refine ⟨⟨rfl, rfl⟩, ?_, by decide, rfl⟩
  change EvalM.fault (.tooDeep 0 (Expr.integer none longInteger).text?) {} = _
  rw [htext]
  rfl

end ListLang
