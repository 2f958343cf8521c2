import ListLang.Eval.Session
import ListLang.Proofs.Computation

/-!
# Moments of a Run

A run evaluates one expression after another, and while it evaluates one it
evaluates those inside it. Each time an expression is about to be evaluated or
has just been evaluated is a moment of the run, known by the frames of all
expressions under evaluation, the expression and the store. The frames that
have been added since before the evaluation are those made on the way.

A run can be stopped at the first moment of a given kind. What holds at every
moment of a run is then what holds wherever the run is stopped, and a run that
has no moment of some kind is one that is never stopped there.

A session uses its evaluator for nothing but evaluating one form after another,
so everything said of sessions is said for any evaluator. Before each form it
asks for room on the call stack. The answer is the same for all of them, so it is
given once.

## Main definitions

* `Halt.gaveUp`: Whether evaluation gave up.
* `Moment`: An expression before or after its evaluation.
* `evaluateUntil`: Evaluation up to the first moment of a kind.
* `Session.interpretWith`: Evaluating forms with an evaluator.
* `Session.withRoom`: A run, if the call stack has room for it.
* `Session.interpretUntil`: Evaluating forms up to the first moment of a kind.

## Theorems

* `evaluateUntil_of_stop`, `evaluateUntil_zero`, `evaluateUntil_succ`: The first
  moment of an evaluation.
* `evaluateUntil_never`: Evaluation that is never stopped.
* `Session.withRoom_cases`: A run takes place or is refused.
* `Session.interpret_eq`: A session evaluates its forms one after another.
* `Session.interpretUntil_never`: A session that is never stopped.
-/

namespace ListLang

/-- Whether a form has no value because evaluation gave up, at the limit of depth
    or of rounds. There need not be words for it. -/
def Halt.gaveUp : Halt → Bool
  | .failed e => e.cause.isTooDeep
  | .unworded cause => cause.isTooDeep
  | .refused _ => false
  | .stalled => true

theorem EvalError.gaveUp_halt (e : EvalError) (form : Form) :
    (e.halt form).gaveUp = e.cause.isTooDeep := by
  unfold EvalError.halt
  split
  · rfl
  · split <;> rfl

theorem Exit.gaveUp_halt {exit : Exit} (h : exit.gaveUp = true) (form : Form) :
    (exit.halt form).gaveUp = true := by
  cases exit with
  | fault e => exact (e.gaveUp_halt form).trans h
  | stalled => rfl
  | returned v => exact absurd h Bool.false_ne_true
  | broke => exact absurd h Bool.false_ne_true

/-- An expression before or after its evaluation. -/
structure Moment where
  /-- The frames of the expressions under evaluation, this one's first. -/
  active : List Nat
  /-- The expression. -/
  expr : Expr
  /-- How many frames there were before its evaluation. -/
  since : Nat
  /-- The store. -/
  store : Store

/-- Evaluate an expression up to the first moment of a kind, with `active` the
    frames of the expressions around it. -/
def evaluateUntil (stop : Moment → Bool) (limits : Limits) :
    (budget : Nat) → (active : List Nat) → Evaluator
  | 0, active, e, env =>
      EvalM.stopBefore (fun s => stop ⟨env :: active, e, s.frames.size, s⟩)
        (EvalM.stopAfter (fun s t => stop ⟨env :: active, e, s.frames.size, t⟩)
          (EvalM.fault (.tooDeep limits.depth e.text?)))
  | budget + 1, active, e, env =>
      EvalM.stopBefore (fun s => stop ⟨env :: active, e, s.frames.size, s⟩)
        (EvalM.stopAfter (fun s t => stop ⟨env :: active, e, s.frames.size, t⟩)
          (step limits.fuel (evaluateUntil stop limits budget (env :: active)) e env))

section Stopping

variable {stop : Moment → Bool} {limits : Limits} {active : List Nat} {e : Expr} {env : Nat}
  {s : Store}

theorem evaluateUntil_of_stop (h : stop ⟨env :: active, e, s.frames.size, s⟩ = true)
    (budget : Nat) : evaluateUntil stop limits budget active e env s = .error .stalled s := by
  cases budget <;> simp only [evaluateUntil, EvalM.stopBefore, h, ↓reduceIte]

theorem evaluateUntil_zero (h : stop ⟨env :: active, e, s.frames.size, s⟩ = false) :
    evaluateUntil stop limits 0 active e env s =
      EvalM.stopAfter (fun s t => stop ⟨env :: active, e, s.frames.size, t⟩)
        (EvalM.fault (.tooDeep limits.depth e.text?)) s := by
  simp only [evaluateUntil, EvalM.stopBefore, h, Bool.false_eq_true, ↓reduceIte]

theorem evaluateUntil_succ (h : stop ⟨env :: active, e, s.frames.size, s⟩ = false) (budget : Nat) :
    evaluateUntil stop limits (budget + 1) active e env s =
      EvalM.stopAfter (fun s t => stop ⟨env :: active, e, s.frames.size, t⟩)
        (step limits.fuel (evaluateUntil stop limits budget (env :: active)) e env) s := by
  simp only [evaluateUntil, EvalM.stopBefore, h, Bool.false_eq_true, ↓reduceIte]

variable (stop limits active e env s) in
/-- Evaluation without a budget gives up. -/
theorem gaveUp_evaluateUntil_zero :
    ∃ x, evaluateUntil stop limits 0 active e env s = .error x s ∧ x.gaveUp = true := by
  cases hstop : stop ⟨env :: active, e, s.frames.size, s⟩ with
  | true => exact ⟨_, evaluateUntil_of_stop hstop 0, rfl⟩
  | false =>
      rw [evaluateUntil_zero hstop]
      rcases EvalM.stopAfter_cases _ _ s with heq | heq
      · exact ⟨_, heq, rfl⟩
      · exact ⟨_, heq, rfl⟩

end Stopping

/-- No moment at all. -/
def never : Moment → Bool :=
  fun _ => false

theorem evaluateUntil_never (limits : Limits) (budget : Nat) (active : List Nat) :
    evaluateUntil never limits budget active = evaluateWithin limits budget := by
  induction budget generalizing active with
  | zero => rfl
  | succ budget ih =>
      funext e env s
      rw [evaluateUntil_succ rfl, EvalM.stopAfter_of_not_stop _ rfl, ih (env :: active),
        evaluateWithin]

namespace Session

/-- The budget for a form at the top level. -/
def budget (s : Session) : Nat :=
  (s.limits.depth + 1).toNat

/-- What a form yields, from the result of evaluating it. -/
def conclude (s : Session) (form : Form) :
    EStateM.Result Exit Store Value → Except Halt Value × Session
  | .ok v store => (.ok v, { s with store := store })
  | .error exit store => (.error (exit.halt form), { s with store := store })

/-- Evaluate forms with an evaluator, up to the first that fails. -/
def interpretWith (eval : Evaluator) (s : Session) :
    List Form → Except Halt (List Value) × Session
  | [] => (.ok [], s)
  | form :: forms =>
      match s.conclude form (eval form.expr s.globals s.store) with
      | (.error halt, s) => (.error halt, s)
      | (.ok v, s) =>
          let (rest, s) := s.interpretWith eval forms
          (rest.map (v :: ·), s)

/-- A run of some forms, if the call stack has room for it. Without any form
    nothing is asked of the stack. -/
def withRoom (s : Session) (forms : List Form) (run : Except Halt (List Value) × Session) :
    Except Halt (List Value) × Session :=
  match s.limits.refusal?, forms with
  | some e, _ :: _ => (.error (.refused e), s)
  | _, _ => run

/-- Evaluate forms up to the first moment of a kind, or the first form that
    fails. -/
def interpretUntil (stop : Moment → Bool) (s : Session) (forms : List Form) :
    Except Halt (List Value) × Session :=
  s.withRoom forms (s.interpretWith (evaluateUntil stop s.limits s.budget []) forms)

section Room

variable {s : Session}

theorem withRoom_of_room (h : s.limits.refusal? = none) (forms : List Form)
    (run : Except Halt (List Value) × Session) : s.withRoom forms run = run := by
  unfold withRoom
  rw [h]

theorem withRoom_nil (run : Except Halt (List Value) × Session) : s.withRoom [] run = run := by
  unfold withRoom
  cases s.limits.refusal? <;> rfl

theorem withRoom_of_refused {e : StackError} (h : s.limits.refusal? = some e) (form : Form)
    (forms : List Form) (run : Except Halt (List Value) × Session) :
    s.withRoom (form :: forms) run = (.error (.refused e), s) := by
  unfold withRoom
  rw [h]

variable (s) in
/-- A run takes place, or it is refused and nothing has changed. -/
theorem withRoom_cases (forms : List Form) (run : Except Halt (List Value) × Session) :
    s.withRoom forms run = run ∨ ∃ e, s.limits.refusal? = some e ∧
      s.withRoom forms run = (.error (.refused e), s) := by
  cases hroom : s.limits.refusal? with
  | none => exact .inl (withRoom_of_room hroom forms run)
  | some e =>
      cases forms with
      | nil => exact .inl (withRoom_nil run)
      | cons form forms => exact .inr ⟨e, rfl, withRoom_of_refused hroom form forms run⟩

variable (s) in
/-- Of two runs both take place, or it does not matter what they are. -/
theorem withRoom_both (forms : List Form) (run run' : Except Halt (List Value) × Session) :
    s.withRoom forms run = s.withRoom forms run' ∨
      s.withRoom forms run = run ∧ s.withRoom forms run' = run' := by
  cases hroom : s.limits.refusal? with
  | none => exact .inr ⟨withRoom_of_room hroom forms run, withRoom_of_room hroom forms run'⟩
  | some e =>
      cases forms with
      | nil => exact .inr ⟨withRoom_nil run, withRoom_nil run'⟩
      | cons form forms =>
          rw [withRoom_of_refused hroom, withRoom_of_refused hroom]
          exact .inl rfl

theorem evaluateForm_of_room (h : s.limits.refusal? = none) (form : Form) :
    s.evaluateForm form =
      s.conclude form (evaluateWithin s.limits s.budget form.expr s.globals s.store) := by
  rcases s with ⟨limits, globals, store⟩
  have hbudget : evaluate limits 0 = evaluateWithin limits (limits.depth + 1).toNat := by
    unfold evaluate
    rw [Int.sub_zero]
  unfold evaluateForm budget
  simp only [← hbudget, h]
  cases hresult : evaluate limits 0 form.expr globals store with
  | ok v store => simp only [conclude]
  | error exit store => simp only [conclude]

theorem evaluateForm_of_refused {e : StackError} (h : s.limits.refusal? = some e) (form : Form) :
    s.evaluateForm form = (.error (.refused e), s) := by
  rcases s with ⟨limits, globals, store⟩
  simp only [evaluateForm, h]

end Room

/-- A session evaluates its forms one after another, with the same evaluator. -/
theorem interpret_eq (s : Session) (forms : List Form) :
    s.interpret forms =
      s.withRoom forms (s.interpretWith (evaluateWithin s.limits s.budget) forms) := by
  cases hroom : s.limits.refusal? with
  | some e =>
      cases forms with
      | nil => rw [withRoom_nil, interpret, interpretWith]
      | cons form forms =>
          rw [withRoom_of_refused hroom, interpret, evaluateForm_of_refused hroom]
  | none =>
      rw [withRoom_of_room hroom]
      induction forms generalizing s with
      | nil => rfl
      | cons form forms ih =>
          unfold interpret interpretWith
          rw [evaluateForm_of_room hroom]
          cases evaluateWithin s.limits s.budget form.expr s.globals s.store with
          | ok v store =>
              simp only [conclude]
              rw [ih ⟨s.limits, s.globals, store⟩ hroom]
              rfl
          | error exit store => rfl

theorem interpretUntil_never (s : Session) (forms : List Form) :
    s.interpretUntil never forms = s.interpret forms := by
  rw [interpretUntil, evaluateUntil_never, interpret_eq]

end Session

end ListLang
