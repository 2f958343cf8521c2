import ListLang.Proofs.Hazards
import ListLang.Proofs.Marks.Evaluation
import ListLang.Proofs.Moment
import ListLang.Proofs.Writable

/-!
# How a Form Fails

Forms are evaluated one after another in a session, whether those before have
failed or not. Whatever happened before, a form ends in a value or in an error
with a line and with words, unless a loop goes on forever. The line is that of
the form itself or that of some special form in the code evaluated so far: the
form may call a function whose body stands in an earlier one.

There are two exceptions. The call stack may refuse the limits, and then it
refuses them for every form. And there may be no words: for an error that shows
an integer too long to be written there is another one, which shows the form
instead, but the form may have such an integer in it as well.

## Main definitions

* `Concluded`: How a form ends.
* `longHead`: A form that ends in neither a value nor an error.

## Theorems

* `Session.marks_evaluateEach`: The marks in the store of a session come from the
  forms that it has evaluated.
* `Session.concluded_evaluateForm`: A form ends in a value or on a known line.
* `evaluateForm_fails_with_line`: So it does in every session, and its builtins
  meet no hazard.
* `evaluateForm_fails_without_error`: The two exceptions.
-/

namespace ListLang

/-- A form has ended in a value, or in an error with words on its own line or one
    of the given lines, if it has ended at all. Only the call stack may have
    refused the limits, or there are no words, neither for the error nor for the
    form. -/
inductive Concluded (limits : Limits) (lines : List Int) (form : Form) :
    Except Halt Value → Prop where
  | value (v : Value) (hroom : limits.refusal? = none) : Concluded limits lines form (.ok v)
  | failed {cause : EvalCause} {line : Int} (hroom : limits.refusal? = none)
      (hworded : cause.isWorded = true) (h : line = form.line ∨ line ∈ lines) :
      Concluded limits lines form (.error (.failed ⟨cause, some line⟩))
  | endless (hroom : limits.refusal? = none) : Concluded limits lines form (.error .stalled)
  | unworded {cause : EvalCause} (hroom : limits.refusal? = none)
      (hworded : cause.isWorded = false) (hform : form.expr.isWritable = false) :
      Concluded limits lines form (.error (.unworded cause))
  | refused {e : StackError} (hroom : limits.refusal? = some e) :
      Concluded limits lines form (.error (.refused e))

/-- The lines of the special forms in a program. -/
def formMarks (forms : List Form) : List Int :=
  forms.flatMap fun form => form.expr.marks

namespace Session

/-- Evaluating a form leaves the store of its evaluation, or changes nothing if it
    is refused. -/
theorem store_conclude (s : Session) (form : Form) :
    (s.evaluateForm form).2.store = s.store ∨ (s.evaluateForm form).2.store =
      (evaluateWithin s.limits s.budget form.expr s.globals).storeAfter s.store := by
  cases hroom : s.limits.refusal? with
  | some e =>
      rw [evaluateForm_of_refused hroom]
      exact .inl rfl
  | none =>
      rw [evaluateForm_of_room hroom, EvalM.storeAfter]
      cases evaluateWithin s.limits s.budget form.expr s.globals s.store <;> exact .inr rfl

@[simp] theorem limits_evaluateForm (s : Session) (form : Form) :
    (s.evaluateForm form).2.limits = s.limits := by
  cases hroom : s.limits.refusal? with
  | some e => rw [evaluateForm_of_refused hroom]
  | none =>
      rw [evaluateForm_of_room hroom]
      cases evaluateWithin s.limits s.budget form.expr s.globals s.store <;> rfl

@[simp] theorem limits_evaluateEach (s : Session) (forms : List Form) :
    (s.evaluateEach forms).2.limits = s.limits := by
  induction forms generalizing s with
  | nil => rfl
  | cons form forms ih => exact (ih _).trans (s.limits_evaluateForm form)

/-- The marks in the store of a session were there at its start or come from the
    forms that it has evaluated. -/
theorem marks_evaluateEach (s : Session) (forms : List Form) :
    (s.evaluateEach forms).2.store.marks ⊆ s.store.marks ++ formMarks forms := by
  induction forms generalizing s with
  | nil => exact List.subset_append_left _ _
  | cons form forms ih =>
      have hform : (s.evaluateForm form).2.store.marks ⊆ form.expr.marks ++ s.store.marks := by
        rcases s.store_conclude form with hstore | hstore
        · rw [hstore]
          exact List.subset_append_right _ _
        · rw [hstore]
          exact evaluateWithin_marks s.limits s.budget form.expr s.globals s.store
      intro n hn
      have hafter : n ∈ (s.evaluateForm form).2.store.marks ++ formMarks forms := ih _ hn
      simp only [formMarks, List.flatMap_cons, List.mem_append] at hafter ⊢
      rcases hafter with hstore | hlater
      · rcases List.mem_append.mp (hform hstore) with hown | hbefore
        · exact .inr (.inl hown)
        · exact .inl hbefore
      · exact .inr (.inr hlater)

end Session

/-- An error in a form is reported with words, or there are none for the form. -/
theorem Concluded.halt {limits : Limits} (hroom : limits.refusal? = none) {lines : List Int}
    (form : Form) {e : EvalError} (hline : ∀ n, e.line = some n → n ∈ lines) :
    Concluded limits lines form (.error (e.halt form)) := by
  unfold EvalError.halt
  split
  · rename_i hworded
    cases hl : e.line with
    | none => exact .failed hroom hworded (.inl rfl)
    | some n => exact .failed hroom hworded (.inr (hline n hl))
  · rename_i hworded
    unfold Expr.text?
    cases hform : form.expr.isWritable with
    | true => exact .failed hroom rfl (.inl rfl)
    | false => exact .unworded hroom (Bool.eq_false_iff.mpr hworded) hform

/-- In any session, a form ends in a value or in an error on its own line, on that
    of a special form in it or in the store. -/
theorem Session.concluded_evaluateForm (s : Session) (form : Form) :
    Concluded s.limits (form.expr.marks ++ s.store.marks) form (s.evaluateForm form).1 := by
  cases hroom : s.limits.refusal? with
  | some e =>
      rw [evaluateForm_of_refused hroom]
      exact .refused hroom
  | none =>
      rw [evaluateForm_of_room hroom]
      cases hresult : evaluateWithin s.limits s.budget form.expr s.globals s.store with
      | ok v t => exact .value v hroom
      | error z t =>
          cases z with
          | fault x => exact .halt hroom form fun n hn => evaluateWithin_line hresult hn
          | returned v => exact .failed hroom rfl (.inl rfl)
          | broke => exact .failed hroom rfl (.inl rfl)
          | stalled => exact .endless hroom

theorem Concluded.mono {limits : Limits} {lines lines' : List Int} (h : lines ⊆ lines')
    {form : Form} {outcome : Except Halt Value} (hc : Concluded limits lines form outcome) :
    Concluded limits lines' form outcome := by
  cases hc with
  | value v hroom => exact .value v hroom
  | failed hroom hworded hline => exact .failed hroom hworded (hline.imp_right (h ·))
  | endless hroom => exact .endless hroom
  | unworded hroom hworded hform => exact .unworded hroom hworded hform
  | refused hroom => exact .refused hroom

theorem callBuiltin_eval (sub : Evaluator) (env : Nat) (args : List Value) :
    callBuiltin sub env .eval args = match args with
      | [v] => evalValue sub env v
      | _ => EvalM.fault (.builtinArity .eval (args.map Value.text?)) := by
  match args with
  | [] | [_] | _ :: _ :: _ => rfl

/-- After any forms, failed or not, in a new session, a form ends in a value or in
    an error that has words and a line, if it ends: the line of the form or of
    some special form in the code evaluated so far. The exceptions are limits that
    the call stack refuses, and an error without words in a form without a text.
    No builtin is in the way of that. What is called is an implementation from the
    table, with the arguments that it takes, no more and no fewer, and it meets no
    hazard whatever they are. Only `eval` is left to the evaluator, with the one
    argument that it takes. -/
theorem evaluateForm_fails_with_line (limits : Limits) :
    (∀ (before : List Form) (form : Form),
      Concluded limits (formMarks (before ++ [form])) form
        (((Session.new limits).evaluateEach before).2.evaluateForm form).1) ∧
    (∀ b : Builtin, b ≠ .eval →
      (∀ (sub : Evaluator) (env : Nat) (args : List Value),
        callBuiltin sub env b args = EvalM.ofExcept (b.apply args)) ∧
      (∀ args, b.dispatch args = guarded (b.apply args) ∧
        ∀ hazard, b.dispatch args ≠ .error (.hazard hazard)) ∧
      ∀ n < b.arity, ∃ args place, args.length = n ∧ place < b.arity ∧
        b.native args = .error (.hazard (.noArgument place))) ∧
    ∀ (sub : Evaluator) (env : Nat) (args : List Value),
      callBuiltin sub env .eval args = match args with
        | [v] => evalValue sub env v
        | _ => EvalM.fault (.builtinArity .eval (args.map Value.text?)) := by
  refine ⟨?_, ?_, callBuiltin_eval⟩
  · intro before form
    have hconcluded := Session.concluded_evaluateForm
      ((Session.new limits).evaluateEach before).2 form
    rw [Session.limits_evaluateEach] at hconcluded
    refine hconcluded.mono fun n hn => ?_
    rw [formMarks, List.flatMap_append, List.mem_append]
    rcases List.mem_append.mp hn with hown | hstore
    · exact .inr (List.mem_flatMap.mpr ⟨form, List.mem_singleton_self form, hown⟩)
    · -- A new session has no marks of its own.
      exact .inl ((Session.new limits).marks_evaluateEach before hstore)
  · intro b hb
    refine ⟨callBuiltin_of_ne_eval hb, fun args => ?_, fun n hn => Builtin.exists_noArgument hb hn⟩
    have hdispatch := Builtin.dispatch_eq_apply hb args
    exact ⟨hdispatch, fun hazard => hdispatch ▸ guarded_ne_hazard _ hazard⟩

/-- A function on the first line, with a body on the second that is not written as
    it should be. -/
def brokenFunction : Form :=
  ⟨.list (some 1) [.atom none "func", .atom none "f", .list none [],
    .list (some 2) [.atom none "setq", .integer none 1]], 1⟩

/-- A call of it on the fifth line. -/
def brokenFunctionCall : Form :=
  ⟨.list (some 5) [.atom none "f"], 5⟩

theorem evaluateForm_fails_with_line_brokenFunction :
    Concluded ⟨10, 10, {}⟩ (formMarks ([brokenFunction] ++ [brokenFunctionCall]))
        brokenFunctionCall
        (((Session.new ⟨10, 10, {}⟩).evaluateEach [brokenFunction]).2.evaluateForm
          brokenFunctionCall).1 ∧
      (((Session.new ⟨10, 10, {}⟩).evaluateEach [brokenFunction]).2.evaluateForm
        brokenFunctionCall).1 = .error (.failed ⟨.malformed .setq (some "(setq 1)"), some 2⟩) ∧
      Builtin.head ≠ .eval ∧
      (∀ hazard, Builtin.head.dispatch [.list []] ≠ .error (.hazard hazard)) ∧
      ∃ args place, args.length = 0 ∧ place < Builtin.head.arity ∧
        Builtin.head.native args = .error (.hazard (.noArgument place)) := by
  have hforms := evaluateForm_fails_with_line ⟨10, 10, {}⟩
  have hhead := hforms.2.1 .head Builtin.noConfusion
  exact ⟨hforms.1 _ _, rfl, Builtin.noConfusion, (hhead.2.1 [.list []]).2,
    hhead.2.2 0 Nat.one_pos⟩

/-- A list with an integer at its head that is too long to be written. -/
def longHead : Form :=
  ⟨.list (some 7) [.integer (some 7) longInteger], 7⟩

theorem evaluateForm_longHead : (Session.new ⟨10, 10, {}⟩).evaluateForm longHead =
    (.error (.unworded (.headNotFunction ⟨none, .integer⟩)), Session.new ⟨10, 10, {}⟩) := by
  have htext : longHead.expr.text? = none := by
    simp only [longHead, Expr.text?, Expr.isWritable, Expr.allWritable, isWritable_longInteger,
      Bool.false_and, Bool.false_eq_true, ↓reduceIte]
  have hrun : (Session.new ⟨10, 10, {}⟩).evaluateForm longHead = (.error
      ((EvalError.mk (.headNotFunction (Value.integer longInteger).shown) none).halt longHead),
        Session.new ⟨10, 10, {}⟩) :=
    rfl
  rw [hrun, shown_longInteger, EvalError.halt, htext]
  rfl

/-- A limit of depth that the call stack cannot count with, and a form without a
    text in which there is an error without words. -/
theorem evaluateForm_fails_without_error :
    ((Session.new ⟨1000000000, 10, {}⟩).evaluateForm ⟨.integer (some 1) 1, 1⟩).1 =
        .error (.refused .overflow) ∧
      ((Session.new ⟨10, 10, {}⟩).evaluateForm longHead).1 =
        .error (.unworded (.headNotFunction ⟨none, .integer⟩)) := by
  rw [evaluateForm_longHead]
  exact ⟨rfl, rfl⟩

end ListLang
