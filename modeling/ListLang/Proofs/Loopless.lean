import ListLang.Proofs.Budget
import ListLang.Proofs.DeadStore
import ListLang.Proofs.Discipline.Step
import ListLang.Proofs.Failures

/-!
# Programs Without Loops

Recursion, closures and code that is made of data cannot make a program run
forever, since each of them goes deeper and there is a limit to that. Only a
loop stays where it is. So a program in which the atom `while` does not occur
ends, and how it ends does not depend on how many rounds a loop may go.

That the atom does not occur in the program is enough, because no expression
that is ever evaluated has an atom that does not come from the program. What is
bound, what a function has for a body and what `eval` makes of data are all put
together from parts of the program.

## Main definitions

* `loopless`: The discipline of code without loops.
* `Exit.isStalled`: Whether a loop used up its rounds.
* `Ended`: How a form ends that does not go on forever.

## Theorems

* `Expr.all_quoted_iff`: The atoms of quoted code.
* `permits_loopless`: Code without loops evaluates only such code.
* `Session.evaluateForm_withRounds`, `Session.evaluateEach_withRounds`: More
  rounds change nothing that has ended.
* `Session.ended_evaluateEach`: How forms end that do not stall.
* `not_stalled_of_loopless`: Code without loops does not stall.
* `evaluateEach_ends`: Without loops everything ends.
-/

namespace ListLang

/-! ### Code -/

theorem Expr.mem_atoms_list {line : Option Int} {items : List Expr} {name : String} :
    name ∈ (Expr.list line items).atoms ↔ ∃ e ∈ items, name ∈ e.atoms := by
  rw [atoms, atomsAll_eq_flatMap, List.mem_flatMap]

/-- The atoms in quoted code are those of the code, and there are no functions
    in it. -/
theorem Expr.all_quoted_iff {P : String → Prop} {F : Closure → Prop} (e : Expr) :
    e.quoted.All P F ↔ ∀ name ∈ e.atoms, P name := by
  induction e using Expr.induct with
  | atom line name =>
      constructor
      · intro h other hother
        cases h with
        | atom hname => rw [List.mem_singleton.mp hother]; exact hname
      · intro h
        exact .atom (h name (List.mem_singleton.mpr rfl))
  | list line items ih =>
      have hitems : (Expr.list line items).quoted.All P F ↔ ∀ e ∈ items, e.quoted.All P F := by
        rw [quoted, quotedAll_eq_map]
        constructor
        · intro h e he
          cases h with
          | list hitems => exact hitems _ (List.mem_map_of_mem he)
        · intro h
          exact .list (List.forall_mem_map.mpr h)
      rw [hitems]
      constructor
      · intro h name hname
        rcases mem_atoms_list.mp hname with ⟨e, he, hname⟩
        exact (ih e he).mp (h e he) name hname
      · intro h e he
        exact (ih e he).mpr fun name hname => h name (mem_atoms_list.mpr ⟨e, he, hname⟩)
  | integer _ n => exact ⟨fun _ _ h => absurd h List.not_mem_nil, fun _ => .integer n⟩
  | real _ x => exact ⟨fun _ _ h => absurd h List.not_mem_nil, fun _ => .real x⟩
  | boolean _ b => exact ⟨fun _ _ h => absurd h List.not_mem_nil, fun _ => .boolean b⟩
  | null _ => exact ⟨fun _ _ h => absurd h List.not_mem_nil, fun _ => .null⟩

/-- Code without loops: the atom `while` occurs neither in it nor in data. -/
def loopless : Discipline where
  code _ e := SpecialForm.whileLoop.name ∉ e.atoms
  pinned _ := False
  datum name := name ≠ SpecialForm.whileLoop.name
  checked := False
  stalls := False

theorem admits_loopless_quoted {e : Expr} {n : Nat} :
    loopless.Admits n e.quoted ↔ SpecialForm.whileLoop.name ∉ e.atoms := by
  refine e.all_quoted_iff.trans ⟨fun h hmem => h _ hmem rfl, fun h name hname heq => ?_⟩
  rw [heq] at hname
  exact h hname

/-- What `eval` makes of data has the atoms of the data. -/
theorem evalsData_loopless : loopless.EvalsData := by
  intro around v e n hv he
  rw [← Value.quoted_of_toExpr he] at hv
  exact admits_loopless_quoted.mp hv

/-- Code without loops evaluates only code without loops. -/
theorem permits_loopless {around : Surroundings} {e : Expr} (h : loopless.code around e) :
    loopless.Permits around e := by
  refine Discipline.permits_of_items (fun _ => id) id evalsData_loopless ?_ ?_
  · rintro line items rfl f hf
    have hcode : SpecialForm.whileLoop.name ∉ f.atoms := fun hmem =>
      h (Expr.mem_atoms_list.mpr ⟨f, hf, hmem⟩)
    exact ⟨admits_loopless_quoted.mpr hcode, fun _ => hcode⟩
  · -- A loop would have the atom at its head.
    intro hhead
    refine absurd ?_ h
    match e, hhead with
    | .list line (.atom own name :: args), hhead =>
        rw [← Option.some.inj hhead]
        exact Expr.mem_atoms_list.mpr ⟨_, List.mem_cons_self, List.mem_singleton.mpr rfl⟩

/-! ### Rounds -/

/-- Whether a loop used up its rounds. -/
def Exit.isStalled : Exit → Bool
  | .stalled => true
  | _ => false

theorem Exit.uncaught_isStalled : Exit.Uncaught Exit.isStalled where
  stalled := rfl
  passes z hz := by
    cases z with
    | stalled => exact .inl rfl
    | fault _ | returned _ | broke => exact absurd hz Bool.false_ne_true

/-- Evaluation that does not stall does the same if loops are allowed more
    rounds. -/
theorem persists_more_rounds {limits : Limits} {fuel : Nat} (hfuel : limits.fuel ≤ fuel)
    (budget : Nat) (e : Expr) (env : Nat) :
    Persists Exit.isStalled (evaluateWithin limits budget e env)
      (evaluateWithin { limits with fuel := fuel } budget e env) := by
  induction budget generalizing e env with
  | zero => exact .refl _
  | succ budget ih => exact persists_step Exit.uncaught_isStalled ih hfuel e env

/-- An error is reported, with words or without, and does not stall. -/
theorem Exit.eq_stalled_of_halt {z : Exit} {form : Form} (h : z.halt form = .stalled) :
    z = .stalled := by
  cases z with
  | stalled => rfl
  | fault e =>
      simp only [halt, EvalError.halt] at h
      split at h
      · cases h
      · split at h <;> cases h
  | returned _ | broke => cases h

namespace Session

/-- The session with another limit on the rounds of loops. -/
def withRounds (s : Session) (fuel : Nat) : Session :=
  { s with limits := { s.limits with fuel := fuel } }

/-- A form that does not stall has the same outcome, and leaves the same store, if
    loops are allowed more rounds. -/
theorem evaluateForm_withRounds (s : Session) {fuel : Nat} (hfuel : s.limits.fuel ≤ fuel)
    (form : Form) (hends : (s.evaluateForm form).1 ≠ .error .stalled) :
    (s.withRounds fuel).evaluateForm form =
      ((s.evaluateForm form).1, (s.evaluateForm form).2.withRounds fuel) := by
  -- Whether the call stack refuses the limits does not depend on the rounds.
  have hrefusal : (s.withRounds fuel).limits.refusal? = s.limits.refusal? := rfl
  cases hroom : s.limits.refusal? with
  | some e =>
      rw [evaluateForm_of_refused hroom, evaluateForm_of_refused (hrefusal.trans hroom)]
  | none =>
      rw [evaluateForm_of_room hroom] at hends ⊢
      rw [evaluateForm_of_room (hrefusal.trans hroom)]
      have hsame : evaluateWithin (s.withRounds fuel).limits s.budget form.expr s.globals s.store =
          evaluateWithin s.limits s.budget form.expr s.globals s.store := by
        refine persists_more_rounds hfuel s.budget form.expr s.globals s.store fun z t hz => ?_
        rw [hz] at hends
        cases z with
        | stalled => exact absurd rfl hends
        | fault _ | returned _ | broke => rfl
      change conclude _ form (evaluateWithin (s.withRounds fuel).limits s.budget form.expr s.globals
        s.store) = _
      rw [hsame]
      cases evaluateWithin s.limits s.budget form.expr s.globals s.store <;> rfl

/-- Forms that do not stall have the same outcomes if loops are allowed more
    rounds. -/
theorem evaluateEach_withRounds (s : Session) {fuel : Nat} (hfuel : s.limits.fuel ≤ fuel)
    (forms : List Form) (hends : .error .stalled ∉ (s.evaluateEach forms).1) :
    ((s.withRounds fuel).evaluateEach forms).1 = (s.evaluateEach forms).1 := by
  induction forms generalizing s with
  | nil => rfl
  | cons form forms ih =>
      simp only [evaluateEach, List.mem_cons, not_or] at hends ⊢
      rw [s.evaluateForm_withRounds hfuel form (Ne.symm hends.1)]
      have hlimits : (s.evaluateForm form).2.limits.fuel ≤ fuel := by
        rw [limits_evaluateForm]
        exact hfuel
      exact congrArg ((s.evaluateForm form).1 :: ·) (ih _ hlimits hends.2)

end Session

/-! ### Programs -/

/-- How a form has ended that did not go on forever: in a value or an error. Only
    the call stack may have refused the limits, or there are no words for the error
    nor for the form. -/
inductive Ended (limits : Limits) (form : Form) : Except Halt Value → Prop where
  | value (v : Value) (hroom : limits.refusal? = none) : Ended limits form (.ok v)
  | failed (e : EvalError) (hroom : limits.refusal? = none) :
      Ended limits form (.error (.failed e))
  | unworded (cause : EvalCause) (hroom : limits.refusal? = none)
      (hform : form.expr.isWritable = false) : Ended limits form (.error (.unworded cause))
  | refused {e : StackError} (hroom : limits.refusal? = some e) :
      Ended limits form (.error (.refused e))

theorem ended_of_concluded {limits : Limits} {lines : List Int} {form : Form}
    {outcome : Except Halt Value} (h : Concluded limits lines form outcome)
    (hends : outcome ≠ .error .stalled) : Ended limits form outcome := by
  cases h with
  | value v hroom => exact .value v hroom
  | failed hroom _ _ => exact .failed _ hroom
  | endless _ => exact absurd rfl hends
  | unworded hroom _ hform => exact .unworded _ hroom hform
  | refused hroom => exact .refused hroom

/-- Forms of which none stalls all end. -/
theorem Session.ended_evaluateEach (s : Session) (forms : List Form)
    (hends : .error .stalled ∉ (s.evaluateEach forms).1) :
    List.Forall₂ (Ended s.limits) forms (s.evaluateEach forms).1 := by
  induction forms generalizing s with
  | nil => exact .nil
  | cons form forms ih =>
      simp only [evaluateEach, List.mem_cons, not_or] at hends ⊢
      have hrest := ih _ hends.2
      rw [limits_evaluateForm] at hrest
      exact .cons (ended_of_concluded (s.concluded_evaluateForm form) (Ne.symm hends.1)) hrest

/-- Nothing stalls where no loop can occur. -/
theorem not_stalled_of_loopless (limits : Limits) {forms : List Form}
    (h : ∀ form ∈ forms, SpecialForm.whileLoop.name ∉ form.expr.atoms) :
    .error .stalled ∉ ((Session.new limits).evaluateEach forms).1 := by
  have hsub : loopless.Disciplined (evaluateWithin limits (Session.new limits).budget) := by
    rw [← evaluateUntil_never limits _ []]
    exact Discipline.disciplined_evaluateUntil (fun _ _ => permits_loopless) never limits _ []
  intro hmem
  rcases (Discipline.Disciplined.evaluateEach (Session.new limits) hsub h
    (Discipline.valid_new limits) Nat.zero_lt_one).2 _ hmem with
    ⟨e, _, hrefused⟩ | ⟨form, _, z, size, hz, hallows⟩
  · cases hrefused
  · rw [Exit.eq_stalled_of_halt hz.symm] at hallows
    exact hallows

/-- If the atom `while` does not occur in some forms, evaluating them one after
    another ends for every one of them in a value or an error, unless the call
    stack refuses the limits or a form without a text has an error without words
    in it. The outcomes are the same whatever number of rounds loops are allowed,
    be it none. -/
theorem evaluateEach_ends (depth : Int) (stack : CallStack) {forms : List Form}
    (h : ∀ form ∈ forms, SpecialForm.whileLoop.name ∉ form.expr.atoms) :
    ∃ outcomes : List (Except Halt Value), ∀ fuel,
      ((Session.new ⟨depth, fuel, stack⟩).evaluateEach forms).1 = outcomes ∧
        List.Forall₂ (Ended ⟨depth, fuel, stack⟩) forms outcomes := by
  refine ⟨((Session.new ⟨depth, 0, stack⟩).evaluateEach forms).1, fun fuel => ?_⟩
  have hsame : ((Session.new ⟨depth, fuel, stack⟩).evaluateEach forms).1 =
      ((Session.new ⟨depth, 0, stack⟩).evaluateEach forms).1 :=
    Session.evaluateEach_withRounds (Session.new ⟨depth, 0, stack⟩) (Nat.zero_le fuel) forms
      (not_stalled_of_loopless ⟨depth, 0, stack⟩ h)
  refine ⟨hsame, ?_⟩
  rw [← hsame]
  exact Session.ended_evaluateEach _ forms (not_stalled_of_loopless ⟨depth, fuel, stack⟩ h)

/-- A function that builds a call of itself and evaluates it, a call of it, and a
    function that is applied to itself. -/
def runaway : List Form :=
  [⟨.list none [.atom none "func", .atom none "f", .list none [.atom none "x"],
      .list none [.atom none "eval", .list none [.atom none "cons",
        .list none [.atom none "quote", .atom none "f"],
        .list none [.atom none "quote", .list none [.integer none 1]]]]], 1⟩,
    ⟨.list none [.atom none "f", .integer none 1], 2⟩,
    ⟨.list none [.list none [.atom none "lambda", .list none [.atom none "g"],
        .list none [.atom none "g", .atom none "g"]],
      .list none [.atom none "lambda", .list none [.atom none "g"],
        .list none [.atom none "g", .atom none "g"]]], 3⟩]

theorem evaluateEach_ends_runaway :
    (∀ form ∈ runaway, SpecialForm.whileLoop.name ∉ form.expr.atoms) ∧
      Limits.refusal? ⟨50, 0, {}⟩ = none ∧
      ∃ outcomes : List (Except Halt Value), ∀ fuel,
        ((Session.new ⟨50, fuel, {}⟩).evaluateEach runaway).1 = outcomes ∧
          List.Forall₂ (Ended ⟨50, fuel, {}⟩) runaway outcomes := by
  have hloopless : ∀ form ∈ runaway, SpecialForm.whileLoop.name ∉ form.expr.atoms := by decide
  exact ⟨hloopless, by decide, evaluateEach_ends 50 {} hloopless⟩

/-- A literal without room on the call stack, and a form without a text that ends
    in neither a value nor an error. -/
theorem evaluateEach_ends_without_error :
    ((Session.new ⟨1000000000, 10, {}⟩).evaluateEach [⟨.integer (some 1) 1, 1⟩]).1 =
        [.error (.refused .overflow)] ∧
      ((Session.new ⟨10, 10, {}⟩).evaluateEach [longHead]).1 =
        [.error (.unworded (.headNotFunction ⟨none, .integer⟩))] := by
  refine ⟨rfl, ?_⟩
  simp only [Session.evaluateEach, evaluateForm_longHead]

end ListLang
