import ListLang.Program
import ListLang.Proofs.DeadStore
import ListLang.Proofs.Folding
import ListLang.Proofs.Stopped

/-!
# Optimized Programs

An optimized program is folded, and then its assignments to dead names are
replaced by the values they assign. A dead name is one that occurs in the
folded program only as the target of assignments. As long as the program itself
never asks for the value of such a name, both do the same: the values and the
errors differ in nothing that is shown but the names that an error suggests.

The condition cannot be dropped. The targets of assignments in quoted data are
not counted as occurrences either, and `eval` may turn such a target into code
that asks for the name.

## Main definitions

* `asksFor`: The moments at which a name of a list is asked for.
* `Options.asksForDead`: Whether a program asks for a dead name when it is run.
* `SameResult`, `SameRun`: Results of running a program that look the same.

## Theorems

* `setq_of_fold`: Folding makes no assignments.
* `deadStore_simulates`: The value of an assignment in place of the assignment.
* `runs_optimize`: A program and its optimized form run alike.
* `runProgram_optimize`: Optimizing changes nothing that is shown.
* `runProgram_optimize_quoted_target`: A program that asks for a dead name.
-/

namespace ListLang

/-- The moments at which a name of the list is asked for. -/
def asksFor (names : List String) (m : Moment) : Bool :=
  m.expr.lookedUp?.any fun name => name ∈ names

/-! ### Assignments -/

/-- Only an assignment is folded to an assignment. -/
theorem setq_of_fold {bound : List String} {e : Expr} {line own l : Option Int} {name : String}
    {value : Expr}
    (h : fold bound e = .list line [.atom own SpecialForm.setq.name, .atom l name, value]) :
    ∃ v, e = .list line [.atom own SpecialForm.setq.name, .atom l name, v] ∧
      value = fold bound v := by
  have hsetq : SpecialForm.ofName? SpecialForm.setq.name = some .setq :=
    SpecialForm.ofName?_name .setq
  cases e.layout with
  | atom _ _ => cases h
  | literal hlit =>
      cases e with
      | integer _ _ | real _ _ | boolean _ _ | null _ => cases h
      | atom _ _ | list _ _ => exact absurd hlit Bool.false_ne_true
  | empty _ => cases h
  | @computed k head args hhead =>
      have hatom := atomName?_fold bound head
      rw [fold_computed hhead, Expr.list.injEq, List.cons.injEq] at h
      rw [h.2.1, hhead] at hatom
      cases hatom
  | @special k k' n form args hname =>
      cases hfirst : foldedFrom? form args with
      | none =>
          -- An assignment would have been folded.
          rw [fold_unfolded hname hfirst] at h
          cases h
          rw [hsetq] at hname
          cases hname
          cases hfirst
      | some first =>
          -- The head is never folded, so the form is an assignment.
          have hshape := shape_of_foldedFrom? hfirst
          rw [fold_special hname first hfirst, Expr.list.injEq] at h
          have hhead : n = SpecialForm.setq.name := by
            cases first with
            | zero =>
                rw [List.take_zero, List.nil_append, List.drop_zero, List.cons.injEq,
                  Expr.atom.injEq] at h
                exact h.2.1.2
            | succ first =>
                rw [List.take_succ_cons, List.cons_append, List.cons.injEq, Expr.atom.injEq] at h
                exact h.2.1.2
          rw [hhead, hsetq, Option.some.injEq] at hname
          subst hname
          cases hshape with
          | setq l' n' v =>
              cases hfirst
              rcases h with ⟨rfl, hitems⟩
              cases hitems
              exact ⟨v, rfl, rfl⟩
  | @call k k' n args hname =>
      rcases fold_call bound k k' args hname with hlist | ⟨b, _, _, _, hcall⟩
      · rw [hlist, Expr.list.injEq, List.cons.injEq, Expr.atom.injEq] at h
        rw [h.2.1.2, hsetq] at hname
        cases hname
      · have hlit := hcall.isLiteral
        rw [h] at hlit
        cases hlit

/-! ### Running Alike -/

variable {bound hidden : List String}

/-- Code in which nothing is asked for that is hidden does as its folded form. -/
theorem agree_asksFor (limits : Limits) {budget budget' : Nat} (h : budget ≤ budget')
    (active : List Nat) :
    (folding bound hidden).Agree (evaluateUntil (asksFor hidden) limits budget active)
      (evaluateWithin limits budget') := by
  refine Correspondence.agree_evaluateUntil (folding_lawful bound hidden) ?_ (Nat.le_refl _) h
    active
  intro m e' hcode hstop
  refine matches_of_folding hcode fun name hname hmem => ?_
  rw [asksFor, hname, Option.any_some, decide_eq_false_iff_not] at hstop
  exact hstop hmem

/-- An assignment of a hidden name does what the expression that it assigns
    does, apart from binding the name. -/
theorem deadStore_simulates {line own l : Option Int} {name : String} {value : Expr}
    (hhidden : name ∈ hidden)
    (hbound : rebound (.list line [.atom own SpecialForm.setq.name, .atom l name, value]) ⊆ bound)
    (limits : Limits) (budget env : Nat) :
    (folding bound hidden).Simulates (folding bound hidden).Values
      (evaluateUntil (asksFor hidden) limits budget []
        (.list line [.atom own SpecialForm.setq.name, .atom l name, value]) env)
      (evaluateWithin limits budget (fold bound value) env) := by
  have hsetq : SpecialForm.ofName? SpecialForm.setq.name = some .setq :=
    SpecialForm.ofName?_name .setq
  have hquote := isQuotation_eq_false (by rw [hsetq]; exact nofun) own [.atom l name, value]
  have hname : ¬ (folding bound hidden).pinned name := by
    have hplace : Expr.atom l name ∈
        bindingPlaces [.atom own SpecialForm.setq.name, .atom l name, value] := by
      simp only [bindingPlaces, hsetq, List.mem_singleton]
    exact unpinned_of_bindingPlace hbound hquote hplace rfl
  have hvalue : (folding bound hidden).code value (fold bound value) :=
    ⟨rebound_item hbound hquote (by simp), .inl rfl⟩
  have hgo : ∀ since u, asksFor hidden ⟨[env],
      .list line [.atom own SpecialForm.setq.name, .atom l name, value], since, u⟩ = false := by
    intro since u
    simp only [asksFor, Expr.lookedUp?, hsetq, Option.isSome_some, ↓reduceIte, Option.any_none]
  exact store_simulates hname hhidden hgo
    (fun budget => agree_asksFor limits (Nat.le_succ budget) [env] value _ env hvalue) budget

/-- Optimizing is folding, and then replacing assignments one by one. -/
theorem optimize_all (forms : List Form) :
    optimize Pass.all forms = forms.map fun form => { form with
      expr := withoutDeadStore (deadNames (foldConstants forms))
        (fold (reboundNames forms) form.expr) } := by
  change eliminateDeadStores (foldConstants forms) = _
  simp only [eliminateDeadStores, foldConstants, List.map_map]
  rfl

/-- A program that is stopped when it asks for a dead name and its optimized form
    run alike. -/
theorem runs_optimize (limits : Limits) (forms : List Form) :
    (folding (reboundNames forms) (deadNames (foldConstants forms))).Runs
      (Rewritten forms fun e => withoutDeadStore (deadNames (foldConstants forms))
        (fold (reboundNames forms) e))
      (List.Forall₂ (folding (reboundNames forms) (deadNames (foldConstants forms))).Values)
      ((Session.new limits).interpretUntil (asksFor (deadNames (foldConstants forms))) forms)
      ((Session.new limits).interpret (optimize Pass.all forms)) := by
  rw [optimize_all]
  refine .interpret (fun _ _ _ => folding_lines) (forall₂_map_of_mem fun form hform =>
    ⟨⟨hform, rfl⟩, rfl, ?_, fun env => ?_⟩) rfl (Correspondence.sessions_new limits limits)
  · rw [isWritable_withoutDeadStore, isWritable_fold]
  have hbound := rebound_subset_reboundNames hform
  simp only [withoutDeadStore]
  cases hstore : store? (fold (reboundNames forms) form.expr) with
  | none => exact agree_asksFor limits (Nat.le_refl _) [] _ _ env ⟨hbound, .inl rfl⟩
  | some a =>
      rcases a with ⟨name, value⟩
      simp only []
      split
      · rename_i hdead
        rcases list_of_store? hstore with ⟨line, own, l, hlist⟩
        rcases setq_of_fold hlist with ⟨v, hexpr, rfl⟩
        rw [hexpr] at hbound ⊢
        exact deadStore_simulates hdead hbound limits _ env
      · exact agree_asksFor limits (Nat.le_refl _) [] _ _ env ⟨hbound, .inl rfl⟩

/-! ### Programs -/

/-- Whether a program failed because evaluation gave up. -/
def Failure.gaveUp : Failure → Bool
  | .running e => e.cause.isTooDeep
  | .unworded cause => cause.isTooDeep
  | .stalled => true
  | .lexing _ | .parsing _ _ | .checking _ | .unwritten | .refused _ => false

theorem Halt.gaveUp_failure (halt : Halt) : halt.failure.gaveUp = halt.gaveUp := by
  cases halt <;> rfl

/-- Whether a program must be refused for what its reading and its check found. -/
def Options.refuses (o : Options) (problems found : List Diagnostic) : Bool :=
  o.strict && !(problems ++ found).isEmpty

/-- Whether a program that is not refused, as it is, asks for the value of a dead
    name when its forms are evaluated. -/
def Options.asksForDead (o : Options) (source : String) : Bool :=
  match parseOrFail o.lenient source with
  | .error _ => false
  | .ok (forms, problems) => match (analyze forms).diagnostics with
    | none => false
    | some found => !o.refuses problems found &&
        match ((Session.new o.limits).interpretUntil
          (asksFor (deadNames (foldConstants forms))) forms).1 with
        | .error .stalled => true
        | _ => false

/-- Results with the same texts of all values, the same texts of what is shown
    and the same diagnostics. -/
structure SameResult (r r' : RunResult) : Prop where
  values : r.values.map Value.text = r'.values.map Value.text
  display : r.display = r'.display
  parseDiagnostics : r.parseDiagnostics = r'.parseDiagnostics
  checkDiagnostics : r.checkDiagnostics = r'.checkDiagnostics

/-- Runs that end the same way: with results that look the same, with errors of
    evaluation with the same message on the same line, or with the same failure
    of any other kind. -/
inductive SameRun : Except Failure RunResult → Except Failure RunResult → Prop where
  | ok {r r' : RunResult} (h : SameResult r r') : SameRun (.ok r) (.ok r')
  | running {e e' : EvalError} (hmessage : e.report.message = e'.report.message)
      (hline : e.line = e'.line) : SameRun (.error (.running e)) (.error (.running e'))
  | refused (failure : Failure) : SameRun (.error failure) (.error failure)

theorem SameRun.isOk_eq {r r' : Except Failure RunResult} (h : SameRun r r') :
    r.isOk = r'.isOk := by
  cases h <;> rfl

theorem message_unadvised (x : EvalCause) : x.unadvised.report.message = x.report.message := by
  cases x <;> rfl

theorem message_eq_of_causes {c : Correspondence} {x y : EvalCause} (h : c.Causes x y) :
    x.report.message = y.report.message := by
  rw [← message_unadvised x, ← message_unadvised y, h.1]

/-- The values that are shown. -/
def shownOf (forms : List Form) (values : List Value) : List Value :=
  (forms.zip values).filterMap fun (form, v) => if form.isSilent then none else some v

/-- The texts of what is shown are determined by the texts of the values. -/
theorem shown_texts (forms : List Form) (values : List Value) :
    (shownOf forms values).map Value.text? =
      (forms.zip (values.map Value.text?)).filterMap fun (form, text) =>
        if form.isSilent then none else some text := by
  unfold shownOf
  induction forms generalizing values with
  | nil => rfl
  | cons form forms ih =>
      cases values with
      | nil => rfl
      | cons v values =>
          simp only [List.map_cons, List.zip_cons_cons, List.filterMap_cons]
          cases form.isSilent with
          | true => exact ih values
          | false =>
              simp only [Bool.false_eq_true, ↓reduceIte, List.map_cons, ih values]

theorem RunResult.display_eq (r : RunResult) :
    r.display = (r.shown.map Value.text?).mapM id := by
  unfold display
  rw [List.mapM_map]
  rfl

/-- What a program yields, from the results of evaluating its forms. -/
def runResult (forms : List Form) (problems found : List Diagnostic) :
    Except Halt (List Value) → Except Failure RunResult
  | .error halt => .error halt.failure
  | .ok values => .ok ⟨values, shownOf forms values, problems, found⟩

/-- A program is read, refused if it must be, and evaluated. -/
theorem runProgram_eq (o : Options) (source : String) :
    runProgram o source = match parseOrFail o.lenient source with
      | .error failure => .error failure
      | .ok (forms, problems) => match (analyze forms).diagnostics with
        | none => .error .unwritten
        | some found =>
            if o.refuses problems found then .error (.checking (problems ++ found))
            else runResult forms problems found
              ((Session.new o.limits).interpret (o.prepare forms)).1 := by
  unfold runProgram
  cases parseOrFail o.lenient source with
  | error failure => rfl
  | ok parsed =>
      rcases parsed with ⟨forms, problems⟩
      simp only [bind, Except.bind, pure, Except.pure]
      cases (analyze forms).diagnostics with
      | none => rfl
      | some found =>
          have hrefuses : o.refuses problems found = true ↔
              o.strict = true ∧ problems ++ found ≠ [] := by
            simp only [Options.refuses, Bool.and_eq_true, Bool.not_eq_true',
              List.isEmpty_eq_false_iff, ne_eq]
          simp only [written, Option.elim, hrefuses]
          split
          · rfl
          · simp only [Options.interpret, Session.new]
            cases ((Session.within o.limits {}).interpret (o.prepare forms)).1 <;> rfl

/-- Corresponding runs look the same. -/
theorem sameRun_of_runs {c : Correspondence} {related : Form → Form → Prop} (forms : List Form)
    (problems found : List Diagnostic) {r r' : Except Halt (List Value) × Session}
    (h : c.Runs related (List.Forall₂ c.Values) r r')
    (hends : ∀ failure, runResult forms problems found r.1 = .error failure →
      failure.gaveUp = false) :
    SameRun (runResult forms problems found r.1) (runResult forms problems found r'.1) := by
  cases h with
  | @ok vs ws s t hvs hst =>
      have htexts : vs.map Value.text = ws.map Value.text :=
        map_eq_map_of_forall₂ (hvs.imp fun _ _ hvw => hvw.text_eq)
      refine .ok ⟨htexts, ?_, rfl, rfl⟩
      simp only [RunResult.display_eq, shown_texts, Correspondence.texts_eq hvs]
  | failed line hcause hst => exact .running (message_eq_of_causes hcause) rfl
  | unexpected _ _ _ => exact .running rfl rfl
  | unworded _ _ _ _ => exact .refused _
  | refused e _ => exact .refused _
  | @gaveUp halt s r' hup =>
      have hnot := hends halt.failure rfl
      rw [halt.gaveUp_failure, hup] at hnot
      cases hnot

/-- Optimizing a program changes nothing that is shown, if the program does not
    give up and never asks for the value of a dead name. -/
theorem runProgram_optimize (o : Options) (source : String)
    (hends : ∀ failure, runProgram { o with optimize := false } source = .error failure →
      failure.gaveUp = false)
    (hasks : o.asksForDead source = false) :
    SameRun (runProgram { o with optimize := false } source)
      (runProgram { o with optimize := true } source) := by
  rw [runProgram_eq] at hends
  rw [runProgram_eq, runProgram_eq]
  unfold Options.asksForDead at hasks
  cases hparse : parseOrFail o.lenient source with
  | error failure => exact .refused failure
  | ok parsed =>
      rcases parsed with ⟨forms, problems⟩
      cases hfound : (analyze forms).diagnostics with
      | none =>
          simp only [hfound]
          exact .refused _
      | some found =>
          have hrefuses : ∀ b, Options.refuses { o with optimize := b } problems found =
              o.refuses problems found := fun _ => rfl
          -- Whether a program is refused does not depend on how it would be run.
          simp only [hparse, hfound, hrefuses] at hends hasks ⊢
          cases hrefused : o.refuses problems found with
          | true => exact .refused _
          | false =>
              rw [hrefused] at hends hasks
              -- The run that would stop at a dead name does not stop, so it is the run itself.
              have hruns := runs_optimize o.limits forms
              rw [interpretUntil_eq_interpret _ ?_] at hruns
              · exact sameRun_of_runs forms problems found hruns hends
              · intro hstalled
                rw [hstalled] at hasks
                cases hasks

/-- The value of `y` is folded and its assignment dropped. -/
theorem runProgram_optimize_unused :
    (Options.asksForDead { limits := ⟨20, 20, {}⟩ }
        "(setq y (and true false))\n(eval '(not true))" = false) ∧
      SameRun
        (runProgram { optimize := false, limits := ⟨20, 20, {}⟩ }
          "(setq y (and true false))\n(eval '(not true))")
        (runProgram { optimize := true, limits := ⟨20, 20, {}⟩ }
          "(setq y (and true false))\n(eval '(not true))") := by
  have hasks : Options.asksForDead { limits := ⟨20, 20, {}⟩ }
      "(setq y (and true false))\n(eval '(not true))" = false := by decide +kernel
  have hok : (runProgram { optimize := false, limits := ⟨20, 20, {}⟩ }
      "(setq y (and true false))\n(eval '(not true))").isOk = true := by decide +kernel
  refine ⟨hasks, runProgram_optimize { limits := ⟨20, 20, {}⟩ } _ (fun failure hfailure => ?_)
    hasks⟩
  rw [hfailure] at hok
  cases hok

/-- The program takes the target `x` out of a quoted assignment and evaluates it.
    Its optimized form has lost the value by then. -/
theorem runProgram_optimize_quoted_target :
    ¬ SameRun
      (runProgram { optimize := false, limits := ⟨20, 20, {}⟩ }
        "(setq x true)\n(eval (cons 'not (tail '(setq x))))")
      (runProgram { optimize := true, limits := ⟨20, 20, {}⟩ }
        "(setq x true)\n(eval (cons 'not (tail '(setq x))))") := by
  have hok : (runProgram { optimize := false, limits := ⟨20, 20, {}⟩ }
      "(setq x true)\n(eval (cons 'not (tail '(setq x))))").isOk = true := by decide +kernel
  have hfails : (runProgram { optimize := true, limits := ⟨20, 20, {}⟩ }
      "(setq x true)\n(eval (cons 'not (tail '(setq x))))").isOk = false := by decide +kernel
  intro hsame
  rw [hsame.isOk_eq, hfails] at hok
  cases hok

end ListLang
