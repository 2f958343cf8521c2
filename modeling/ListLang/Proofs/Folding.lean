import ListLang.Proofs.Folded
import ListLang.Proofs.Quotation
import ListLang.Proofs.Rebound
import ListLang.Proofs.Simulation.Run

/-!
# Constant Folding Preserves Meaning

A program and its folded form do the same, unless the program gives up by going
too deep or round a loop too often. The folded form may have folded bodies in
its functions; code that `eval` makes of data is the same in both.

The argument rests on the names that are collected before folding. A foldable
name outside them is never bound in any frame: it stands in no binding place
and in no data that `eval` could make code of. So a call of it is a call of the
builtin, and the literal in its place is what the call gives.

Names may be hidden as well, for programs that bind them differently. Folded
code then corresponds wherever it asks for no hidden name.

## Main definitions

* `Expr.lookedUp?`: The name whose value an expression asks for.
* `folding`: The correspondence of code with folded code.

## Theorems

* `values_quoted_iff`: Data that corresponds to itself.
* `folding_lawful`, `folding_evalsData`: Folded code can be compared.
* `matches_of_folding`: Folded code matches.
* `interpret_foldConstants`: A program and its folded form do the same.
-/

namespace ListLang

/-- The name whose value evaluating the expression asks for, before or after it
    has evaluated arguments. -/
def Expr.lookedUp? : Expr → Option String
  | .atom _ name => some name
  | .list _ (.atom _ name :: _) => if (SpecialForm.ofName? name).isSome then none else some name
  | _ => none

/-- Code corresponds to itself and to its folded form, where `bound` has all
    foldable names that may be bound and `hidden` the names that the two
    programs may bind differently. -/
def folding (bound hidden : List String) : Correspondence where
  code e e' := rebound e ⊆ bound ∧ (e' = fold bound e ∨ e' = e)
  hidden := hidden
  pinned name := isFoldableName name = true ∧ name ∉ bound
  lines := Eq

variable {bound hidden : List String}

/-! ### Data -/

/-- Data corresponds to itself if all foldable names in it may be bound. -/
theorem values_quoted_iff (e : Expr) :
    (folding bound hidden).Values e.quoted e.quoted ↔ foldableAtoms e ⊆ bound := by
  induction e using Expr.induct with
  | list line items ih =>
      rw [Expr.quoted, Expr.quotedAll_eq_map, foldableAtoms, foldableAtomsAll_eq_flatMap]
      constructor
      · intro h name hname
        rcases List.mem_flatMap.mp hname with ⟨e, he, hatom⟩
        cases h with
        | list hitems =>
            have hsame := List.forall₂_same.mp
              (List.forall₂_map_left_iff.mp (List.forall₂_map_right_iff.mp hitems))
            exact (ih e he).mp (hsame e he) hatom
      · intro h
        refine .list (List.forall₂_map_left_iff.mpr (List.forall₂_map_right_iff.mpr
          (List.forall₂_same.mpr fun e he => (ih e he).mpr fun name hname => ?_)))
        exact h (List.mem_flatMap.mpr ⟨e, he, hname⟩)
  | atom line name =>
      simp only [Expr.quoted, foldableAtoms]
      constructor
      · intro h n hn
        cases h with
        | atom _ hpin =>
            by_cases hname : isFoldableName name = true
            · rw [if_pos hname, List.mem_singleton] at hn
              subst hn
              by_contra hnot
              exact hpin ⟨hname, hnot⟩
            · rw [if_neg hname] at hn
              exact absurd hn List.not_mem_nil
      · intro h
        refine .atom name fun hpin => hpin.2 (h ?_)
        rw [if_pos hpin.1]
        exact List.mem_singleton_self name
  | integer line n => exact ⟨fun _ => List.nil_subset _, fun _ => .integer n⟩
  | real line x => exact ⟨fun _ => List.nil_subset _, fun _ => .real x⟩
  | boolean line b => exact ⟨fun _ => List.nil_subset _, fun _ => .boolean b⟩
  | null line => exact ⟨fun _ => List.nil_subset _, fun _ => .null⟩

theorem folding_lawful (bound hidden : List String) : (folding bound hidden).Lawful :=
  ⟨rfl⟩

/-- Data that `eval` makes code of binds nothing that must stay unbound. -/
theorem folding_evalsData (bound hidden : List String) : (folding bound hidden).EvalsData := by
  refine fun v e hv he => ⟨?_, .inr rfl⟩
  rw [← Value.quoted_of_toExpr he, values_quoted_iff] at hv
  exact fun name hname => hv (rebound_subset_foldableAtoms e hname)

theorem folding_lines {l l' : Option Int} {n : Int} (h : (folding bound hidden).lines l l') :
    l.getD n = l'.getD n :=
  congrArg (Option.getD · n) h

/-! ### Binding Places -/

/-- What a list that is no quotation binds is not pinned. -/
theorem unpinned_of_bindingPlace {line : Option Int} {items : List Expr} {e : Expr}
    {name : String} (h : rebound (.list line items) ⊆ bound) (hquote : isQuotation items = false)
    (he : e ∈ bindingPlaces items) (hname : e.atomName? = some name) :
    ¬ (folding bound hidden).pinned name := by
  rintro ⟨hfoldable, hnot⟩
  exact hnot (mem_of_bindingPlace h hquote he hname hfoldable)

/-- Names that are all in binding places are not pinned. -/
theorem unpinned_of_names? {line : Option Int} {items : List Expr} {params : Expr}
    {names : List String} (h : rebound (.list line items) ⊆ bound)
    (hquote : isQuotation items = false) (hparams : params.names? = some names)
    (hplaces : ∀ own es, params = .list own es → es ⊆ bindingPlaces items) :
    ∀ p ∈ names, ¬ (folding bound hidden).pinned p := by
  intro p hp
  rcases Expr.mem_of_names? hparams hp with ⟨own, es, heq, line', hmem⟩
  exact unpinned_of_bindingPlace h hquote (hplaces own es heq hmem) rfl

/-! ### Matching Code -/

section Matching

variable {kept : List String}

/-- A special form that is written as it should be matches its folded form. -/
theorem forms_fold
    (hcode : ∀ e, rebound e ⊆ bound → (folding bound hidden).code e (fold kept e))
    {line own : Option Int} {name : String} {form : SpecialForm} {args : List Expr}
    (hname : SpecialForm.ofName? name = some form) (hshape : form.Shape args)
    (h : rebound (.list line (.atom own name :: args)) ⊆ bound) :
    ∃ args', fold kept (.list line (.atom own name :: args)) =
        .list line (.atom own name :: args') ∧
      (folding bound hidden).Forms form args args' := by
  -- Unless the form is a quotation, all its items may be evaluated.
  have hquote : form ≠ .quote → isQuotation (.atom own name :: args) = false := fun hne =>
    isQuotation_eq_false (SpecialForm.ofName?_ne hname hne) own args
  have hitem : form ≠ .quote → ∀ e ∈ args, (folding bound hidden).code e (fold kept e) :=
    fun hne e he => hcode e (rebound_item h (hquote hne) (List.mem_cons_of_mem _ he))
  cases hshape with
  | quote datum =>
      -- Quoted data is not folded, and whatever occurs in it counts as bound.
      refine ⟨[datum], fold_unfolded hname rfl, .quote ((values_quoted_iff datum).mpr ?_)⟩
      intro n hn
      refine h ?_
      rw [rebound, isQuotation_cons_atom, ← SpecialForm.name_of_ofName? hname, beq_self_eq_true]
      exact List.mem_append_left _ hn
  | setq l n value =>
      refine ⟨_, fold_special hname 2 rfl, .setq l l ?_ (hitem (by decide) value (by simp))⟩
      have hplace : Expr.atom l n ∈ bindingPlaces [.atom own name, .atom l n, value] := by
        simp only [bindingPlaces, hname, List.mem_singleton]
      exact unpinned_of_bindingPlace h (hquote (by decide)) hplace rfl
  | func l n params body names hparams =>
      have hfirst : foldedFrom? .func [.atom l n, params, body] = some 3 := by
        simp only [foldedFrom?, hparams, Option.map_some]
      refine ⟨_, fold_special hname 3 hfirst,
        .func l l ?_ hparams hparams ?_ (hitem (by decide) body (by simp))⟩
      · have hplace := mem_bindingPlaces_func hname own (.atom l n) [params, body]
        exact unpinned_of_bindingPlace h (hquote (by decide)) hplace rfl
      · refine unpinned_of_names? h (hquote (by decide)) hparams ?_
        rintro k es rfl
        simp only [bindingPlaces, hname, List.subset_cons_self]
  | lambda params body names hparams =>
      have hfirst : foldedFrom? .lambda [params, body] = some 2 := by
        simp only [foldedFrom?, hparams, Option.map_some]
      refine ⟨_, fold_special hname 2 hfirst,
        .lambda hparams hparams ?_ (hitem (by decide) body (by simp))⟩
      refine unpinned_of_names? h (hquote (by decide)) hparams ?_
      rintro k es rfl
      simp only [bindingPlaces, hname, List.Subset.refl]
  | prog locals forms names hlocals =>
      have hfirst : foldedFrom? .prog (locals :: forms) = some 2 := by
        simp only [foldedFrom?, hlocals, Option.map_some]
      refine ⟨_, fold_special hname 2 hfirst, .prog hlocals hlocals ?_ ?_⟩
      · refine unpinned_of_names? h (hquote (by decide)) hlocals ?_
        rintro k es rfl
        simp only [bindingPlaces, hname, List.Subset.refl]
      · exact forall₂_map_of_mem fun e he => hitem (by decide) e (List.mem_cons_of_mem _ he)
  | condThen test yes =>
      exact ⟨_, fold_special hname 1 rfl,
        .condThen (hitem (by decide) test (by simp)) (hitem (by decide) yes (by simp))⟩
  | condElse test yes no =>
      exact ⟨_, fold_special hname 1 rfl, .condElse (hitem (by decide) test (by simp))
        (hitem (by decide) yes (by simp)) (hitem (by decide) no (by simp))⟩
  | whileLoop test body =>
      refine ⟨_, fold_special hname 1 rfl, .whileLoop (hitem (by decide) test (by simp)) ?_⟩
      exact forall₂_map_of_mem fun e he => hitem (by decide) e (List.mem_cons_of_mem _ he)
  | returnNull => exact ⟨[], fold_special hname 1 rfl, .returnNull⟩
  | returnValue value =>
      exact ⟨_, fold_special hname 1 rfl, .returnValue (hitem (by decide) value (by simp))⟩
  | breakLoop => exact ⟨[], fold_unfolded hname rfl, .breakLoop⟩

/-- Code matches its folded form, where it asks for no hidden name. -/
theorem matches_fold
    (hcode : ∀ e, rebound e ⊆ bound → (folding bound hidden).code e (fold kept e))
    (hkept : ∀ name, isFoldableName name = true → name ∉ kept → name ∉ bound)
    {e : Expr} (h : rebound e ⊆ bound)
    (hvisible : ∀ name, e.lookedUp? = some name → name ∉ hidden) :
    (folding bound hidden).Matches e (fold kept e) := by
  cases e.layout with
  | atom line name => exact .atom line line (hvisible name rfl)
  | literal hlit =>
      cases e with
      | integer _ _ | real _ _ | boolean _ _ | null _ => exact .literal hlit hlit rfl
      | atom _ _ | list _ _ => exact absurd hlit Bool.false_ne_true
  | empty line => exact .empty line line
  | @computed line head args hhead =>
      have hquote := isQuotation_of_computed hhead args
      rw [fold_computed hhead]
      refine .computed line line hhead (by rw [atomName?_fold, hhead]) ?_ ?_
      · exact hcode head (rebound_item h hquote List.mem_cons_self)
      · exact forall₂_map_of_mem fun e he =>
          hcode e (rebound_item h hquote (List.mem_cons_of_mem _ he))
  | @special line own name form args hname =>
      by_cases hshape : form.Shape args
      · rcases forms_fold hcode hname hshape h with ⟨args', hfold, hforms⟩
        rw [hfold]
        exact .special line line own own hname hforms
      · -- What is not written as it should be is left alone, text and line included.
        have hnone : foldedFrom? form args = none := by
          cases hfirst : foldedFrom? form args with
          | none => rfl
          | some first => exact absurd (shape_of_foldedFrom? hfirst) hshape
        rw [fold_unfolded hname hnone]
        exact .misshapen line line own own hname hshape hshape rfl rfl
  | @call line own name args hname =>
      have hquote : isQuotation (.atom own name :: args) = false :=
        isQuotation_eq_false (by rw [hname]; exact nofun) own args
      have hargs : List.Forall₂ (folding bound hidden).code args (args.map (fold kept)) :=
        forall₂_map_of_mem fun e he =>
          hcode e (rebound_item h hquote (List.mem_cons_of_mem _ he))
      rcases fold_call kept line own args hname with hlist | ⟨b, hb, hfoldable, hnot, hcall⟩
      · rw [hlist]
        refine .call line line own own hname (.inl (folding_evalsData bound hidden))
          (hvisible name ?_) hargs
        simp only [Expr.lookedUp?, hname, Option.isSome_none, Bool.false_eq_true, ↓reduceIte]
      · have hpin : isFoldableName name = true := by
          rw [isFoldableName, hb]
          exact hfoldable
        exact .folded line own hname hb ⟨hpin, hkept name hpin hnot⟩ hargs hcall

end Matching

/-- Corresponding code matches, where it asks for no hidden name. -/
theorem matches_of_folding {e e' : Expr} (h : (folding bound hidden).code e e')
    (hvisible : ∀ name, e.lookedUp? = some name → name ∉ hidden) :
    (folding bound hidden).Matches e e' := by
  rcases h with ⟨hbound, rfl | rfl⟩
  · exact matches_fold (fun e he => ⟨he, .inl rfl⟩) (fun _ _ hnot => hnot) hbound hvisible
  · -- Unchanged code is code folded with every name kept.
    have hall : ∀ name, isFoldableName name = true → name ∈ Builtin.all.map Builtin.name := by
      intro name hname
      cases hb : Builtin.ofName? name with
      | none => rw [isFoldableName, hb] at hname; cases hname
      | some b => exact List.mem_map.mpr ⟨b, Builtin.mem_all b, Builtin.name_of_ofName? hb⟩
    have hmatch : (folding bound hidden).Matches e' (fold (Builtin.all.map Builtin.name) e') :=
      matches_fold (fun e he => ⟨he, .inr (fold_eq_self hall e)⟩)
        (fun name hname hnot => absurd (hall name hname) hnot) hbound hvisible
    rwa [fold_eq_self hall] at hmatch

/-! ### Programs -/

/-- A program and its folded form run alike. -/
theorem runs_foldConstants (limits : Limits) (forms : List Form) :
    (folding (reboundNames forms) []).Runs (Rewritten forms (fold (reboundNames forms)))
      (List.Forall₂ (folding (reboundNames forms) []).Values)
      ((Session.new limits).interpret forms)
      ((Session.new limits).interpret (foldConstants forms)) := by
  have hagree : (folding (reboundNames forms) []).Agree
      (evaluateUntil never limits (Session.new limits).budget [])
      (evaluateWithin limits (Session.new limits).budget) :=
    Correspondence.agree_evaluateUntil (folding_lawful _ _)
      (fun _ _ hcode _ => matches_of_folding hcode fun _ _ => List.not_mem_nil)
      (Nat.le_refl _) (Nat.le_refl _) []
  rw [← Session.interpretUntil_never]
  exact .interpret (fun _ _ _ => folding_lines) (forall₂_map_of_mem fun form hform =>
    ⟨⟨hform, rfl⟩, rfl, (isWritable_fold _ _).symm, fun env =>
      hagree _ _ env ⟨rebound_subset_reboundNames hform, .inl rfl⟩⟩) rfl
    (Correspondence.sessions_new limits limits)

/-- A program that does not give up and its folded form end in the same outcome
    and in sessions with the same frames, which bind the same names in the same
    order to the same values, up to the folded bodies of functions. Only an error
    for which there are no words is reported with the folded form. -/
theorem interpret_foldConstants (limits : Limits) (forms : List Form)
    (h : ∀ halt, ((Session.new limits).interpret forms).1 = .error halt → halt.gaveUp = false) :
    SameOutcome forms (fold (reboundNames forms)) Eq (folding (reboundNames forms) []).Values
        ((Session.new limits).interpret forms).1
        ((Session.new limits).interpret (foldConstants forms)).1 ∧
      (folding (reboundNames forms) []).Sessions
        ((Session.new limits).interpret forms).2
        ((Session.new limits).interpret (foldConstants forms)).2 ∧
      List.Forall₂ (folding (reboundNames forms) []).Binding
        ((Session.new limits).interpret forms).2.bindings.entries
        ((Session.new limits).interpret (foldConstants forms)).2.bindings.entries := by
  -- With nothing hidden, not even the suggestions differ.
  rcases (runs_foldConstants limits forms).sameOutcome
    (fun x y line hcause => congrArg (EvalError.mk · line) (hcause.2 rfl)) h with
    ⟨houtcome, hsessions⟩
  exact ⟨houtcome, hsessions, hsessions.bindings.entries rfl⟩

/-- A function that is made in a frame of another one and whose body is folded, and
    a call of it. -/
def foldedBody : List Form :=
  [⟨.list (some 1) [.atom none "setq", .atom none "g",
      .list none [.list none [.atom none "lambda", .list none [.atom none "y"],
        .list none [.atom none "lambda", .list none [.atom none "x"],
          .list none [.atom none "cond",
            .list none [.atom none "and", .boolean none true, .boolean none false],
            .atom none "x", .atom none "y"]]], .integer none 1]], 1⟩,
    ⟨.list (some 2) [.atom none "g", .integer none 2], 2⟩]

/-- The function, with a condition in its body. -/
def foldedBodyClosure (test : Expr) : Value :=
  .function ⟨["x"], .list none [.atom none "cond", test, .atom none "x", .atom none "y"], 1, none⟩

theorem interpret_foldConstants_foldedBody :
    (∀ halt, ((Session.new ⟨10, 10, {}⟩).interpret foldedBody).1 = .error halt →
      halt.gaveUp = false) ∧
    SameOutcome foldedBody (fold (reboundNames foldedBody)) Eq
      (folding (reboundNames foldedBody) []).Values
      ((Session.new ⟨10, 10, {}⟩).interpret foldedBody).1
      ((Session.new ⟨10, 10, {}⟩).interpret (foldConstants foldedBody)).1 ∧
    (folding (reboundNames foldedBody) []).Sessions
      ((Session.new ⟨10, 10, {}⟩).interpret foldedBody).2
      ((Session.new ⟨10, 10, {}⟩).interpret (foldConstants foldedBody)).2 ∧
    List.Forall₂ (folding (reboundNames foldedBody) []).Binding
      [("g", foldedBodyClosure
        (.list none [.atom none "and", .boolean none true, .boolean none false]))]
      [("g", foldedBodyClosure (.boolean none false))] ∧
    ((Session.new ⟨10, 10, {}⟩).interpret (foldConstants foldedBody)).2.store.bindings 1 =
      ⟨[("y", .integer 1)]⟩ := by
  have hvalues : ((Session.new ⟨10, 10, {}⟩).interpret foldedBody).1 = .ok [foldedBodyClosure
      (.list none [.atom none "and", .boolean none true, .boolean none false]), .integer 1] := by
    rfl
  have hends : ∀ halt, ((Session.new ⟨10, 10, {}⟩).interpret foldedBody).1 = .error halt →
      halt.gaveUp = false := by
    rw [hvalues]
    exact nofun
  rcases interpret_foldConstants _ _ hends with ⟨houtcome, hsessions, hbindings⟩
  exact ⟨hends, houtcome, hsessions, hbindings, by rfl⟩

/-- A form that calls what `x` is bound to. -/
def longCalleeForm (otherwise : Expr) : Form :=
  ⟨.list (some 2) [.list none [.atom none "cond", .boolean none true, .atom none "x",
    otherwise]], 2⟩

/-- An integer that is too long to be written is called, in a form that is
    folded. -/
def longCallee : List Form :=
  [⟨.list (some 1) [.atom none "setq", .atom none "x", .integer none longInteger], 1⟩,
    longCalleeForm (.list none [.atom none "and", .boolean none true, .boolean none false])]

/-- What is reported of the call is reported with the form, before and after it is
    folded. And where the call stack refuses the limits there is no error at all. -/
theorem interpret_foldConstants_longCallee :
    ((Session.new ⟨10, 10, {}⟩).interpret longCallee).1 = .error (.failed
        ⟨.unexpected "((cond true x (and true false)))" (.headNotFunction ⟨none, .integer⟩),
          some 2⟩) ∧
      ((Session.new ⟨10, 10, {}⟩).interpret (foldConstants longCallee)).1 = .error (.failed
        ⟨.unexpected "((cond true x false))" (.headNotFunction ⟨none, .integer⟩), some 2⟩) ∧
      ((Session.new ⟨1000000000, 10, {}⟩).interpret longCallee).1 =
        .error (.refused .overflow) := by
  have hrun : ((Session.new ⟨10, 10, {}⟩).interpret longCallee).1 = .error
      ((EvalError.mk (.headNotFunction (Value.integer longInteger).shown) none).halt
        (longCalleeForm (.list none [.atom none "and", .boolean none true,
          .boolean none false]))) :=
    rfl
  have hfolded : ((Session.new ⟨10, 10, {}⟩).interpret (foldConstants longCallee)).1 = .error
      ((EvalError.mk (.headNotFunction (Value.integer longInteger).shown) none).halt
        (longCalleeForm (.boolean none false))) :=
    rfl
  rw [hrun, hfolded, shown_longInteger]
  exact ⟨by rfl, by rfl, by rfl⟩

end ListLang
