import ListLang.Proofs.Lined
import ListLang.Proofs.Twin

/-!
# Optimizing Keeps the Diagnostics

Checking an optimized program finds the same problems as checking the program
itself, with the same lines and messages and in the same order. This holds for
any choice of passes, in any order.

A folded program is checked form by form with the program itself, in scopes that
tell the same about every name. Of a dropped assignment the check of its value
is left. What would have been recorded under the name is never asked for, since
a dead name is used nowhere. The value is checked on the line of its form and no
longer on that of the assignment, which makes no difference to an expression
with a line of its own.

## Theorems

* `diagnostics_of_concur`: Checks that concur find the same.
* `diagnostics_foldConstants`, `diagnostics_eliminateDeadStores`: The two passes.
* `diagnostics_optimize`: Any passes.
-/

namespace ListLang

open CheckM

variable {bound hidden : List String}

/-- The line around an expression is for expressions without one. -/
theorem check_of_line {e : Expr} (h : e.line.isSome = true) (around : Surroundings)
    (line line' : Int) : check around line e = check around line' e := by
  rcases Option.isSome_iff_exists.mp h with ⟨n, hn⟩
  cases e with
  | atom own name =>
      cases hn
      rfl
  | list own items =>
      cases hn
      rfl
  | integer _ _ | real _ _ | boolean _ _ | null _ => rfl

theorem concur_forms {forms forms' : List Form}
    (h : List.Forall₂ (fun form form' => Concur bound hidden (check {} form.line form.expr)
      (check {} form'.line form'.expr)) forms forms') :
    Concur bound hidden (checkForms forms) (checkForms forms') := by
  induction h with
  | nil => exact .pure
  | cons hform _ ih => exact hform.seq ih

/-- Programs whose checks concur have the same diagnostics. -/
theorem diagnostics_of_concur {forms forms' : List Form}
    (h : Concur bound hidden (checkForms forms) (checkForms forms')) :
    (analyze forms').diagnostics = (analyze forms).diagnostics := by
  have hstart : Checking.Alike bound hidden { chain := [{}] } { chain := [{}] } :=
    ⟨.cons (.of_variables {}) .nil, rfl⟩
  have hfound : (analyze forms').found = (analyze forms).found := (h _ _ hstart).found.symm
  rw [Analysis.diagnostics, hfound, Analysis.diagnostics]

/-- Folding keeps the diagnostics. -/
theorem diagnostics_foldConstants (forms : List Form) :
    (analyze (foldConstants forms)).diagnostics = (analyze forms).diagnostics := by
  -- No name is hidden.
  have hconcur : Concur (reboundNames forms) [] (checkForms forms)
      (checkForms (foldConstants forms)) := by
    refine concur_forms (forall₂_map_of_mem fun form hform => ?_)
    have htwin := twin_checker (rebound_subset_reboundNames hform)
      (fun _ _ => List.not_mem_nil) (.of_fold form.expr)
    exact htwin.check .value {} form.line
  exact diagnostics_of_concur hconcur

/-- An assignment to a hidden name and the value in its place. -/
theorem concur_deadStore {line own l : Option Int} {name : String} {value : Expr}
    (hname : name ∈ hidden)
    (hbound : rebound (.list line [.atom own SpecialForm.setq.name, .atom l name, value]) ⊆ bound)
    (hspares : Spares hidden (.list line [.atom own SpecialForm.setq.name, .atom l name, value]))
    (hline : value.line.isSome = true) (around : Surroundings) (n : Int) :
    Concur bound hidden
      (check around n (.list line [.atom own SpecialForm.setq.name, .atom l name, value]))
      (check around n value) := by
  have hvalue := (twin_checker (rebound_argument hbound (by simp))
    (hspares.value List.mem_cons_self) (.refl value)).check .value around (line.getD n)
  rw [check_of_line hline around n (line.getD n)]
  -- After the value only the assignment records something.
  intro s t hst
  exact Concur.define_hidden hname _ _ _ (hvalue s t hst)

/-- Dropping dead stores keeps the diagnostics. -/
theorem diagnostics_eliminateDeadStores {forms : List Form}
    (h : ∀ form ∈ forms, form.expr.isLined = true) :
    (analyze (eliminateDeadStores forms)).diagnostics = (analyze forms).diagnostics := by
  have hconcur : Concur (reboundNames forms) (deadNames forms) (checkForms forms)
      (checkForms (eliminateDeadStores forms)) := by
    refine concur_forms (forall₂_map_of_mem fun form hform => ?_)
    have hbound := rebound_subset_reboundNames hform
    have hspares := spares_deadNames hform
    have hkept := (twin_checker hbound hspares (.refl form.expr)).check .value {} form.line
    simp only [withoutDeadStore]
    split
    · rename_i name value hstore
      split
      · rename_i hdead
        rcases list_of_store? hstore with ⟨line, own, l, hlist⟩
        have hlined := h form hform
        rw [hlist] at hbound hspares hlined ⊢
        have hvalue := (Expr.isLined_list.mp hlined).2 value (by simp)
        exact concur_deadStore hdead hbound hspares (Expr.isSome_line_of_isLined hvalue) {}
          form.line
      · exact hkept
    · exact hkept
  exact diagnostics_of_concur hconcur

/-- Every program that is read has a line throughout, and every program with a
    line throughout has the same diagnostics before and after any passes. -/
theorem diagnostics_optimize :
    (∀ lenient tokens, ∀ form ∈ (parseTokens lenient tokens).1, form.expr.isLined = true) ∧
      ∀ passes forms, (∀ form ∈ forms, form.expr.isLined = true) →
        (analyze (optimize passes forms)).diagnostics = (analyze forms).diagnostics := by
  refine ⟨isLined_parseTokens, fun passes => ?_⟩
  induction passes with
  | nil => exact fun _ _ => rfl
  | cons pass passes ih =>
      intro forms h
      have hpass : (analyze (pass.run forms)).diagnostics = (analyze forms).diagnostics := by
        cases pass with
        | constantFolding => exact diagnostics_foldConstants forms
        | deadStoreElimination => exact diagnostics_eliminateDeadStores h
      have hrest := ih (pass.run forms) (pass.isLined_run h)
      exact hrest.trans hpass

/-- A dead store of a call with an undeclared name and a folded argument, and a
    call that does not fit in a choice with a folded condition. -/
def brokenStore : List Form :=
  [⟨.list (some 1) [.atom (some 1) "setq", .atom (some 1) "x",
      .list (some 2) [.atom (some 2) "and", .atom (some 3) "y",
        .list (some 3) [.atom (some 3) "not", .boolean (some 3) true]]], 1⟩,
    ⟨.list (some 4) [.atom (some 4) "cond",
      .list (some 4) [.atom (some 4) "or", .boolean (some 4) true, .boolean (some 4) false],
      .list (some 5) [.atom (some 5) "plus", .boolean (some 5) true, .integer (some 5) 1]], 4⟩]

theorem diagnostics_optimize_brokenStore :
    (∀ form ∈ brokenStore, form.expr.isLined = true) ∧
      deadNames (foldConstants brokenStore) = ["x"] ∧
      (analyze brokenStore).diagnostics.map (·.map (·.line)) = some [3, 5] ∧
      (analyze (optimize Pass.all brokenStore)).diagnostics =
        (analyze brokenStore).diagnostics :=
  ⟨by decide, by decide, by decide, diagnostics_optimize.2 Pass.all brokenStore (by decide)⟩

end ListLang
