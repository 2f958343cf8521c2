import ListLang.Proofs.Rebound
import ListLang.Proofs.Related

/-!
# Folded Code, One Level Deep

What can be found in place of an expression after folding, said once for all
kinds of expression: the same atom or literal, a list of the same kind with
folded items, or the literal that a call gives. Everything that is not evaluated
is left as it is written, and so are the lines.

Whoever compares a program with its folded form takes the two apart with this,
and is left with items that are compared in the same way.

## Main definitions

* `SpecialForm.written?`: The argument of a special form that is never folded.
* `Folded`: An expression, as it is or folded.
* `Stands`: What stands for what, one level deep.

## Theorems

* `Folded.stands`: What stands for an expression after folding.
* `Folded.atomName?_eq`, `Folded.line_eq`, `isWritable_fold`: What folding keeps.
-/

namespace ListLang

/-- The argument of a special form that is looked at as it is written: quoted
    data, or a list of names to be bound. -/
def SpecialForm.written? : SpecialForm → List Expr → Option Expr
  | .quote, [datum] => some datum
  | .func, [_, params, _] => some params
  | .lambda, [params, _] => some params
  | .prog, locals :: _ :: _ => some locals
  | _, _ => none

/-- The expression as it is, or folded. -/
def Folded (bound : List String) (e e' : Expr) : Prop :=
  e' = e ∨ e' = fold bound e

/-- What stands for what after folding, one level deep. -/
inductive Stands (bound : List String) : Expr → Expr → Prop where
  | leaf {e : Expr} (h : e.items? = none) : Stands bound e e
  | empty (line : Option Int) : Stands bound (.list line []) (.list line [])
  | computed (line : Option Int) {head head' : Expr} {args args' : List Expr}
      (hhead : head.atomName? = none) (hhead' : head'.atomName? = none)
      (h : Folded bound head head') (hargs : List.Forall₂ (Folded bound) args args') :
      Stands bound (.list line (head :: args)) (.list line (head' :: args'))
  | call (line own : Option Int) {name : String} {args args' : List Expr}
      (hname : SpecialForm.ofName? name = none)
      (hargs : List.Forall₂ (Folded bound) args args') :
      Stands bound (.list line (.atom own name :: args)) (.list line (.atom own name :: args'))
  | literal {line : Option Int} (own : Option Int) {name : String} {b : Builtin}
      {args : List Expr} {e : Expr} (hname : SpecialForm.ofName? name = none)
      (hb : Builtin.ofName? name = some b) (hfoldable : b.isFoldable = true)
      (hbound : name ∉ bound) (h : FoldedCall b (args.map (fold bound)) e)
      (hline : e.line = line) : Stands bound (.list line (.atom own name :: args)) e
  | special (line own : Option Int) {name : String} {form : SpecialForm}
      {args args' : List Expr} (hname : SpecialForm.ofName? name = some form)
      (hargs : List.Forall₂ (Folded bound) args args')
      (hwritten : form.written? args' = form.written? args) :
      Stands bound (.list line (.atom own name :: args)) (.list line (.atom own name :: args'))

variable {bound : List String}

theorem Folded.refl (e : Expr) : Folded bound e e :=
  .inl rfl

theorem Folded.of_fold (e : Expr) : Folded bound e (fold bound e) :=
  .inr rfl

theorem folded_refl_all (es : List Expr) : List.Forall₂ (Folded bound) es es :=
  List.forall₂_same.mpr fun e _ => .refl e

theorem folded_map (es : List Expr) : List.Forall₂ (Folded bound) es (es.map (fold bound)) :=
  forall₂_map_of_mem fun e _ => .of_fold e

/-- Every expression stands for itself. -/
theorem Stands.refl (e : Expr) : Stands bound e e := by
  cases e.layout with
  | atom line name => exact .leaf rfl
  | literal h =>
      cases e with
      | integer _ _ | real _ _ | boolean _ _ | null _ => exact .leaf rfl
      | atom _ _ | list _ _ => exact absurd h Bool.false_ne_true
  | empty line => exact .empty line
  | computed line args h => exact .computed line h h (.refl _) (folded_refl_all args)
  | special line own args h => exact .special line own h (folded_refl_all args) rfl
  | call line own args h => exact .call line own h (folded_refl_all args)

/-- A special form is folded where it evaluates its arguments. -/
theorem stands_fold_special (line own : Option Int) {name : String} {form : SpecialForm}
    (hname : SpecialForm.ofName? name = some form) (args : List Expr) :
    Stands bound (.list line (.atom own name :: args))
      (fold bound (.list line (.atom own name :: args))) := by
  cases hfirst : foldedFrom? form args with
  | none =>
      rw [fold_unfolded hname hfirst]
      exact .special line own hname (folded_refl_all args) rfl
  | some first =>
      rw [fold_special hname first hfirst]
      cases shape_of_foldedFrom? hfirst with
      | quote _ | breakLoop => cases hfirst
      | setq l n value =>
          cases hfirst
          exact .special line own hname (.cons (.refl _) (folded_map [value])) rfl
      | func l n params body names hparams =>
          rw [foldedFrom?, hparams] at hfirst
          cases hfirst
          exact .special line own hname
            (.cons (.refl _) (.cons (.refl _) (folded_map [body]))) rfl
      | lambda params body names hparams =>
          rw [foldedFrom?, hparams] at hfirst
          cases hfirst
          exact .special line own hname (.cons (.refl _) (folded_map [body])) rfl
      | prog locals forms names hlocals =>
          rw [foldedFrom?, hlocals] at hfirst
          cases hfirst
          refine .special line own hname (.cons (.refl _) (folded_map forms)) ?_
          cases forms <;> rfl
      | condThen test yes =>
          cases hfirst
          exact .special line own hname (folded_map [test, yes]) rfl
      | condElse test yes no =>
          cases hfirst
          exact .special line own hname (folded_map [test, yes, no]) rfl
      | whileLoop test body =>
          cases hfirst
          exact .special line own hname (folded_map (test :: body)) rfl
      | returnNull =>
          cases hfirst
          exact .special line own hname .nil rfl
      | returnValue value =>
          cases hfirst
          exact .special line own hname (folded_map [value]) rfl

theorem Expr.line_onLine (e : Expr) (line : Option Int) : (e.onLine line).line = line := by
  cases e <;> rfl

theorem line_foldList (bound : List String) (line : Option Int) (items folded : List Expr) :
    (foldList bound line items folded).line = line := by
  unfold foldList
  split
  · split
    · split <;> rfl
    · split
      · split
        · split
          · exact Expr.line_onLine _ line
          · rfl
        · rfl
      · rfl
  · rfl

/-- Folding keeps the line of an expression. -/
theorem line_fold (bound : List String) (e : Expr) : (fold bound e).line = e.line := by
  cases e with
  | atom _ _ | integer _ _ | real _ _ | boolean _ _ | null _ => rfl
  | list line items => exact line_foldList bound line items (foldAll bound items)

/-- Folding neither makes an integer that is too long to be written nor removes
    one. -/
theorem isWritable_fold (bound : List String) (e : Expr) :
    (fold bound e).isWritable = e.isWritable := by
  induction e using Expr.induct with
  | atom _ _ | integer _ _ | real _ _ | boolean _ _ | null _ => rfl
  | list line items ih =>
      cases (Expr.list line items).layout with
      | literal h => exact absurd h Bool.false_ne_true
      | empty => rfl
      | computed _ args hhead =>
          rw [fold_computed hhead]
          exact Expr.allWritable_map ih
      | @special _ own name form args hname =>
          cases hfirst : foldedFrom? form args with
          | none => rw [fold_unfolded hname hfirst]
          | some first =>
              rcases SpecialForm.splits_of_foldedFrom? hfirst with ⟨kept, evaluated, rfl, hsplits⟩
              have hevaluated : Expr.allWritable (evaluated.map (fold bound)) =
                  Expr.allWritable evaluated :=
                Expr.allWritable_map fun e he =>
                  ih e (List.mem_cons_of_mem _ (List.mem_append_right kept he))
              rw [Expr.allWritable_eq_all, Expr.allWritable_eq_all] at hevaluated
              rw [hsplits.fold_eq hname]
              simp only [Expr.isWritable, Expr.allWritable_eq_all, List.all_cons, List.all_append,
                hevaluated]
      | @call _ own name args hname =>
          have hargs : Expr.allWritable (args.map (fold bound)) = Expr.allWritable args :=
            Expr.allWritable_map fun e he => ih e (List.mem_cons_of_mem _ he)
          rcases fold_call bound line own args hname with hlist | ⟨b, _, _, _, hcall⟩
          · rw [hlist]
            simp only [Expr.isWritable, Expr.allWritable, hargs]
          · -- A call that is replaced has arguments that arithmetic takes.
            have hall : Expr.allWritable (args.map (fold bound)) = true := by
              rw [Expr.allWritable_eq_all]
              exact List.all_eq_true.mpr hcall.args_isWritable
            rw [hcall.isWritable]
            simp only [Expr.isWritable, Expr.allWritable, ← hargs, hall, Bool.and_self]

/-- What stands for an expression after folding. -/
theorem Folded.stands {e e' : Expr} (h : Folded bound e e') : Stands bound e e' := by
  rcases h with rfl | rfl
  · exact .refl _
  · cases e.layout with
    | atom line name => exact .leaf rfl
    | literal h =>
        cases e with
        | integer _ _ | real _ _ | boolean _ _ | null _ => exact .leaf rfl
        | atom _ _ | list _ _ => exact absurd h Bool.false_ne_true
    | empty line => exact .empty line
    | computed line args h =>
        rw [fold_computed h]
        exact .computed line h (by rw [atomName?_fold, h]) (.of_fold _) (folded_map args)
    | special line own args h => exact stands_fold_special line own h args
    | call line own args h =>
        rcases fold_call bound line own args h with hlist | ⟨b, hb, hfoldable, hbound, hcall⟩
        · rw [hlist]
          exact .call line own h (folded_map args)
        · exact .literal own h hb hfoldable hbound hcall (line_fold bound _)

namespace Folded

variable {e e' : Expr}

theorem line_eq (h : Folded bound e e') : e'.line = e.line := by
  rcases h with rfl | rfl
  · rfl
  · exact line_fold bound e

/-- Only lists are folded. -/
theorem eq_of_leaf (h : Folded bound e e') (hleaf : e.items? = none) : e' = e := by
  rcases h with rfl | rfl
  · rfl
  · cases e with
    | list _ _ => cases hleaf
    | atom _ _ | integer _ _ | real _ _ | boolean _ _ | null _ => rfl

theorem atomName?_eq (h : Folded bound e e') : e'.atomName? = e.atomName? := by
  rcases h with rfl | rfl
  · rfl
  · exact atomName?_fold bound e

end Folded

end ListLang
