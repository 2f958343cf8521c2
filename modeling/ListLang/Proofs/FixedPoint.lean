import ListLang.Proofs.Rebound

/-!
# Folding Once Is Enough

Folding changes the very program from which the names that may be bound are
collected, so that a second pass could in principle see another set of them and
fold where the first did not dare. It does not. What disappears in a fold are
calls on literals, and these bind nothing and quote nothing; what binds or quotes
is left as it is written. So the set stays, and with it everything that the first
pass refused is refused again.

## Main definitions

* `visitedItems`, `Visits`: The expressions that folding looks at.

## Theorems

* `fold_fold`: What is folded is not changed by folding.
* `fold_visited`: What folding does not change it does not change anywhere.
* `foldCall?_of_fixed`: A call that stays cannot be computed.
* `foldConstants_fixed_point`: A folded program is a fixed point, with no call left
  that could be folded.
-/

namespace ListLang

section Twice

variable {bound : List String} {line own : Option Int} {name : String}

/-- What becomes of a call is decided by its folded arguments. -/
theorem foldList_call (hname : SpecialForm.ofName? name = none) (args args' folded : List Expr) :
    foldList bound line (.atom own name :: args) (.atom own name :: folded) =
      foldList bound line (.atom own name :: args') (.atom own name :: folded) := by
  simp only [foldList, hname]

theorem fold_of_isLiteral {e : Expr} (h : e.isLiteral = true) : fold bound e = e := by
  cases e with
  | integer _ _ | real _ _ | boolean _ _ | null _ => rfl
  | atom _ _ | list _ _ => exact absurd h Bool.false_ne_true

theorem map_fold_fold {es : List Expr} (h : ∀ e ∈ es, fold bound (fold bound e) = fold bound e) :
    (es.map (fold bound)).map (fold bound) = es.map (fold bound) := by
  rw [List.map_map]
  exact List.map_congr_left h

end Twice

/-- What is folded is not changed by folding again. -/
theorem fold_fold (bound : List String) (e : Expr) :
    fold bound (fold bound e) = fold bound e := by
  induction e using Expr.induct with
  | atom _ _ | integer _ _ | real _ _ | boolean _ _ | null _ => rfl
  | list line items ih =>
      cases (Expr.list line items).layout with
      | literal h => exact absurd h Bool.false_ne_true
      | empty => rfl
      | @computed _ head args hhead =>
          have hhead' : (fold bound head).atomName? = none := by rw [atomName?_fold, hhead]
          rw [fold_computed hhead, fold_computed hhead', ih head List.mem_cons_self,
            map_fold_fold fun e he => ih e (List.mem_cons_of_mem _ he)]
      | @special _ own name form args hname =>
          cases hfirst : foldedFrom? form args with
          | none => rw [fold_unfolded hname hfirst, fold_unfolded hname hfirst]
          | some first =>
              rcases SpecialForm.splits_of_foldedFrom? hfirst with ⟨kept, evaluated, rfl, hsplits⟩
              -- The folded form is split where the form was.
              rw [hsplits.fold_eq hname, (hsplits.map (fold bound)).fold_eq hname, map_fold_fold]
              exact fun e he => ih e (List.mem_cons_of_mem _ (List.mem_append_right kept he))
      | @call _ own name args hname =>
          have hargs := map_fold_fold fun e he => ih e (List.mem_cons_of_mem _ he)
          rcases fold_call bound line own args hname with hlist | ⟨b, _, _, _, hcall⟩
          · -- The folded arguments are folded to themselves, so what was refused is refused.
            have hagain : fold bound (.list line (.atom own name :: args.map (fold bound))) =
                fold bound (.list line (.atom own name :: args)) := by
              rw [fold_list, fold_list, List.map_cons, List.map_cons, hargs]
              exact foldList_call hname _ _ _
            rw [hlist, hagain, hlist]
          · exact fold_of_isLiteral hcall.isLiteral

/-! ### What Is Left -/

/-- The items of a list that folding looks at: those that the list evaluates. -/
def visitedItems (items : List Expr) : List Expr :=
  match items with
  | .atom _ name :: args => match SpecialForm.ofName? name with
    | some form => match foldedFrom? form args with
      | some first => items.drop first
      | none => []
    | none => items
  | _ => items

/-- Folding an expression looks at it and, if it is a list, at all that it looks
    at in the items that the list evaluates. -/
inductive Visits (e : Expr) : Expr → Prop where
  | self : Visits e e
  | item {line : Option Int} {items : List Expr} {f : Expr} (hf : f ∈ visitedItems items)
      (h : Visits e f) : Visits e (.list line items)

theorem eq_of_map_eq_self {es : List Expr} {f : Expr → Expr} (h : es.map f = es) {e : Expr}
    (he : e ∈ es) : f e = e := by
  have hid : es.map f = es.map id := by rw [h, List.map_id]
  exact List.map_inj_left.mp hid e he

/-- If folding does not change a list, it does not change what it looks at in the
    list. -/
theorem fold_visitedItem {bound : List String} {line : Option Int} {items : List Expr}
    (h : fold bound (.list line items) = .list line items) {e : Expr}
    (he : e ∈ visitedItems items) : fold bound e = e := by
  cases (Expr.list line items).layout with
  | literal hliteral => exact absurd hliteral Bool.false_ne_true
  | empty => exact absurd he List.not_mem_nil
  | @computed _ head args hhead =>
      have hitems : visitedItems (head :: args) = head :: args := by
        cases head with
        | atom _ _ => exact absurd hhead (Option.some_ne_none _)
        | integer _ _ | real _ _ | boolean _ _ | null _ | list _ _ => rfl
      rw [hitems] at he
      rw [fold_computed hhead, Expr.list.injEq] at h
      have hmap : (head :: args).map (fold bound) = head :: args := h.2
      exact eq_of_map_eq_self hmap he
  | @special _ own name form args hname =>
      simp only [visitedItems, hname] at he
      cases hfirst : foldedFrom? form args with
      | none =>
          rw [hfirst] at he
          exact absurd he List.not_mem_nil
      | some first =>
          rcases SpecialForm.splits_of_foldedFrom? hfirst with ⟨kept, evaluated, rfl, hsplits⟩
          rw [hsplits.foldedFrom evaluated rfl] at he
          simp only [List.drop_succ_cons, List.drop_left] at he
          rw [hsplits.fold_eq hname, Expr.list.injEq, List.cons.injEq] at h
          exact eq_of_map_eq_self (List.append_cancel_left h.2.2) he
  | @call _ own name args hname =>
      simp only [visitedItems, hname] at he
      rcases fold_call bound line own args hname with hlist | ⟨b, _, _, _, hcall⟩
      · rw [hlist, Expr.list.injEq, List.cons.injEq] at h
        rcases List.mem_cons.mp he with rfl | he
        · rfl
        · exact eq_of_map_eq_self h.2.2 he
      · -- A literal has taken the place of the list, which is then not what it was.
        have hliteral := hcall.isLiteral
        rw [h] at hliteral
        cases hliteral

/-- What folding does not change it does not change anywhere. -/
theorem fold_visited {bound : List String} {e e' : Expr} (h : Visits e' e)
    (hfixed : fold bound e = e) : fold bound e' = e' := by
  induction h with
  | self => exact hfixed
  | item hf _ ih => exact ih (fold_visitedItem hfixed hf)

/-- A call that folding does not change cannot be computed in advance, unless its
    name may be bound. -/
theorem foldCall?_of_fixed {bound : List String} {line own : Option Int} {name : String}
    {args : List Expr} {b : Builtin}
    (h : fold bound (.list line (.atom own name :: args)) = .list line (.atom own name :: args))
    (hb : Builtin.ofName? name = some b) (hfoldable : b.isFoldable = true)
    (hbound : name ∉ bound) : foldCall? b args = none := by
  have hname : SpecialForm.ofName? name = none := by
    rw [← Builtin.name_of_ofName? hb]
    exact b.not_special
  have hargs : args.map (fold bound) = args := by
    have hid : args.map (fold bound) = args.map id :=
      List.map_congr_left fun e he => fold_visitedItem h (by
        simp only [visitedItems, hname]
        exact List.mem_cons_of_mem _ he)
    rw [hid, List.map_id]
  rw [fold_list, List.map_cons, hargs] at h
  cases hcall : foldCall? b args with
  | none => rfl
  | some literal =>
      have hliteral := (foldedCall_of_foldCall? hcall).onLine line
      simp only [foldList, hname, hb, hfoldable, hbound, not_false_eq_true, and_self, ↓reduceIte,
        List.tail_cons, hcall] at h
      rw [h] at hliteral
      cases hliteral.isLiteral

/-- Folding a program once is enough. The names that may be bound are those that
    might have been bound before, and folding again changes nothing, no expression
    and no line. Hence no call that could be folded is left where folding looks:
    what is left of the builtins that the program does not bind are calls that
    cannot be computed in advance, because the builtin refuses the arguments as
    they are written. -/
theorem foldConstants_fixed_point (forms : List Form) :
    reboundNames (foldConstants forms) = reboundNames forms ∧
      foldConstants (foldConstants forms) = foldConstants forms ∧
      ∀ form ∈ foldConstants forms,
        ∀ (line own : Option Int) (name : String) (args : List Expr) (b : Builtin),
          Visits (.list line (.atom own name :: args)) form.expr →
          Builtin.ofName? name = some b → b.isFoldable = true → name ∉ reboundNames forms →
            foldCall? b args = none ∧
              ∃ cause, b.apply (args.map Expr.quoted) = .error cause := by
  have hnames : reboundNames (foldConstants forms) = reboundNames forms := by
    change (forms.map _).flatMap _ = forms.flatMap _
    rw [List.flatMap_map]
    exact List.flatMap_congr fun form _ => rebound_fold (reboundNames forms) form.expr
  refine ⟨hnames, ?_, ?_⟩
  · change (foldConstants forms).map
      (fun form => { form with expr := fold (reboundNames (foldConstants forms)) form.expr }) = _
    rw [hnames]
    change (forms.map _).map _ = forms.map _
    rw [List.map_map]
    refine List.map_congr_left fun form _ => ?_
    exact congrArg (Form.mk · form.line) (fold_fold (reboundNames forms) form.expr)
  · intro folded hfolded line own name args b hvisits hb hfoldable hbound
    rcases List.mem_map.mp hfolded with ⟨form, _, rfl⟩
    have hfixed := fold_visited hvisits (fold_fold (reboundNames forms) form.expr)
    have hnone := foldCall?_of_fixed hfixed hb hfoldable hbound
    have hanticipates := anticipates_foldCall? hfoldable args
    rw [hnone] at hanticipates
    refine ⟨hnone, ?_⟩
    generalize b.apply (args.map Expr.quoted) = result at hanticipates
    cases hanticipates with
    | refusal cause => exact ⟨cause, rfl⟩

/-- A store of a computed truth value under the name of a builtin, and a call
    around one that fails. -/
def failingCall : List Form :=
  [⟨.list (some 1) [.atom (some 1) "setq", .atom (some 1) "or",
      .list (some 1) [.atom (some 1) "and", .boolean (some 1) true, .boolean (some 1) false]], 1⟩,
    ⟨.list (some 2) [.atom (some 2) "not",
      .list (some 3) [.atom (some 3) "xor", .boolean (some 3) true, .null (some 3)]], 2⟩]

theorem foldConstants_fixed_point_failingCall :
    reboundNames failingCall = ["or"] ∧
      foldConstants (foldConstants failingCall) = foldConstants failingCall ∧
      foldConstants failingCall ≠ failingCall ∧
      ∃ form ∈ foldConstants failingCall,
        Visits (.list (some 3) [.atom (some 3) "xor", .boolean (some 3) true, .null (some 3)])
          form.expr ∧
        foldCall? (.connective .xor) [.boolean (some 3) true, .null (some 3)] = none ∧
        ∃ cause, (Builtin.connective .xor).apply [.boolean true, .null] = .error cause := by
  have hlast : ⟨.list (some 2) [.atom (some 2) "not", .list (some 3) [.atom (some 3) "xor",
      .boolean (some 3) true, .null (some 3)]], 2⟩ ∈ foldConstants failingCall :=
    .tail _ (.head _)
  have hvisits : Visits (.list (some 3) [.atom (some 3) "xor", .boolean (some 3) true,
      .null (some 3)]) (.list (some 2) [.atom (some 2) "not", .list (some 3) [.atom (some 3) "xor",
      .boolean (some 3) true, .null (some 3)]]) := .item (.tail _ (.head _)) .self
  have hpoint := foldConstants_fixed_point failingCall
  refine ⟨rfl, hpoint.2.1, fun h => ?_, _, hlast, hvisits,
    hpoint.2.2 _ hlast _ _ "xor" _ (.connective .xor) hvisits rfl rfl (by decide)⟩
  cases h

end ListLang
