import Mathlib.Data.List.Basic
import ListLang.Proofs.Literal
import ListLang.Proofs.Shape

/-!
# What Folding Sees of a Program

Facts about how the folder reads an expression, free of evaluation. What may be
bound by an expression includes what may be bound by the expressions it
evaluates, and is among the names that occur in it. Folding changes neither
whether an expression is an atom nor a form that is not written as it should
be, and without foldable names it changes nothing.

A special form is the only list where it matters which items are folded. It has
arguments that are kept as they are written and, after them, arguments that are
evaluated. How many of each there are and which names are bound is decided
without a look at the latter, so folding changes nothing about what may be bound.

## Main definitions

* `SpecialForm.Splits`: The arguments of a special form that are kept and those
  that are evaluated.

## Theorems

* `rebound_list`, `rebound_quotation`: What a list may bind.
* `mem_boundBy`: The names in binding places.
* `rebound_item`, `rebound_argument`: What the items of a list may bind.
* `mem_of_bindingPlace`: What a list itself may bind.
* `rebound_subset_foldableAtoms`: What may be bound occurs.
* `atomName?_fold`: Folding makes and unmakes no atoms.
* `shape_of_foldedFrom?`: Nothing is folded in a form without a shape.
* `fold_eq_self`: Folding when every foldable name may be bound.
* `SpecialForm.splits_of_foldedFrom?`: A form that is folded splits.
* `rebound_fold`: Folding changes nothing about what may be bound.
-/

namespace ListLang

theorem foldableAtomsAll_eq_flatMap (es : List Expr) :
    foldableAtomsAll es = es.flatMap foldableAtoms := by
  induction es with
  | nil => rfl
  | cons e es ih => exact congrArg (foldableAtoms e ++ ·) ih

theorem foldableAtoms_list (line : Option Int) (items : List Expr) :
    foldableAtoms (.list line items) = items.flatMap foldableAtoms :=
  foldableAtomsAll_eq_flatMap items

theorem reboundAll_eq_flatMap (es : List Expr) : reboundAll es = es.flatMap rebound := by
  induction es with
  | nil => rfl
  | cons e es ih => exact congrArg (rebound e ++ ·) ih

/-- What a list may bind that is no quotation: what stands in its binding places,
    and what its items may bind. -/
theorem rebound_list {items : List Expr} (h : isQuotation items = false) (line : Option Int) :
    rebound (.list line items) = boundBy items ++ items.flatMap rebound := by
  change (if isQuotation items = true then _ else boundBy items ++ reboundAll items) = _
  rw [h, reboundAll_eq_flatMap]
  rfl

/-- Of a quotation, everything after the head counts as bound. -/
theorem rebound_quotation {items : List Expr} (h : isQuotation items = true) (line : Option Int) :
    rebound (.list line items) = items.tail.flatMap foldableAtoms := by
  change (if isQuotation items = true then foldableAtomsAll items.tail else _) = _
  rw [if_pos h, foldableAtomsAll_eq_flatMap]

theorem isFoldableName_of_ofName? {name : String} {b : Builtin}
    (hb : Builtin.ofName? name = some b) (h : b.isFoldable = true) :
    isFoldableName name = true := by
  change (Builtin.ofName? name).any Builtin.isFoldable = true
  rw [hb]
  exact h

/-! ### Binding Places -/

/-- A foldable name is bound by a list if it stands in a binding place. -/
theorem mem_boundBy {items : List Expr} {name : String} :
    name ∈ boundBy items ↔
      (∃ e ∈ bindingPlaces items, e.atomName? = some name) ∧ isFoldableName name = true := by
  change name ∈ ((bindingPlaces items).filterMap Expr.atomName?).filter isFoldableName ↔ _
  rw [List.mem_filter, List.mem_filterMap]

/-- The name of a function stands in a binding place. -/
theorem mem_bindingPlaces_func {name : String} (h : SpecialForm.ofName? name = some .func)
    (own : Option Int) (target : Expr) (rest : List Expr) :
    target ∈ bindingPlaces (.atom own name :: target :: rest) := by
  cases rest with
  | nil => simp only [bindingPlaces, h, List.mem_cons, true_or]
  | cons params rest => cases params <;> simp only [bindingPlaces, h, List.mem_cons, true_or]

/-- A binding place is an item, or an item of an item. -/
theorem mem_bindingPlaces {items : List Expr} {e : Expr} (h : e ∈ bindingPlaces items) :
    e ∈ items ∨ ∃ line es, Expr.list line es ∈ items ∧ e ∈ es := by
  have hsecond : ∀ {x y : Expr} {rest : List Expr}, y ∈ x :: y :: rest :=
    List.mem_cons_of_mem _ List.mem_cons_self
  have hthird : ∀ {x y z : Expr} {rest : List Expr}, z ∈ x :: y :: z :: rest :=
    List.mem_cons_of_mem _ (List.mem_cons_of_mem _ List.mem_cons_self)
  unfold bindingPlaces at h
  split at h
  · split at h
    · rw [List.mem_singleton.mp h]
      exact .inl hsecond
    · rcases List.mem_cons.mp h with rfl | h
      · exact .inl hsecond
      · exact .inr ⟨_, _, hthird, h⟩
    · rw [List.mem_singleton.mp h]
      exact .inl hsecond
    · exact .inr ⟨_, _, hsecond, h⟩
    · exact .inr ⟨_, _, hsecond, h⟩
    · exact absurd h List.not_mem_nil
  · exact absurd h List.not_mem_nil

theorem foldableAtoms_of_atomName? {e : Expr} {name : String} (h : e.atomName? = some name)
    (hname : isFoldableName name = true) : name ∈ foldableAtoms e := by
  cases e with
  | atom line n =>
      cases h
      change name ∈ if isFoldableName name = true then [name] else []
      rw [if_pos hname]
      exact List.mem_singleton_self name
  | integer _ _ | real _ _ | boolean _ _ | null _ | list _ _ => cases h

theorem boundBy_subset_foldableAtomsAll (items : List Expr) :
    boundBy items ⊆ foldableAtomsAll items := by
  intro name hname
  rcases mem_boundBy.mp hname with ⟨⟨e, he, hatom⟩, hfoldable⟩
  have hatoms := foldableAtoms_of_atomName? hatom hfoldable
  rw [foldableAtomsAll_eq_flatMap, List.mem_flatMap]
  rcases mem_bindingPlaces he with he | ⟨line, es, hes, he⟩
  · exact ⟨e, he, hatoms⟩
  · refine ⟨.list line es, hes, ?_⟩
    rw [foldableAtoms_list, List.mem_flatMap]
    exact ⟨e, he, hatoms⟩

/-! ### Evaluated Items -/

theorem isQuotation_cons_atom (line : Option Int) (name : String) (args : List Expr) :
    isQuotation (.atom line name :: args) = (name == SpecialForm.quote.name) :=
  rfl

theorem isQuotation_eq_false {name : String} (h : SpecialForm.ofName? name ≠ some .quote)
    (line : Option Int) (args : List Expr) : isQuotation (.atom line name :: args) = false := by
  rw [isQuotation_cons_atom, beq_eq_false_iff_ne]
  rintro rfl
  exact h (SpecialForm.ofName?_name .quote)

theorem isQuotation_of_computed {head : Expr} (h : head.atomName? = none) (args : List Expr) :
    isQuotation (head :: args) = false := by
  change (head.atomName? == some SpecialForm.quote.name) = false
  rw [h]
  rfl

/-- What an item of a list that is no quotation may bind, the list may bind. -/
theorem rebound_item {bound : List String} {line : Option Int} {items : List Expr} {e : Expr}
    (h : rebound (.list line items) ⊆ bound) (hquote : isQuotation items = false)
    (he : e ∈ items) : rebound e ⊆ bound := by
  intro name hname
  refine h ?_
  rw [rebound_list hquote]
  exact List.mem_append_right _ (List.mem_flatMap.mpr ⟨e, he, hname⟩)

/-- A foldable name in a binding place of a list that is no quotation may be
    bound. -/
theorem mem_of_bindingPlace {bound : List String} {line : Option Int} {items : List Expr}
    {e : Expr} {name : String} (h : rebound (.list line items) ⊆ bound)
    (hquote : isQuotation items = false) (he : e ∈ bindingPlaces items)
    (hname : e.atomName? = some name) (hfoldable : isFoldableName name = true) :
    name ∈ bound := by
  refine h ?_
  rw [rebound_list hquote]
  exact List.mem_append_left _ (mem_boundBy.mpr ⟨⟨e, he, hname⟩, hfoldable⟩)

theorem rebound_subset_foldableAtoms (e : Expr) : rebound e ⊆ foldableAtoms e := by
  induction e using Expr.induct with
  | list line items ih =>
      rw [foldableAtoms_list]
      by_cases hquote : isQuotation items = true
      · rw [rebound_quotation hquote]
        cases items with
        | nil => exact List.Subset.refl _
        | cons head args => exact List.subset_append_right _ _
      · rw [rebound_list (Bool.eq_false_iff.mpr hquote)]
        refine List.append_subset.mpr ⟨?_, ?_⟩
        · rw [← foldableAtomsAll_eq_flatMap]
          exact boundBy_subset_foldableAtomsAll items
        · intro name hname
          rcases List.mem_flatMap.mp hname with ⟨e, he, hname⟩
          exact List.mem_flatMap.mpr ⟨e, he, ih e he hname⟩
  | atom line name => exact List.nil_subset _
  | integer line n => exact List.nil_subset _
  | real line x => exact List.nil_subset _
  | boolean line b => exact List.nil_subset _
  | null line => exact List.nil_subset _

/-- What an argument may bind, the list may bind, be it a quotation or not. -/
theorem rebound_argument {bound : List String} {line : Option Int} {head : Expr}
    {args : List Expr} (h : rebound (.list line (head :: args)) ⊆ bound) {e : Expr}
    (he : e ∈ args) : rebound e ⊆ bound := by
  by_cases hquote : isQuotation (head :: args) = true
  · intro name hname
    refine h ?_
    rw [rebound_quotation hquote, List.tail_cons, List.mem_flatMap]
    exact ⟨e, he, rebound_subset_foldableAtoms e hname⟩
  · exact rebound_item h (Bool.eq_false_iff.mpr hquote) (List.mem_cons_of_mem _ he)

theorem rebound_subset_reboundNames {forms : List Form} {form : Form} (h : form ∈ forms) :
    rebound form.expr ⊆ reboundNames forms :=
  fun _ hname => List.mem_flatMap.mpr ⟨form, h, hname⟩

/-! ### Folding -/

section Folding

variable {bound : List String} {line own : Option Int} {name : String} {head : Expr}
  {args : List Expr}

theorem fold_list (bound : List String) (line : Option Int) (items : List Expr) :
    fold bound (.list line items) = foldList bound line items (items.map (fold bound)) :=
  congrArg (foldList bound line items) (foldAll_eq_map bound items)

theorem fold_computed (h : head.atomName? = none) :
    fold bound (.list line (head :: args)) =
      .list line (fold bound head :: args.map (fold bound)) := by
  rw [fold_list]
  cases head with
  | atom _ _ => exact absurd h (Option.some_ne_none _)
  | integer _ _ | real _ _ | boolean _ _ | null _ | list _ _ => rfl

theorem foldList_special {form : SpecialForm} (h : SpecialForm.ofName? name = some form)
    (folded : List Expr) :
    foldList bound line (.atom own name :: args) folded =
      (foldedFrom? form args).elim (.list line (.atom own name :: args)) fun first =>
        .list line ((Expr.atom own name :: args).take first ++ folded.drop first) := by
  simp only [foldList, h]
  cases foldedFrom? form args <;> rfl

theorem fold_special {form : SpecialForm} (h : SpecialForm.ofName? name = some form) (first : Nat)
    (hfirst : foldedFrom? form args = some first) :
    fold bound (.list line (.atom own name :: args)) =
      .list line ((Expr.atom own name :: args).take first ++
        (Expr.atom own name :: args.map (fold bound)).drop first) := by
  rw [fold_list, foldList_special h, hfirst]
  rfl

theorem fold_unfolded {form : SpecialForm} (h : SpecialForm.ofName? name = some form)
    (hnone : foldedFrom? form args = none) :
    fold bound (.list line (.atom own name :: args)) = .list line (.atom own name :: args) := by
  rw [fold_list, foldList_special h, hnone]
  rfl

/-- A call is folded item by item, or it is replaced by the literal it gives. -/
theorem fold_call (bound : List String) (line own : Option Int) (args : List Expr)
    (h : SpecialForm.ofName? name = none) :
    fold bound (.list line (.atom own name :: args)) =
        .list line (.atom own name :: args.map (fold bound)) ∨
      ∃ b, Builtin.ofName? name = some b ∧ b.isFoldable = true ∧ name ∉ bound ∧
        FoldedCall b (args.map (fold bound))
          (fold bound (.list line (.atom own name :: args))) := by
  simp only [fold_list, foldList, h, List.map_cons, List.tail_cons]
  cases hb : Builtin.ofName? name with
  | none => exact .inl rfl
  | some b =>
      by_cases hfold : b.isFoldable = true ∧ name ∉ bound
      · simp only [hfold, not_false_eq_true, and_self, ↓reduceIte]
        cases hcall : foldCall? b (args.map (fold bound)) with
        | none => exact .inl rfl
        | some literal =>
            exact .inr ⟨b, rfl, hfold.1, trivial, (foldedCall_of_foldCall? hcall).onLine line⟩
      · exact .inl (if_neg hfold)

end Folding

/-- Nothing is folded in a form that is not written as it should be. -/
theorem shape_of_foldedFrom? {form : SpecialForm} {args : List Expr} {first : Nat}
    (h : foldedFrom? form args = some first) : form.Shape args := by
  unfold foldedFrom? at h
  split at h
  · exact .setq _ _ _
  · rcases Option.map_eq_some_iff.mp h with ⟨names, hnames, _⟩
    exact .func _ _ _ _ names hnames
  · rcases Option.map_eq_some_iff.mp h with ⟨names, hnames, _⟩
    exact .lambda _ _ names hnames
  · rcases Option.map_eq_some_iff.mp h with ⟨names, hnames, _⟩
    exact .prog _ _ names hnames
  · exact .condThen _ _
  · exact .condElse _ _ _
  · exact .whileLoop _ _
  · exact .returnNull
  · exact .returnValue _
  · cases h

/-- Folding makes and unmakes no atoms. -/
theorem atomName?_fold (bound : List String) (e : Expr) :
    (fold bound e).atomName? = e.atomName? := by
  cases e with
  | atom _ _ | integer _ _ | real _ _ | boolean _ _ | null _ => rfl
  | list line items =>
      cases (Expr.list line items).layout with
      | literal h => exact absurd h Bool.false_ne_true
      | empty => rfl
      | computed _ args h => rw [fold_computed h]; rfl
      | @special _ own name form args h =>
          cases hfirst : foldedFrom? form args with
          | some first => rw [fold_special h first hfirst]; rfl
          | none => rw [fold_unfolded h hfirst]
      | @call _ own name args h =>
          rcases fold_call bound line own args h with hlist | ⟨b, _, _, _, hcall⟩
          · rw [hlist]; rfl
          · rw [Expr.atomName?_of_isLiteral hcall.isLiteral]; rfl

/-- Where every foldable name may be bound, nothing is folded. -/
theorem fold_eq_self {bound : List String} (h : ∀ name, isFoldableName name = true → name ∈ bound)
    (e : Expr) : fold bound e = e := by
  induction e using Expr.induct with
  | atom _ _ | integer _ _ | real _ _ | boolean _ _ | null _ => rfl
  | list line items ih =>
      have hargs : ∀ {head : Expr} {args : List Expr}, items = head :: args →
          args.map (fold bound) = args := by
        rintro head args rfl
        have hid : args.map (fold bound) = args.map id :=
          List.map_congr_left fun e he => ih e (List.mem_cons_of_mem _ he)
        rw [hid, List.map_id]
      cases (Expr.list line items).layout with
      | literal h => exact absurd h Bool.false_ne_true
      | empty => rfl
      | computed _ args hhead => rw [fold_computed hhead, ih _ List.mem_cons_self, hargs rfl]
      | @special _ own name form args hname =>
          cases hfirst : foldedFrom? form args with
          | some first => rw [fold_special hname first hfirst, hargs rfl, List.take_append_drop]
          | none => rw [fold_unfolded hname hfirst]
      | @call _ own name args hname =>
          rcases fold_call bound line own args hname with hlist | ⟨b, hb, hfold, hbound, _⟩
          · rw [hlist, hargs rfl]
          · -- Only a name that is never bound is folded, and there is none.
            exact absurd (h name (isFoldableName_of_ofName? hb hfold)) hbound

/-! ### Kept and Evaluated Arguments -/

/-- The arguments of a special form are those in `kept`, which are looked at as
    they are written, and after them those in `evaluated`, in whose place any
    others of the same number could stand. -/
structure SpecialForm.Splits (form : SpecialForm) (kept evaluated : List Expr) : Prop where
  foldedFrom : ∀ es : List Expr, es.length = evaluated.length →
    foldedFrom? form (kept ++ es) = some (kept.length + 1)
  places : ∀ {name : String}, ofName? name = some form → ∀ (own : Option Int) (es : List Expr),
    es.length = evaluated.length →
      bindingPlaces (.atom own name :: (kept ++ es)) =
        bindingPlaces (.atom own name :: (kept ++ evaluated))

namespace SpecialForm

variable {form : SpecialForm} {kept evaluated : List Expr}

/-- A special form of which something is folded is written as it should be, and
    splits into what is kept and what is evaluated. -/
theorem splits_of_foldedFrom? {args : List Expr} {first : Nat}
    (h : foldedFrom? form args = some first) :
    ∃ kept evaluated, args = kept ++ evaluated ∧ form.Splits kept evaluated := by
  -- Any arguments that are as many as those evaluated fit the same shape.
  cases shape_of_foldedFrom? h with
  | quote _ | breakLoop => cases h
  | setq l n value =>
      refine ⟨[.atom l n], [value], rfl, ?_, ?_⟩
      · intro es hes
        rcases List.length_eq_one_iff.mp hes with ⟨e, rfl⟩
        rfl
      · intro name hname own es hes
        simp only [bindingPlaces, hname, List.cons_append]
  | func l n params body names hparams =>
      refine ⟨[.atom l n, params], [body], rfl, ?_, ?_⟩
      · intro es hes
        rcases List.length_eq_one_iff.mp hes with ⟨e, rfl⟩
        simp only [foldedFrom?, List.cons_append, List.nil_append, hparams, Option.map_some,
          List.length_cons, List.length_nil]
      · intro name hname own es hes
        cases params <;> simp only [bindingPlaces, hname, List.cons_append]
  | lambda params body names hparams =>
      refine ⟨[params], [body], rfl, ?_, ?_⟩
      · intro es hes
        rcases List.length_eq_one_iff.mp hes with ⟨e, rfl⟩
        simp only [foldedFrom?, List.cons_append, List.nil_append, hparams, Option.map_some,
          List.length_cons, List.length_nil]
      · intro name hname own es hes
        cases params <;> simp only [bindingPlaces, hname, List.cons_append]
  | prog locals forms names hlocals =>
      refine ⟨[locals], forms, rfl, ?_, ?_⟩
      · intro es hes
        simp only [foldedFrom?, List.cons_append, hlocals, Option.map_some, List.length_cons,
          List.length_nil]
      · intro name hname own es hes
        cases locals <;> simp only [bindingPlaces, hname, List.cons_append]
  | condThen test yes =>
      refine ⟨[], [test, yes], rfl, ?_, ?_⟩
      · intro es hes
        rcases List.length_eq_two.mp hes with ⟨e, f, rfl⟩
        rfl
      · intro name hname own es hes
        simp only [bindingPlaces, hname]
  | condElse test yes no =>
      refine ⟨[], [test, yes, no], rfl, ?_, ?_⟩
      · intro es hes
        rcases List.length_eq_three.mp hes with ⟨e, f, g, rfl⟩
        rfl
      · intro name hname own es hes
        simp only [bindingPlaces, hname]
  | whileLoop test body =>
      refine ⟨[], test :: body, rfl, ?_, ?_⟩
      · intro es hes
        rcases List.exists_cons_of_length_eq_add_one hes with ⟨e, es, rfl⟩
        rfl
      · intro name hname own es hes
        simp only [bindingPlaces, hname]
  | returnNull =>
      refine ⟨[], [], rfl, ?_, ?_⟩
      · intro es hes
        rw [List.length_eq_zero_iff.mp hes]
        rfl
      · intro name hname own es hes
        simp only [bindingPlaces, hname]
  | returnValue value =>
      refine ⟨[], [value], rfl, ?_, ?_⟩
      · intro es hes
        rcases List.length_eq_one_iff.mp hes with ⟨e, rfl⟩
        rfl
      · intro name hname own es hes
        simp only [bindingPlaces, hname]

/-- Folding what is evaluated leaves a form that splits in the same way. -/
theorem Splits.map (h : form.Splits kept evaluated) (f : Expr → Expr) :
    form.Splits kept (evaluated.map f) := by
  have hlength : (evaluated.map f).length = evaluated.length := List.length_map f
  refine ⟨fun es hes => h.foldedFrom es (hes.trans hlength), fun hname own es hes => ?_⟩
  rw [h.places hname own es (hes.trans hlength), h.places hname own _ hlength]

theorem Splits.ne_quote (h : form.Splits kept evaluated) : form ≠ .quote := by
  rintro rfl
  have hnone := h.foldedFrom evaluated rfl
  cases hnone

/-- What is evaluated is folded, and nothing else. -/
theorem Splits.fold_eq (h : form.Splits kept evaluated) {name : String}
    (hname : ofName? name = some form) (bound : List String) (line own : Option Int) :
    fold bound (.list line (.atom own name :: (kept ++ evaluated))) =
      .list line (.atom own name :: (kept ++ evaluated.map (fold bound))) := by
  rw [fold_special hname _ (h.foldedFrom evaluated rfl), List.take_succ_cons, List.drop_succ_cons,
    List.take_left, List.map_append, List.drop_left' (List.length_map _), List.cons_append]

end SpecialForm

/-! ### The Names that May Be Bound -/

theorem bindingPlaces_of_computed {head : Expr} (h : head.atomName? = none) (args : List Expr) :
    bindingPlaces (head :: args) = [] := by
  cases head with
  | atom _ _ => exact absurd h (Option.some_ne_none _)
  | integer _ _ | real _ _ | boolean _ _ | null _ | list _ _ => rfl

theorem bindingPlaces_of_call {name : String} (h : SpecialForm.ofName? name = none)
    (own : Option Int) (args : List Expr) : bindingPlaces (.atom own name :: args) = [] := by
  simp only [bindingPlaces, h]

/-- Two lists bind the same names if their binding places do and their items may
    bind the same. -/
theorem rebound_congr {items items' : List Expr} (hquote : isQuotation items = false)
    (hquote' : isQuotation items' = false) (hplaces : bindingPlaces items' = bindingPlaces items)
    (hitems : items'.flatMap rebound = items.flatMap rebound) (line : Option Int) :
    rebound (.list line items') = rebound (.list line items) := by
  rw [rebound_list hquote, rebound_list hquote', hitems]
  change ((bindingPlaces items').filterMap Expr.atomName?).filter isFoldableName ++ _ = _
  rw [hplaces]
  rfl

theorem rebound_of_isLiteral {e : Expr} (h : e.isLiteral = true) : rebound e = [] := by
  cases e with
  | integer _ _ | real _ _ | boolean _ _ | null _ => rfl
  | atom _ _ | list _ _ => exact absurd h Bool.false_ne_true

/-- Items that may bind the same before and after folding may do so together. -/
theorem flatMap_rebound_fold {bound : List String} {es : List Expr}
    (h : ∀ e ∈ es, rebound (fold bound e) = rebound e) :
    (es.map (fold bound)).flatMap rebound = es.flatMap rebound := by
  rw [List.flatMap_map]
  exact List.flatMap_congr h

/-- Folding keeps the names that may be bound: it leaves alone whatever binds or
    quotes, and the calls it replaces do neither. -/
theorem rebound_fold (bound : List String) (e : Expr) : rebound (fold bound e) = rebound e := by
  induction e using Expr.induct with
  | atom _ _ | integer _ _ | real _ _ | boolean _ _ | null _ => rfl
  | list line items ih =>
      cases (Expr.list line items).layout with
      | literal h => exact absurd h Bool.false_ne_true
      | empty => rfl
      | @computed _ head args hhead =>
          have hhead' : (fold bound head).atomName? = none := by rw [atomName?_fold, hhead]
          rw [fold_computed hhead]
          refine rebound_congr (isQuotation_of_computed hhead _)
            (isQuotation_of_computed hhead' _) ?_ (flatMap_rebound_fold ih) line
          rw [bindingPlaces_of_computed hhead', bindingPlaces_of_computed hhead]
      | @special _ own name form args hname =>
          cases hfirst : foldedFrom? form args with
          | none => rw [fold_unfolded hname hfirst]
          | some first =>
              rcases SpecialForm.splits_of_foldedFrom? hfirst with ⟨kept, evaluated, rfl, hsplits⟩
              have hquote : SpecialForm.ofName? name ≠ some .quote :=
                SpecialForm.ofName?_ne hname hsplits.ne_quote
              have hfolded := flatMap_rebound_fold fun e he =>
                ih e (List.mem_cons_of_mem _ (List.mem_append_right kept he))
              -- What is bound stands among the arguments that are kept.
              rw [hsplits.fold_eq hname]
              refine rebound_congr (isQuotation_eq_false hquote own _)
                (isQuotation_eq_false hquote own _)
                (hsplits.places hname own _ (List.length_map _)) ?_ line
              rw [List.flatMap_cons, List.flatMap_cons, List.flatMap_append, List.flatMap_append,
                hfolded]
      | @call _ own name args hname =>
          have hquote : SpecialForm.ofName? name ≠ some .quote := by
            rw [hname]
            exact Option.some_ne_none _ ∘ Eq.symm
          have hfolded := flatMap_rebound_fold fun e he => ih e (List.mem_cons_of_mem _ he)
          rcases fold_call bound line own args hname with hlist | ⟨b, _, _, _, hcall⟩
          · rw [hlist]
            refine rebound_congr (isQuotation_eq_false hquote own _)
              (isQuotation_eq_false hquote own _) ?_ ?_ line
            · rw [bindingPlaces_of_call hname, bindingPlaces_of_call hname]
            · rw [List.flatMap_cons, List.flatMap_cons, hfolded]
          · -- A call that is replaced has literals for arguments, and literals bind nothing.
            have hargs : (args.map (fold bound)).flatMap rebound = [] :=
              List.flatMap_eq_nil_iff.mpr fun e he =>
                rebound_of_isLiteral (hcall.args_isLiteral e he)
            have hnothing : boundBy (.atom own name :: args) = [] := by
              change ((bindingPlaces _).filterMap Expr.atomName?).filter isFoldableName = []
              rw [bindingPlaces_of_call hname]
              rfl
            rw [rebound_of_isLiteral hcall.isLiteral,
              rebound_list (isQuotation_eq_false hquote own _), hnothing, List.flatMap_cons,
              ← hfolded, hargs]
            rfl

end ListLang
