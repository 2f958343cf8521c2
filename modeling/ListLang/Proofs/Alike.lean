import ListLang.Check.Infer
import ListLang.Check.Monad
import ListLang.Proofs.DeadStore
import ListLang.Proofs.Folded
import ListLang.Proofs.Signatures

/-!
# Checks That Concur

A program and its optimized form are checked side by side. The two checks keep
scopes of their own, which need not be the same: a name whose assignments were
dropped is missing from one of them, and the bodies of functions may be folded.
What they tell about every other name is the same, and that is all a check ever
asks for. So two checks concur if they take scopes that are alike to scopes that
are alike and note the same problems on the way.

Checks that concur are put together as checks are. Where both sides do the same
there is one rule for each thing that a check can do, and a single rule for a
step that only one side takes: recording the type of a hidden name.

A call is folded only if no function can have its name. The scopes know of no
function with such a name, so the type of the call is the declared one, and the
literal in its place has the same.

## Main definitions

* `Scope.Alike`, `Chain.Alike`, `Checking.Alike`: Scopes that tell the same.
* `CheckM.Concur`: Checks that note the same problems.

## Theorems

* `Chain.Alike.typeOf?_eq`, `Chain.Alike.params_eq`: What is found in scopes that
  are alike.
* `Chain.Alike.function?_eq_none`: No function has the name of a folded call.
* `Concur.seq`, `Concur.sight`, `Concur.updateScope`, `Concur.inScope`: Putting
  checks together.
* `FoldedCall.signature`: A folded call has no problems and the declared type.
* `Folded.inferType_eq`: Folding keeps the inferred types.
-/

namespace ListLang

/-! ### Scopes -/

/-- Two scopes tell the same, apart from the types of hidden variables. They know
    of no function with a foldable name that is never bound. -/
structure Scope.Alike (bound hidden : List String) (a b : Scope) : Prop where
  types : ∀ name ∉ hidden, a.variableTypes.find? name = b.variableTypes.find? name
  params : ∀ name, (a.functions.find? name).map FunctionEntry.params =
    (b.functions.find? name).map FunctionEntry.params
  builtins : ∀ name, isFoldableName name = true → name ∉ bound → a.functions.find? name = none

/-- Two chains of scopes that are alike one by one. -/
def Chain.Alike (bound hidden : List String) (c c' : Chain) : Prop :=
  List.Forall₂ (Scope.Alike bound hidden) c c'

/-- The same problems and scopes that are alike. -/
structure Checking.Alike (bound hidden : List String) (s t : Checking) : Prop where
  chain : s.chain.Alike bound hidden t.chain
  found : s.found = t.found

variable {bound hidden : List String}

namespace Scope.Alike

variable {a b : Scope}

/-- A scope without functions is like itself. -/
theorem of_variables (types : Table Ty) : Alike bound hidden ⟨types, {}⟩ ⟨types, {}⟩ :=
  ⟨fun _ _ => rfl, fun _ => rfl, fun _ _ _ => rfl⟩

theorem defineVariable (h : Alike bound hidden a b) (name : String) (t : Ty) :
    Alike bound hidden (a.defineVariable name t) (b.defineVariable name t) := by
  refine ⟨fun key hkey => ?_, h.params, h.builtins⟩
  unfold Scope.defineVariable
  rw [Table.find?_insert, Table.find?_insert, h.types key hkey]

/-- Nothing is told apart by a hidden variable. -/
theorem define_hidden (h : Alike bound hidden a b) {name : String} (hname : name ∈ hidden)
    (t : Ty) : Alike bound hidden (a.defineVariable name t) b := by
  refine ⟨fun key hkey => ?_, h.params, h.builtins⟩
  have hne : key ≠ name := by
    rintro rfl
    exact hkey hname
  unfold Scope.defineVariable
  rw [Table.find?_insert, if_neg hne, h.types key hkey]

theorem defineFunction (h : Alike bound hidden a b) {name : String}
    (hname : isFoldableName name = true → name ∈ bound) {f g : FunctionEntry}
    (hparams : f.params = g.params) :
    Alike bound hidden (a.defineFunction name f) (b.defineFunction name g) := by
  unfold Scope.defineFunction
  refine ⟨h.types, fun key => ?_, fun key hfoldable hbound => ?_⟩
  · rw [Table.find?_insert, Table.find?_insert]
    by_cases hkey : key = name
    · simp only [hkey, ↓reduceIte, Option.map_some, hparams]
    · simp only [hkey, ↓reduceIte, h.params key]
  · have hne : key ≠ name := by
      rintro rfl
      exact hbound (hname hfoldable)
    rw [Table.find?_insert, if_neg hne]
    exact h.builtins key hfoldable hbound

end Scope.Alike

namespace Chain.Alike

variable {c c' : Chain}

theorem typeOf?_eq (h : c.Alike bound hidden c') {name : String} (hname : name ∉ hidden) :
    c.typeOf? name = c'.typeOf? name := by
  unfold Chain.typeOf?
  induction h with
  | nil => rfl
  | cons hab _ ih => rw [List.findSome?_cons, List.findSome?_cons, hab.types name hname, ih]

/-- A name has functions with the same parameters, or none. -/
theorem params_eq (h : c.Alike bound hidden c') (name : String) :
    (c.function? name).map FunctionEntry.params =
      (c'.function? name).map FunctionEntry.params := by
  unfold Chain.function?
  induction h with
  | nil => rfl
  | @cons a b _ _ hab _ ih =>
      have hparams := hab.params name
      rw [List.findSome?_cons, List.findSome?_cons]
      cases hf : a.functions.find? name with
      | some f =>
          cases hg : b.functions.find? name with
          | some g => rwa [hf, hg] at hparams
          | none => rw [hf, hg] at hparams; cases hparams
      | none =>
          cases hg : b.functions.find? name with
          | some g => rw [hf, hg] at hparams; cases hparams
          | none => exact ih

theorem isSome_function?_eq (h : c.Alike bound hidden c') (name : String) :
    (c.function? name).isSome = (c'.function? name).isSome := by
  rw [← Option.isSome_map, h.params_eq name, Option.isSome_map]

/-- A foldable name that is never bound has no function. -/
theorem function?_eq_none (h : c.Alike bound hidden c') {name : String}
    (hfoldable : isFoldableName name = true) (hbound : name ∉ bound) :
    c.function? name = none ∧ c'.function? name = none := by
  have hnone : c.function? name = none := by
    unfold Chain.function?
    induction h with
    | nil => rfl
    | cons hab _ ih => rw [List.findSome?_cons, hab.builtins name hfoldable hbound, ih]
  have hparams := h.params_eq name
  rw [hnone, Option.map_none] at hparams
  exact ⟨hnone, Option.map_eq_none_iff.mp hparams.symm⟩

end Chain.Alike

/-! ### Checks -/

namespace CheckM

/-- From scopes that are alike both checks get to scopes that are alike, and they
    note the same problems. -/
def Concur (bound hidden : List String) (x y : CheckM Unit) : Prop :=
  ∀ s t, Checking.Alike bound hidden s t →
    Checking.Alike bound hidden (x.run s).2 (y.run t).2

namespace Concur

variable {x x' y y' : CheckM Unit}

theorem pure : Concur bound hidden (pure ()) (pure ()) :=
  fun _ _ h => h

theorem seq (hx : Concur bound hidden x x') (hy : Concur bound hidden y y') :
    Concur bound hidden (do x; y) (do x'; y') :=
  fun s t h => hy _ _ (hx s t h)

/-- What follows may depend on the scopes, as far as they are alike. -/
theorem sight {f g : Chain → CheckM Unit}
    (h : ∀ c c', Chain.Alike bound hidden c c' → Concur bound hidden (f c) (g c')) :
    Concur bound hidden (CheckM.sight >>= f) (CheckM.sight >>= g) :=
  fun s t hst => h s.chain t.chain hst.chain s t hst

theorem noteAll (line : Int) (fs : List Finding) :
    Concur bound hidden (noteAll line fs) (noteAll line fs) :=
  fun _ _ h => ⟨h.chain, congrArg (· ++ fs.map (·.on line)) h.found⟩

theorem note (line : Int) (f : Finding) :
    Concur bound hidden (note line f) (note line f) :=
  noteAll line [f]

theorem noteIf (problem : Bool) (line : Int) (f : Finding) :
    Concur bound hidden (noteIf problem line f) (noteIf problem line f) := by
  cases problem with
  | true => exact note line f
  | false => exact pure

theorem updateScope {f g : Scope → Scope}
    (h : ∀ a b, Scope.Alike bound hidden a b → Scope.Alike bound hidden (f a) (g b)) :
    Concur bound hidden (updateScope f) (updateScope g) := by
  rintro ⟨c, _⟩ ⟨c', _⟩ ⟨hchain, hfound⟩
  refine ⟨?_, hfound⟩
  cases hchain with
  | nil => exact .nil
  | cons hab hrest => exact .cons (h _ _ hab) hrest

/-- Only the first side records a hidden name. -/
theorem define_hidden {name : String} (hname : name ∈ hidden) (t : Ty) :
    Concur bound hidden (CheckM.updateScope fun a => a.defineVariable name t)
      (Pure.pure ()) := by
  rintro ⟨c, _⟩ ⟨c', _⟩ ⟨hchain, hfound⟩
  refine ⟨?_, hfound⟩
  cases hchain with
  | nil => exact .nil
  | cons hab hrest => exact .cons (hab.define_hidden hname t) hrest

/-- A new scope is the same on both sides, and is forgotten afterwards. -/
theorem inScope (names : List String) (h : Concur bound hidden x y) :
    Concur bound hidden (inScope (.ofNames names) x) (inScope (.ofNames names) y) := by
  rintro ⟨c, found⟩ ⟨c', found'⟩ ⟨hchain, hfound⟩
  have hinner := h ⟨.ofNames names :: c, found⟩ ⟨.ofNames names :: c', found'⟩
    ⟨.cons (.of_variables _) hchain, hfound⟩
  have htail := List.forall₂_drop 1 hinner.chain
  rw [List.drop_one, List.drop_one] at htail
  exact ⟨htail, hinner.found⟩

end Concur

end CheckM

/-! ### Types -/

/-- The arguments of a folded call reveal no problem, and the literal in its place
    has the declared type. -/
theorem FoldedCall.signature {b : Builtin} {args : List Expr} {literal : Expr}
    (h : FoldedCall b args literal) (hfoldable : b.isFoldable = true) (chain : Chain) :
    builtinProblems b (inferTypes chain 0 args) = [] ∧
      b.resultType.Describes literal.quoted := by
  have hhead : b ≠ .head := by
    rintro rfl
    cases hfoldable
  refine signature_of_apply h.ne_eval hhead ?_ h.apply_eq
  rw [inferTypes_eq_map, List.forall₂_map_left_iff, List.forall₂_map_right_iff]
  exact List.forall₂_same.mpr fun e he =>
    describes_literal (h.args_isLiteral e he) (by decide) chain

theorem inferType_deep {depth : Int} (h : inferenceDepth < depth) (chain : Chain) (e : Expr) :
    inferType chain depth e = .any := by
  cases e <;> simp only [inferType, h, ↓reduceIte]

theorem inferType_list {depth : Int} (h : ¬ inferenceDepth < depth) (chain : Chain)
    (line : Option Int) (items : List Expr) :
    inferType chain depth (.list line items) =
      listType chain items (items.map (inferType chain (depth + 1))) := by
  simp only [inferType, h, ↓reduceIte, inferTypes_eq_map]

theorem listType_computed {head : Expr} (h : head.atomName? = none) (chain : Chain)
    (args : List Expr) (types : List Ty) : listType chain (head :: args) types = .any := by
  cases head with
  | atom _ _ => exact absurd h (Option.some_ne_none _)
  | integer _ _ | real _ _ | boolean _ _ | null _ | list _ _ => rfl

/-- Where folding keeps the types of the items, it keeps the type of the list. -/
theorem listType_eq {c c' : Chain} (hc : c.Alike bound hidden c') {line : Option Int}
    {items : List Expr} (hbound : rebound (.list line items) ⊆ bound)
    (hspares : Spares hidden (.list line items)) {e' : Expr} {depth : Int}
    (hdepth : ¬ inferenceDepth < depth) (h : Folded bound (.list line items) e')
    (ih : ∀ e ∈ items, ∀ e', rebound e ⊆ bound → Spares hidden e → Folded bound e e' →
      inferType c (depth + 1) e = inferType c' (depth + 1) e') :
    listType c items (items.map (inferType c (depth + 1))) = inferType c' depth e' := by
  cases h.stands with
  | leaf hnone => cases hnone
  | empty _ => rw [inferType_list hdepth]; rfl
  | computed _ hhead hhead' _ _ =>
      rw [inferType_list hdepth, listType_computed hhead, listType_computed hhead']
  | call _ own hname hargs =>
      rw [inferType_list hdepth]
      simp only [listType, hname, hc.isSome_function?_eq]
  | @literal _ own name b args _ hname hb hfoldable hfree hcall _ =>
      have hfunction :=
        (hc.function?_eq_none (isFoldableName_of_ofName? hb hfoldable) hfree).1
      simp only [listType, hname, hfunction, Option.isSome_none, Bool.false_eq_true, ↓reduceIte,
        hb]
      exact (hcall.signature hfoldable c').2.unique (describes_literal hcall.isLiteral hdepth c')
  | @special _ own name form args args' hname hargs _ =>
      rw [inferType_list hdepth]
      cases form with
      | quote | func | lambda | prog | whileLoop | returnValue | breakLoop =>
          simp only [listType, hname]
      | setq =>
          have hquote := isQuotation_eq_false (by rw [hname]; exact nofun) own args
          -- The target may be hidden. Only the type of the value counts.
          rcases hargs with _ | ⟨htarget, _ | ⟨hvalue, _ | ⟨_, _⟩⟩⟩
          · simp only [listType, hname, List.map_cons, List.map_nil]
          · simp only [listType, hname, List.map_cons, List.map_nil]
          · have htype := ih _ (by simp) _ (rebound_item hbound hquote (by simp))
              (hspares.value List.mem_cons_self) hvalue
            simp only [listType, hname, List.map_cons, List.map_nil, htype]
          · simp only [listType, hname, List.map_cons]
      | cond =>
          have hquote := isQuotation_eq_false (by rw [hname]; exact nofun) own args
          have hassigns := assignsName_of_ne_setq (by rw [hname]; exact nofun) own args
          have hitems : List.Forall₂ (Folded bound) (.atom own name :: args)
              (.atom own name :: args') := .cons (.refl _) hargs
          have htypes := map_eq_map_of_forall₂ (forall₂_imp_mem hitems fun e he e' h =>
            ih e he e' (rebound_item hbound hquote he) (hspares.item hassigns he) h)
          rw [htypes]
          simp only [listType, hname, hc.isSome_function?_eq]

/-- Folding keeps the inferred types, in scopes that are alike, of code that uses
    no hidden name. -/
theorem Folded.inferType_eq {c c' : Chain} (hc : c.Alike bound hidden c') {e e' : Expr}
    (hbound : rebound e ⊆ bound) (hspares : Spares hidden e) (h : Folded bound e e')
    (depth : Int) : inferType c depth e = inferType c' depth e' := by
  induction e using Expr.induct generalizing e' depth with
  | list line items ih =>
      by_cases hdepth : inferenceDepth < depth
      · rw [inferType_deep hdepth, inferType_deep hdepth]
      · rw [inferType_list hdepth]
        exact listType_eq hc hbound hspares hdepth h fun e he e' hbound hspares h =>
          ih e he hbound hspares h (depth + 1)
  | atom line name =>
      rw [h.eq_of_leaf rfl]
      simp only [inferType, hc.typeOf?_eq hspares.atom]
  | integer _ _ | real _ _ | boolean _ _ | null _ =>
      rw [h.eq_of_leaf rfl]
      simp only [inferType]

end ListLang
