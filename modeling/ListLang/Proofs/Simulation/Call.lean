import ListLang.Proofs.Shape
import ListLang.Proofs.Simulation.Outcome

/-!
# Corresponding Calls

The parts of evaluation that do not depend on how an expression is written:
arguments, calls, conditions and loops. Each does the same for both programs as
long as the evaluators for one level further in do. A builtin looks at the
numbers, truth values and lists it is given and never into a function, so it
gives corresponding results for corresponding arguments.

## Main definitions

* `Agree`: Evaluators that do the same on corresponding code.

## Theorems

* `Values.eq_of_shown`: What only depends on how a value is shown.
* `apply_results`: Builtins on corresponding arguments.
* `Agree.evalAll`, `Agree.evalSequence`: Several expressions.
* `Agree.callClosure`, `Agree.callBuiltin`, `Agree.callNamed`,
  `Agree.callComputed`: Calls.
* `Agree.evalCondition`, `Agree.evalLoop`: Conditions and loops.
-/

namespace ListLang

namespace Correspondence

variable {c : Correspondence}

/-! ### Builtins -/

/-- What looks at lists and functions only as an error shows them is the same for
    corresponding values. All other values correspond only to themselves. -/
theorem Values.eq_of_shown {α : Type} {f : Value → α} (g : Shown → α)
    (hlist : ∀ vs, f (.list vs) = g (Value.list vs).shown)
    (hfunction : ∀ k, f (.function k) = g (Value.function k).shown) {v w : Value}
    (h : c.Values v w) : f v = f w := by
  have hshown := h.shown_eq
  cases h with
  | list _ => rw [hlist, hlist, hshown]
  | function _ => rw [hfunction, hfunction, hshown]
  | atom _ _ | integer _ | real _ | boolean _ | null => rfl

theorem Values.arithmetic_argument {v w : Value} (h : c.Values v w) (op : Arithmetic)
    (position : Nat) : op.argument position v = op.argument position w :=
  h.eq_of_shown (fun got => .error (.about (.arithmetic op) got (.notNumber op position)))
    (fun _ => rfl) fun _ => rfl

theorem Values.comparison_argument {v w : Value} (h : c.Values v w) (op : Comparison)
    (position : Nat) : op.argument position v = op.argument position w :=
  h.eq_of_shown (fun got => .error (.about (.comparison op) got (.notComparable op position)))
    (fun _ => rfl) fun _ => rfl

theorem Values.boolean_argument {v w : Value} (h : c.Values v w) (b : Builtin) (position : Nat) :
    booleanArgument b position v = booleanArgument b position w :=
  h.eq_of_shown (fun got => .error (.about b got (.notBoolean b position)))
    (fun _ => rfl) fun _ => rfl

theorem Values.list_argument {v w : Value} (h : c.Values v w) (b : Builtin) (position : Nat) :
    Results (List.Forall₂ c.Values) (listArgument b position v) (listArgument b position w) := by
  have hshown := h.shown_eq
  cases h with
  | list h => exact .ok h
  | function _ =>
      simp only [listArgument, hshown]
      exact .error _
  | integer n => exact .error _
  | real x => exact .error _
  | atom name _ => exact .error _
  | boolean b => exact .error _
  | null => exact .error _

theorem arithmetic_results (op : Arithmetic) {v w v' w' : Value} (hv : c.Values v v')
    (hw : c.Values w w') : Results c.Values (op.onValues v w) (op.onValues v' w') := by
  unfold Arithmetic.onValues
  rw [hv.arithmetic_argument, hw.arithmetic_argument]
  refine .bind_same _ fun x => .bind_same _ fun y => .bind_same _ fun number => ?_
  cases number with
  | integer n => exact .ok (.integer n)
  | real z => exact .ok (.real z)

theorem comparison_results (op : Comparison) {v w v' w' : Value} (hv : c.Values v v')
    (hw : c.Values w w') : Results c.Values (op.onValues v w) (op.onValues v' w') := by
  unfold Comparison.onValues
  rw [hv.comparison_argument, hw.comparison_argument]
  exact .bind_same _ fun x => .bind_same _ fun y => .ok (.boolean _)

theorem connective_results (op : Connective) {v w v' w' : Value} (hv : c.Values v v')
    (hw : c.Values w w') : Results c.Values (op.onValues v w) (op.onValues v' w') := by
  unfold Connective.onValues
  rw [hv.boolean_argument, hw.boolean_argument]
  exact .bind_same _ fun x => .bind_same _ fun y => .ok (.boolean _)

theorem not_results {v w : Value} (h : c.Values v w) : Results c.Values (notOf v) (notOf w) := by
  unfold notOf
  rw [h.boolean_argument]
  exact .bind_same _ fun b => .ok (.boolean _)

theorem head_results {v w : Value} (h : c.Values v w) : Results c.Values (headOf v) (headOf w) := by
  refine (h.list_argument .head 1).bind fun vs ws hvs => ?_
  cases hvs with
  | nil => exact .error _
  | cons hvw _ => exact .ok hvw

theorem tail_results {v w : Value} (h : c.Values v w) : Results c.Values (tailOf v) (tailOf w) := by
  refine (h.list_argument .tail 1).bind fun vs ws hvs => ?_
  cases hvs with
  | nil => exact .ok (.list .nil)
  | cons _ hrest => exact .ok (.list hrest)

theorem cons_results {v w v' w' : Value} (hv : c.Values v v') (hw : c.Values w w') :
    Results c.Values (consOf v w) (consOf v' w') :=
  (hw.list_argument .cons 2).bind fun _ _ hvs => .ok (.list (.cons hv hvs))

/-- Builtins on corresponding arguments, in the right number or not. -/
theorem apply_results (b : Builtin) {vs ws : List Value} (h : List.Forall₂ c.Values vs ws) :
    Results c.Values (b.apply vs) (b.apply ws) := by
  by_cases hlen : vs.length = b.arity
  · cases b with
    | arithmetic op =>
        rcases forall₂_length_two h hlen with ⟨v, w, v', w', rfl, rfl, hv, hw⟩
        exact arithmetic_results op hv hw
    | comparison op =>
        rcases forall₂_length_two h hlen with ⟨v, w, v', w', rfl, rfl, hv, hw⟩
        exact comparison_results op hv hw
    | connective op =>
        rcases forall₂_length_two h hlen with ⟨v, w, v', w', rfl, rfl, hv, hw⟩
        exact connective_results op hv hw
    | cons =>
        rcases forall₂_length_two h hlen with ⟨v, w, v', w', rfl, rfl, hv, hw⟩
        exact cons_results hv hw
    | not =>
        rcases forall₂_length_one h hlen with ⟨v, v', rfl, rfl, hv⟩
        exact not_results hv
    | head =>
        rcases forall₂_length_one h hlen with ⟨v, v', rfl, rfl, hv⟩
        exact head_results hv
    | tail =>
        rcases forall₂_length_one h hlen with ⟨v, v', rfl, rfl, hv⟩
        exact tail_results hv
    | predicate p =>
        rcases forall₂_length_one h hlen with ⟨v, v', rfl, rfl, hv⟩
        simp only [Builtin.apply, hv.kind_eq]
        exact .ok (.boolean _)
    | eval =>
        rcases forall₂_length_one h hlen with ⟨v, v', rfl, rfl, hv⟩
        exact .ok hv
  · rw [Builtin.apply_of_length_ne hlen, Builtin.apply_of_length_ne (h.length_eq ▸ hlen),
      texts_eq h]
    exact .error _

/-! ### Calls -/

/-- Evaluators that do the same on corresponding code. -/
def Agree (c : Correspondence) (sub sub' : Evaluator) : Prop :=
  ∀ e e' env, c.code e e' → c.Simulates c.Values (sub e env) (sub' e' env)

variable {sub sub' : Evaluator}

theorem Agree.evalAll (h : c.Agree sub sub') (env : Nat) {es es' : List Expr}
    (hes : List.Forall₂ c.code es es') :
    c.Simulates (List.Forall₂ c.Values) (evalAll sub env es) (evalAll sub' env es') := by
  induction hes with
  | nil => exact .pure .nil
  | cons he _ ih =>
      refine (h _ _ env he).bind fun v w hv => ?_
      refine ih.bind fun vs ws hvs => ?_
      exact .pure (.cons hv hvs)

theorem Agree.evalSequence (h : c.Agree sub sub') (env : Nat) {es es' : List Expr}
    (hes : List.Forall₂ c.code es es') {v w : Value} (hv : c.Values v w) :
    c.Simulates c.Values (evalSequence sub env v es) (evalSequence sub' env w es') := by
  induction hes generalizing v w with
  | nil => exact .pure hv
  | cons he _ ih => exact (h _ _ env he).bind fun v w hv => ih hv

theorem Agree.callClosure (hc : c.Lawful) (h : c.Agree sub sub') {f g : Closure}
    (hfg : c.Closures f g) {vs ws : List Value} (hvs : List.Forall₂ c.Values vs ws) :
    c.Simulates c.Values (callClosure sub f vs) (callClosure sub' g ws) := by
  have hlabel : f.label? = g.label? := by
    unfold Closure.label?
    rw [hfg.name]
  unfold ListLang.callClosure
  rw [← hvs.length_eq, ← hfg.params, ← hlabel, ← hfg.frame, ← texts_eq hvs]
  by_cases hlen : vs.length ≠ f.params.length
  · rw [if_pos hlen, if_pos hlen]
    exact .fault hc (.refl _)
  · rw [if_neg hlen, if_neg hlen]
    have hempty : c.Bindings {} {} := .nil
    have hbound := hempty.insertEach (forall₂_zip_params hvs f.params)
    refine (Simulates.newFrame _ _ hbound fun b hb => ?_).bind fun frame frame' hframe => ?_
    · -- Only parameters are bound in the new frame.
      rcases Table.mem_entries_insertEach hb with hb | hb
      · exact absurd hb List.not_mem_nil
      · exact hfg.unpinned b.1 (List.of_mem_zip hb).1
    · subst hframe
      exact (h _ _ frame hfg.body).catchCall hc hfg

theorem Agree.evalValue (hc : c.Lawful) (hdata : c.EvalsData) (h : c.Agree sub sub') (env : Nat)
    {v w : Value} (hv : c.Values v w) :
    c.Simulates c.Values (evalValue sub env v) (evalValue sub' env w) := by
  cases hv with
  | list hvs =>
      have hlist : c.Values (.list _) (.list _) := .list hvs
      unfold ListLang.evalValue Value.toCode
      rcases hlist.toExpr_cases none with ⟨e, he, heq⟩ | ⟨f, g, hf, hg, hfg⟩
      · -- Data without functions is the same on both sides, and so is the code made of it.
        rw [heq] at hlist ⊢
        simp only [he, Except.mapError]
        exact h e e env (hdata _ _ hlist he)
      · simp only [hf, hg, Except.mapError, hfg.text_eq]
        exact .fault hc (.refl _)
  | atom name hname => exact .pure (.atom name hname)
  | integer n => exact .pure (.integer n)
  | real x => exact .pure (.real x)
  | boolean b => exact .pure (.boolean b)
  | null => exact .pure .null
  | function hfg => exact .pure (.function hfg)

theorem Agree.callBuiltin (hc : c.Lawful) (h : c.Agree sub sub') (env : Nat) {b : Builtin}
    (hb : c.EvalsData ∨ b ≠ .eval) {vs ws : List Value} (hvs : List.Forall₂ c.Values vs ws) :
    c.Simulates c.Values (callBuiltin sub env b vs) (callBuiltin sub' env b ws) := by
  have happly := Simulates.ofExcept hc (apply_results b hvs)
  by_cases heval : b = .eval
  · subst heval
    rcases hb with hdata | hne
    · cases hvs with
      | nil => exact happly
      | cons hv hrest =>
          cases hrest with
          | nil => exact h.evalValue hc hdata env hv
          | cons _ _ => exact happly
    · exact absurd rfl hne
  · rw [callBuiltin_of_ne_eval heval, callBuiltin_of_ne_eval heval]
    exact happly

theorem Agree.callBound (hc : c.Lawful) (h : c.Agree sub sub') (env : Nat) {name : String}
    (heval : c.EvalsData ∨ Builtin.ofName? name ≠ some .eval)
    {vs ws : List Value} (hvs : List.Forall₂ c.Values vs ws) {bound bound' : Option Value}
    (hbound : Option.Rel c.Values bound bound') {inSight inSight' : List String}
    (hsight : c.hidden = [] → inSight = inSight') :
    c.Simulates c.Values (callBound sub env name vs bound inSight)
      (callBound sub' env name ws bound' inSight') := by
  have hbuiltin : ∀ b, Builtin.ofName? name = some b → c.Simulates c.Values
      (ListLang.callBuiltin sub env b vs) (ListLang.callBuiltin sub' env b ws) := fun b hb =>
    h.callBuiltin hc env (heval.imp_right fun hne heq => hne (heq ▸ hb)) hvs
  rcases optionRel_cases hbound with ⟨rfl, rfl⟩ | ⟨v, w, rfl, rfl, hvw⟩
  · rw [callBound_none, callBound_none]
    cases hb : Builtin.ofName? name with
    | some b => exact hbuiltin b hb
    | none => exact .fault hc ⟨rfl, fun hnone => by rw [hsight hnone]⟩
  · by_cases hfun : ∃ f, v = .function f
    · rcases hfun with ⟨f, rfl⟩
      cases hvw with
      | function hfg => exact h.callClosure hc hfg hvs
    · have hkind : ∀ g, w ≠ .function g := by
        rintro g rfl
        cases hvw
        exact hfun ⟨_, rfl⟩
      rw [callBound_of_not_function (fun f hf => hfun ⟨f, hf⟩), callBound_of_not_function hkind,
        hvw.shown_eq]
      cases hb : Builtin.ofName? name with
      | some b => exact hbuiltin b hb
      | none => exact .fault hc (.refl _)

theorem Agree.callNamed (hc : c.Lawful) (h : c.Agree sub sub') (env : Nat) {name : String}
    (heval : c.EvalsData ∨ Builtin.ofName? name ≠ some .eval) (hname : name ∉ c.hidden)
    {es es' : List Expr} (hes : List.Forall₂ c.code es es') :
    c.Simulates c.Values (callNamed sub env name es) (callNamed sub' env name es') := by
  rw [callNamed_eq, callNamed_eq]
  refine (h.evalAll env hes).bind fun vs ws hvs s t hst => ?_
  exact h.callBound hc env heval hvs (hst.find? env hname) (hst.available_eq env) s t hst

theorem Agree.callComputed (hc : c.Lawful) (h : c.Agree sub sub') (env : Nat) {e e' : Expr}
    (he : c.code e e') {es es' : List Expr} (hes : List.Forall₂ c.code es es') :
    c.Simulates c.Values (callComputed sub env e es) (callComputed sub' env e' es') := by
  refine (h e e' env he).bind fun v w hv => ?_
  have hshown := hv.shown_eq
  cases hv with
  | function hfg => exact (h.evalAll env hes).bind fun vs ws hvs => h.callClosure hc hfg hvs
  | atom _ _ | integer _ | real _ | boolean _ | null | list _ =>
      simp only [hshown]
      exact .fault hc (.refl _)

/-! ### Conditions and Loops -/

theorem Agree.evalCondition (hc : c.Lawful) (h : c.Agree sub sub') (env : Nat)
    (form : SpecialForm) {e e' : Expr} (he : c.code e e') :
    c.Simulates Eq (evalCondition sub env form e) (evalCondition sub' env form e') := by
  refine (h e e' env he).bind fun v w hv => ?_
  have hshown := hv.shown_eq
  cases hv with
  | boolean b => exact .pure rfl
  | atom _ _ | integer _ | real _ | null | list _ | function _ =>
      simp only [hshown]
      exact .fault hc (.refl _)

/-- A loop that ends within its allowance does the same with any larger one. -/
theorem Agree.evalLoop (hc : c.Lawful) (h : c.Agree sub sub') (env : Nat) {test test' : Expr}
    (htest : c.code test test') {body body' : List Expr} (hbody : List.Forall₂ c.code body body')
    {fuel fuel' : Nat} (hfuel : fuel ≤ fuel') {v w : Value} (hv : c.Values v w) :
    c.Simulates c.Values (evalLoop sub env test body fuel v)
      (evalLoop sub' env test' body' fuel' w) := by
  induction fuel generalizing fuel' v w with
  | zero => exact .gaveUp rfl _
  | succ fuel ih =>
      -- The second side has at least as many rounds left.
      cases fuel' with
      | zero => omega
      | succ fuel' =>
          refine (h.evalCondition hc env .whileLoop htest).bind fun b b' hb => ?_
          subst hb
          cases b with
          | false => exact .pure hv
          | true =>
              refine (h.evalSequence env hbody hv).catchBreak.bind fun o o' ho => ?_
              cases ho with
              | none => exact .pure .null
              | some hv => exact ih (by omega) hv

end Correspondence

end ListLang
