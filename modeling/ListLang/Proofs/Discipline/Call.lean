import ListLang.Proofs.Discipline.Basic
import ListLang.Proofs.Quotation
import ListLang.Proofs.Shape

/-!
# Calls Under a Discipline

Builtins, calls, conditions and loops keep a discipline if the evaluator for one
level further in does. What `eval` makes of data is the one way in which code
comes into being at run time. There are two cases in which it is known to be
code of the discipline: all data is, or `eval` is only ever applied to a
quotation.

## Main definitions

* `Disciplined`: Evaluators that keep a discipline.
* `Discipline.EvalsData`: Data may be taken for code.

## Theorems

* `yields_apply`: Builtins on valid values.
* `Disciplined.callClosure`, `Disciplined.callBuiltin`, `Disciplined.callNamed`,
  `Disciplined.callComputed`: Calls.
* `Disciplined.evalLoop`: Loops.
-/

namespace ListLang

namespace Discipline

variable {d : Discipline} {n : Nat}

/-! ### Builtins -/

theorem yields_arithmetic (op : Arithmetic) (v w : Value) :
    Yields (d.Admits n) (op.onValues v w) := by
  have harg : ∀ position u, Yields (fun _ => True) (op.argument position u) := by
    intro position u
    cases u with
    | integer k =>
        simp only [Arithmetic.argument, integerArgument]
        split
        · exact .ok trivial
        · exact .error rfl
    | real x => exact .ok trivial
    | atom _ | boolean _ | null | list _ | function _ =>
        exact .error (EvalCause.isMisuse_about (fun _ => rfl) _ _)
  refine (harg 1 v).bind fun x _ => (harg 2 w).bind fun y _ => ?_
  cases hn : op.compute x y with
  | error cause =>
      simp only [Arithmetic.compute] at hn
      split at hn
      · cases hn
      · cases hn; exact .error rfl
  | ok number =>
      cases number with
      | integer k => exact .ok (.integer k)
      | real z => exact .ok (.real z)

theorem yields_comparison (op : Comparison) (v w : Value) :
    Yields (d.Admits n) (op.onValues v w) := by
  have harg : ∀ position u, Yields (fun _ => True) (op.argument position u) := by
    intro position u
    cases u with
    | integer k =>
        simp only [Comparison.argument, integerArgument]
        split
        · exact .ok trivial
        · exact .error rfl
    | real _ | boolean _ => exact .ok trivial
    | atom _ | null | list _ | function _ =>
        exact .error (EvalCause.isMisuse_about (fun _ => rfl) _ _)
  exact (harg 1 v).bind fun x _ => (harg 2 w).bind fun y _ => .ok (.boolean _)

theorem yields_boolean (b : Builtin) (position : Nat) (v : Value) :
    Yields (fun _ => True) (booleanArgument b position v) := by
  cases v with
  | boolean _ => exact .ok trivial
  | atom _ | integer _ | real _ | null | list _ | function _ =>
      exact .error (EvalCause.isMisuse_about (fun _ => rfl) _ _)

theorem yields_list (b : Builtin) (position : Nat) {v : Value} (hv : d.Admits n v) :
    Yields (fun items => ∀ w ∈ items, d.Admits n w) (listArgument b position v) := by
  cases hv with
  | list h => exact .ok h
  | atom _ | integer _ | real _ | boolean _ | null | function _ =>
      exact .error (EvalCause.isMisuse_about (fun _ => rfl) _ _)

/-- A builtin on valid values gives a valid value or a harmless error. -/
theorem yields_apply (b : Builtin) {vs : List Value} (hvs : ∀ v ∈ vs, d.Admits n v) :
    Yields (d.Admits n) (b.apply vs) := by
  fun_cases Builtin.apply b vs with
  | case1 op v w => exact yields_arithmetic op v w
  | case2 op v w => exact yields_comparison op v w
  | case3 op v w =>
      exact (yields_boolean _ 1 v).bind fun _ _ => (yields_boolean _ 2 w).bind fun _ _ =>
        .ok (.boolean _)
  | case4 v => exact (yields_boolean _ 1 v).bind fun _ _ => .ok (.boolean _)
  | case5 v =>
      refine (yields_list .head 1 (hvs v List.mem_cons_self)).bind fun items hitems => ?_
      cases items with
      | nil => exact .error rfl
      | cons item rest => exact .ok (hitems item List.mem_cons_self)
  | case6 v =>
      exact (yields_list .tail 1 (hvs v List.mem_cons_self)).bind fun items hitems =>
        .ok (.list fun w hw => hitems w (List.mem_of_mem_tail hw))
  | case7 v w =>
      refine (yields_list .cons 2 (hvs w (by simp))).bind fun items hitems => .ok (.list ?_)
      intro u hu
      rcases List.mem_cons.mp hu with rfl | hu
      · exact hvs u List.mem_cons_self
      · exact hitems u hu
  | case8 p v => exact .ok (.boolean _)
  | case9 v => exact .ok (hvs v List.mem_cons_self)
  | case10 => exact .error rfl

/-! ### Several Expressions -/

variable (d) in
/-- The evaluator keeps the discipline on all of its code. -/
def Disciplined (sub : Evaluator) : Prop :=
  ∀ around e env n, d.code around e → env < n → d.Keeps n around d.Admits (sub e env)

variable (d) in
/-- Data may be taken for code, wherever it is. -/
def EvalsData : Prop :=
  ∀ around v e n, d.Admits n v → v.toExpr none = .ok e → d.code around e

namespace Disciplined

variable {sub : Evaluator} (hsub : d.Disciplined sub) {around : Surroundings} {env : Nat}
  (henv : env < n)
include hsub henv

theorem evalAll {es : List Expr} (hes : ∀ e ∈ es, d.code around e) :
    d.Keeps n around (fun m vs => ∀ v ∈ vs, d.Admits m v) (evalAll sub env es) := by
  induction es generalizing n with
  | nil => exact .pure fun _ _ v hv => absurd hv List.not_mem_nil
  | cons e es ih =>
      refine (hsub around e env n (hes e List.mem_cons_self) henv).bind fun v m hm hv => ?_
      refine (ih (Nat.lt_of_lt_of_le henv hm) fun f hf => hes f (List.mem_cons_of_mem _ hf)).bind
        fun vs k hk hvs => .pure fun l hl w hw => ?_
      rcases List.mem_cons.mp hw with rfl | hw
      · exact hv.mono (Nat.le_trans hk hl)
      · exact (hvs w hw).mono hl

theorem evalSequence {es : List Expr} (hes : ∀ e ∈ es, d.code around e) {v : Value}
    (hv : d.Admits n v) : d.Keeps n around d.Admits (evalSequence sub env v es) := by
  induction es generalizing n v with
  | nil => exact .pure fun m hm => hv.mono hm
  | cons e es ih =>
      refine (hsub around e env n (hes e List.mem_cons_self) henv).bind fun w m hm hw => ?_
      exact ih (Nat.lt_of_lt_of_le henv hm) (fun f hf => hes f (List.mem_cons_of_mem _ hf)) hw

theorem evalCondition {e : Expr} (he : d.code around e) (form : SpecialForm) :
    d.Keeps n around (fun _ _ => True) (evalCondition sub env form e) := by
  refine (hsub around e env n he henv).bind fun v m _ _ => ?_
  cases v with
  | boolean b => exact .pure fun _ _ => trivial
  | atom _ | integer _ | real _ | null | list _ | function _ => exact .fault rfl

/-- The body of a loop may `break`, its test may not. -/
theorem evalLoop (hstalls : d.stalls) {test : Expr} (htest : d.code around test) {body : List Expr}
    (hbody : ∀ e ∈ body, d.code { around with inWhile := true } e) (fuel : Nat) {v : Value}
    (hv : d.Admits n v) : d.Keeps n around d.Admits (evalLoop sub env test body fuel v) := by
  induction fuel generalizing n v with
  | zero => exact .exit fun _ _ => hstalls
  | succ fuel ih =>
      refine (hsub.evalCondition henv htest .whileLoop).bind fun b m hm _ => ?_
      cases b with
      | false => exact .pure fun k hk => hv.mono (Nat.le_trans hm hk)
      | true =>
          have hm' := Nat.lt_of_lt_of_le henv hm
          refine (hsub.evalSequence hm' hbody (hv.mono hm)).catchBreak.bind fun o k hk ho => ?_
          cases o with
          | none => exact .pure fun _ _ => .null
          | some w => exact ih (Nat.lt_of_lt_of_le hm' hk) (ho w rfl)

/-! ### Calls -/

omit henv in
theorem callClosure {f : Closure} (hf : d.Callable n f) {vs : List Value}
    (hvs : ∀ v ∈ vs, d.Admits n v) : d.Keeps n around d.Admits (callClosure sub f vs) := by
  unfold ListLang.callClosure
  by_cases hlen : vs.length ≠ f.params.length
  · rw [if_pos hlen]
    exact .fault rfl
  · rw [if_neg hlen]
    -- The new frame binds the parameters to the arguments and nothing else.
    have hentries : ∀ b ∈ (Table.insertEach {} (f.params.zip vs)).entries,
        b ∈ f.params.zip vs := by
      intro b hb
      rcases Table.mem_entries_insertEach hb with hb | hb
      · exact absurd hb List.not_mem_nil
      · exact hb
    refine (Keeps.newFrame _ hf.frame (fun b hb => ?_) fun b hb => ?_).bind
      fun frame m _ hframe => ?_
    · exact hf.params b.1 (List.of_mem_zip (hentries b hb)).1
    · exact hvs b.2 (List.of_mem_zip (hentries b hb)).2
    · exact (hsub .body f.body frame m hf.body hframe).catchCall f

theorem evalValue (hdata : d.EvalsData) {v : Value} (hv : d.Admits n v) :
    d.Keeps n around d.Admits (evalValue sub env v) := by
  cases v with
  | list items =>
      have hcode : Yields (d.code around) ((Value.list items).toCode none) := by
        unfold Value.toCode
        cases he : (Value.list items).toExpr none with
        | ok e => exact .ok (hdata around _ e n hv he)
        | error f => exact .error rfl
      refine (Keeps.ofExcept (Q := fun _ e => d.code around e) hcode fun _ _ _ he => he).bind
        fun e m hm he => ?_
      exact hsub around e env m he (Nat.lt_of_lt_of_le henv hm)
  | atom _ | integer _ | real _ | boolean _ | null | function _ =>
      exact .pure fun _ hm => hv.mono hm

theorem callBuiltin {b : Builtin} (hb : d.EvalsData ∨ b ≠ .eval) {vs : List Value}
    (hvs : ∀ v ∈ vs, d.Admits n v) : d.Keeps n around d.Admits (callBuiltin sub env b vs) := by
  have happly : d.Keeps n around d.Admits (EvalM.ofExcept (b.apply vs)) :=
    .ofExcept (yields_apply b hvs) fun _ _ hm hv => hv.mono hm
  by_cases heval : b = .eval
  · -- With any other number of arguments than one, `eval` is an error like any builtin.
    subst heval
    rcases hb with hdata | hne
    · cases vs with
      | nil => exact happly
      | cons v rest =>
          cases rest with
          | nil => exact hsub.evalValue henv hdata (hvs v List.mem_cons_self)
          | cons _ _ => exact happly
    · exact absurd rfl hne
  · rw [callBuiltin_of_ne_eval heval]
    exact happly

theorem callBound {name : String} (hname : d.EvalsData ∨ Builtin.ofName? name ≠ some .eval)
    {vs : List Value} (hvs : ∀ v ∈ vs, d.Admits n v) {bound : Option Value}
    (hbound : ∀ v, bound = some v → d.Admits n v) (inSight : List String) :
    d.Keeps n around d.Admits (callBound sub env name vs bound inSight) := by
  have hbuiltin : ∀ b, Builtin.ofName? name = some b →
      d.Keeps n around d.Admits (ListLang.callBuiltin sub env b vs) := fun b hb =>
    hsub.callBuiltin henv (hname.imp_right fun hne heq => hne (heq ▸ hb)) hvs
  cases bound with
  | none =>
      rw [callBound_none]
      cases hb : Builtin.ofName? name with
      | some b => exact hbuiltin b hb
      | none => exact .fault rfl
  | some v =>
      by_cases hfun : ∃ f, v = .function f
      · rcases hfun with ⟨f, rfl⟩
        cases hbound _ rfl with
        | function hf => exact hsub.callClosure hf hvs
      · rw [callBound_of_not_function fun f hf => hfun ⟨f, hf⟩]
        cases hb : Builtin.ofName? name with
        | some b => exact hbuiltin b hb
        | none => exact .fault rfl

theorem callNamed {name : String} (hname : d.EvalsData ∨ Builtin.ofName? name ≠ some .eval)
    {args : List Expr} (hargs : ∀ e ∈ args, d.code around e) :
    d.Keeps n around d.Admits (callNamed sub env name args) := by
  rw [callNamed_eq]
  refine (hsub.evalAll henv hargs).bind fun vs m hm hvs => .get fun s hs hle => ?_
  refine hsub.callBound (Nat.lt_of_lt_of_le henv (Nat.le_trans hm hle)) hname
    (fun v hv => (hvs v hv).mono hle) (fun v hv => (hs.find? hv).2) _

theorem callComputed {callee : Expr} (hcallee : d.code around callee) {args : List Expr}
    (hargs : ∀ e ∈ args, d.code around e) :
    d.Keeps n around d.Admits (callComputed sub env callee args) := by
  refine (hsub around callee env n hcallee henv).bind fun v m hm hv => ?_
  cases hv with
  | function hf =>
      refine (hsub.evalAll (Nat.lt_of_lt_of_le henv hm) hargs).bind fun vs k hk hvs => ?_
      exact hsub.callClosure (hf.mono hk) hvs
  | atom _ | integer _ | real _ | boolean _ | null | list _ => exact .fault rfl

end Disciplined

end Discipline

end ListLang
