import ListLang.Check.Infer
import ListLang.Check.Problems
import ListLang.Eval.Evaluate
import ListLang.Proofs.Computation
import ListLang.Proofs.Related
import ListLang.Proofs.Shape

/-!
# Signatures Are Exact

A builtin declares the types of its arguments and of its result, and it looks at
the values of its arguments when it is called. Where the types of the arguments
are known, the two agree: a call in which the declared types reveal no problem
gives a value of the declared type, and a call in which they do gives an error.
Only an error that depends on the numbers themselves is not foreseen, and so is
running out of levels.

The one builtin without such an agreement is `head`, whose result may be
anything and which fails on a list that happens to be empty. Another is `eval`,
which evaluates what it is given.

What a check foretells is put together like evaluation itself. If each part is
clean whenever it gives a value and fails whenever it is not clean, so does the
whole, which is clean if all parts are.

## Main definitions

* `Ty.Describes`: The values of a type.
* `Unforeseen`: The messages of errors that no check foresees.
* `EvalCause.WordedIn`: There are words for a cause in an expression.
* `Foretold`: Results that are as a check foretells them.

## Theorems

* `Foretold.bind`, `Foretold.congr`: Putting results together.
* `describes_literal`: Literals have the types of their values.
* `foretold_arithmetic`, `foretold_comparison`, `foretold_connective`: The
  families of builtins.
* `problems_one`, `problems_two`, `problems_comparison`: When the declared types
  reveal no problem.
* `foretold_apply`, `signature_of_apply`: Calls of builtins.
-/

namespace ListLang

/-- The value is of the kind that the type stands for. Nothing is known of a
    value by the type `any`. -/
inductive Ty.Describes : Ty → Value → Prop where
  | integer (n : Int) : Describes .number (.integer n)
  | real (x : Float) : Describes .number (.real x)
  | boolean (b : Bool) : Describes .bool (.boolean b)
  | null : Describes .null .null
  | list (items : List Value) : Describes .list (.list items)

theorem Ty.Describes.not_function {t : Ty} {v : Value} (h : t.Describes v) (f : Closure) :
    v ≠ .function f := by
  cases h <;> exact nofun

theorem Ty.Describes.unique {t u : Ty} {v : Value} (h : t.Describes v) (h' : u.Describes v) :
    t = u := by
  cases h <;> cases h' <;> rfl

/-- A literal has the type of its value, at all levels that are looked at. -/
theorem describes_literal {e : Expr} (h : e.isLiteral = true) {depth : Int}
    (hdepth : ¬ inferenceDepth < depth) (chain : Chain) :
    (inferType chain depth e).Describes e.quoted := by
  cases e with
  | integer _ n => simp only [inferType, hdepth, ↓reduceIte]; exact .integer n
  | real _ x => simp only [inferType, hdepth, ↓reduceIte]; exact .real x
  | boolean _ b => simp only [inferType, hdepth, ↓reduceIte]; exact .boolean b
  | null _ => simp only [inferType, hdepth, ↓reduceIte]; exact .null
  | atom _ _ | list _ _ => exact absurd h Bool.false_ne_true

/-- The messages of errors that no check foresees. -/
inductive Unforeseen (limits : Limits) : String → Prop where
  | divisionByZero : Unforeseen limits "Division by zero"
  | integerTooLarge (b : Builtin) :
      Unforeseen limits ("Integer too large for '" ++ b.name ++ "'")
  | tooDeep : Unforeseen limits
      ("Expression too deeply nested (max depth: " ++ toString limits.depth ++ ")")

/-- There are words for the cause, or it is the limit on depth and there are none
    for the whole expression either. -/
def EvalCause.WordedIn (limits : Limits) (whole : Expr) (cause : EvalCause) : Prop :=
  cause.isWorded = true ∨ whole.isWritable = false ∧ cause = .tooDeep limits.depth none

/-- The limit on depth has words in an expression with a text. -/
theorem EvalCause.WordedIn.tooDeep {limits : Limits} {whole e : Expr}
    (hdepth : ListLang.isWritable limits.depth = true)
    (h : whole.isWritable = true → e.isWritable = true) :
    (EvalCause.tooDeep limits.depth e.text?).WordedIn limits whole := by
  unfold Expr.text?
  cases he : e.isWritable with
  | true => exact .inl (Bool.and_eq_true_iff.mpr ⟨hdepth, rfl⟩)
  | false =>
      refine .inr ⟨Bool.eq_false_iff.mpr fun hwhole => ?_, rfl⟩
      rw [h hwhole] at he
      cases he

/-- A value as said, if the check was clean, or an error, if the check was not
    clean or could not foresee it. -/
inductive Foretold (limits : Limits) (whole : Expr) {α : Type} (clean : Prop)
    (Q : α → Store → Prop) : EStateM.Result Exit Store α → Prop where
  | ok {a : α} {s : Store} (hclean : clean) (h : Q a s) : Foretold limits whole clean Q (.ok a s)
  | unforeseen {cause : EvalCause} {line : Option Int} {s : Store}
      (h : Unforeseen limits cause.report.message) (hworded : cause.WordedIn limits whole) :
      Foretold limits whole clean Q (.error (.fault ⟨cause, line⟩) s)
  | foreseen {e : EvalError} {s : Store} (h : ¬ clean) :
      Foretold limits whole clean Q (.error (.fault e) s)

variable {limits : Limits} {whole : Expr} {s : Store}

namespace Foretold

variable {α β : Type} {clean clean' : Prop} {Q : α → Store → Prop} {R : β → Store → Prop}

/-- What follows is foretold from where the first part ends. -/
theorem bind {x : EvalM α} {f : α → EvalM β} (hx : Foretold limits whole clean Q (x s))
    (hf : ∀ a t, Q a t → Foretold limits whole clean' R (f a t)) :
    Foretold limits whole (clean ∧ clean') R ((x >>= f) s) := by
  generalize hr : x s = r at hx
  cases hx with
  | @ok a t hclean hq =>
      rw [EvalM.bind_of_ok hr]
      generalize hr' : f a t = r'
      have hrest := hf a t hq
      rw [hr'] at hrest
      cases hrest with
      | ok hclean' h => exact .ok ⟨hclean, hclean'⟩ h
      | unforeseen h hworded => exact .unforeseen h hworded
      | foreseen h => exact .foreseen fun hboth => h hboth.2
  | unforeseen h hworded =>
      rw [EvalM.bind_of_error hr]
      exact .unforeseen h hworded
  | foreseen h =>
      rw [EvalM.bind_of_error hr]
      exact .foreseen fun hboth => h hboth.1

theorem imp {Q' : α → Store → Prop} {r : EStateM.Result Exit Store α}
    (h : Foretold limits whole clean Q r) (hQ : ∀ a t, Q a t → Q' a t) :
    Foretold limits whole clean Q' r := by
  cases h with
  | ok hc hq => exact .ok hc (hQ _ _ hq)
  | unforeseen h hworded => exact .unforeseen h hworded
  | foreseen h => exact .foreseen h

theorem congr {r : EStateM.Result Exit Store α} (h : Foretold limits whole clean Q r)
    (hclean : clean ↔ clean') : Foretold limits whole clean' Q r := by
  cases h with
  | ok hc hq => exact .ok (hclean.mp hc) hq
  | unforeseen h hworded => exact .unforeseen h hworded
  | foreseen h => exact .foreseen fun hc => h (hclean.mpr hc)

/-- What follows holds nothing more to be checked. -/
theorem bind_sure {x : EvalM α} {f : α → EvalM β} (hx : Foretold limits whole clean Q (x s))
    (hf : ∀ a t, Q a t → Foretold limits whole True R (f a t)) :
    Foretold limits whole clean R ((x >>= f) s) :=
  (hx.bind hf).congr (and_iff_left trivial)

end Foretold

theorem EvalM.ofExcept_bind {α β : Type} (r : Except EvalCause α) (f : α → Except EvalCause β) :
    EvalM.ofExcept (r >>= f) = EvalM.ofExcept r >>= fun a => EvalM.ofExcept (f a) := by
  cases r <;> rfl

/-! ### Arguments -/

section Arguments

variable {t u : Ty} {v w : Value}

theorem foretold_integer (b : Builtin) (position : Nat) (n : Int) {clean : Prop}
    (hclean : clean) :
    Foretold limits whole clean (fun _ s' => s' = s)
      (EvalM.ofExcept (integerArgument b position n) s) := by
  unfold integerArgument
  cases realOfInt? n with
  | some x => exact .ok hclean rfl
  | none => exact .unforeseen (.integerTooLarge b) (.inl rfl)

theorem foretold_number (op : Arithmetic) (position : Nat) (h : t.Describes v) :
    Foretold limits whole (Ty.number.fits t = true) (fun _ s' => s' = s)
      (EvalM.ofExcept (op.argument position v) s) := by
  cases h with
  | integer n => exact foretold_integer (.arithmetic op) position n rfl
  | real x => exact .ok rfl rfl
  | boolean _ | null | list _ => exact .foreseen nofun

theorem foretold_comparable (op : Comparison) (position : Nat) (h : t.Describes v) :
    Foretold limits whole (t.isComparable = true) (fun _ s' => s' = s)
      (EvalM.ofExcept (op.argument position v) s) := by
  cases h with
  | integer n => exact foretold_integer (.comparison op) position n rfl
  | real _ | boolean _ => exact .ok rfl rfl
  | null | list _ => exact .foreseen nofun

theorem foretold_truth (b : Builtin) (position : Nat) (h : t.Describes v) :
    Foretold limits whole (Ty.bool.fits t = true) (fun _ s' => s' = s)
      (EvalM.ofExcept (booleanArgument b position v) s) := by
  cases h with
  | boolean c => exact .ok rfl rfl
  | integer _ | real _ | null | list _ => exact .foreseen nofun

theorem foretold_items (b : Builtin) (position : Nat) (h : t.Describes v) :
    Foretold limits whole (Ty.list.fits t = true) (fun _ s' => s' = s)
      (EvalM.ofExcept (listArgument b position v) s) := by
  cases h with
  | list items => exact .ok rfl rfl
  | integer _ | real _ | boolean _ | null => exact .foreseen nofun

/-! ### Builtins -/

theorem foretold_arithmetic (op : Arithmetic) (hv : t.Describes v) (hw : u.Describes w) :
    Foretold limits whole (Ty.number.fits t = true ∧ Ty.number.fits u = true)
      (fun r s' => s' = s ∧ Ty.number.Describes r) (EvalM.ofExcept (op.onValues v w) s) := by
  unfold Arithmetic.onValues
  rw [EvalM.ofExcept_bind]
  refine (foretold_number op 1 hv).bind ?_
  rintro x _ rfl
  rw [EvalM.ofExcept_bind]
  refine (foretold_number op 2 hw).bind_sure ?_
  rintro y s rfl
  -- What is left depends on the numbers alone.
  unfold Arithmetic.compute
  cases op.apply? x y with
  | none => exact .unforeseen .divisionByZero (.inl rfl)
  | some number =>
      cases number with
      | integer n => exact .ok trivial ⟨rfl, .integer n⟩
      | real z => exact .ok trivial ⟨rfl, .real z⟩

theorem foretold_comparison (op : Comparison) (hv : t.Describes v) (hw : u.Describes w) :
    Foretold limits whole (t.isComparable = true ∧ u.isComparable = true)
      (fun r s' => s' = s ∧ Ty.bool.Describes r) (EvalM.ofExcept (op.onValues v w) s) := by
  unfold Comparison.onValues
  rw [EvalM.ofExcept_bind]
  refine (foretold_comparable op 1 hv).bind ?_
  rintro x _ rfl
  rw [EvalM.ofExcept_bind]
  refine (foretold_comparable op 2 hw).bind_sure ?_
  rintro y s rfl
  exact .ok trivial ⟨rfl, .boolean _⟩

theorem foretold_connective (op : Connective) (hv : t.Describes v) (hw : u.Describes w) :
    Foretold limits whole (Ty.bool.fits t = true ∧ Ty.bool.fits u = true)
      (fun r s' => s' = s ∧ Ty.bool.Describes r) (EvalM.ofExcept (op.onValues v w) s) := by
  unfold Connective.onValues
  rw [EvalM.ofExcept_bind]
  refine (foretold_truth (.connective op) 1 hv).bind ?_
  rintro a _ rfl
  rw [EvalM.ofExcept_bind]
  refine (foretold_truth (.connective op) 2 hw).bind_sure ?_
  rintro b s rfl
  exact .ok trivial ⟨rfl, .boolean _⟩

theorem foretold_not (hv : t.Describes v) :
    Foretold limits whole (Ty.bool.fits t = true) (fun r s' => s' = s ∧ Ty.bool.Describes r)
      (EvalM.ofExcept (notOf v) s) := by
  unfold notOf
  rw [EvalM.ofExcept_bind]
  refine (foretold_truth .not 1 hv).bind_sure ?_
  rintro a s rfl
  exact .ok trivial ⟨rfl, .boolean _⟩

theorem foretold_tail (hv : t.Describes v) :
    Foretold limits whole (Ty.list.fits t = true) (fun r s' => s' = s ∧ Ty.list.Describes r)
      (EvalM.ofExcept (tailOf v) s) := by
  unfold tailOf
  rw [EvalM.ofExcept_bind]
  refine (foretold_items .tail 1 hv).bind_sure ?_
  rintro items s rfl
  exact .ok trivial ⟨rfl, .list _⟩

theorem foretold_cons (hw : u.Describes w) :
    Foretold limits whole (Ty.list.fits u = true) (fun r s' => s' = s ∧ Ty.list.Describes r)
      (EvalM.ofExcept (consOf v w) s) := by
  unfold consOf
  rw [EvalM.ofExcept_bind]
  refine (foretold_items .cons 2 hw).bind_sure ?_
  rintro items s rfl
  exact .ok trivial ⟨rfl, .list _⟩

end Arguments

/-! ### Calls -/

/-- Two arguments of a builtin whose arguments are checked one by one. -/
theorem problems_two (b : Builtin) {d d' : Ty} (hb : b.argumentTypes = some [d, d'])
    (hone : ∀ op, b ≠ .comparison op) (t u : Ty) :
    builtinProblems b [t, u] = [] ↔ d.fits t = true ∧ d'.fits u = true := by
  cases b with
  | arithmetic _ | connective _ | cons =>
      cases hb
      simp [builtinProblems, typeProblems, argumentProblems, Builtin.arity, Builtin.argumentTypes]
  | comparison op => exact absurd rfl (hone op)
  | head | tail | not | predicate _ | eval => cases hb

/-- One argument of a builtin that declares its type. -/
theorem problems_one (b : Builtin) {d : Ty} (hb : b.argumentTypes = some [d]) (t : Ty) :
    builtinProblems b [t] = [] ↔ d.fits t = true := by
  cases b with
  | head | tail | not =>
      cases hb
      simp [builtinProblems, typeProblems, argumentProblems, Builtin.arity, Builtin.argumentTypes]
  | comparison op => cases op <;> cases hb
  | arithmetic _ | connective _ | cons | predicate _ | eval => cases hb

/-- Two arguments of a comparison. -/
theorem problems_comparison (op : Comparison) (t u : Ty) :
    builtinProblems (.comparison op) [t, u] = [] ↔
      t.isComparable = true ∧ u.isComparable = true := by
  cases op <;> simp [builtinProblems, typeProblems, orderingProblems, Builtin.arity]

/-- A builtin on values of known types gives what its signature says. -/
theorem foretold_apply {b : Builtin} (heval : b ≠ .eval) (hhead : b ≠ .head) {types : List Ty}
    {vs : List Value} (h : List.Forall₂ Ty.Describes types vs) :
    Foretold limits whole (builtinProblems b types = [])
      (fun v s' => s' = s ∧ b.resultType.Describes v) (EvalM.ofExcept (b.apply vs) s) := by
  by_cases hlen : types.length = b.arity
  · cases b with
    | arithmetic op =>
        rcases forall₂_length_two h hlen with ⟨t, u, v, w, rfl, rfl, hv, hw⟩
        exact (foretold_arithmetic op hv hw).congr
          (problems_two (.arithmetic op) rfl nofun t u).symm
    | comparison op =>
        rcases forall₂_length_two h hlen with ⟨t, u, v, w, rfl, rfl, hv, hw⟩
        exact (foretold_comparison op hv hw).congr (problems_comparison op t u).symm
    | connective op =>
        rcases forall₂_length_two h hlen with ⟨t, u, v, w, rfl, rfl, hv, hw⟩
        exact (foretold_connective op hv hw).congr
          (problems_two (.connective op) rfl nofun t u).symm
    | cons =>
        rcases forall₂_length_two h hlen with ⟨t, u, v, w, rfl, rfl, hv, hw⟩
        -- Anything may be put in front of a list.
        have hany : Ty.any.fits t = true := rfl
        exact (foretold_cons hw).congr
          ((and_iff_right hany).symm.trans (problems_two .cons rfl nofun t u).symm)
    | not =>
        rcases forall₂_length_one h hlen with ⟨t, v, rfl, rfl, hv⟩
        exact (foretold_not hv).congr (problems_one .not rfl t).symm
    | tail =>
        rcases forall₂_length_one h hlen with ⟨t, v, rfl, rfl, hv⟩
        exact (foretold_tail hv).congr (problems_one .tail rfl t).symm
    | predicate p =>
        rcases forall₂_length_one h hlen with ⟨t, v, rfl, rfl, hv⟩
        exact .ok rfl ⟨rfl, .boolean _⟩
    | head => exact absurd rfl hhead
    | eval => exact absurd rfl heval
  · -- A wrong number of arguments is noted, and it is an error.
    rw [Builtin.apply_of_length_ne (h.length_eq ▸ hlen)]
    refine .foreseen fun hnone => ?_
    unfold builtinProblems at hnone
    rw [if_neg hlen, List.singleton_append] at hnone
    cases hnone

/-- Where a builtin gives a value its signature reveals no problem, and the value
    has the declared type. -/
theorem signature_of_apply {b : Builtin} (heval : b ≠ .eval) (hhead : b ≠ .head) {types : List Ty}
    {vs : List Value} (h : List.Forall₂ Ty.Describes types vs) {v : Value}
    (hv : b.apply vs = .ok v) : builtinProblems b types = [] ∧ b.resultType.Describes v := by
  have hcall : Foretold ⟨0, 0, {}⟩ (.null none) (builtinProblems b types = [])
      (fun v s' => s' = {} ∧ b.resultType.Describes v) (EvalM.ofExcept (b.apply vs) {}) :=
    foretold_apply heval hhead h
  rw [hv] at hcall
  cases hcall with
  | ok hclean hresult => exact ⟨hclean, hresult.2⟩

end ListLang
