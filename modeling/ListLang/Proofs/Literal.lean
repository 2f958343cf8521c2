import ListLang.Optimize.Fold
import ListLang.Proofs.Shape
import ListLang.Proofs.Writable

/-!
# Literals and Folded Calls

A literal evaluates to the value it is written as, and a call that can be
folded is one of a builtin on literals whose result is known. The folder and
the evaluator take their arguments apart in different ways, one from
expressions and one from values. Here the two are shown to agree: the literal
that the folder puts in place of a call is the value that the builtin gives.
The arithmetic itself is never looked at, only that both sides use it alike.

## Main definitions

* `FoldedCall`: A call on literals with the literal that stands for it.
* `Anticipates`: What is computed in advance has a result where a call has one.

## Theorems

* `argument_of_numberLiteral?`, `argument_of_comparableLiteral?`,
  `argument_of_booleanLiteral?`: The argument in a literal is the argument in
  its value.
* `foldedCall_of_foldCall?`: The folded literal is what the builtin gives.
* `anticipates_foldCall?`: What is not folded the builtin refuses.
-/

namespace ListLang

theorem Expr.isLiteral_onLine (e : Expr) (line : Option Int) :
    (e.onLine line).isLiteral = e.isLiteral := by
  cases e <;> rfl

theorem Expr.quoted_onLine (e : Expr) (line : Option Int) :
    (e.onLine line).quoted = e.quoted := by
  cases e <;> rfl

theorem Expr.isWritable_onLine (e : Expr) (line : Option Int) :
    (e.onLine line).isWritable = e.isWritable := by
  cases e <;> rfl

theorem Number.isWritable_toExpr (n : Number) : n.toExpr.isWritable = n.isWritable := by
  cases n <;> rfl

theorem Number.isLiteral_toExpr (n : Number) : n.toExpr.isLiteral = true := by
  cases n <;> rfl

theorem Number.quoted_toExpr (n : Number) : n.toExpr.quoted = n.toValue := by
  cases n <;> rfl

/-- A number literal is the argument that arithmetic makes of its value. -/
theorem argument_of_numberLiteral? {e : Expr} {x : Float} (h : numberLiteral? e = some x)
    (op : Arithmetic) (position : Nat) :
    e.isLiteral = true ∧ op.argument position e.quoted = .ok x := by
  cases e with
  | integer line n =>
      refine ⟨rfl, ?_⟩
      simp only [numberLiteral?] at h
      simp only [Expr.quoted, Arithmetic.argument, integerArgument, h]
  | real line y =>
      simp only [numberLiteral?, Option.some.injEq] at h
      exact ⟨rfl, by rw [← h]; rfl⟩
  | atom _ _ | boolean _ _ | null _ | list _ _ =>
      exact absurd h (by simp only [numberLiteral?, reduceCtorEq, not_false_eq_true])

/-- A comparable literal is the argument that a comparison makes of its value. -/
theorem argument_of_comparableLiteral? {e : Expr} {x : Float} (h : comparableLiteral? e = some x)
    (op : Comparison) (position : Nat) :
    e.isLiteral = true ∧ op.argument position e.quoted = .ok x := by
  cases e with
  | boolean line b =>
      simp only [comparableLiteral?, Option.some.injEq] at h
      exact ⟨rfl, by rw [← h]; rfl⟩
  | integer line n =>
      refine ⟨rfl, ?_⟩
      simp only [comparableLiteral?, numberLiteral?] at h
      simp only [Expr.quoted, Comparison.argument, integerArgument, h]
  | real line y =>
      simp only [comparableLiteral?, numberLiteral?, Option.some.injEq] at h
      exact ⟨rfl, by rw [← h]; rfl⟩
  | atom _ _ | null _ | list _ _ =>
      exact absurd h (by simp only [comparableLiteral?, numberLiteral?, reduceCtorEq,
        not_false_eq_true])

/-- A literal truth value is the argument that a builtin makes of its value. -/
theorem argument_of_booleanLiteral? {e : Expr} {a : Bool} (h : booleanLiteral? e = some a)
    (b : Builtin) (position : Nat) :
    e.isLiteral = true ∧ booleanArgument b position e.quoted = .ok a := by
  cases e with
  | boolean line b =>
      simp only [booleanLiteral?, Option.some.injEq] at h
      exact ⟨rfl, by rw [← h]; rfl⟩
  | atom _ _ | integer _ _ | real _ _ | null _ | list _ _ =>
      exact absurd h (by simp only [booleanLiteral?, reduceCtorEq, not_false_eq_true])

/-- A literal that can be compared has a text: an integer in it is near some real. -/
theorem isWritable_of_comparableLiteral? {e : Expr} {x : Float}
    (h : comparableLiteral? e = some x) : e.isWritable = true := by
  cases e with
  | integer line n => exact isWritable_of_realOfInt? h
  | boolean _ _ | real _ _ | atom _ _ | null _ => rfl
  | list _ _ => cases h

theorem comparableLiteral?_of_numberLiteral? {e : Expr} {x : Float}
    (h : numberLiteral? e = some x) : comparableLiteral? e = some x := by
  cases e with
  | boolean _ _ => cases h
  | integer _ _ | real _ _ | atom _ _ | null _ | list _ _ => exact h

theorem comparableLiteral?_of_booleanLiteral? {e : Expr} {a : Bool}
    (h : booleanLiteral? e = some a) : comparableLiteral? e = some (realOfBool a) := by
  cases e with
  | boolean _ _ =>
      cases h
      rfl
  | integer _ _ | real _ _ | atom _ _ | null _ | list _ _ => cases h

/-- What a folded call tells about the builtin, its arguments and the literal in
    its place. All of them have a text. -/
structure FoldedCall (b : Builtin) (args : List Expr) (literal : Expr) : Prop where
  isLiteral : literal.isLiteral = true
  isWritable : literal.isWritable = true
  args_ne_nil : args ≠ []
  args_isLiteral : ∀ e ∈ args, e.isLiteral = true
  args_isWritable : ∀ e ∈ args, e.isWritable = true
  ne_eval : b ≠ .eval
  apply_eq : b.apply (args.map Expr.quoted) = .ok literal.quoted

/-- Folding a call of two arguments, given that each is a literal and what the
    builtin makes of their values. -/
theorem FoldedCall.of_two {b : Builtin} {e f literal : Expr} {x y : Float}
    (he : e.isLiteral = true) (hf : f.isLiteral = true) (hex : comparableLiteral? e = some x)
    (hfy : comparableLiteral? f = some y) (hliteral : literal.isLiteral = true)
    (hwritable : literal.isWritable = true) (hb : b ≠ .eval)
    (happly : b.apply [e.quoted, f.quoted] = .ok literal.quoted) :
    FoldedCall b [e, f] literal := by
  have hboth : ∀ {P : Expr → Prop}, P e → P f → ∀ g ∈ [e, f], P g := by
    intro P hPe hPf g hg
    rcases List.mem_cons.mp hg with rfl | hg
    · exact hPe
    · rw [List.mem_singleton.mp hg]
      exact hPf
  exact ⟨hliteral, hwritable, List.cons_ne_nil _ _, hboth he hf,
    hboth (isWritable_of_comparableLiteral? hex) (isWritable_of_comparableLiteral? hfy), hb, happly⟩

theorem FoldedCall.onLine {b : Builtin} {args : List Expr} {literal : Expr}
    (h : FoldedCall b args literal) (line : Option Int) :
    FoldedCall b args (literal.onLine line) := by
  refine ⟨?_, ?_, h.args_ne_nil, h.args_isLiteral, h.args_isWritable, h.ne_eval, ?_⟩
  · rw [Expr.isLiteral_onLine]
    exact h.isLiteral
  · rw [Expr.isWritable_onLine]
    exact h.isWritable
  · rw [Expr.quoted_onLine]
    exact h.apply_eq

/-- The literal that folding puts in place of a call is the value of the call. -/
theorem foldedCall_of_foldCall? {b : Builtin} {args : List Expr} {literal : Expr}
    (h : foldCall? b args = some literal) : FoldedCall b args literal := by
  -- One case for each kind of builtin that is folded: arithmetic, comparisons,
  -- connectives and negation.
  unfold foldCall? at h
  split at h
  · rename_i op e f
    simp only [bind, pure, Option.bind_eq_some_iff, Option.some.injEq] at h
    rcases h with ⟨x, hx, y, hy, n, hn, rfl⟩
    rcases argument_of_numberLiteral? hx op 1 with ⟨he, hex⟩
    rcases argument_of_numberLiteral? hy op 2 with ⟨hf, hfy⟩
    refine .of_two he hf (comparableLiteral?_of_numberLiteral? hx)
      (comparableLiteral?_of_numberLiteral? hy) n.isLiteral_toExpr ?_ Builtin.noConfusion ?_
    · rw [n.isWritable_toExpr]
      exact Arithmetic.isWritable_result hn
    · simp only [Builtin.apply, Arithmetic.onValues, hex, hfy, Arithmetic.compute, hn, bind,
        Except.bind, pure, Except.pure, n.quoted_toExpr]
  · rename_i op e f
    simp only [bind, pure, Option.bind_eq_some_iff, Option.some.injEq] at h
    rcases h with ⟨x, hx, y, hy, rfl⟩
    rcases argument_of_comparableLiteral? hx op 1 with ⟨he, hex⟩
    rcases argument_of_comparableLiteral? hy op 2 with ⟨hf, hfy⟩
    refine .of_two he hf hx hy rfl rfl Builtin.noConfusion ?_
    simp only [Builtin.apply, Comparison.onValues, hex, hfy, bind, Except.bind, Expr.quoted]
  · rename_i op e f
    simp only [bind, pure, Option.bind_eq_some_iff, Option.some.injEq] at h
    rcases h with ⟨x, hx, y, hy, rfl⟩
    rcases argument_of_booleanLiteral? hx (.connective op) 1 with ⟨he, hex⟩
    rcases argument_of_booleanLiteral? hy (.connective op) 2 with ⟨hf, hfy⟩
    refine .of_two he hf (comparableLiteral?_of_booleanLiteral? hx)
      (comparableLiteral?_of_booleanLiteral? hy) rfl rfl Builtin.noConfusion ?_
    simp only [Builtin.apply, Connective.onValues, hex, hfy, bind, Except.bind, Expr.quoted]
  · rename_i e
    simp only [bind, pure, Option.bind_eq_some_iff, Option.some.injEq] at h
    rcases h with ⟨x, hx, rfl⟩
    rcases argument_of_booleanLiteral? hx .not 1 with ⟨he, hex⟩
    refine ⟨rfl, rfl, List.cons_ne_nil _ _, ?_, ?_, Builtin.noConfusion, ?_⟩
    · intro g hg
      rw [List.mem_singleton.mp hg]
      exact he
    · intro g hg
      rw [List.mem_singleton.mp hg]
      exact isWritable_of_comparableLiteral? (comparableLiteral?_of_booleanLiteral? hx)
    · simp only [List.map_cons, List.map_nil, Builtin.apply, notOf, hex, bind, Except.bind,
        Expr.quoted]
  · exact absurd h (by simp only [reduceCtorEq, not_false_eq_true])

/-! ### Calls that Are Not Folded -/

/-- What is computed in advance and what is computed by a call: both have a result,
    and the results match, or neither has. -/
inductive Anticipates {α β : Type} (R : α → β → Prop) :
    Option α → Except EvalCause β → Prop where
  | result {a : α} {b : β} (h : R a b) : Anticipates R (some a) (.ok b)
  | refusal (cause : EvalCause) : Anticipates R none (.error cause)

theorem Anticipates.bind {α β γ δ : Type} {R : α → β → Prop} {S : γ → δ → Prop} {o : Option α}
    {r : Except EvalCause β} {f : α → Option γ} {g : β → Except EvalCause δ}
    (h : Anticipates R o r) (hnext : ∀ a b, R a b → Anticipates S (f a) (g b)) :
    Anticipates S (o >>= f) (r >>= g) := by
  cases h with
  | result hab => exact hnext _ _ hab
  | refusal cause => exact .refusal cause

theorem anticipates_numberLiteral? (e : Expr) (op : Arithmetic) (position : Nat) :
    Anticipates Eq (numberLiteral? e) (op.argument position e.quoted) := by
  cases e with
  | integer line n =>
      simp only [numberLiteral?, Expr.quoted, Arithmetic.argument, integerArgument]
      cases realOfInt? n with
      | some x => exact .result rfl
      | none => exact .refusal _
  | real line x => exact .result rfl
  | atom _ _ | boolean _ _ | null _ | list _ _ => exact .refusal _

theorem anticipates_comparableLiteral? (e : Expr) (op : Comparison) (position : Nat) :
    Anticipates Eq (comparableLiteral? e) (op.argument position e.quoted) := by
  cases e with
  | integer line n =>
      simp only [comparableLiteral?, numberLiteral?, Expr.quoted, Comparison.argument,
        integerArgument]
      cases realOfInt? n with
      | some x => exact .result rfl
      | none => exact .refusal _
  | real line x => exact .result rfl
  | boolean line b => exact .result rfl
  | atom _ _ | null _ | list _ _ => exact .refusal _

theorem anticipates_booleanLiteral? (e : Expr) (b : Builtin) (position : Nat) :
    Anticipates Eq (booleanLiteral? e) (booleanArgument b position e.quoted) := by
  cases e with
  | boolean line c => exact .result rfl
  | atom _ _ | integer _ _ | real _ _ | null _ | list _ _ => exact .refusal _

theorem anticipates_compute {op : Arithmetic} {x y : Float} {n? : Option Number}
    (h : op.apply? x y = n?) : Anticipates Eq n? (op.compute x y) := by
  rw [Arithmetic.compute, h]
  cases n? with
  | some n => exact .result rfl
  | none => exact .refusal _

/-- Folding computes a call exactly if the builtin accepts the arguments. What it
    refuses fails: there are too few arguments or too many, one is of the wrong kind
    or too large, or the divisor is zero. -/
theorem anticipates_foldCall? {b : Builtin} (hb : b.isFoldable = true) (args : List Expr) :
    Anticipates (fun literal v => literal.quoted = v) (foldCall? b args)
      (b.apply (args.map Expr.quoted)) := by
  cases b with
  | arithmetic op =>
      match args with
      | [] | [_] | _ :: _ :: _ :: _ => exact .refusal _
      | [e, f] =>
          refine (anticipates_numberLiteral? e op 1).bind ?_
          rintro x _ rfl
          refine (anticipates_numberLiteral? f op 2).bind ?_
          rintro y _ rfl
          refine (anticipates_compute rfl).bind ?_
          rintro n _ rfl
          exact .result n.quoted_toExpr
  | comparison op =>
      match args with
      | [] | [_] | _ :: _ :: _ :: _ => exact .refusal _
      | [e, f] =>
          refine (anticipates_comparableLiteral? e op 1).bind ?_
          rintro x _ rfl
          refine (anticipates_comparableLiteral? f op 2).bind ?_
          rintro y _ rfl
          exact .result rfl
  | connective op =>
      match args with
      | [] | [_] | _ :: _ :: _ :: _ => exact .refusal _
      | [e, f] =>
          refine (anticipates_booleanLiteral? e (.connective op) 1).bind ?_
          rintro x _ rfl
          refine (anticipates_booleanLiteral? f (.connective op) 2).bind ?_
          rintro y _ rfl
          exact .result rfl
  | not =>
      match args with
      | [] | _ :: _ :: _ => exact .refusal _
      | [e] =>
          refine (anticipates_booleanLiteral? e .not 1).bind ?_
          rintro x _ rfl
          exact .result rfl
  | head | tail | cons | predicate _ | eval => cases hb

end ListLang
