import ListLang.Proofs.Shape

/-!
# Builtins Are Never Called Amiss

A primitive that trusts its caller can go wrong in ways that no program should
see: an argument that is not there, a division by zero, the first item of an
empty list, an integer beyond the reals, a name without an implementation.
These are hazards, in contrast to the errors that evaluation is meant to give.

Here the builtins are written once more with such primitives, in a table by
name. Each puts guards around what it uses, and a call checks nothing but the
number of arguments before it looks the name up. The calls do what `Builtin.apply`
does, so the guards are enough and no hazard is ever met.

## Main definitions

* `Hazard`, `Trouble`: What can go wrong, and errors as well.
* `Native`: Implementations on a list of arguments.
* `bareArgument`, `bareReal`, `Arithmetic.bare`, `bareFirst`: Primitives that
  trust their caller.
* `Builtin.native`, `implementations`: The builtins with guarded primitives.
* `Builtin.dispatch`: A call by way of the table.

## Theorems

* `lookup_implementations`: Every builtin but `eval` is in the table.
* `dispatch_eq_apply`: A call by way of the table does what the builtin does.
* `guarded_ne_hazard`: It meets no hazard.
* `exists_noArgument`: No builtin could do with fewer arguments.
-/

namespace ListLang

/-- What can go wrong in a primitive that trusts its caller. -/
inductive Hazard where
  /-- There is no implementation under the name of a builtin. -/
  | noImplementation (name : String)
  /-- There is no argument at a place, counted from zero. -/
  | noArgument (place : Nat)
  /-- A division by zero. -/
  | zeroDivision
  /-- The first item of an empty list. -/
  | firstOfEmpty
  /-- An integer that is no finite real. -/
  | integerBeyondReals (n : Int)

/-- An error of evaluation or a hazard. -/
inductive Trouble where
  /-- An error that evaluation is meant to give. -/
  | cause (cause : EvalCause)
  /-- A hazard. -/
  | hazard (h : Hazard)

/-- An implementation of a builtin. -/
abbrev Native := List Value → Except Trouble Value

/-! ### Primitives -/

/-- The argument at a place. -/
def bareArgument (args : List Value) (place : Nat) : Except Trouble Value :=
  match args[place]? with
  | some v => .ok v
  | none => .error (.hazard (.noArgument place))

/-- An integer as a real. -/
def bareReal (n : Int) : Except Hazard Float :=
  match realOfInt? n with
  | some x => .ok x
  | none => .error (.integerBeyondReals n)

/-- Arithmetic on two reals. -/
def Arithmetic.bare (op : Arithmetic) (x y : Float) : Except Trouble Float :=
  if op = .divide ∧ y == 0 then .error (.hazard .zeroDivision) else .ok (op.onReals x y)

/-- The first item of a list. -/
def bareFirst (items : List Value) : Except Trouble Value :=
  (Value.first items).mapError fun _ => .hazard .firstOfEmpty

/-! ### Guarded Primitives -/

/-- An error of evaluation, where hazards may be met as well. -/
def guarded {α : Type} (r : Except EvalCause α) : Except Trouble α :=
  r.mapError .cause

/-- An integer as a real, with an error where the conversion goes wrong. -/
def guardedReal (b : Builtin) (position : Nat) (n : Int) : Except Trouble Float :=
  match bareReal n with
  | .ok x => .ok x
  | .error _ => .error (.cause (.integerTooLarge b position (bitLength n)))

/-- A number among the arguments of arithmetic. -/
def Arithmetic.guardedArgument (op : Arithmetic) (position : Nat) : Value → Except Trouble Float
  | .integer n => guardedReal (.arithmetic op) position n
  | .real x => .ok x
  | v => .error (.cause (.about (.arithmetic op) v.shown (.notNumber op position)))

/-- A number or truth value among the arguments of a comparison. -/
def Comparison.guardedArgument (op : Comparison) (position : Nat) : Value → Except Trouble Float
  | .boolean b => .ok (realOfBool b)
  | .integer n => guardedReal (.comparison op) position n
  | .real x => .ok x
  | v => .error (.cause (.about (.comparison op) v.shown (.notComparable op position)))

/-- Arithmetic on two reals, with an error in place of a division by zero. -/
def Arithmetic.guardedCompute (op : Arithmetic) (x y : Float) : Except Trouble Number :=
  if op = .divide ∧ y == 0 then .error (.cause (.divisionByZero y))
  else return .ofReal (← op.bare x y)

/-- The first item of a list, with an error for an empty one. -/
def guardedFirst (items : List Value) : Except Trouble Value :=
  if items.isEmpty then .error (.cause .headOfEmpty) else bareFirst items

/-! ### Implementations -/

/-- Arithmetic on its arguments. -/
def Arithmetic.native (op : Arithmetic) : Native := fun args => do
  let x ← op.guardedArgument 1 (← bareArgument args 0)
  let y ← op.guardedArgument 2 (← bareArgument args 1)
  return (← op.guardedCompute x y).toValue

/-- A comparison of its arguments. -/
def Comparison.native (op : Comparison) : Native := fun args => do
  let x ← op.guardedArgument 1 (← bareArgument args 0)
  let y ← op.guardedArgument 2 (← bareArgument args 1)
  return .boolean (op.apply x y)

/-- A connective of its arguments. -/
def Connective.native (op : Connective) : Native := fun args => do
  let a ← guarded (booleanArgument (.connective op) 1 (← bareArgument args 0))
  let b ← guarded (booleanArgument (.connective op) 2 (← bareArgument args 1))
  return .boolean (op.apply a b)

/-- The question for the kind of its argument. -/
def Predicate.native (p : Predicate) : Native := fun args => do
  let v ← bareArgument args 0
  return .boolean (decide (v.kind = p.kind))

/-- A builtin on its arguments, whose number it does not check. Only `eval` has no
    implementation of its own. -/
def Builtin.native : Builtin → Native
  | .arithmetic op => op.native
  | .comparison op => op.native
  | .connective op => op.native
  | .predicate p => p.native
  | .not => fun args => do
      return .boolean !(← guarded (booleanArgument .not 1 (← bareArgument args 0)))
  | .head => fun args => do
      guardedFirst (← guarded (listArgument .head 1 (← bareArgument args 0)))
  | .tail => fun args => do
      return .list (← guarded (listArgument .tail 1 (← bareArgument args 0))).tail
  | .cons => fun args => do
      -- The list is looked at before the item.
      let items ← guarded (listArgument .cons 2 (← bareArgument args 1))
      return .list ((← bareArgument args 0) :: items)
  | .eval => fun _ => .error (.hazard (.noImplementation Builtin.eval.name))

/-- The implementations by name, one family after another. -/
def implementations : List (String × Native) :=
  [Arithmetic.plus, .minus, .times, .divide].map (fun op => (op.name, op.native)) ++
  [Comparison.less, .lesseq, .greater, .greatereq, .equal, .nonequal].map
    (fun op => (op.name, op.native)) ++
  [Connective.and, .or, .xor].map (fun op => (op.name, op.native)) ++
  [Builtin.not, .head, .tail, .cons].map (fun b => (b.name, b.native)) ++
  [Predicate.isint, .isreal, .isbool, .isnull, .isatom, .islist].map
    (fun p => (p.name, p.native))

/-- A call of a builtin: once the number of arguments is right, they go to what
    stands in the table under its name. -/
def Builtin.dispatch (b : Builtin) (args : List Value) : Except Trouble Value :=
  if args.length ≠ b.arity then .error (.cause (.builtinArity b (args.map Value.text?)))
  else match implementations.lookup b.name with
    | some native => native args
    | none => .error (.hazard (.noImplementation b.name))

/-- Every builtin but `eval` is in the table under its name. -/
theorem lookup_implementations {b : Builtin} (h : b ≠ .eval) :
    implementations.lookup b.name = some b.native := by
  cases b with
  | arithmetic op => cases op <;> rfl
  | comparison op => cases op <;> rfl
  | connective op => cases op <;> rfl
  | predicate p => cases p <;> rfl
  | not | head | tail | cons => rfl
  | eval => exact absurd rfl h

/-! ### Guards Are Enough -/

theorem guarded_bind {α β : Type} (r : Except EvalCause α) (f : α → Except EvalCause β) :
    guarded (r >>= f) = guarded r >>= fun a => guarded (f a) := by
  cases r <;> rfl

theorem guardedReal_eq (b : Builtin) (position : Nat) (n : Int) :
    guardedReal b position n = guarded (integerArgument b position n) := by
  unfold guardedReal bareReal integerArgument
  cases realOfInt? n <;> rfl

theorem Arithmetic.guardedArgument_eq (op : Arithmetic) (position : Nat) (v : Value) :
    op.guardedArgument position v = guarded (op.argument position v) := by
  cases v with
  | integer n => simp only [guardedArgument, argument, guardedReal_eq]
  | real _ | atom _ | boolean _ | null | list _ | function _ => rfl

theorem Comparison.guardedArgument_eq (op : Comparison) (position : Nat) (v : Value) :
    op.guardedArgument position v = guarded (op.argument position v) := by
  cases v with
  | integer n => simp only [guardedArgument, argument, guardedReal_eq]
  | real _ | atom _ | boolean _ | null | list _ | function _ => rfl

/-- The divisor is tested before the division, so it is not zero there. -/
theorem Arithmetic.guardedCompute_eq (op : Arithmetic) (x y : Float) :
    op.guardedCompute x y = guarded (op.compute x y) := by
  have happly : op.apply? x y =
      if op = .divide ∧ y == 0 then none else some (.ofReal (op.onReals x y)) := rfl
  unfold guardedCompute bare compute
  rw [happly]
  by_cases h : op = .divide ∧ (y == 0) = true
  · simp only [h, and_self, ↓reduceIte]
    rfl
  · simp only [h, ↓reduceIte]
    rfl

theorem guardedFirst_eq (v : Value) :
    (guarded (listArgument .head 1 v) >>= guardedFirst) = guarded (headOf v) := by
  unfold headOf
  rw [guarded_bind]
  cases listArgument .head 1 v with
  | error cause => rfl
  | ok items => cases items <;> rfl

/-- With the right number of arguments, an implementation does what the builtin
    does. -/
theorem Builtin.native_eq {b : Builtin} (h : b ≠ .eval) {args : List Value}
    (hlen : args.length = b.arity) : b.native args = guarded (b.apply args) := by
  cases b with
  | arithmetic op =>
      match args, hlen with
      | [v, w], _ =>
          simp only [native, Arithmetic.native, apply, Arithmetic.onValues, guarded_bind,
            Arithmetic.guardedArgument_eq, Arithmetic.guardedCompute_eq]
          rfl
  | comparison op =>
      match args, hlen with
      | [v, w], _ =>
          simp only [native, Comparison.native, apply, Comparison.onValues, guarded_bind,
            Comparison.guardedArgument_eq]
          rfl
  | connective op =>
      match args, hlen with
      | [v, w], _ =>
          simp only [native, Connective.native, apply, Connective.onValues, guarded_bind]
          rfl
  | cons =>
      match args, hlen with
      | [v, w], _ =>
          simp only [native, apply, consOf, guarded_bind]
          rfl
  | not =>
      match args, hlen with
      | [v], _ =>
          simp only [native, apply, notOf, guarded_bind]
          rfl
  | head =>
      match args, hlen with
      | [v], _ => exact guardedFirst_eq v
  | tail =>
      match args, hlen with
      | [v], _ =>
          simp only [native, apply, tailOf, guarded_bind]
          rfl
  | predicate p =>
      match args, hlen with
      | [v], _ => rfl
  | eval => exact absurd rfl h

/-- A call by way of the table does what the builtin does, with any arguments. -/
theorem Builtin.dispatch_eq_apply {b : Builtin} (h : b ≠ .eval) (args : List Value) :
    b.dispatch args = guarded (b.apply args) := by
  unfold dispatch
  by_cases hlen : args.length = b.arity
  · rw [if_neg (not_not_intro hlen), lookup_implementations h]
    exact native_eq h hlen
  · rw [if_pos hlen, apply_of_length_ne hlen]
    rfl

/-- What is guarded meets no hazard. -/
theorem guarded_ne_hazard {α : Type} (r : Except EvalCause α) (h : Hazard) :
    guarded r ≠ .error (.hazard h) := by
  cases r <;> exact nofun

/-- No builtin could do with fewer arguments: there are some with which its
    implementation misses one. -/
theorem Builtin.exists_noArgument {b : Builtin} (h : b ≠ .eval) {n : Nat} (hn : n < b.arity) :
    ∃ args place, args.length = n ∧ place < b.arity ∧
      b.native args = .error (.hazard (.noArgument place)) := by
  -- A second argument is missed only if the first is of a kind that will do.
  cases b with
  | arithmetic op =>
      match n, hn with
      | 0, hn => exact ⟨[], 0, rfl, hn, rfl⟩
      | 1, hn => exact ⟨[.real 0], 1, rfl, hn, rfl⟩
  | comparison op =>
      match n, hn with
      | 0, hn => exact ⟨[], 0, rfl, hn, rfl⟩
      | 1, hn => exact ⟨[.real 0], 1, rfl, hn, rfl⟩
  | connective op =>
      match n, hn with
      | 0, hn => exact ⟨[], 0, rfl, hn, rfl⟩
      | 1, hn => exact ⟨[.boolean true], 1, rfl, hn, rfl⟩
  | cons =>
      match n, hn with
      | 0, _ => exact ⟨[], 1, rfl, Nat.one_lt_two, rfl⟩
      | 1, hn => exact ⟨[.null], 1, rfl, hn, rfl⟩
  | not | head | tail | predicate _ =>
      match n, hn with
      | 0, hn => exact ⟨[], 0, rfl, hn, rfl⟩
  | eval => exact absurd rfl h

end ListLang
