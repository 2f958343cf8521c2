/-!
# The Call Stack Underneath

Evaluation is recursive, and the calls that it makes are kept on a call stack
that may hold only so many. Before a form is evaluated, the stack is asked for
room for as many levels as evaluation may go deep. It may refuse: it counts its
calls in a machine integer, and it has to hold the calls that are open already.

What happens if the stack overflows in spite of that is not described here.

## Main definitions

* `CallStack`: A call stack, by what it may hold and what it holds.
* `StackError`: Why a call stack refuses a limit.
* `CallStack.refusal?`: Whether it does.

## Theorems

* `CallStack.refusal?_eq_none_iff`: The limits that are not refused.
-/

namespace ListLang

/-- The greatest machine integer. -/
def CallStack.greatestLimit : Int := 2147483647

/-- A call stack. -/
structure CallStack where
  /-- How many calls may be open at once. -/
  limit : Nat := 1000
  /-- How many calls are open. -/
  height : Nat := 0
  /-- The stack counts in machine integers. -/
  limit_le : limit ≤ CallStack.greatestLimit := by decide

/-- Why a call stack refuses a limit. -/
inductive StackError where
  /-- The limit is no machine integer. -/
  | overflow
  /-- The limit is not positive. -/
  | notPositive
  /-- As many calls as the limit allows are open already. -/
  | tooLow (limit : Int) (height : Nat)
deriving DecidableEq

namespace CallStack

/-- The least machine integer. -/
def leastInteger : Int := -2147483648

/-- Why a call stack refuses a limit, if it does. -/
def refusal? (stack : CallStack) (limit : Int) : Option StackError :=
  if limit < leastInteger ∨ greatestLimit < limit then some .overflow
  else if limit < 1 then some .notPositive
  else if limit ≤ stack.height then some (.tooLow limit stack.height)
  else none

/-- A limit is not refused if it is a machine integer and above what is open. -/
theorem refusal?_eq_none_iff (stack : CallStack) (limit : Int) :
    stack.refusal? limit = none ↔ (stack.height : Int) < limit ∧ limit ≤ greatestLimit := by
  unfold refusal? leastInteger
  split
  · simp only [reduceCtorEq, false_iff]
    omega
  · split
    · simp only [reduceCtorEq, false_iff]
      omega
    · split
      · simp only [reduceCtorEq, false_iff]
        omega
      · simp only [true_iff]
        omega

end CallStack

end ListLang
