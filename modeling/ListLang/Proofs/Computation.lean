import ListLang.Eval.Exit

/-!
# Computations

A computation changes a store and gives a value or leaves early. Here is what
is said about single computations: the store that they leave, whether they
gave up, and how they do if they are stopped before or after.

## Main definitions

* `Exit.gaveUp`: Whether evaluation gave up.
* `EvalM.storeAfter`: The store that a computation leaves.
* `EvalM.stopBefore`, `EvalM.stopAfter`: Computations that may be stopped.

## Theorems

* `bind_of_ok`, `bind_of_error`, `storeAfter_bind`: One computation after another.
* `tryCatch_of_ok`, `tryCatch_of_error`, `tryCatch_congr`: A computation with a
  handler.
* `stopAfter_cases`, `storeAfter_stopAfter`, `stopAfter_of_not_stop`: Stopping
  after a computation.
-/

namespace ListLang

/-- Whether evaluation gave up, at the limit of depth or of rounds. -/
def Exit.gaveUp : Exit → Bool
  | .fault e => e.cause.isTooDeep
  | .stalled => true
  | _ => false

namespace EvalM

variable {α β : Type}

/-- The store that a computation leaves, however it ends. -/
def storeAfter (x : EvalM α) (s : Store) : Store :=
  match x s with
  | .ok _ t => t
  | .error _ t => t

/-- Do as `x` does, unless the store calls for a stop. -/
def stopBefore (stop : Store → Bool) (x : EvalM α) : EvalM α :=
  fun s => if stop s then .error .stalled s else x s

/-- Do as `x` does, and stop then if the stores before and after call for it. -/
def stopAfter (stop : Store → Store → Bool) (x : EvalM α) : EvalM α :=
  fun s => if stop s (x.storeAfter s) then .error .stalled (x.storeAfter s) else x s

theorem bind_of_ok {x : EvalM α} {f : α → EvalM β} {a : α} {s t : Store} (h : x s = .ok a t) :
    (x >>= f) s = f a t := by
  change EStateM.bind x f s = f a t
  rw [EStateM.bind, h]

/-- Whatever follows on an exit is not reached. -/
theorem bind_of_error {x : EvalM α} {f : α → EvalM β} {z : Exit} {s t : Store}
    (h : x s = .error z t) : (x >>= f) s = .error z t := by
  change EStateM.bind x f s = .error z t
  simp only [EStateM.bind, h]

theorem storeAfter_bind (x : EvalM α) (f : α → EvalM β) (s : Store) :
    (x >>= f).storeAfter s = match x s with
      | .ok a t => (f a).storeAfter t
      | .error _ t => t := by
  cases hx : x s with
  | ok a t => simp only [storeAfter, bind_of_ok hx]
  | error z t => simp only [storeAfter, bind_of_error hx]

theorem tryCatch_of_ok {x : EvalM α} {f : Exit → EvalM α} {a : α} {s t : Store}
    (h : x s = .ok a t) : tryCatch x f s = .ok a t := by
  change EStateM.tryCatch x f s = .ok a t
  delta EStateM.tryCatch
  rw [h]

/-- A handler goes on from the store that the exit left. -/
theorem tryCatch_of_error {x : EvalM α} {f : Exit → EvalM α} {z : Exit} {s t : Store}
    (h : x s = .error z t) : tryCatch x f s = f z t := by
  change EStateM.tryCatch x f s = f z t
  delta EStateM.tryCatch
  rw [h]
  rfl

theorem tryCatch_congr {x y : EvalM α} {f : Exit → EvalM α} {s : Store} (h : x s = y s) :
    tryCatch x f s = tryCatch y f s := by
  cases hy : y s with
  | ok a t => rw [tryCatch_of_ok hy, tryCatch_of_ok (h.trans hy)]
  | error z t => rw [tryCatch_of_error hy, tryCatch_of_error (h.trans hy)]

section Stopping

variable (stop : Store → Store → Bool) (x : EvalM α) (s : Store)

theorem stopAfter_cases : x.stopAfter stop s = x s ∨
    x.stopAfter stop s = .error .stalled (x.storeAfter s) := by
  unfold stopAfter
  cases stop s (x.storeAfter s) with
  | true => exact .inr rfl
  | false => exact .inl rfl

/-- A stop changes no store. -/
theorem storeAfter_stopAfter : (x.stopAfter stop).storeAfter s = x.storeAfter s := by
  rcases stopAfter_cases stop x s with heq | heq
  · simp only [storeAfter, heq]
  · rw [storeAfter, heq]

variable {stop s} in
theorem stopAfter_of_not_stop (h : stop s (x.storeAfter s) = false) :
    x.stopAfter stop s = x s := by
  simp only [stopAfter, h, Bool.false_eq_true, ↓reduceIte]

end Stopping

end EvalM

end ListLang
