import ListLang.Proofs.Computation
import ListLang.Proofs.Simulation.Correspondence

/-!
# Corresponding Outcomes

What it means that a computation of the second program does what one of the
first does, and how this is put together from parts. The first program is the
one that is known to run, so nothing is claimed where it gives up, by going too
deep or by going round a loop too often. Everywhere else both computations end
in the same way: with corresponding values or with corresponding exits, and in
corresponding stores.

Errors that suggest similar names look at all names in sight, so where names
are hidden the suggestions may differ. Nothing else of an error may.

## Main definitions

* `EvalCause.unadvised`: A cause without its suggestions.
* `Causes`, `Exits`, `Outcomes`: Corresponding causes, exits and outcomes.
* `Simulates`: A computation does what another does, from corresponding stores.
* `Results`: Corresponding results of what needs no store.
* `Lawful`, `EvalsData`: What the comparison of two programs relies on.

## Theorems

* `Simulates.pure`, `Simulates.bind`, `Simulates.exit`, `Results.bind`: Sequences.
* `Simulates.catchReturn`, `Simulates.catchBreak`, `Simulates.catchCall`: What
  stops a `return` or a `break`.
* `Simulates.lookup`, `Simulates.bindName`, `Simulates.newFrame`: Names and
  frames.
-/

namespace ListLang

/-- The cause without the names it suggests. -/
def EvalCause.unadvised : EvalCause → EvalCause
  | .undefinedAtom name _ => .undefinedAtom name []
  | .undefinedFunction name _ => .undefinedFunction name []
  | cause => cause

theorem EvalCause.isWorded_unadvised (x : EvalCause) : x.unadvised.isWorded = x.isWorded := by
  cases x <;> rfl

theorem EvalCause.unadvised_of_not_worded (x : EvalCause) (h : x.isWorded = false) :
    x.unadvised = x := by
  cases x with
  | undefinedAtom _ _ | undefinedFunction _ _ => cases h
  | _ => rfl

namespace Correspondence

variable (c : Correspondence)

/-- Causes that differ at most in what they suggest, and not even in that where
    nothing is hidden. -/
def Causes (x y : EvalCause) : Prop :=
  x.unadvised = y.unadvised ∧ (c.hidden = [] → x = y)

/-- Exits with corresponding causes, lines and values. -/
inductive Exits : Exit → Exit → Prop where
  | fault {x y : EvalCause} {l l' : Option Int} (hcause : c.Causes x y) (hline : c.lines l l') :
      Exits (.fault ⟨x, l⟩) (.fault ⟨y, l'⟩)
  | returned {v w : Value} (h : c.Values v w) : Exits (.returned v) (.returned w)
  | broke : Exits .broke .broke

/-- Outcomes of the same kind, in corresponding stores, unless the first gave
    up. -/
inductive Outcomes {α β : Type} (Q : α → β → Prop) :
    EStateM.Result Exit Store α → EStateM.Result Exit Store β → Prop where
  | ok {a : α} {b : β} {s t : Store} (h : Q a b) (hst : c.Stores s t) :
      Outcomes Q (.ok a s) (.ok b t)
  | exit {x y : Exit} {s t : Store} (h : c.Exits x y) (hst : c.Stores s t) :
      Outcomes Q (.error x s) (.error y t)
  | gaveUp {x : Exit} {s : Store} {r : EStateM.Result Exit Store β} (h : x.gaveUp = true) :
      Outcomes Q (.error x s) r

/-- From corresponding stores, `y` does what `x` does. -/
def Simulates {α β : Type} (Q : α → β → Prop) (x : EvalM α) (y : EvalM β) : Prop :=
  ∀ s t, c.Stores s t → c.Outcomes Q (x s) (y t)

variable {c} {α β γ δ : Type} {Q : α → β → Prop} {R : γ → δ → Prop}

theorem Causes.refl (x : EvalCause) : c.Causes x x :=
  ⟨rfl, fun _ => rfl⟩

/-- Corresponding causes have words or have none. -/
theorem Causes.isWorded_eq {x y : EvalCause} (h : c.Causes x y) : x.isWorded = y.isWorded := by
  rw [← x.isWorded_unadvised, ← y.isWorded_unadvised, h.1]

/-- A cause without words suggests nothing, so it corresponds only to itself. -/
theorem Causes.eq_of_not_worded {x y : EvalCause} (h : c.Causes x y) (hx : x.isWorded = false) :
    x = y := by
  have hy : y.isWorded = false := by rw [← h.isWorded_eq, hx]
  rw [← x.unadvised_of_not_worded hx, ← y.unadvised_of_not_worded hy, h.1]

theorem Simulates.pure {a : α} {b : β} (h : Q a b) :
    c.Simulates Q (pure a : EvalM α) (pure b : EvalM β) :=
  fun _ _ hst => .ok h hst

theorem Simulates.exit {x y : Exit} (h : c.Exits x y) :
    c.Simulates Q (throw x : EvalM α) (throw y : EvalM β) :=
  fun _ _ hst => .exit h hst

theorem Simulates.gaveUp {x : Exit} (h : x.gaveUp = true) (y : EvalM β) :
    c.Simulates Q (throw x : EvalM α) y :=
  fun _ _ _ => .gaveUp h

/-- What follows on corresponding values may be compared from the stores that
    are left then. -/
theorem Outcomes.bind {x : EvalM α} {y : EvalM β} {f : α → EvalM γ} {g : β → EvalM δ}
    {s t : Store} (h : c.Outcomes Q (x s) (y t))
    (hfg : ∀ a b s' t', Q a b → c.Stores s' t' → c.Outcomes R (f a s') (g b t')) :
    c.Outcomes R ((x >>= f) s) ((y >>= g) t) := by
  generalize hx : x s = p at h
  generalize hy : y t = r at h
  cases h with
  | ok hab hst =>
      rw [EvalM.bind_of_ok hx, EvalM.bind_of_ok hy]
      exact hfg _ _ _ _ hab hst
  | exit hexit hst =>
      rw [EvalM.bind_of_error hx, EvalM.bind_of_error hy]
      exact .exit hexit hst
  | gaveUp hup =>
      -- The first gave up, and the second does not matter.
      rw [EvalM.bind_of_error hx]
      exact .gaveUp hup

/-- What follows on one side only, after corresponding values. -/
theorem Outcomes.bind_left {x : EvalM α} {f : α → EvalM γ} {b : β} {r : EStateM.Result Exit Store δ}
    {s t : Store} (h : c.Outcomes Q (x s) (.ok b t))
    (hf : ∀ a s', Q a b → c.Stores s' t → c.Outcomes R (f a s') r) :
    c.Outcomes R ((x >>= f) s) r := by
  generalize hx : x s = p at h
  cases h with
  | ok hab hst =>
      rw [EvalM.bind_of_ok hx]
      exact hf _ _ hab hst
  | gaveUp hup =>
      rw [EvalM.bind_of_error hx]
      exact .gaveUp hup

theorem Simulates.bind {x : EvalM α} {y : EvalM β} {f : α → EvalM γ} {g : β → EvalM δ}
    (h : c.Simulates Q x y) (hfg : ∀ a b, Q a b → c.Simulates R (f a) (g b)) :
    c.Simulates R (x >>= f) (y >>= g) :=
  fun s t hst => (h s t hst).bind fun a b s' t' hab hst' => hfg a b hab s' t' hst'

theorem Simulates.map {x : EvalM α} {y : EvalM β} {f : α → γ} {g : β → δ}
    (h : c.Simulates Q x y) (hfg : ∀ a b, Q a b → R (f a) (g b)) :
    c.Simulates R (f <$> x) (g <$> y) := by
  rw [map_eq_pure_bind, map_eq_pure_bind]
  exact h.bind fun a b hab => .pure (hfg a b hab)

/-- Handlers that do the same on corresponding exits. A handler on the first side
    does not stop evaluation from giving up. -/
theorem Simulates.tryCatch {x : EvalM α} {y : EvalM β} {f : Exit → EvalM α} {g : Exit → EvalM β}
    (h : c.Simulates Q x y) (hfg : ∀ ex ey, c.Exits ex ey → c.Simulates Q (f ex) (g ey))
    (hup : ∀ ex, ex.gaveUp = true → f ex = throw ex) :
    c.Simulates Q (tryCatch x f) (tryCatch y g) := by
  intro s t hst
  have hout := h s t hst
  generalize hx : x s = p at hout
  generalize hy : y t = r at hout
  cases hout with
  | ok hab hst' =>
      rw [EvalM.tryCatch_of_ok hx, EvalM.tryCatch_of_ok hy]
      exact .ok hab hst'
  | exit hexit hst' =>
      rw [EvalM.tryCatch_of_error hx, EvalM.tryCatch_of_error hy]
      exact hfg _ _ hexit _ _ hst'
  | gaveUp hgave =>
      rw [EvalM.tryCatch_of_error hx, hup _ hgave]
      exact .gaveUp hgave

theorem Simulates.catchReturn {x y : EvalM Value} (h : c.Simulates c.Values x y) :
    c.Simulates c.Values (EvalM.catchReturn x) (EvalM.catchReturn y) := by
  refine h.tryCatch (fun ex ey hexit => ?_) (fun ex hgave => ?_)
  · cases hexit with
    | fault hcause hline => exact .exit (.fault hcause hline)
    | returned hv => exact .pure hv
    | broke => exact .exit .broke
  · cases ex with
    | returned v => exact absurd hgave Bool.false_ne_true
    | fault e => rfl
    | broke => rfl
    | stalled => rfl

theorem Simulates.catchBreak {x y : EvalM Value} (h : c.Simulates c.Values x y) :
    c.Simulates (Option.Rel c.Values) (EvalM.catchBreak x) (EvalM.catchBreak y) := by
  have hsome : c.Simulates (Option.Rel c.Values) (some <$> x) (some <$> y) :=
    h.map fun _ _ hv => .some hv
  refine hsome.tryCatch (fun ex ey hexit => ?_) (fun ex hgave => ?_)
  · cases hexit with
    | fault hcause hline => exact .exit (.fault hcause hline)
    | returned hv => exact .exit (.returned hv)
    | broke => exact .pure .none
  · cases ex with
    | broke => exact absurd hgave Bool.false_ne_true
    | fault e => rfl
    | returned v => rfl
    | stalled => rfl

/-- What the comparison of two programs relies on: an error without a line
    stands for one without a line. -/
structure Lawful (c : Correspondence) : Prop where
  lines_none : c.lines none none

/-- Data that `eval` takes for code stands for itself. -/
def EvalsData (c : Correspondence) : Prop :=
  ∀ v e, c.Values v v → v.toExpr none = .ok e → c.code e e

theorem Simulates.fault (hc : c.Lawful) {x y : EvalCause} (h : c.Causes x y) :
    c.Simulates Q (EvalM.fault x : EvalM α) (EvalM.fault y : EvalM β) :=
  .exit (.fault h hc.lines_none)

theorem Simulates.catchCall (hc : c.Lawful) {f g : Closure} (hfg : c.Closures f g)
    {x y : EvalM Value} (h : c.Simulates c.Values x y) :
    c.Simulates c.Values (EvalM.catchCall f x) (EvalM.catchCall g y) := by
  refine h.tryCatch (fun ex ey hexit => ?_) (fun ex hgave => ?_)
  · cases hexit with
    | fault hcause hline => exact .exit (.fault hcause hline)
    | returned hv => exact .pure hv
    | broke =>
        rw [hfg.text_eq]
        exact .fault hc (.refl _)
  · cases ex with
    | returned v => exact absurd hgave Bool.false_ne_true
    | broke => exact absurd hgave Bool.false_ne_true
    | fault e => rfl
    | stalled => rfl

/-- Results that are both the same failure or both corresponding values. -/
inductive Results (Q : α → β → Prop) : Except EvalCause α → Except EvalCause β → Prop where
  | ok {a : α} {b : β} (h : Q a b) : Results Q (.ok a) (.ok b)
  | error (x : EvalCause) : Results Q (.error x) (.error x)

theorem Results.bind {r : Except EvalCause α} {r' : Except EvalCause β}
    {f : α → Except EvalCause γ} {g : β → Except EvalCause δ} (h : Results Q r r')
    (hfg : ∀ a b, Q a b → Results R (f a) (g b)) : Results R (r >>= f) (r' >>= g) := by
  cases h with
  | ok h => exact hfg _ _ h
  | error x => exact .error x

/-- The same computation comes first on both sides. -/
theorem Results.bind_same (r : Except EvalCause α) {f : α → Except EvalCause γ}
    {g : α → Except EvalCause δ} (hfg : ∀ a, Results R (f a) (g a)) :
    Results R (r >>= f) (r >>= g) := by
  cases r with
  | ok a => exact hfg a
  | error x => exact .error x

theorem Simulates.ofExcept (hc : c.Lawful) {r : Except EvalCause α} {r' : Except EvalCause β}
    (h : Results Q r r') : c.Simulates Q (EvalM.ofExcept r) (EvalM.ofExcept r') := by
  cases h with
  | ok h => exact .pure h
  | error x => exact .fault hc (.refl x)

theorem Simulates.lookup (hc : c.Lawful) {name : String} (hname : name ∉ c.hidden) (env : Nat) :
    c.Simulates c.Values (EvalM.lookup name env) (EvalM.lookup name env) := by
  intro s t hst
  change c.Outcomes c.Values (EvalM.ofExcept (s.lookup env name) s)
    (EvalM.ofExcept (t.lookup env name) t)
  unfold Store.lookup
  rcases optionRel_cases (hst.find? env hname) with ⟨hs, ht⟩ | ⟨v, w, hs, ht, hvw⟩
  · rw [hs, ht]
    -- The suggestions are made from the names in sight, which may differ if some are hidden.
    have hcause : c.Causes (.undefinedAtom name (suggestions name (s.available env)))
        (.undefinedAtom name (suggestions name (t.available env))) :=
      ⟨rfl, fun hnone => by rw [hst.available_eq env hnone]⟩
    exact Simulates.fault hc hcause s t hst
  · rw [hs, ht]
    exact .ok hvw hst

theorem Simulates.bindName {name : String} (hname : ¬ c.pinned name) (env : Nat) {v w : Value}
    (hv : c.Values v w) :
    c.Simulates (fun _ _ => True) (EvalM.bindName name v env) (EvalM.bindName name w env) :=
  fun _ _ hst => .ok trivial (hst.define env hname hv)

theorem Simulates.newFrame (label : String) (parent : Nat) {t u : Table Value}
    (h : c.Bindings t u) (hpin : ∀ b ∈ t.entries, ¬ c.pinned b.1) :
    c.Simulates Eq (EvalM.newFrame label parent t) (EvalM.newFrame label parent u) := by
  intro s s' hst
  have hframes : c.Frames { label := label, parent := some parent, bindings := t }
      { label := label, parent := some parent, bindings := u } := ⟨rfl, rfl, h, hpin⟩
  exact .ok (hst.push hframes).1 (hst.push hframes).2

end Correspondence

end ListLang
