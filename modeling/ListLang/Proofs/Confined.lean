import ListLang.Proofs.Compositional
import ListLang.Proofs.Moment
import ListLang.Proofs.Tables

/-!
# Evaluation Is Confined to Its Frame

Evaluating an expression in a frame binds names in that frame and in frames
made on the way, and nowhere else. The frame keeps its place among the others
and the names it had, in their order. This is so however evaluation ends, and
whether or not it is stopped before.

## Main definitions

* `Evolves`: What may happen to a store while an expression is evaluated.
* `Confined`: Computations that do no more than that.

## Theorems

* `Evolves.trans`, `Evolves.define`, `Evolves.push`: Steps of a store.
* `compositionalAt_confined`: What is made of confined parts is confined.
* `confined_evaluateUntil`: Evaluation is confined.
* `callClosure_keeps`: A call changes no frame that is there before it.
-/

namespace ListLang

/-- What may happen to a store while an expression is evaluated in a frame. -/
structure Evolves (env : Nat) (s t : Store) : Prop where
  size : s.frames.size ≤ t.frames.size
  others : ∀ k, k < s.frames.size → k ≠ env → t.frames[k]? = s.frames[k]?
  own : ∀ f, s.frames[env]? = some f → ∃ g, t.frames[env]? = some g ∧
    g.label = f.label ∧ g.parent = f.parent ∧ f.bindings.names <+: g.bindings.names
  fresh : ∀ k f, s.frames.size ≤ k → t.frames[k]? = some f → f.parent ≠ none

/-- A computation that changes no frame but the given one and new ones. -/
def Confined {α : Type} (env : Nat) (x : EvalM α) : Prop :=
  ∀ s, Evolves env s (x.storeAfter s)

/-! ### Stores -/

namespace Evolves

variable {env : Nat} {s t u : Store}

theorem refl (env : Nat) (s : Store) : Evolves env s s := by
  refine ⟨Nat.le_refl _, fun _ _ _ => rfl, fun f hf => ⟨f, hf, rfl, rfl, List.prefix_rfl⟩, ?_⟩
  intro k f hk hf
  rw [Array.getElem?_eq_none hk] at hf
  cases hf

theorem trans (h : Evolves env s t) (h' : Evolves env t u) : Evolves env s u := by
  refine ⟨Nat.le_trans h.size h'.size, ?_, ?_, ?_⟩
  · intro k hk hne
    rw [h'.others k (Nat.lt_of_lt_of_le hk h.size) hne, h.others k hk hne]
  · intro f hf
    rcases h.own f hf with ⟨g, hg, hlabel, hparent, hnames⟩
    rcases h'.own g hg with ⟨g', hg', hlabel', hparent', hnames'⟩
    exact ⟨g', hg', hlabel'.trans hlabel, hparent'.trans hparent, hnames.trans hnames'⟩
  · intro k f hk hf
    by_cases hlt : k < t.frames.size
    · -- The frame was new in the first step, and the second left its parent alone.
      have hg := Array.getElem?_eq_getElem hlt
      have hparent := h.fresh k _ hk hg
      by_cases hne : k = env
      · subst hne
        rcases h'.own _ hg with ⟨g', hg', _, hkept, _⟩
        rw [hg'] at hf
        cases hf
        rw [hkept]
        exact hparent
      · rw [h'.others k hlt hne, hg] at hf
        cases hf
        exact hparent
    · exact h'.fresh k f (Nat.le_of_not_lt hlt) hf

theorem define (env : Nat) (s : Store) (name : String) (v : Value) :
    Evolves env s (s.define env name v) := by
  refine ⟨Nat.le_of_eq (s.size_define env name v).symm, ?_, ?_, ?_⟩
  · intro k _ hne
    rw [s.getElem?_define, if_neg hne.symm]
  · intro f hf
    refine ⟨{ f with bindings := f.bindings.insert name v }, ?_, rfl, rfl,
      f.bindings.names_prefix_insert name v⟩
    rw [s.getElem?_define, if_pos rfl, hf, Option.map_some]
  · intro k f hk hf
    rw [← s.size_define env name v] at hk
    rw [Array.getElem?_eq_none hk] at hf
    cases hf

/-- Whatever happens to a new frame leaves the others as they are. -/
theorem push {f : Frame} (hf : f.parent ≠ none) (h : Evolves (s.push f).1 (s.push f).2 t)
    (env : Nat) : Evolves env s t := by
  have hsize : s.frames.size < (s.push f).2.frames.size := by
    simp only [Store.push, Array.size_push, Nat.lt_succ_self]
  have hkeep : ∀ k, k < s.frames.size → t.frames[k]? = s.frames[k]? := by
    intro k hk
    rw [h.others k (Nat.lt_trans hk hsize) (Nat.ne_of_lt hk), s.getElem?_push_of_lt f k hk]
  refine ⟨Nat.le_trans (Nat.le_of_lt hsize) h.size, fun k hk _ => hkeep k hk, ?_, ?_⟩
  · intro g hg
    rcases Array.getElem?_eq_some_iff.mp hg with ⟨henv, _⟩
    exact ⟨g, by rw [hkeep env henv, hg], rfl, rfl, List.prefix_rfl⟩
  · -- The frame that is new in `t` is the one just made or was made after it.
    intro k g hk hg
    by_cases hnew : k = s.frames.size
    · subst hnew
      rcases h.own f (s.getElem?_push_self f) with ⟨g', hg', _, hparent, _⟩
      cases hg.symm.trans hg'
      rw [hparent]
      exact hf
    · refine h.fresh k g ?_ hg
      simp only [Store.push, Array.size_push]
      omega

end Evolves

/-! ### Computations -/

theorem EvalM.storeAfter_tryCatch {α : Type} {f : Exit → EvalM α} (h : Passive f) (x : EvalM α)
    (s : Store) : (tryCatch x f).storeAfter s = x.storeAfter s := by
  cases hx : x s with
  | ok a t => rw [storeAfter, storeAfter, tryCatch_of_ok hx, hx]
  | error z t =>
      have hstore := h.store z t
      rw [storeAfter] at hstore
      rw [storeAfter, storeAfter, tryCatch_of_error hx, hx, hstore]

namespace Confined

variable {env : Nat} {α β : Type}

theorem bind {x : EvalM α} {f : α → EvalM β} (hx : Confined env x) (hf : ∀ a, Confined env (f a)) :
    Confined env (x >>= f) := by
  intro s
  have hfirst := hx s
  rw [EvalM.storeAfter_bind]
  unfold EvalM.storeAfter at hfirst
  cases hxs : x s with
  | ok a t => rw [hxs] at hfirst; exact hfirst.trans (hf a t)
  | error z t => rw [hxs] at hfirst; exact hfirst

theorem tryCatch {x : EvalM α} (hx : Confined env x) {f : Exit → EvalM α} (hf : Passive f) :
    Confined env (tryCatch x f) := by
  intro s
  rw [EvalM.storeAfter_tryCatch hf]
  exact hx s

/-- What is confined to a new frame is confined to any frame there is. -/
theorem newFrame {x : Nat → EvalM α} (hx : ∀ frame, Confined frame (x frame)) (env : Nat)
    (label : String) (parent : Nat) (bindings : Table Value) :
    Confined env (EvalM.newFrame label parent bindings >>= x) :=
  fun _ => Evolves.push (Option.some_ne_none parent) (hx _ _) env

end Confined

/-- What is made of confined parts is confined. -/
theorem compositionalAt_confined (env : Nat) :
    CompositionalAt (fun env _ x _ => Confined env x) env where
  value _ s := .refl _ s
  exit _ s := .refl _ s
  seq hx hf := hx.bind hf
  handle hf hx := hx.tryCatch hf
  look s := .refl _ s
  define name v s := .define env s name v
  scope label parent bindings hx := .newFrame hx env label parent bindings

theorem confined_step {sub : Evaluator} (hsub : ∀ e env, Confined env (sub e env)) (fuel : Nat)
    (e : Expr) (env : Nat) : Confined env (step fuel sub e env) :=
  @CompositionalAt.step _ env sub sub (compositionalAt_confined env) hsub fuel e

/-- A call changes no frame that is there before it. -/
theorem callClosure_keeps {sub : Evaluator} (hsub : ∀ e env, Confined env (sub e env))
    (f : Closure) (vs : List Value) (s : Store) {k : Nat} (hk : k < s.frames.size) :
    ((callClosure sub f vs).storeAfter s).frames[k]? = s.frames[k]? := by
  -- A call is confined to any frame, so also to one that is not there.
  have hconfined : Confined s.frames.size (callClosure sub f vs) :=
    @CompositionalAt.callClosure _ _ sub sub (compositionalAt_confined _) hsub f vs
  exact (hconfined s).others k hk (Nat.ne_of_lt hk)

/-- Evaluation is confined to its frame, stopped or not. -/
theorem confined_evaluateUntil (stop : Moment → Bool) (limits : Limits) (budget : Nat)
    (active : List Nat) (e : Expr) (env : Nat) :
    Confined env (evaluateUntil stop limits budget active e env) := by
  induction budget generalizing active e env with
  | zero =>
      intro s
      rcases gaveUp_evaluateUntil_zero stop limits active e env s with ⟨x, hrun, _⟩
      rw [EvalM.storeAfter, hrun]
      exact .refl _ s
  | succ budget ih =>
      intro s
      cases hstop : stop ⟨env :: active, e, s.frames.size, s⟩ with
      | true => simp only [EvalM.storeAfter, evaluateUntil_of_stop hstop, Evolves.refl]
      | false =>
          have hstep := confined_step (ih (env :: active)) limits.fuel e env s
          rw [← EvalM.storeAfter_stopAfter
            (fun s t => stop ⟨env :: active, e, s.frames.size, t⟩)] at hstep
          unfold EvalM.storeAfter at hstep ⊢
          rw [evaluateUntil_succ hstop]
          exact hstep

end ListLang
