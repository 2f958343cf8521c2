import ListLang.Proofs.Discipline.Step
import ListLang.Proofs.Stopped

/-!
# Who Writes a Frame

Frames are shared between functions and the expressions under evaluation, but
each has one writer at a time. Evaluating an expression in a frame writes that
frame and frames that it makes itself. A frame made for a call or a block is
written while something is evaluated in it, and never after.

In the other direction, stores stay in order: every frame lies inside an earlier
one, and functions remember frames that are there.

## Main definitions

* `Store.WellFormed`: Stores in order.
* `WritesOnly`: What evaluation in a frame does to a store.
* `anyCode`: The discipline that asks nothing of the code.
* `alike`: Computations that do the same in stores that are large enough.

## Theorems

* `WritesOnly.of_evolves`: Confined computations on stores in order.
* `interpretUntil_inactive`: A frame that is not active stays as it is.
* `interpretUntil_made`: So does a frame once what made it has been evaluated.
* `evaluation_writes_own_frame`: Evaluation writes only its own frame.
-/

namespace ListLang

/-- Every frame lies inside an earlier one, and every function that is bound
    remembers a frame that is there. -/
structure Store.WellFormed (s : Store) : Prop where
  parents : ∀ (k : Nat) (f : Frame) (p : Nat),
    s.frames[k]? = some f → f.parent = some p → p < k
  functions : ∀ (k : Nat) (f : Frame), s.frames[k]? = some f → ∀ b ∈ f.bindings.entries,
    b.2.All (fun _ => True) fun g => g.frame < s.frames.size

/-- What evaluation in the frame `env` does to a store. -/
structure WritesOnly (env : Nat) (s t : Store) : Prop where
  /-- Every other frame has exactly the bindings it had. -/
  others : ∀ k, k < s.frames.size → k ≠ env → t.frames[k]? = s.frames[k]?
  /-- Every frame lies where it lay. -/
  parents : ∀ (k : Nat) (f : Frame), s.frames[k]? = some f →
    ∃ g, t.frames[k]? = some g ∧ g.parent = f.parent
  /-- The frame keeps its names, and new ones come after them. -/
  names : (s.bindings env).names <+: (t.bindings env).names
  /-- Every new frame lies inside an earlier one. -/
  fresh : ∀ (k : Nat) (f : Frame), s.frames.size ≤ k → t.frames[k]? = some f →
    ∃ p, f.parent = some p ∧ p < k
  /-- The store stays in order. -/
  wellFormed : t.WellFormed

/-! ### Stores in Order -/

/-- The discipline that asks nothing of the code. -/
def anyCode : Discipline where
  code _ _ := True
  pinned _ := False
  datum _ := True
  checked := False
  stalls := True

theorem valid_anyCode {s : Store} : anyCode.Valid s ↔ s.WellFormed := by
  constructor
  · intro h
    exact ⟨h.parents, fun k f hf b hb => (h.values k f hf b hb).imp fun _ hg => hg.frame⟩
  · intro h
    exact ⟨h.parents, fun _ _ _ _ _ => id, fun k f hf b hb =>
      (h.functions k f hf b hb).imp fun _ hg => ⟨hg, trivial, fun _ _ => id⟩⟩

/-- Any code is permitted, since nothing has been checked. -/
theorem permits_anyCode (around : Surroundings) (e : Expr) : anyCode.Permits around e :=
  Discipline.permits_of_items (fun _ => id) id (fun _ _ _ _ _ _ => trivial)
    (fun _ _ _ f _ => ⟨Discipline.admits_quoted (fun _ => trivial) f 0, fun _ => trivial⟩)
    fun _ => trivial

theorem wellFormed_evaluate {s : Store} (hs : s.WellFormed) (limits : Limits) (depth : Int)
    (e : Expr) {env : Nat} (henv : env < s.frames.size) :
    ((evaluate limits depth e env).storeAfter s).WellFormed := by
  have hkeeps := Discipline.disciplined_evaluateUntil (d := anyCode)
    (fun around e _ => permits_anyCode around e) never limits (limits.depth - depth + 1).toNat []
  rw [evaluateUntil_never] at hkeeps
  have hends := hkeeps {} e env _ trivial henv s (valid_anyCode.mpr hs) (Nat.le_refl _)
  unfold evaluate EvalM.storeAfter
  generalize evaluateWithin limits _ e env s = r at hends
  cases hends with
  | ok _ ht _ => exact valid_anyCode.mp ht
  | exit _ ht _ => exact valid_anyCode.mp ht

/-! ### Writing -/

theorem WritesOnly.of_evolves {env : Nat} {s t : Store} (h : Evolves env s t)
    (ht : t.WellFormed) : WritesOnly env s t where
  others := h.others
  parents k f hf := by
    by_cases hne : k = env
    · subst hne
      rcases h.own f hf with ⟨g, hg, _, hparent, _⟩
      exact ⟨g, hg, hparent⟩
    · rcases Array.getElem?_eq_some_iff.mp hf with ⟨hk, _⟩
      exact ⟨f, by rw [h.others k hk hne, hf], rfl⟩
  names := by
    unfold Store.bindings
    cases hf : s.frames[env]? with
    | none => exact List.nil_prefix
    | some f =>
        rcases h.own f hf with ⟨g, hg, _, _, hnames⟩
        rw [hg]
        exact hnames
  fresh k f hk hf := by
    -- A new frame has a parent, and in a store in order that is an earlier one.
    cases hp : f.parent with
    | none => exact absurd hp (h.fresh k f hk hf)
    | some p => exact ⟨p, rfl, ht.parents k f p hf hp⟩
  wellFormed := ht

/-! ### Active Frames -/

/-- Two computations in a frame that do the same in every store with the frame
    and at least `n` frames. -/
def alike (n : Nat) : Nat → (α : Type) → EvalM α → EvalM α → Prop :=
  fun env _ x y => Confined env y ∧
    ∀ s, n ≤ s.frames.size → env < s.frames.size → x s = y s

theorem compositionalAt_alike (n env : Nat) : CompositionalAt (alike n) env where
  value _ := ⟨fun s => .refl _ s, fun _ _ _ => rfl⟩
  exit _ := ⟨fun s => .refl _ s, fun _ _ _ => rfl⟩
  seq {env α β x y f g} hx hf := by
    -- Stores only grow, so what comes next starts from one that is large enough.
    refine ⟨hx.1.bind fun a => (hf a).1, fun s hn henv => ?_⟩
    have heq := hx.2 s hn henv
    have hsize := (hx.1 s).size
    cases hy : y s with
    | error z t =>
        rw [hy] at heq
        rw [EvalM.bind_of_error heq, EvalM.bind_of_error hy]
    | ok a t =>
        rw [hy] at heq
        rw [EvalM.storeAfter, hy] at hsize
        rw [EvalM.bind_of_ok heq, EvalM.bind_of_ok hy]
        exact (hf a).2 t (Nat.le_trans hn hsize) (Nat.lt_of_lt_of_le henv hsize)
  handle {env α x y f} hf hx := by
    exact ⟨hx.1.tryCatch hf, fun s hn henv => EvalM.tryCatch_congr (hx.2 s hn henv)⟩
  look := ⟨(compositionalAt_confined env).look, fun _ _ _ => rfl⟩
  define name v := ⟨fun s => .define env s name v, fun _ _ _ => rfl⟩
  scope {α x y} label parent bindings hx := by
    refine ⟨.newFrame (fun frame => (hx frame).1) env label parent bindings, fun s hn _ => ?_⟩
    have hsize : (s.push ⟨label, some parent, bindings⟩).2.frames.size = s.frames.size + 1 := by
      simp only [Store.push, Array.size_push]
    exact (hx s.frames.size).2 (s.push ⟨label, some parent, bindings⟩).2 (by omega) (by omega)

section Alike

variable {p q : Moment → Bool} (h : ∀ m, (∀ j ∈ m.active, j < m.since) → p m = q m)
include h

/-- The frames that are active while an expression is evaluated have been there
    before, so what is said about other moments does not matter. -/
theorem alike_evaluateUntil (limits : Limits) (budget : Nat) {n : Nat} {active : List Nat}
    (hactive : ∀ j ∈ active, j < n) (e : Expr) (env : Nat) :
    alike n env Value (evaluateUntil p limits budget active e env)
      (evaluateUntil q limits budget active e env) := by
  have hmoment : ∀ {n : Nat} {active : List Nat} {env : Nat} {s : Store} (e : Expr) (t : Store),
      (∀ j ∈ active, j < n) → n ≤ s.frames.size → env < s.frames.size →
      p ⟨env :: active, e, s.frames.size, t⟩ = q ⟨env :: active, e, s.frames.size, t⟩ := by
    intro n active env s e t hactive hn henv
    refine h _ fun j hj => ?_
    rcases List.mem_cons.mp hj with rfl | hj
    · exact henv
    · exact Nat.lt_of_lt_of_le (hactive j hj) hn
  induction budget generalizing n active e env with
  | zero =>
      refine ⟨confined_evaluateUntil q limits 0 active e env, fun s hn henv => ?_⟩
      simp only [evaluateUntil, EvalM.stopBefore, EvalM.stopAfter, hmoment e _ hactive hn henv]
  | succ budget ih =>
      refine ⟨confined_evaluateUntil q limits (budget + 1) active e env, fun s hn henv => ?_⟩
      -- Further in, the frame of this expression is active as well.
      have hinner : ∀ j ∈ env :: active, j < max n (env + 1) := by
        intro j hj
        rcases List.mem_cons.mp hj with rfl | hj
        · omega
        · exact Nat.lt_of_lt_of_le (hactive j hj) (Nat.le_max_left n (env + 1))
      have hstep := ((compositionalAt_alike (max n (env + 1)) env).step (ih hinner)
        limits.fuel e).2 s (by omega) henv
      have hstore : (step limits.fuel (evaluateUntil p limits budget (env :: active)) e
          env).storeAfter s = (step limits.fuel (evaluateUntil q limits budget (env :: active)) e
          env).storeAfter s := by
        rw [EvalM.storeAfter, EvalM.storeAfter, hstep]
      simp only [evaluateUntil, EvalM.stopBefore, EvalM.stopAfter, hstore, hstep,
        hmoment e _ hactive hn henv]

theorem interpretUntil_congr (s : Session) (hglobals : s.globals < s.store.frames.size)
    (forms : List Form) : s.interpretUntil p forms = s.interpretUntil q forms := by
  have halike : ∀ e env, alike 0 env Value (evaluateUntil p s.limits s.budget [] e env)
      (evaluateUntil q s.limits s.budget [] e env) :=
    alike_evaluateUntil h s.limits s.budget fun j hj => absurd hj List.not_mem_nil
  refine congrArg (s.withRoom forms) ?_
  generalize evaluateUntil p s.limits s.budget [] = eval at halike ⊢
  generalize evaluateUntil q s.limits s.budget [] = eval' at halike ⊢
  induction forms generalizing s with
  | nil => rfl
  | cons form forms ih =>
      have hform := halike form.expr s.globals
      have hsize := (hform.1 s.store).size
      unfold Session.interpretWith
      rw [hform.2 s.store (Nat.zero_le _) hglobals]
      cases hresult : eval' form.expr s.globals s.store with
      | error z t => rfl
      | ok v t =>
          rw [EvalM.storeAfter, hresult] at hsize
          simp only [Session.conclude]
          rw [ih ⟨s.limits, s.globals, t⟩ (Nat.lt_of_lt_of_le hglobals hsize)]

end Alike

/-- A frame that is not active at the moments of a kind stays as it is from the
    first of them on. -/
theorem interpretUntil_inactive (s : Session) (forms : List Form) {p q : Moment → Bool}
    (hpq : ∀ m, p m = true → q m = true) {k : Nat} (hk : ∀ m, q m = true → k ∉ m.active)
    (hsize : k < (s.interpretUntil q forms).2.store.frames.size) :
    (s.interpretUntil p forms).2.store.frames[k]? =
      (s.interpretUntil q forms).2.store.frames[k]? := by
  -- Whatever happens in other frames leaves this one alone.
  have honward : Onward (fun t u => k < t.frames.size → k < u.frames.size ∧
      u.frames[k]? = t.frames[k]?) (fun env => env ≠ k) := by
    refine ⟨fun hst htu hlt => ?_, fun hne hevolves hlt => ?_⟩
    · have ht := hst hlt
      have hu := htu ht.1
      exact ⟨hu.1, hu.2.trans ht.2⟩
    · exact ⟨Nat.lt_of_lt_of_le hlt hevolves.size, hevolves.others k hlt hne.symm⟩
  have hfree : ∀ m, q m = true → ∀ env ∈ m.active, env ≠ k :=
    fun m hm env henv heq => hk m hm (heq ▸ henv)
  rcases interpretUntil_cut hpq hfree honward s forms with heq | ⟨t, hstop, hkt⟩
  · rw [heq]
  · rw [hstop] at hsize ⊢
    exact (hkt hsize).2

/-- A frame stays as it is from any moment on at which an expression has been
    evaluated that made it. -/
theorem interpretUntil_made (s : Session) (hglobals : s.globals < s.store.frames.size)
    (forms : List Form) {p q : Moment → Bool} (hpq : ∀ m, p m = true → q m = true) {k : Nat}
    (hk : ∀ m, q m = true → m.since ≤ k)
    (hsize : k < (s.interpretUntil q forms).2.store.frames.size) :
    (s.interpretUntil p forms).2.store.frames[k]? =
      (s.interpretUntil q forms).2.store.frames[k]? := by
  -- Only frames that were there before the expression are active.
  have hinactive : ∀ stop : Moment → Bool, (∀ m, stop m = true → m.since ≤ k) →
      ∀ m, (∀ j ∈ m.active, j < m.since) → stop m = (stop m && decide (k ∉ m.active)) := by
    intro stop hstop m hm
    cases hsm : stop m with
    | false => rfl
    | true =>
        have hnot : k ∉ m.active := fun hmem => absurd (hm k hmem) (Nat.not_lt.mpr (hstop m hsm))
        rw [decide_eq_true hnot]
        rfl
  rw [interpretUntil_congr (hinactive q hk) s hglobals] at hsize ⊢
  rw [interpretUntil_congr (hinactive p fun m hm => hk m (hpq m hm)) s hglobals]
  refine interpretUntil_inactive s forms (fun m hm => ?_) (fun m hm => ?_) hsize
  · rw [Bool.and_eq_true] at hm ⊢
    exact ⟨hpq m hm.1, hm.2⟩
  · rw [Bool.and_eq_true] at hm
    exact of_decide_eq_true hm.2

/-- Evaluation writes only its own frame, in a store that is in order and however
    it ends. Once an expression has been evaluated, be it a call or a block, the
    frames made on the way are never written again in the run. A call of a
    function writes no frame that is there before it, and so no global
    binding. -/
theorem evaluation_writes_own_frame :
    (∀ (limits : Limits) (depth : Int) (e : Expr) (env : Nat) (s : Store), s.WellFormed →
      env < s.frames.size → WritesOnly env s ((evaluate limits depth e env).storeAfter s)) ∧
    (∀ (s : Session) (forms : List Form) (p q : Moment → Bool) (k : Nat),
      s.globals < s.store.frames.size → (∀ m, p m = true → q m = true) →
      (∀ m, q m = true → m.since ≤ k) → k < (s.interpretUntil q forms).2.store.frames.size →
      (s.interpretUntil p forms).2.store.frames[k]? =
        (s.interpretUntil q forms).2.store.frames[k]?) ∧
    (∀ (limits : Limits) (budget : Nat) (f : Closure) (args : List Value) (s : Store) (k : Nat),
      k < s.frames.size →
      ((callClosure (evaluateWithin limits budget) f args).storeAfter s).frames[k]? =
        s.frames[k]?) := by
  have hconfined : ∀ limits budget e env, Confined env (evaluateWithin limits budget e env) := by
    intro limits budget e env
    have hun := confined_evaluateUntil never limits budget [] e env
    rw [evaluateUntil_never] at hun
    exact hun
  refine ⟨?_, ?_, ?_⟩
  · intro limits depth e env s hs henv
    exact .of_evolves (hconfined limits _ e env s) (wellFormed_evaluate hs limits depth e henv)
  · intro s forms p q k hglobals hpq hk hsize
    exact interpretUntil_made s hglobals forms hpq hk hsize
  · intro limits budget f args s k hk
    exact callClosure_keeps (hconfined limits budget) f args s hk

/-- A function that binds a name, a call of it and another assignment. -/
def localBinding : List Form :=
  [⟨.list none [.atom none "func", .atom none "f", .list none [.atom none "x"],
      .list none [.atom none "setq", .atom none "y", .atom none "x"]], 1⟩,
    ⟨.list none [.atom none "f", .integer none 1], 2⟩,
    ⟨.list none [.atom none "setq", .atom none "y", .integer none 2], 3⟩]

/-- The call has been evaluated, which made the frame at place one. -/
def callEnded (m : Moment) : Bool :=
  decide (m.since ≤ 1) && decide (1 < m.store.frames.size)

theorem evaluation_writes_own_frame_localBinding :
    (Session.new ⟨20, 20, {}⟩).store.WellFormed ∧
      WritesOnly 0 (Session.new ⟨20, 20, {}⟩).store
        ((evaluate ⟨20, 20, {}⟩ 0 (.list none [.atom none "setq", .atom none "y", .integer none 2])
          0).storeAfter (Session.new ⟨20, 20, {}⟩).store) ∧
      1 < ((Session.new ⟨20, 20, {}⟩).interpretUntil callEnded localBinding).2.store.frames.size ∧
      ((Session.new ⟨20, 20, {}⟩).interpretUntil never localBinding).2.store.frames[1]? =
        ((Session.new ⟨20, 20, {}⟩).interpretUntil callEnded localBinding).2.store.frames[1]? ∧
      ((callClosure (evaluateWithin ⟨20, 20, {}⟩ 20) ⟨["x"], .list none [.atom none "setq",
        .atom none "y", .atom none "x"], 0, none⟩ [.null]).storeAfter
          (Session.new ⟨20, 20, {}⟩).store).frames[0]? =
        (Session.new ⟨20, 20, {}⟩).store.frames[0]? := by
  have hs : (Session.new ⟨20, 20, {}⟩).store.WellFormed :=
    valid_anyCode.mp (Discipline.valid_new ⟨20, 20, {}⟩)
  have hended : ∀ m, callEnded m = true → m.since ≤ 1 := by
    intro m hm
    rw [callEnded, Bool.and_eq_true] at hm
    exact of_decide_eq_true hm.1
  have hsize : 1 <
      ((Session.new ⟨20, 20, {}⟩).interpretUntil callEnded localBinding).2.store.frames.size := by
    decide +kernel
  refine ⟨hs, evaluation_writes_own_frame.1 _ 0 _ 0 _ hs Nat.zero_lt_one, hsize, ?_, ?_⟩
  · exact evaluation_writes_own_frame.2.1 _ _ never callEnded 1 Nat.zero_lt_one
      (fun _ hm => absurd hm Bool.false_ne_true) hended hsize
  · exact evaluation_writes_own_frame.2.2 _ _ _ _ _ 0 Nat.zero_lt_one

end ListLang
