import ListLang.Check.Monad
import ListLang.Proofs.Computation
import ListLang.Proofs.Tables

/-!
# Disciplines

A discipline says which code is evaluated, in which surroundings, and what is
known of everything that this leads to: names that are never bound, atoms that
occur in data, whether evaluation may stall, and, where the code was checked,
that a `return` or a `break` is only met where something catches it and that no
form is misshapen. A discipline is kept when evaluation starts from stores in
which every frame lies inside an earlier one and every function remembers a
frame that is there, and ends in such a store again.

Functions are valid in a store of some size, and stay valid when the store
grows. So a value is known to be valid from some size on, and whatever comes
after it is evaluated in stores that are no smaller.

## Main definitions

* `Value.All`: Atoms and functions in a value have a property.
* `Discipline`: What is known of the code that is evaluated.
* `Discipline.Callable`, `Discipline.Admits`, `Discipline.Valid`: Functions,
  values and stores that are valid.
* `EvalCause.isMisuse`, `Yields`: Errors that a check is meant to exclude, and
  results without them.
* `Discipline.Allows`: The ways in which evaluation may leave early.
* `Discipline.Keeps`: Computations that keep a discipline.

## Theorems

* `Value.All.imp`, `Admits.mono`: Valid values stay valid.
* `Valid.push`, `Valid.define`, `Valid.find?`: Valid stores.
* `Keeps.bind`, `Keeps.catchReturn`, `Keeps.catchBreak`, `Keeps.catchCall`,
  `Keeps.newFrame`: Putting computations together.
-/

namespace ListLang

/-- All atoms in a value have one property and all functions in it another. -/
inductive Value.All (P : String → Prop) (F : Closure → Prop) : Value → Prop where
  | atom {name : String} (h : P name) : Value.All P F (.atom name)
  | integer (n : Int) : Value.All P F (.integer n)
  | real (x : Float) : Value.All P F (.real x)
  | boolean (b : Bool) : Value.All P F (.boolean b)
  | null : Value.All P F .null
  | list {items : List Value} (h : ∀ v ∈ items, Value.All P F v) : Value.All P F (.list items)
  | function {f : Closure} (h : F f) : Value.All P F (.function f)

theorem Value.All.imp {P : String → Prop} {F G : Closure → Prop} {v : Value}
    (h : v.All P F) (hFG : ∀ f, F f → G f) : v.All P G := by
  induction h with
  | atom h => exact .atom h
  | integer n => exact .integer n
  | real x => exact .real x
  | boolean b => exact .boolean b
  | null => exact .null
  | list _ ih => exact .list ih
  | function h => exact .function (hFG _ h)

/-- Whether an error comes from a form that is not written as it should be, or
    from a `return` or a `break` that nothing catches. There need not be words for
    it. -/
def EvalCause.isMisuse : EvalCause → Bool
  | .malformed .. | .namesExpected .. | .strayReturn | .strayBreak | .breakEscaped .. => true
  | .unexpected _ cause => cause.isMisuse
  | _ => false

/-- Going too deep is no misuse. -/
theorem EvalCause.isMisuse_of_isTooDeep {cause : EvalCause} (h : cause.isTooDeep = true) :
    cause.isMisuse = false := by
  induction cause with
  | tooDeep _ _ => rfl
  | unexpected _ cause ih => exact ih h
  | _ => exact absurd h Bool.false_ne_true

theorem EvalCause.isMisuse_about {cause : Shown → EvalCause}
    (h : ∀ got, (cause got).isMisuse = false) (b : Builtin) (got : Shown) :
    (about b got cause).isMisuse = false := by
  unfold about
  split
  · exact h got
  · rfl

/-- A result as said, or an error that is no misuse. -/
inductive Yields {α : Type} (P : α → Prop) : Except EvalCause α → Prop where
  | ok {a : α} (h : P a) : Yields P (.ok a)
  | error {cause : EvalCause} (h : cause.isMisuse = false) : Yields P (.error cause)

theorem Yields.bind {α β : Type} {P : α → Prop} {Q : β → Prop} {r : Except EvalCause α}
    {f : α → Except EvalCause β} (hr : Yields P r) (hf : ∀ a, P a → Yields Q (f a)) :
    Yields Q (r >>= f) := by
  cases hr with
  | ok h => exact hf _ h
  | error h => exact .error h

/-- What is known of the code that is evaluated. -/
structure Discipline where
  /-- The code that is evaluated in the given surroundings. -/
  code : Surroundings → Expr → Prop
  /-- Names that are never bound. -/
  pinned : String → Prop
  /-- Atoms that occur in data. -/
  datum : String → Prop
  /-- The code has been checked for misuse. -/
  checked : Prop
  /-- Evaluation may stall, in a loop or where it is stopped. -/
  stalls : Prop

namespace Discipline

variable (d : Discipline)

/-- A function that can be called in a store of the given size. -/
structure Callable (size : Nat) (f : Closure) : Prop where
  frame : f.frame < size
  body : d.code .body f.body
  params : ∀ p ∈ f.params, ¬ d.pinned p

/-- A value that is valid in a store of the given size. -/
def Admits (size : Nat) (v : Value) : Prop :=
  v.All d.datum (d.Callable size)

/-- A store in which every frame lies inside an earlier one and binds valid
    values to names that may be bound. -/
structure Valid (s : Store) : Prop where
  parents : ∀ (i : Nat) (f : Frame) (p : Nat), s.frames[i]? = some f → f.parent = some p → p < i
  names : ∀ (i : Nat) (f : Frame), s.frames[i]? = some f →
    ∀ b ∈ f.bindings.entries, ¬ d.pinned b.1
  values : ∀ (i : Nat) (f : Frame), s.frames[i]? = some f →
    ∀ b ∈ f.bindings.entries, d.Admits s.frames.size b.2

/-- The ways in which evaluation may leave early in the given surroundings, into
    a store of the given size. -/
def Allows (around : Surroundings) (size : Nat) : Exit → Prop
  | .fault e => d.checked → e.cause.isMisuse = false
  | .returned v => (d.checked → around.inProg = true ∨ around.inFunc = true) ∧ d.Admits size v
  | .broke => d.checked → around.inWhile = true
  | .stalled => d.stalls

/-- A result as said or an exit that is allowed, in a valid store of at least the
    given size. -/
inductive Ends {α : Type} (size : Nat) (around : Surroundings) (Q : Nat → α → Prop) :
    EStateM.Result Exit Store α → Prop where
  | ok {a : α} {t : Store} (hsize : size ≤ t.frames.size) (ht : d.Valid t)
      (h : Q t.frames.size a) : Ends size around Q (.ok a t)
  | exit {z : Exit} {t : Store} (hsize : size ≤ t.frames.size) (ht : d.Valid t)
      (h : d.Allows around t.frames.size z) : Ends size around Q (.error z t)

/-- From valid stores of at least the given size, the computation ends in a valid
    store that is no smaller, with a result as said or an exit that is allowed. -/
def Keeps {α : Type} (size : Nat) (around : Surroundings) (Q : Nat → α → Prop) (x : EvalM α) :
    Prop :=
  ∀ s, d.Valid s → size ≤ s.frames.size → d.Ends s.frames.size around Q (x s)

variable {d}

/-! ### Values and Stores -/

theorem Callable.mono {m n : Nat} (h : m ≤ n) {f : Closure} (hf : d.Callable m f) :
    d.Callable n f :=
  ⟨Nat.lt_of_lt_of_le hf.frame h, hf.body, hf.params⟩

theorem Admits.mono {m n : Nat} (h : m ≤ n) {v : Value} (hv : d.Admits m v) :
    d.Admits n v :=
  hv.imp fun _ hf => hf.mono h

/-- Looking a name up gives a valid value. -/
theorem Valid.find? {s : Store} (h : d.Valid s) {env : Nat} {name : String} {v : Value}
    (hfind : s.find? env name = some v) : ¬ d.pinned name ∧ d.Admits s.frames.size v := by
  unfold Store.find? Store.chain at hfind
  generalize env + 1 = steps at hfind
  induction steps generalizing env with
  | zero => cases hfind
  | succ steps ih =>
      cases hframe : s.frames[env]? with
      | none => simp only [Store.walk, hframe, List.findSome?_nil, reduceCtorEq] at hfind
      | some f =>
          simp only [Store.walk, hframe, List.findSome?_cons] at hfind
          cases hbound : f.bindings.find? name with
          | some w =>
              rw [hbound] at hfind
              cases hfind
              have hmem := Table.mem_entries_of_find? hbound
              exact ⟨h.names env f hframe _ hmem, h.values env f hframe _ hmem⟩
          | none =>
              rw [hbound] at hfind
              cases hparent : f.parent with
              | none => simp only [hparent, List.findSome?_nil, reduceCtorEq] at hfind
              | some p =>
                  simp only [hparent] at hfind
                  exact ih hfind

/-- A new frame inside a frame that is there. -/
theorem Valid.push {s : Store} (h : d.Valid s) {label : String} {parent : Nat}
    (hparent : parent < s.frames.size) {t : Table Value}
    (hnames : ∀ b ∈ t.entries, ¬ d.pinned b.1)
    (hvalues : ∀ b ∈ t.entries, d.Admits s.frames.size b.2) :
    d.Valid (s.push { label := label, parent := some parent, bindings := t }).2 := by
  have hsize : s.frames.size ≤ (s.frames.push
      { label := label, parent := some parent, bindings := t }).size := by
    simp only [Array.size_push, Nat.le_succ]
  refine ⟨?_, ?_, ?_⟩
  · intro i f p hf hp
    simp only [Store.push, Array.getElem?_push] at hf
    split at hf
    · cases hf
      cases hp
      omega
    · exact h.parents i f p hf hp
  · intro i f hf b hb
    simp only [Store.push, Array.getElem?_push] at hf
    split at hf
    · cases hf
      exact hnames b hb
    · exact h.names i f hf b hb
  · intro i f hf b hb
    simp only [Store.push, Array.getElem?_push] at hf
    split at hf
    · cases hf
      exact (hvalues b hb).mono hsize
    · exact (h.values i f hf b hb).mono hsize

/-- Binding a name that may be bound to a valid value. -/
theorem Valid.define {s : Store} (h : d.Valid s) (env : Nat) {name : String}
    (hname : ¬ d.pinned name) {v : Value} (hv : d.Admits s.frames.size v) :
    d.Valid (s.define env name v) := by
  -- Every frame keeps its parent, and its entries are old ones or the new one.
  have hframe : ∀ (i : Nat) (f : Frame), (s.define env name v).frames[i]? = some f →
      ∃ g, s.frames[i]? = some g ∧
      f.parent = g.parent ∧ ∀ b ∈ f.bindings.entries, b ∈ g.bindings.entries ∨ b = (name, v) := by
    intro i f hf
    rw [s.getElem?_define] at hf
    split at hf
    · rcases Option.map_eq_some_iff.mp hf with ⟨g, hg, rfl⟩
      exact ⟨g, hg, rfl, fun b hb => Table.mem_entries_insert hb⟩
    · exact ⟨f, hf, rfl, fun b hb => .inl hb⟩
  refine ⟨?_, ?_, ?_⟩
  · intro i f p hf hp
    rcases hframe i f hf with ⟨g, hg, hparent, _⟩
    exact h.parents i g p hg (hparent ▸ hp)
  · intro i f hf b hb
    rcases hframe i f hf with ⟨g, hg, _, hentries⟩
    rcases hentries b hb with hb | rfl
    · exact h.names i g hg b hb
    · exact hname
  · intro i f hf b hb
    rw [s.size_define]
    rcases hframe i f hf with ⟨g, hg, _, hentries⟩
    rcases hentries b hb with hb | rfl
    · exact h.values i g hg b hb
    · exact hv

/-! ### Computations -/

section Computations

variable {α β : Type} {size : Nat} {around : Surroundings} {Q : Nat → α → Prop}
  {R : Nat → β → Prop}

theorem Ends.mono {n : Nat} (h : size ≤ n) {r : EStateM.Result Exit Store α}
    (hr : d.Ends n around Q r) : d.Ends size around Q r := by
  cases hr with
  | ok hsize ht hq => exact .ok (Nat.le_trans h hsize) ht hq
  | exit hsize ht hz => exact .exit (Nat.le_trans h hsize) ht hz

theorem Keeps.pure {a : α} (h : ∀ n, size ≤ n → Q n a) :
    d.Keeps size around Q (pure a : EvalM α) :=
  fun s hs hn => .ok (Nat.le_refl _) hs (h s.frames.size hn)

theorem Keeps.exit {z : Exit} (h : ∀ n, size ≤ n → d.Allows around n z) :
    d.Keeps size around Q (throw z : EvalM α) :=
  fun s hs hn => .exit (Nat.le_refl _) hs (h s.frames.size hn)

theorem Keeps.fault {cause : EvalCause} (h : cause.isMisuse = false) :
    d.Keeps size around Q (EvalM.fault cause : EvalM α) :=
  .exit fun _ _ _ => h

/-- What comes next starts from a store that is no smaller. -/
theorem Keeps.bind {x : EvalM α} {f : α → EvalM β} (hx : d.Keeps size around Q x)
    (hf : ∀ a n, size ≤ n → Q n a → d.Keeps n around R (f a)) :
    d.Keeps size around R (x >>= f) := by
  intro s hs hn
  have hfirst := hx s hs hn
  generalize hr : x s = r at hfirst
  cases hfirst with
  | exit hle ht hz =>
      rw [EvalM.bind_of_error hr]
      exact .exit hle ht hz
  | ok hle ht hq =>
      rw [EvalM.bind_of_ok hr]
      exact (hf _ _ (Nat.le_trans hn hle) hq _ ht (Nat.le_refl _)).mono hle

/-- A handler runs in other surroundings than what it handles. -/
theorem Keeps.tryCatch {inner : Surroundings} {x : EvalM α} {f : Exit → EvalM α}
    (hx : d.Keeps size inner Q x)
    (hf : ∀ z n, size ≤ n → d.Allows inner n z → d.Keeps n around Q (f z)) :
    d.Keeps size around Q (tryCatch x f) := by
  intro s hs hn
  have hfirst := hx s hs hn
  generalize hr : x s = r at hfirst
  cases hfirst with
  | ok hle ht hq =>
      rw [EvalM.tryCatch_of_ok hr]
      exact .ok hle ht hq
  | exit hle ht hz =>
      rw [EvalM.tryCatch_of_error hr]
      exact (hf _ _ (Nat.le_trans hn hle) hz _ ht (Nat.le_refl _)).mono hle

/-- A block catches a `return`. -/
theorem Keeps.catchReturn {x : EvalM Value}
    (hx : d.Keeps size { around with inProg := true } d.Admits x) :
    d.Keeps size around d.Admits (EvalM.catchReturn x) := by
  refine hx.tryCatch fun z n _ hz => ?_
  cases z with
  | returned v => exact .pure fun m hm => hz.2.mono hm
  | fault e => exact .exit fun _ _ => hz
  | broke => exact .exit fun _ _ => hz
  | stalled => exact .exit fun _ _ => hz

/-- A loop catches a `break`. -/
theorem Keeps.catchBreak {x : EvalM Value}
    (hx : d.Keeps size { around with inWhile := true } d.Admits x) :
    d.Keeps size around (fun n o => ∀ v, o = some v → d.Admits n v) (EvalM.catchBreak x) := by
  have hsome : d.Keeps size { around with inWhile := true }
      (fun n o => ∀ v, o = some v → d.Admits n v) (some <$> x) := by
    rw [map_eq_pure_bind]
    refine hx.bind fun v n _ hv => .pure fun m hm w hw => ?_
    cases hw
    exact hv.mono hm
  refine hsome.tryCatch fun z n _ hz => ?_
  cases z with
  | broke => exact .pure fun m _ v hv => nomatch hv
  | fault e => exact .exit fun _ _ => hz
  | returned v => exact .exit fun m hm => ⟨hz.1, hz.2.mono hm⟩
  | stalled => exact .exit fun _ _ => hz

/-- A call catches a `return`, and a checked body lets no `break` out. -/
theorem Keeps.catchCall (f : Closure) {x : EvalM Value} (hx : d.Keeps size .body d.Admits x) :
    d.Keeps size around d.Admits (EvalM.catchCall f x) := by
  refine hx.tryCatch fun z n _ hz => ?_
  cases z with
  | returned v => exact .pure fun m hm => hz.2.mono hm
  | broke => exact .exit fun _ _ hchecked => absurd (hz hchecked) Bool.false_ne_true
  | fault e => exact .exit fun _ _ => hz
  | stalled => exact .exit fun _ _ => hz

/-- A computation may be stopped after it, if it may stall. -/
theorem Keeps.stopAfter {x : EvalM α} (hx : d.Keeps size around Q x)
    {stop : Store → Store → Bool} (hstop : d.stalls ∨ ∀ s t, stop s t = false) :
    d.Keeps size around Q (x.stopAfter stop) := by
  intro s hs hn
  have hends := hx s hs hn
  rcases hstop with hstalls | hgo
  · rcases EvalM.stopAfter_cases stop x s with heq | heq
    · rw [heq]
      exact hends
    · rw [heq, EvalM.storeAfter]
      generalize x s = r at hends
      cases hends with
      | ok hsize ht _ => exact .exit hsize ht hstalls
      | exit hsize ht _ => exact .exit hsize ht hstalls
  · rw [EvalM.stopAfter_of_not_stop x (hgo s _)]
    exact hends

theorem Keeps.ofExcept {P : α → Prop} {r : Except EvalCause α} (h : Yields P r)
    (hQ : ∀ a n, size ≤ n → P a → Q n a) : d.Keeps size around Q (EvalM.ofExcept r) := by
  cases h with
  | ok ha => exact .pure fun n hn => hQ _ n hn ha
  | error hcause => exact .fault hcause

theorem Keeps.lookup (name : String) (env : Nat) :
    d.Keeps size around d.Admits (EvalM.lookup name env) := by
  intro s hs hn
  change d.Ends s.frames.size around d.Admits (EvalM.ofExcept (s.lookup env name) s)
  unfold Store.lookup
  cases hfind : s.find? env name with
  | none => exact .exit (Nat.le_refl _) hs fun _ => rfl
  | some v => exact .ok (Nat.le_refl _) hs (hs.find? hfind).2

theorem Keeps.get {f : Store → EvalM α}
    (h : ∀ s, d.Valid s → size ≤ s.frames.size → d.Keeps s.frames.size around Q (f s)) :
    d.Keeps size around Q (get >>= f) :=
  fun s hs hn => h s hs hn s hs (Nat.le_refl _)

theorem Keeps.bindName {name : String} (hname : ¬ d.pinned name) {v : Value}
    (hv : d.Admits size v) (env : Nat) :
    d.Keeps size around (fun _ _ => True) (EvalM.bindName name v env) :=
  fun s hs hn => .ok (Nat.le_of_eq (s.size_define env name v).symm)
    (hs.define env hname (hv.mono hn)) trivial

/-- A new frame is there afterwards. -/
theorem Keeps.newFrame (label : String) {parent : Nat} (hparent : parent < size)
    {t : Table Value} (hnames : ∀ b ∈ t.entries, ¬ d.pinned b.1)
    (hvalues : ∀ b ∈ t.entries, d.Admits size b.2) :
    d.Keeps size around (fun n frame => frame < n) (EvalM.newFrame label parent t) := by
  intro s hs hn
  have hvalid : d.Valid (s.push { label := label, parent := some parent, bindings := t }).2 :=
    hs.push (Nat.lt_of_lt_of_le hparent hn) hnames fun b hb => (hvalues b hb).mono hn
  have hsize : (s.push { label := label, parent := some parent, bindings := t }).2.frames.size =
      s.frames.size + 1 := by
    simp only [Store.push, Array.size_push]
  exact .ok (Nat.le_trans (Nat.le_succ _) (Nat.le_of_eq hsize.symm)) hvalid
    (Nat.lt_of_lt_of_eq (Nat.lt_succ_self _) hsize.symm)

end Computations

end Discipline

end ListLang
