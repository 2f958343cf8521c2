import ListLang.Optimize.DeadStore
import ListLang.Proofs.Simulation.Run
import ListLang.Proofs.Writable

/-!
# Programs Without Their Dead Stores

A name is dead in a program that assigns it at the top level and uses it
nowhere. If the atom `eval` does not occur in the program, no code is made of
data when it runs. All code that is evaluated then stands in the program, so a
dead name is never looked up, neither as a variable nor as a callee. Dropping
the assignments to dead names changes nothing but the bindings of these names,
and what an error suggests may change with them.

An assignment and the value in its place are evaluated one level apart. The
program without its dead stores has more levels left for the value, which makes
no difference to a program that does not give up.

## Main definitions

* `Expr.atoms`: The names that occur in an expression, in data or not.
* `Spares`: Code that uses none of some names.
* `Quiet`: Code that mentions neither `eval` nor a dead name.
* `quietly`: The correspondence of quiet code with itself.
* `SameButAdvice`: The same error up to what it suggests.

## Theorems

* `store_simulates`: The value of an assignment in place of the assignment.
* `Quiet.matches_self`: Quiet code matches itself.
* `runs_eliminateDeadStores`: A program runs as it does without its dead stores.
* `interpret_eliminateDeadStores`: Without its dead stores a program does the
  same.
-/

namespace ListLang

/-! ### Assignments -/

theorem list_of_store? {e : Expr} {name : String} {value : Expr}
    (h : store? e = some (name, value)) :
    ∃ line own l, e = .list line [.atom own SpecialForm.setq.name, .atom l name, value] := by
  unfold store? at h
  split at h
  · split at h
    · rename_i line own head l n v hhead
      cases h
      exact ⟨line, own, l, by rw [hhead]⟩
    · cases h
  · cases h

/-- An assignment of a hidden name does what the value in its place does, apart
    from binding the name. -/
theorem store_simulates {c : Correspondence} {stop : Moment → Bool} {limits : Limits}
    {line own l : Option Int} {name : String} {value value' : Expr} {env : Nat}
    (hname : ¬ c.pinned name) (hhidden : name ∈ c.hidden)
    (hgo : ∀ since u, stop ⟨[env],
      .list line [.atom own SpecialForm.setq.name, .atom l name, value], since, u⟩ = false)
    (hvalue : ∀ budget, c.Simulates c.Values (evaluateUntil stop limits budget [env] value env)
      (evaluateWithin limits (budget + 1) value' env)) (budget : Nat) :
    c.Simulates c.Values
      (evaluateUntil stop limits budget []
        (.list line [.atom own SpecialForm.setq.name, .atom l name, value]) env)
      (evaluateWithin limits budget value' env) := by
  intro s t hst
  cases budget with
  | zero =>
      rcases gaveUp_evaluateUntil_zero stop limits []
        (.list line [.atom own SpecialForm.setq.name, .atom l name, value]) env s with ⟨x, hx, hup⟩
      rw [hx]
      exact .gaveUp hup
  | succ budget =>
      -- The second side spends one level less on the value.
      have hrun := hvalue budget s t hst
      rw [evaluateUntil_succ (hgo _ s), EvalM.stopAfter_of_not_stop _ (hgo _ _),
        step_special _ _ _ (SpecialForm.ofName?_name .setq), ← bind_pure (evaluateWithin _ _ _ _)]
      exact hrun.bind fun v w s' t' hv hst' => .ok hv (hst'.define_hidden env hname hhidden v)

/-! ### Names -/

namespace Expr

mutual

/-- The names that occur in an expression, in data or not. -/
def atoms : Expr → List String
  | .atom _ name => [name]
  | .integer .. | .real .. | .boolean .. | .null .. => []
  | .list _ items => atomsAll items

/-- The names that occur in several expressions. -/
def atomsAll : List Expr → List String
  | [] => []
  | e :: es => atoms e ++ atomsAll es

end

theorem atomsAll_eq_flatMap (es : List Expr) : atomsAll es = es.flatMap atoms := by
  induction es with
  | nil => rfl
  | cons e es ih => rw [atomsAll, List.flatMap_cons, ih]

end Expr

/-- Only a list with `setq` at its head assigns a name. -/
theorem assignsName_eq_false {items : List Expr}
    (h : ∀ own rest, items ≠ .atom own SpecialForm.setq.name :: rest) :
    assignsName items = false := by
  unfold assignsName
  split
  · rename_i own head line name rest
    rw [beq_eq_false_iff_ne]
    intro heq
    exact h own (.atom line name :: rest) (by rw [heq])
  · rfl

theorem assignsName_of_computed {head : Expr} (h : head.atomName? = none) (args : List Expr) :
    assignsName (head :: args) = false := by
  refine assignsName_eq_false fun own rest heq => ?_
  rw [(List.cons.inj heq).1] at h
  cases h

theorem assignsName_of_ne_setq {name : String} (h : SpecialForm.ofName? name ≠ some .setq)
    (own : Option Int) (args : List Expr) : assignsName (.atom own name :: args) = false := by
  refine assignsName_eq_false fun own' rest heq => h ?_
  cases heq
  exact SpecialForm.ofName?_name .setq

/-- The expression uses none of the names. -/
def Spares (names : List String) (e : Expr) : Prop :=
  ∀ name ∈ usedNames e, name ∉ names

namespace Spares

variable {names : List String}

theorem atom {line : Option Int} {name : String} (h : Spares names (.atom line name)) :
    name ∉ names :=
  h name (by simp [usedNames])

/-- What is left of a list without the target of an assignment is used. -/
theorem of_mem {line : Option Int} {items : List Expr} (h : Spares names (.list line items))
    {e : Expr} (he : e ∈ items.drop (if assignsName items then 2 else 0)) : Spares names e := by
  intro name hname
  refine h name ?_
  rw [usedNames, usedNamesEach_eq_map, ← List.map_drop]
  exact List.mem_flatten.mpr ⟨usedNames e, List.mem_map_of_mem he, hname⟩

/-- Outside of assignments all items are used. -/
theorem item {line : Option Int} {items : List Expr} (h : Spares names (.list line items))
    (hassigns : assignsName items = false) {e : Expr} (he : e ∈ items) : Spares names e := by
  refine h.of_mem ?_
  rw [hassigns]
  exact he

/-- Of an assignment everything after the target is used. -/
theorem value {line : Option Int} {head target : Expr} {args : List Expr}
    (h : Spares names (.list line (head :: target :: args))) {e : Expr} (he : e ∈ args) :
    Spares names e := by
  refine h.of_mem ?_
  split
  · exact he
  · exact List.mem_cons_of_mem _ (List.mem_cons_of_mem _ he)

end Spares

/-- Code that mentions `eval` nowhere and uses no dead name. -/
structure Quiet (dead : List String) (e : Expr) : Prop where
  noEval : Builtin.eval.name ∉ e.atoms
  unused : ∀ name ∈ usedNames e, name ∉ dead

namespace Quiet

variable {dead : List String} {line : Option Int} {items : List Expr} {e : Expr}

theorem noEval_item (h : Quiet dead (.list line items)) (he : e ∈ items) :
    Builtin.eval.name ∉ e.atoms := by
  intro hatom
  refine h.noEval ?_
  rw [Expr.atoms, Expr.atomsAll_eq_flatMap]
  exact List.mem_flatMap.mpr ⟨e, he, hatom⟩

theorem item (h : Quiet dead (.list line items)) (hassigns : assignsName items = false)
    (he : e ∈ items) : Quiet dead e :=
  ⟨h.noEval_item he, Spares.item h.unused hassigns he⟩

/-- The value of an assignment is quiet. -/
theorem value {head target : Expr} (h : Quiet dead (.list line [head, target, e])) :
    Quiet dead e :=
  ⟨h.noEval_item (by simp), Spares.value h.unused List.mem_cons_self⟩

end Quiet

/-! ### Quiet Code -/

/-- Code corresponds to itself if it mentions neither `eval` nor a dead name. The
    bindings of dead names may differ. -/
def quietly (dead : List String) : Correspondence where
  code e e' := e' = e ∧ Quiet dead e
  hidden := dead
  pinned _ := False
  lines := Eq

variable {dead : List String}

theorem quietly_lawful (dead : List String) : (quietly dead).Lawful :=
  ⟨rfl⟩

theorem quietly_lines {l l' : Option Int} {n : Int} (h : (quietly dead).lines l l') :
    l.getD n = l'.getD n :=
  congrArg (Option.getD · n) h

theorem quietly_quoted (e : Expr) : (quietly dead).Values e.quoted e.quoted := by
  induction e using Expr.induct with
  | list line items ih =>
      rw [Expr.quoted, Expr.quotedAll_eq_map]
      exact .list (List.forall₂_map_left_iff.mpr (List.forall₂_map_right_iff.mpr
        (List.forall₂_same.mpr ih)))
  | atom line name => exact .atom name not_false
  | integer line n => exact .integer n
  | real line x => exact .real x
  | boolean line b => exact .boolean b
  | null line => exact .null

/-- A special form that is written as it should be and whose code is quiet. -/
theorem forms_quietly {form : SpecialForm} {args : List Expr} (hshape : form.Shape args)
    (h : form ≠ .setq → ∀ e ∈ args, Quiet dead e)
    (hvalue : ∀ l name value, args = [.atom l name, value] → Quiet dead value) :
    (quietly dead).Forms form args args := by
  have hcode : form ≠ .setq → ∀ e ∈ args, (quietly dead).code e e := fun hne e he =>
    ⟨rfl, h hne e he⟩
  cases hshape with
  | quote datum => exact .quote (quietly_quoted datum)
  | setq l name value => exact .setq l l not_false ⟨rfl, hvalue l name value rfl⟩
  | func l name params body names hparams =>
      exact .func l l not_false hparams hparams (fun _ _ => not_false)
        (hcode nofun body (by simp))
  | lambda params body names hparams =>
      exact .lambda hparams hparams (fun _ _ => not_false) (hcode nofun body (by simp))
  | prog locals forms names hlocals =>
      exact .prog hlocals hlocals (fun _ _ => not_false)
        (List.forall₂_same.mpr fun e he => hcode nofun e (List.mem_cons_of_mem _ he))
  | condThen test yes =>
      exact .condThen (hcode nofun test (by simp)) (hcode nofun yes (by simp))
  | condElse test yes no =>
      exact .condElse (hcode nofun test (by simp)) (hcode nofun yes (by simp))
        (hcode nofun no (by simp))
  | whileLoop test body =>
      exact .whileLoop (hcode nofun test (by simp))
        (List.forall₂_same.mpr fun e he => hcode nofun e (List.mem_cons_of_mem _ he))
  | returnNull => exact .returnNull
  | returnValue value => exact .returnValue (hcode nofun value (by simp))
  | breakLoop => exact .breakLoop

/-- Quiet code evaluates quiet code only, and looks no dead name up. -/
theorem Quiet.matches_self {e : Expr} (h : Quiet dead e) : (quietly dead).Matches e e := by
  cases e.layout with
  | atom line name => exact .atom line line (h.unused name (by simp [usedNames]))
  | literal hlit => exact .literal hlit hlit rfl
  | empty line => exact .empty line line
  | @computed line head args hhead =>
      have hassigns := assignsName_of_computed hhead args
      refine .computed line line hhead hhead ⟨rfl, h.item hassigns List.mem_cons_self⟩ ?_
      exact List.forall₂_same.mpr fun e he =>
        ⟨rfl, h.item hassigns (List.mem_cons_of_mem _ he)⟩
  | @special line own name form args hname =>
      by_cases hshape : form.Shape args
      · refine .special line line own own hname (forms_quietly hshape (fun hne e he => ?_) ?_)
        · have hassigns := assignsName_of_ne_setq (SpecialForm.ofName?_ne hname hne) own args
          exact h.item hassigns (List.mem_cons_of_mem _ he)
        · rintro l name' value rfl
          exact h.value
      · exact .misshapen line line own own hname hshape hshape rfl rfl
  | @call line own name args hname =>
      have hassigns := assignsName_of_ne_setq (by rw [hname]; exact nofun) own args
      have hhead : Quiet dead (.atom own name) := h.item hassigns List.mem_cons_self
      -- The name that is called is used, and it is not `eval`.
      have heval : Builtin.ofName? name ≠ some .eval := by
        intro hb
        rw [← Builtin.name_of_ofName? hb] at hhead
        exact hhead.noEval (by simp [Expr.atoms])
      have hvisible : name ∉ dead := hhead.unused name (by simp [usedNames])
      exact .call line line own own hname (.inr heval) hvisible (List.forall₂_same.mpr fun e he =>
        ⟨rfl, h.item hassigns (List.mem_cons_of_mem _ he)⟩)

/-- Quiet code does the same in the presence of different bindings of dead
    names. -/
theorem agree_quietly (limits : Limits) {budget budget' : Nat} (h : budget ≤ budget')
    (active : List Nat) :
    (quietly dead).Agree (evaluateUntil never limits budget active)
      (evaluateWithin limits budget') := by
  refine Correspondence.agree_evaluateUntil (quietly_lawful dead) ?_ (Nat.le_refl _) h active
  rintro m e' ⟨rfl, hquiet⟩ _
  exact hquiet.matches_self

/-! ### Programs -/

/-- A program uses no dead name of its own. -/
theorem spares_deadNames {forms : List Form} {form : Form} (hform : form ∈ forms) :
    Spares (deadNames forms) form.expr := by
  intro name hname hdead
  have hunused := (List.mem_filter.mp hdead).2
  rw [decide_eq_true_eq] at hunused
  exact hunused (List.mem_flatMap.mpr ⟨form, hform, hname⟩)

theorem isWritable_withoutDeadStore (dead : List String) (e : Expr) :
    (withoutDeadStore dead e).isWritable = e.isWritable := by
  unfold withoutDeadStore
  cases hstore : store? e with
  | none => rfl
  | some a =>
      rcases a with ⟨name, value⟩
      simp only []
      split
      · -- The name that was assigned can be written, so only the value matters.
        rcases list_of_store? hstore with ⟨line, own, l, rfl⟩
        simp only [Expr.isWritable, Expr.allWritable, Bool.true_and, Bool.and_true]
      · rfl

/-- A program that does not mention `eval` runs as it does without its dead
    stores. -/
theorem runs_eliminateDeadStores (limits : Limits) {forms : List Form}
    (heval : ∀ form ∈ forms, Builtin.eval.name ∉ form.expr.atoms) :
    (quietly (deadNames forms)).Runs (Rewritten forms (withoutDeadStore (deadNames forms)))
      (List.Forall₂ (quietly (deadNames forms)).Values)
      ((Session.new limits).interpret forms)
      ((Session.new limits).interpret (eliminateDeadStores forms)) := by
  rw [← Session.interpretUntil_never]
  refine .interpret (fun _ _ _ => quietly_lines) (forall₂_map_of_mem fun form hform =>
    ⟨⟨hform, rfl⟩, rfl, (isWritable_withoutDeadStore _ _).symm, fun env => ?_⟩) rfl
    (Correspondence.sessions_new limits limits)
  have hquiet : Quiet (deadNames forms) form.expr := ⟨heval form hform, spares_deadNames hform⟩
  simp only [withoutDeadStore]
  cases hstore : store? form.expr with
  | none => exact agree_quietly limits (Nat.le_refl _) [] _ _ env ⟨rfl, hquiet⟩
  | some a =>
      rcases a with ⟨name, value⟩
      simp only []
      split
      · -- The assignment is dropped, and its value is evaluated one level further out.
        rename_i hdead
        rcases list_of_store? hstore with ⟨line, own, l, hlist⟩
        rw [hlist] at hquiet ⊢
        exact store_simulates not_false hdead (fun _ _ => rfl) (fun budget =>
          agree_quietly limits (Nat.le_succ budget) [env] _ _ env ⟨rfl, hquiet.value⟩) _
      · exact agree_quietly limits (Nat.le_refl _) [] _ _ env ⟨rfl, hquiet⟩

/-- The wording of an error without what it suggests. -/
def Report.unadvised (r : Report) : Report :=
  { r with suggestion := none }

theorem report_unadvised (x : EvalCause) :
    x.unadvised.report.unadvised = x.report.unadvised := by
  cases x <;> rfl

/-- Errors on the same line that are worded alike but for what they suggest. -/
def SameButAdvice (e e' : EvalError) : Prop :=
  e.report.unadvised = e'.report.unadvised

theorem sameButAdvice_of_causes {c : Correspondence} {x y : EvalCause} (line : Option Int)
    (h : c.Causes x y) : SameButAdvice ⟨x, line⟩ ⟨y, line⟩ := by
  have hworded : x.report.unadvised = y.report.unadvised := by
    rw [← report_unadvised x, ← report_unadvised y, h.1]
  exact congrArg (fun r => { r with line := line }) hworded

/-- A program that does not mention `eval` and does not give up ends in the same
    outcome without its dead stores, and in a session whose frames bind the same
    names in the same order to the same values, dead names left out. Only an error
    for which there are no words is reported with another form, if that form was
    an assignment of a dead name. -/
theorem interpret_eliminateDeadStores (limits : Limits) (forms : List Form)
    (heval : ∀ form ∈ forms, Builtin.eval.name ∉ form.expr.atoms)
    (hends : ∀ halt, ((Session.new limits).interpret forms).1 = .error halt →
      halt.gaveUp = false) :
    SameOutcome forms (withoutDeadStore (deadNames forms)) SameButAdvice
        (quietly (deadNames forms)).Values
        ((Session.new limits).interpret forms).1
        ((Session.new limits).interpret (eliminateDeadStores forms)).1 ∧
      (quietly (deadNames forms)).Sessions
        ((Session.new limits).interpret forms).2
        ((Session.new limits).interpret (eliminateDeadStores forms)).2 ∧
      (quietly (deadNames forms)).Bindings
        ((Session.new limits).interpret forms).2.bindings
        ((Session.new limits).interpret (eliminateDeadStores forms)).2.bindings := by
  rcases (runs_eliminateDeadStores limits heval).sameOutcome
    (fun _ _ line => sameButAdvice_of_causes line) hends with ⟨houtcome, hsessions⟩
  exact ⟨houtcome, hsessions, hsessions.bindings⟩

/-- A dead store, a function made in a frame of another one that assigns the dead
    name in a frame of its own, and a call of it. -/
def storesTwice : List Form :=
  [⟨.list (some 1) [.atom none "setq", .atom none "d",
      .list none [.atom none "not", .boolean none true]], 1⟩,
    ⟨.list (some 2) [.atom none "setq", .atom none "g",
      .list none [.list none [.atom none "lambda", .list none [.atom none "y"],
        .list none [.atom none "lambda", .list none [.atom none "x"],
          .list none [.atom none "setq", .atom none "d", .atom none "y"]]], .null none]], 2⟩,
    ⟨.list (some 3) [.atom none "g", .integer none 5], 3⟩]

/-- The function. -/
def storesTwiceClosure : Value :=
  .function ⟨["x"], .list none [.atom none "setq", .atom none "d", .atom none "y"], 1, none⟩

theorem interpret_eliminateDeadStores_storesTwice :
    (∀ form ∈ storesTwice, Builtin.eval.name ∉ form.expr.atoms) ∧
      (∀ halt, ((Session.new ⟨10, 10, {}⟩).interpret storesTwice).1 = .error halt →
        halt.gaveUp = false) ∧
      deadNames storesTwice = ["d"] ∧
      SameOutcome storesTwice (withoutDeadStore (deadNames storesTwice)) SameButAdvice
        (quietly (deadNames storesTwice)).Values
        ((Session.new ⟨10, 10, {}⟩).interpret storesTwice).1
        ((Session.new ⟨10, 10, {}⟩).interpret (eliminateDeadStores storesTwice)).1 ∧
      (quietly (deadNames storesTwice)).Sessions
        ((Session.new ⟨10, 10, {}⟩).interpret storesTwice).2
        ((Session.new ⟨10, 10, {}⟩).interpret (eliminateDeadStores storesTwice)).2 ∧
      (quietly (deadNames storesTwice)).Bindings
        ⟨[("d", .boolean false), ("g", storesTwiceClosure)]⟩ ⟨[("g", storesTwiceClosure)]⟩ ∧
      ((Session.new ⟨10, 10, {}⟩).interpret (eliminateDeadStores storesTwice)).2.store.bindings 1 =
        ⟨[("y", .null)]⟩ := by
  have heval : ∀ form ∈ storesTwice, Builtin.eval.name ∉ form.expr.atoms := by decide
  have hends : ∀ halt, ((Session.new ⟨10, 10, {}⟩).interpret storesTwice).1 = .error halt →
      halt.gaveUp = false := by
    have hvalues : ((Session.new ⟨10, 10, {}⟩).interpret storesTwice).1 =
        .ok [.boolean false, storesTwiceClosure, .null] := by rfl
    rw [hvalues]
    exact nofun
  rcases interpret_eliminateDeadStores _ _ heval hends with ⟨houtcome, hsessions, hbindings⟩
  exact ⟨heval, hends, by decide, houtcome, hsessions, hbindings, by rfl⟩

/-- The value of a form that calls an integer too long to be written. -/
def longCall : Expr :=
  .list none [.list none [.atom none "cond", .boolean none true, .atom none "x", .atom none "x"]]

/-- A dead store whose value cannot be had. -/
def longDeadStore : List Form :=
  [⟨.list (some 1) [.atom none "setq", .atom none "x", .integer none longInteger], 1⟩,
    ⟨.list (some 2) [.atom none "setq", .atom none "d", longCall], 2⟩]

/-- What is reported of the value is reported with the form, an assignment or what
    is left of it. And where the call stack refuses the limits there is no error at
    all. -/
theorem interpret_eliminateDeadStores_longDeadStore :
    (∀ form ∈ longDeadStore, Builtin.eval.name ∉ form.expr.atoms) ∧
      ((Session.new ⟨10, 10, {}⟩).interpret longDeadStore).1 = .error (.failed
        ⟨.unexpected "(setq d ((cond true x x)))" (.headNotFunction ⟨none, .integer⟩), some 2⟩) ∧
      ((Session.new ⟨10, 10, {}⟩).interpret (eliminateDeadStores longDeadStore)).1 =
        .error (.failed ⟨.unexpected "((cond true x x))" (.headNotFunction ⟨none, .integer⟩),
          some 2⟩) ∧
      ((Session.new ⟨1000000000, 10, {}⟩).interpret longDeadStore).1 =
        .error (.refused .overflow) := by
  have hrun : ((Session.new ⟨10, 10, {}⟩).interpret longDeadStore).1 = .error
      ((EvalError.mk (.headNotFunction (Value.integer longInteger).shown) none).halt
        ⟨.list (some 2) [.atom none "setq", .atom none "d", longCall], 2⟩) :=
    rfl
  have heliminated : ((Session.new ⟨10, 10, {}⟩).interpret (eliminateDeadStores longDeadStore)).1 =
      .error ((EvalError.mk (.headNotFunction (Value.integer longInteger).shown) none).halt
        ⟨longCall, 2⟩) :=
    rfl
  rw [hrun, heliminated, shown_longInteger]
  exact ⟨by decide, by rfl, by rfl, by rfl⟩

end ListLang
