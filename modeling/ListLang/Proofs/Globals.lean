import ListLang.Proofs.Binds
import ListLang.Proofs.Vouch

/-!
# The Global Scope

The checker records a name in a scope where it expects the program to bind it.
If it finds no problem, the names recorded at the top level are at least those
that running the program binds there, as long as `eval` is applied to nothing
but quotations. A check without a problem has recorded every name that the
expression binds where it stands. Scopes only grow while they are in sight, and
the scope of a block or a function is gone after it, as its frame is.

## Main definitions

* `Scope.Has`, `Chain.Records`: Names that a scope records.
* `Chain.Grows`: What checking an expression may do to the scopes in sight.
* `CheckM.Registers`: Checks that record names where they find no problem.
* `Part.Registered`: Items whose checks record what they bind.

## Theorems

* `Registers.seq`, `Registers.sight`, `Registers.inScope`: Putting checks together.
* `Binds.argument_of_parts`: What a special form binds by its arguments.
* `checkSpecial_registers`, `checkCall_registers`, `checkList_registers`: Lists.
* `registered_checker`: Every expression.
* `analyze_records_globals`: Every global name is recorded.
-/

namespace ListLang

/-! ### Scopes -/

/-- The scope records the name, as a variable or as a function. -/
def Scope.Has (scope : Scope) (name : String) : Prop :=
  name ∈ scope.variableTypes.names ∨ name ∈ scope.functions.names

theorem Table.mem_names_insert {α : Type} (t : Table α) (name : String) (a : α) :
    name ∈ (t.insert name a).names := by
  rw [names_insert]
  by_cases h : name ∈ t.names
  · rw [if_pos h]
    exact h
  · rw [if_neg h]
    exact List.mem_append_right _ List.mem_cons_self

theorem Scope.has_defineVariable {scope : Scope} {name : String} (type : Ty) {other : String}
    (h : scope.Has other ∨ other = name) : (scope.defineVariable name type).Has other := by
  rcases h with (h | h) | rfl
  · exact .inl ((Table.names_prefix_insert ..).subset h)
  · exact .inr h
  · exact .inl (Table.mem_names_insert ..)

theorem Scope.has_defineFunction {scope : Scope} {name : String} (entry : FunctionEntry)
    {other : String} (h : scope.Has other ∨ other = name) :
    (scope.defineFunction name entry).Has other := by
  rcases h with (h | h) | rfl
  · exact .inl h
  · exact .inr ((Table.names_prefix_insert ..).subset h)
  · exact .inr (Table.mem_names_insert ..)

namespace Chain

/-- The innermost scope, if there is one, records the name. -/
def Records (c : Chain) (name : String) : Prop :=
  ∀ scope ∈ c.head?, scope.Has name

/-- The innermost scope may record more names, and the others are as they were. -/
structure Grows (c d : Chain) : Prop where
  outer : d.tail = c.tail
  isEmpty : d = [] → c = []
  names : ∀ name, c.Records name → d.Records name

namespace Grows

variable {c d f : Chain}

theorem refl (c : Chain) : Grows c c :=
  ⟨rfl, id, fun _ => id⟩

theorem trans (h : Grows c d) (h' : Grows d f) : Grows c f :=
  ⟨h'.outer.trans h.outer, h.isEmpty ∘ h'.isEmpty, fun name hname =>
    h'.names name (h.names name hname)⟩

end Grows

end Chain

/-! ### Checks -/

namespace CheckM

/-- The check may add to the innermost scope, and if nothing has been noted by its
    end, the scope records the names. -/
structure Registers (N : String → Prop) (x : CheckM Unit) : Prop extends Vouches True x where
  grows : ∀ s : Checking, s.chain.LacksEval → s.chain.Grows (x.run s).2.chain
  records : ∀ s : Checking, s.chain.LacksEval → (x.run s).2.found = [] →
    ∀ name, N name → (x.run s).2.chain.Records name

namespace Registers

variable {N M : String → Prop} {x y : CheckM Unit}

theorem imp (hx : Registers N x) (h : ∀ name, M name → N name) : Registers M x :=
  ⟨hx.toVouches, hx.grows, fun s hs hfound name hname => hx.records s hs hfound name (h name hname)⟩

/-- A check that leaves the scopes alone records nothing. -/
theorem of_chain {P : Prop} (hx : Vouches P x) (h : ∀ s, (x.run s).2.chain = s.chain)
    (hN : P → ∀ name, ¬ N name) : Registers N x where
  toVouches := hx.imp fun _ => trivial
  grows s _ := by
    rw [h]
    exact .refl _
  records s hs hfound name hname := absurd hname (hN (hx.found s hs hfound).2 name)

theorem pure : Registers (fun _ => False) (pure ()) :=
  .of_chain .pure (fun _ => rfl) fun _ _ => id

theorem note (line : Int) (f : Finding) : Registers N (note line f) :=
  .of_chain (.note line f) (fun _ => rfl) False.elim

theorem noteIf (problem : Bool) (line : Int) (f : Finding) :
    Registers (fun _ => False) (noteIf problem line f) := by
  cases problem with
  | true => exact note line f
  | false => exact pure

theorem noteAll (line : Int) (fs : List Finding) :
    Registers (fun _ => False) (noteAll line fs) :=
  .of_chain (.noteAll line fs) (fun _ => rfl) fun _ _ => id

theorem seq (hx : Registers N x) (hy : Registers M y) :
    Registers (fun name => N name ∨ M name) (do x; y) := by
  refine ⟨(hx.toVouches.seq hy.toVouches).imp fun _ => trivial, fun s hs => ?_,
    fun s hs hfound name hname => ?_⟩
  · exact (hx.grows s hs).trans (hy.grows _ (hx.lacksEval s hs))
  · have hmiddle := hx.lacksEval s hs
    rcases hname with hname | hname
    · -- What the first check has recorded is not lost in the second.
      have hearlier := (hy.found _ hmiddle hfound).1
      exact (hy.grows _ hmiddle).names name (hx.records s hs hearlier name hname)
    · exact hy.records _ hmiddle hfound name hname

theorem sight {f : Chain → CheckM Unit} (h : ∀ c : Chain, c.LacksEval → Registers N (f c)) :
    Registers N (CheckM.sight >>= f) :=
  ⟨.sight fun c hc => (h c hc).toVouches, fun s hs => (h s.chain hs).grows s hs,
    fun s hs => (h s.chain hs).records s hs⟩

theorem updateScope {f : Scope → Scope} (hx : Vouches True (updateScope f))
    (h : ∀ scope name, scope.Has name ∨ N name → (f scope).Has name) :
    Registers N (CheckM.updateScope f) := by
  refine ⟨hx, fun s _ => ?_, fun s _ _ name hname => ?_⟩
  · rcases s with ⟨chain, found⟩
    cases chain with
    | nil => exact .refl []
    | cons scope outer =>
        refine ⟨rfl, fun hnil => absurd hnil (List.cons_ne_nil _ _), fun name hname => ?_⟩
        rintro _ ⟨rfl⟩
        exact h scope name (.inl (hname scope rfl))
  · rcases s with ⟨chain, found⟩
    cases chain with
    | nil => exact fun scope hscope => absurd hscope (Option.not_mem_none scope)
    | cons scope outer =>
        rintro _ ⟨rfl⟩
        exact h scope name (.inr hname)

/-- Nothing that is recorded in a scope of its own is left after it. -/
theorem inScope (names : List String) (hx : Registers N x) :
    Registers (fun _ => False) (inScope (.ofNames names) x) := by
  refine ⟨hx.toVouches.inScope names, fun s hs => ?_, fun _ _ _ _ => False.elim⟩
  -- Inside, only the new scope changes, and it is the one that is dropped.
  have hchain : ((CheckM.inScope (.ofNames names) x).run s).2.chain = s.chain :=
    (hx.grows { s with chain := .ofNames names :: s.chain } (hs.ofNames names)).outer
  rw [hchain]
  exact .refl _

end Registers

end CheckM

open CheckM

/-- The check of an item records the names that the item binds, whatever its use. -/
structure Part.Registered (p : Part) : Prop where
  value : ∀ around line, Registers (Binds · p.expr) (p.check .value around line)
  callee : ∀ around line count args N, Registers N args →
    Registers (fun name => Binds name p.expr ∨ N name) (p.check (.callee count args) around line)
  code : ∀ around line own own' datum,
    p.expr = .list own [.atom own' SpecialForm.quote.name, datum] →
      Registers (Binds · datum) (p.check .code around line)

section Lists

variable {around : Surroundings} {parts : List Part}

theorem checkParts_registers (hparts : ∀ p ∈ parts, p.Registered) (line : Int) :
    Registers (fun name => ∃ p ∈ parts, Binds name p.expr) (checkParts around line parts) := by
  induction parts with
  | nil =>
      refine Registers.pure.imp fun name h => ?_
      rcases h with ⟨p, hp, _⟩
      exact absurd hp List.not_mem_nil
  | cons part parts ih =>
      exact (((hparts part List.mem_cons_self).value around line).seq
        (ih fun p hp => hparts p (List.mem_cons_of_mem _ hp))).imp fun _ =>
          (List.exists_mem_cons_iff _ _ _).mp

theorem checkBody_registers {body : Part} (h : body.Registered) (line : Int)
    (names : List String) : Registers (fun _ => False) (checkBody line names body) :=
  (h.value .body line).inScope names

theorem checkName_registers (line : Int) (name : String) :
    Registers (fun _ => False) (checkName line name) :=
  .sight fun _ _ => .noteIf _ _ _

theorem checkCondition_registers (line : Int) (form : SpecialForm) (e : Expr) :
    Registers (fun _ => False) (checkCondition line form e) :=
  .sight fun _ _ => .noteIf _ _ _

/-- A condition and what is checked after it. -/
theorem checkTest_registers {test : Part} (htest : test.Registered)
    (hparts : ∀ p ∈ parts, p.Registered) (line : Int) (form : SpecialForm)
    (inner : Surroundings) :
    Registers (fun name => ∃ p ∈ test :: parts, Binds name p.expr) (do
      test.check .value around line
      checkCondition line form test.expr
      checkParts inner line parts) := by
  refine ((htest.value around line).seq ((checkCondition_registers line form test.expr).seq
    (checkParts_registers hparts line))).imp fun name h => ?_
  exact ((List.exists_mem_cons_iff _ _ _).mp h).imp_right .inr

theorem Binds.of_special_parts {name : String} {form : SpecialForm} {l own : Option Int}
    (h : Binds name (.list l (.atom own form.name :: parts.map Part.expr))) :
    form.target? (parts.map Part.expr) = some name ∨
      form.isOpen = true ∧ ∃ p ∈ parts, Binds name p.expr := by
  refine h.of_special.imp_right (And.imp_right fun h => ?_)
  rcases h with ⟨e, he, h⟩
  rcases List.mem_map.mp he with ⟨p, hp, rfl⟩
  exact ⟨p, hp, h⟩

/-- A special form without a target binds at most what its arguments bind. -/
theorem Binds.argument_of_parts {name : String} {form : SpecialForm} {l own : Option Int}
    (htarget : form.target? (parts.map Part.expr) = none)
    (h : Binds name (.list l (.atom own form.name :: parts.map Part.expr))) :
    form.isOpen = true ∧ ∃ p ∈ parts, Binds name p.expr := by
  rcases h.of_special_parts with h | h
  · rw [htarget] at h
    cases h
  · exact h

/-- A special form, from the checks of its arguments. -/
theorem checkSpecial_registers {form : SpecialForm} (hparts : ∀ p ∈ parts, p.Registered)
    (hevals : ∀ p ∈ parts, EvalsQuoted p.expr) (line : Int) (l own : Option Int) :
    Registers (Binds · (.list l (.atom own form.name :: parts.map Part.expr)))
      (checkSpecial around line form parts) := by
  fun_cases checkSpecial around line form parts with
  | case1 datum =>
      exact Registers.pure.imp fun name h =>
        absurd (h.argument_of_parts rfl).1 Bool.false_ne_true
  | case2 line' name check value =>
      refine (((hparts value (by simp)).value around line).seq
        (.sight fun c _ => .updateScope (defineVariable_vouches name _) fun _ _ =>
          Scope.has_defineVariable _)).imp fun target h => ?_
      rcases h.of_special_parts with h | ⟨_, p, hp, h⟩
      · cases h
        exact .inr rfl
      · rcases List.mem_cons.mp hp with rfl | hp
        · cases h
        · exact .inl (List.mem_singleton.mp hp ▸ h)
  | case4 line' name check own' params check' body names problems hbound =>
      have hname := (hevals _ List.mem_cons_self).atom_ne
      refine ((Registers.noteAll line problems).seq
        ((Registers.updateScope (defineFunction_vouches hname _) fun _ _ =>
          Scope.has_defineFunction _).seq
          (checkBody_registers (hparts body (by simp)) line names))).imp fun target h => ?_
      rcases h.of_special_parts with h | ⟨h, _⟩
      · cases h
        exact .inr (.inl rfl)
      · cases h
  | case7 own' params check' body names problems hbound =>
      exact ((Registers.noteAll line problems).seq
        (checkBody_registers (hparts body (by simp)) line names)).imp fun target h =>
          absurd (h.argument_of_parts rfl).1 Bool.false_ne_true
  | case9 own' locals check' form forms names problems hbound =>
      exact ((Registers.noteAll line problems).seq
        ((checkParts_registers (fun p hp => hparts p (List.mem_cons_of_mem _ hp)) line).inScope
          names)).imp fun target h => absurd (h.argument_of_parts rfl).1 Bool.false_ne_true
  | case11 test yes =>
      exact (checkTest_registers (hparts test (by simp))
        (fun p hp => hparts p (List.mem_cons_of_mem _ hp)) line .cond around).imp fun target h =>
          (h.argument_of_parts rfl).2
  | case12 test yes no =>
      exact (checkTest_registers (hparts test (by simp))
        (fun p hp => hparts p (List.mem_cons_of_mem _ hp)) line .cond around).imp fun target h =>
          (h.argument_of_parts rfl).2
  | case13 test form forms =>
      exact (checkTest_registers (hparts test (by simp))
        (fun p hp => hparts p (List.mem_cons_of_mem _ hp)) line .whileLoop _).imp fun target h =>
          (h.argument_of_parts rfl).2
  | case14 _ _ =>
      exact ((Registers.noteIf _ line _).seq (checkParts_registers hparts line)).imp
        fun target h => .inr (h.argument_of_parts rfl).2
  | case16 _ _ =>
      exact (Registers.noteIf _ line _).imp fun target h =>
        absurd (h.argument_of_parts rfl).1 Bool.false_ne_true
  -- What is left is not written as it should be, or stands where nothing catches it.
  | case3 | case5 | case6 | case8 | case10 | case15 | case17 | case18 => exact .note line _

/-- A call of anything but `eval`, from the checks of its arguments. -/
theorem checkCall_registers {name : String} (hne : name ≠ Builtin.eval.name)
    (hparts : ∀ p ∈ parts, p.Registered) (line : Int) :
    Registers (fun target => ∃ p ∈ parts, Binds target p.expr)
      (checkCall around line name parts) := by
  refine .sight fun c _ => ((Registers.noteIf _ line _).seq
    ((checkParts_registers hparts line).seq (M := fun _ => False) ?_)).imp
      fun target h => .inr (.inl h)
  cases c.function? name with
  | some f => exact .noteIf _ line _
  | none =>
      cases hb : Builtin.ofName? name with
      | none => exact .pure
      | some b =>
          -- Only `eval` has its argument looked at as code.
          have hb : b ≠ .eval := fun heq => hne (heq ▸ Builtin.name_of_ofName? hb).symm
          simp only [hb, if_false]
          exact .sight fun _ _ => ((Registers.noteAll line _).seq .pure).imp fun _ => .inl

/-- A call of `eval` on a quotation looks into the data. -/
theorem checkEval_registers {arg : Part} (harg : arg.Registered) {l own : Option Int} {datum : Expr}
    (hquote : arg.expr = .list l [.atom own SpecialForm.quote.name, datum]) (line : Int) :
    Registers (Binds · datum) (checkCall around line Builtin.eval.name [arg]) := by
  have hparts : ∀ p ∈ [arg], p.Registered := fun p hp => List.mem_singleton.mp hp ▸ harg
  refine .sight fun c hc => ((Registers.noteIf _ line _).seq
    ((checkParts_registers hparts line).seq (M := (Binds · datum)) ?_)).imp
      fun target h => .inr (.inr h)
  rw [hc.function?, Builtin.ofName?_name]
  simp only [if_true]
  exact .sight fun _ _ => ((Registers.noteAll line _).seq
    (harg.code around line l own datum hquote)).imp fun _ => .inr

theorem exists_mem_partsOf {es : List Expr} {P : Expr → Prop} :
    (∃ p ∈ partsOf es, P p.expr) ↔ ∃ e ∈ es, P e := by
  simp only [partsOf_eq_map, List.mem_map, exists_exists_and_eq_and]

/-- A list whose items are known to hold `eval` only in front of quotations. -/
theorem checkItems_registers {items : List Expr} (hevals : ∀ e ∈ items, EvalsQuoted e)
    (hitems : ∀ e ∈ items, Part.Registered ⟨e, checker e⟩) (line : Int) (own : Option Int) :
    Registers (Binds · (.list own items)) (checkList around line (partsOf items)) := by
  cases items with
  | nil =>
      refine Registers.pure.imp fun name h => ?_
      cases h
  | cons head args =>
      have hparts : ∀ p ∈ partsOf args, p.Registered :=
        forall_mem_partsOf.mpr fun e he => hitems e (List.mem_cons_of_mem _ he)
      cases head with
      | atom own' name =>
          cases hname : SpecialForm.ofName? name with
          | some form =>
              have hspecial : Registers (Binds · _) (checkSpecial around line form _) :=
                checkSpecial_registers hparts (forall_mem_partsOf.mpr fun e he =>
                  hevals e (List.mem_cons_of_mem _ he)) line own own'
              rw [map_expr_partsOf, SpecialForm.name_of_ofName? hname] at hspecial
              simp only [partsOf, checkList, hname]
              exact hspecial
          | none =>
              have hne := (hevals _ List.mem_cons_self).atom_ne
              simp only [partsOf, checkList, hname]
              refine (checkCall_registers hne hparts line).imp fun target h => ?_
              rcases h.of_call hname hne with ⟨e, he, h⟩
              exact exists_mem_partsOf.mpr ⟨e, he, h⟩
      | integer _ _ | real _ _ | boolean _ _ | null _ | list _ _ =>
          refine ((hitems _ List.mem_cons_self).callee around line (partsOf args).length _ _
            (checkParts_registers hparts line)).imp fun target h => ?_
          rcases h.of_computed rfl with h | ⟨e, he, h⟩
          · exact .inl h
          · exact .inr (exists_mem_partsOf.mpr ⟨e, he, h⟩)

/-- A list that is evaluated, from the checks of its items. -/
theorem checkList_registers {own : Option Int} {items : List Expr}
    (hevals : EvalsQuoted (.list own items))
    (hitems : ∀ e ∈ items, EvalsQuoted e → Part.Registered ⟨e, checker e⟩) (line : Int) :
    Registers (Binds · (.list own items)) (checkList around line (partsOf items)) := by
  cases hevals with
  | literal h => exact absurd h Bool.false_ne_true
  | list _ h => exact checkItems_registers h (fun e he => hitems e he (h e he)) line own
  | @evalQuoted _ own' line' own'' datum h =>
      exact (checkEval_registers (hitems _ (by simp) (h.quote line' own'')) rfl line).imp fun _ =>
        Binds.of_evalQuoted

/-- A function that is called on the spot, from the checks of its parts. -/
theorem checkCalledLambda_registers (hparts : ∀ p ∈ parts, p.Registered) {N : String → Prop}
    {args : CheckM Unit} (hargs : Registers N args) (own line : Int) (count : Nat)
    (l own' : Option Int) :
    Registers (fun name =>
        Binds name (.list l (.atom own' SpecialForm.lambda.name :: parts.map Part.expr)) ∨ N name)
      (checkCalledLambda own line count args parts) := by
  fun_cases checkCalledLambda own line count args parts with
  | case1 line' params check body names problems hbound =>
      refine ((Registers.noteAll line problems).seq ((Registers.noteIf _ line _).seq (hargs.seq
        (checkBody_registers (hparts body (by simp)) own names)))).imp fun name h => ?_
      rcases h with h | h
      · exact absurd (h.argument_of_parts rfl).1 Bool.false_ne_true
      · exact .inr (.inr (.inl h))
  | case2 | case3 => exact .note line _

end Lists

theorem registered_leaf {e : Expr} {evaluated : Int → CheckM Unit} (hleaf : e.items? = none)
    (hevaluated : ∀ line, Registers (fun _ => False) (evaluated line)) :
    Part.Registered ⟨e, leafChecker evaluated⟩ := by
  have hbinds : ∀ name, ¬ Binds name e := fun name h => h.items?_ne_none hleaf
  exact {
    value := fun around line => (hevaluated line).imp hbinds
    callee := fun around line _ _ _ hargs =>
      ((hevaluated line).seq hargs).imp fun name => Or.imp_left (hbinds name)
    code := fun _ _ _ _ _ hquote => by
      subst hquote
      cases hleaf }

theorem registered_list {own : Option Int} {items : List Expr}
    (hevals : EvalsQuoted (.list own items))
    (hitems : ∀ e ∈ items, EvalsQuoted e → Part.Registered ⟨e, checker e⟩) :
    Part.Registered ⟨.list own items, checker (.list own items)⟩ where
  value around line := checkList_registers hevals hitems (own.getD line)
  callee around line count args N hargs := by
    have hplain : Registers (fun name => Binds name (.list own items) ∨ N name)
        (do checkList around (own.getD line) (partsOf items); args) :=
      (checkList_registers hevals hitems (own.getD line)).seq hargs
    cases items with
    | nil => exact hplain
    | cons head rest =>
        cases head with
        | atom own' name =>
            by_cases hname : name = SpecialForm.lambda.name
            · -- A function called on the spot has a check of its own.
              subst hname
              have hrest := hevals.arguments (by decide)
              have hlambda : Registers (fun name => Binds name _ ∨ N name)
                  (checkCalledLambda (own.getD line) line count args _) :=
                checkCalledLambda_registers
                  (forall_mem_partsOf.mpr fun e he =>
                    hitems e (List.mem_cons_of_mem _ he) (hrest e he)) hargs _ line count own own'
              rw [map_expr_partsOf] at hlambda
              simp only [checker, listChecker, partsOf, if_true]
              exact hlambda
            · simp only [checker, listChecker, partsOf, hname, if_false]
              exact hplain
        | integer _ _ | real _ _ | boolean _ _ | null _ | list _ _ => exact hplain
  code around line own' own'' datum hquote := by
    cases hquote
    have hdatum := hevals.arguments (by decide) datum List.mem_cons_self
    cases datum with
    | list l es =>
        simp only [checker, listChecker, partsOf, if_true]
        exact (hitems _ (by simp) hdatum).value around line
    | atom _ _ | integer _ _ | real _ _ | boolean _ _ | null _ =>
        exact Registers.pure.imp fun name h => h.items?_ne_none rfl

/-- The check of an expression records the names that it binds. -/
theorem registered_checker {e : Expr} (h : EvalsQuoted e) : Part.Registered ⟨e, checker e⟩ := by
  induction e using Expr.induct with
  | atom line name => exact registered_leaf rfl fun _ => checkName_registers _ name
  | integer _ _ | real _ _ | boolean _ _ | null _ => exact registered_leaf rfl fun _ => .pure
  | list own items ih => exact registered_list h ih

theorem checkForms_registers {forms : List Form} (h : ∀ form ∈ forms, EvalsQuoted form.expr) :
    Registers (fun name => ∃ form ∈ forms, Binds name form.expr) (checkForms forms) := by
  induction forms with
  | nil =>
      refine Registers.pure.imp fun name h => ?_
      rcases h with ⟨form, hform, _⟩
      exact absurd hform List.not_mem_nil
  | cons form forms ih =>
      exact (((registered_checker (h form List.mem_cons_self)).value {} form.line).seq
        (ih fun f hf => h f (List.mem_cons_of_mem _ hf))).imp fun _ =>
          (List.exists_mem_cons_iff _ _ _).mp

/-- If `eval` is applied to nothing but quotations and the checker finds no
    problem in a program, then every global name is recorded once the program
    has run, as a variable or as a function. This is so even if a form fails. -/
theorem analyze_records_globals (limits : Limits) {forms : List Form}
    (hevals : ∀ form ∈ forms, EvalsQuoted form.expr)
    (hclean : (analyze forms).diagnostics = some []) :
    ∀ name ∈ ((Session.new limits).interpret forms).2.bindings.names,
      name ∈ (analyze forms).globals.variableTypes.names ∨
        name ∈ (analyze forms).globals.functions.names := by
  intro name hname
  have hregisters := checkForms_registers hevals
  have hlacks : Chain.LacksEval [{}] := by
    intro scope hmem
    rw [List.mem_singleton.mp hmem]
    rfl
  rcases EvalsQuoted.names_interpret hevals (s := Session.new limits) Nat.zero_lt_one name hname
    with hname | hname
  · -- Nothing is bound before the program runs.
    exact absurd hname List.not_mem_nil
  · have hfound := (analyze forms).diagnostics_eq_some_nil_iff.mp hclean
    have hrecords := hregisters.records { chain := [{}] } hlacks hfound name hname
    have hgrows := hregisters.grows { chain := [{}] } hlacks
    change (((checkForms forms).run { chain := [{}] }).2.chain.headD {}).Has name
    generalize ((checkForms forms).run { chain := [{}] }).2.chain = chain at hrecords hgrows ⊢
    cases chain with
    | nil => exact absurd (hgrows.isEmpty rfl) (List.cons_ne_nil _ _)
    | cons scope outer => exact hrecords scope rfl

/-- Quoted code that binds a name, a function and a call of it that fails. -/
def evaluatedSetq : List Form :=
  [⟨.list none [.atom none "eval", .list none [.atom none "quote",
      .list none [.atom none "setq", .atom none "xs",
        .list none [.atom none "quote", .list none []]]]], 1⟩,
    ⟨.list none [.atom none "func", .atom none "first", .list none [.atom none "ys"],
      .list none [.atom none "head", .atom none "ys"]], 2⟩,
    ⟨.list none [.atom none "first", .atom none "xs"], 3⟩]

theorem analyze_records_globals_evaluatedSetq :
    (∀ form ∈ evaluatedSetq, EvalsQuoted form.expr) ∧
      (analyze evaluatedSetq).diagnostics = some [] ∧
      ((Session.new ⟨20, 20, {}⟩).interpret evaluatedSetq).1 =
        .error (.failed ⟨.headOfEmpty, some 3⟩) ∧
      ((Session.new ⟨20, 20, {}⟩).interpret evaluatedSetq).2.bindings.names = ["xs", "first"] ∧
      ∀ name ∈ ((Session.new ⟨20, 20, {}⟩).interpret evaluatedSetq).2.bindings.names,
        name ∈ (analyze evaluatedSetq).globals.variableTypes.names ∨
          name ∈ (analyze evaluatedSetq).globals.functions.names := by
  have hevals : ∀ form ∈ evaluatedSetq, EvalsQuoted form.expr := by
    have hatom : ∀ name : String, name ≠ "eval" → EvalsQuoted (.atom none name) :=
      fun _ => .atom none
    have hlist : ∀ es : List Expr, es.Forall EvalsQuoted → EvalsQuoted (.list none es) :=
      fun _ h => .list none (List.forall_iff_forall_mem.mp h)
    exact List.forall_iff_forall_mem.mp ⟨.evalQuoted none none none none (hlist _
      ⟨hatom _ (by decide), hatom _ (by decide), (hlist [] trivial).quote none none⟩),
      hlist _ ⟨hatom _ (by decide), hatom _ (by decide), hlist [_] (hatom _ (by decide)),
        hlist _ ⟨hatom _ (by decide), hatom _ (by decide)⟩⟩,
      hlist _ ⟨hatom _ (by decide), hatom _ (by decide)⟩⟩
  have hclean : (analyze evaluatedSetq).diagnostics = some [] := by rfl
  exact ⟨hevals, hclean, by rfl, by rfl, analyze_records_globals ⟨20, 20, {}⟩ hevals hclean⟩

end ListLang
