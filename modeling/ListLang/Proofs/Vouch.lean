import ListLang.Check.Basic
import ListLang.Proofs.WellUsed

/-!
# Checks That Vouch

A check never stops at a problem, so what it says about a program is what holds
if it has noted nothing by its end. A check vouches for a property if the
property holds whenever nothing has been noted by the end of the check. Since
problems only pile up, nothing had been noted before it either, and a sequence
of checks vouches for what each of them vouches for.

What the checker makes of a call depends on the functions in sight. It looks
into the code that `eval` gets only as long as the program has no function of
that name, and so all of this is said of scopes without one.

## Main definitions

* `Chain.LacksEval`: No function in sight is called `eval`.
* `CheckM.Vouches`: Checks that vouch for a property.
* `Part.Vouched`: Items whose checks vouch for them, whatever their use.

## Theorems

* `Vouches.seq`, `Vouches.sight`, `Vouches.inScope`: Putting checks together.
* `names?_of_boundNames`: Lists of names without a problem.
* `checkSpecial_vouches`, `checkCall_vouches`, `checkList_vouches`: Lists.
* `vouched_checker`: Every expression.
-/

namespace ListLang

/-- No function in sight is called `eval`. -/
def Chain.LacksEval (c : Chain) : Prop :=
  ∀ scope ∈ c, scope.functions.find? Builtin.eval.name = none

theorem Chain.LacksEval.function? {c : Chain} (h : c.LacksEval) :
    c.function? Builtin.eval.name = none :=
  List.findSome?_eq_none_iff.mpr h

/-- The names in a new scope are no functions. -/
theorem Chain.LacksEval.ofNames {c : Chain} (h : c.LacksEval) (names : List String) :
    Chain.LacksEval (.ofNames names :: c) := by
  intro scope hmem
  rcases List.mem_cons.mp hmem with rfl | hmem
  · rfl
  · exact h scope hmem

namespace CheckM

/-- If nothing has been noted by the end of the check, the property holds and
    nothing had been noted before. -/
structure Vouches (P : Prop) (x : CheckM Unit) : Prop where
  lacksEval : ∀ s, s.chain.LacksEval → (x.run s).2.chain.LacksEval
  found : ∀ s, s.chain.LacksEval → (x.run s).2.found = [] → s.found = [] ∧ P

namespace Vouches

variable {P Q : Prop} {x y : CheckM Unit}

theorem imp (hx : Vouches P x) (h : P → Q) : Vouches Q x :=
  ⟨hx.lacksEval, fun s hs hfound => (hx.found s hs hfound).imp_right h⟩

theorem pure : Vouches True (pure ()) :=
  ⟨fun _ hs => hs, fun _ _ hfound => ⟨hfound, trivial⟩⟩

theorem seq (hx : Vouches P x) (hy : Vouches Q y) : Vouches (P ∧ Q) (do x; y) := by
  refine ⟨fun s hs => hy.lacksEval _ (hx.lacksEval s hs), fun s hs hfound => ?_⟩
  -- Nothing noted at the end means nothing noted in between, and so nothing before.
  have hlater := hy.found (x.run s).2 (hx.lacksEval s hs) hfound
  have hearlier := hx.found s hs hlater.1
  exact ⟨hearlier.1, hearlier.2, hlater.2⟩

theorem sight {f : Chain → CheckM Unit} (h : ∀ c : Chain, c.LacksEval → Vouches P (f c)) :
    Vouches P (CheckM.sight >>= f) :=
  ⟨fun s hs => (h s.chain hs).lacksEval s hs, fun s hs => (h s.chain hs).found s hs⟩

theorem note (line : Int) (f : Finding) : Vouches False (note line f) :=
  ⟨fun _ hs => hs, fun _ _ hfound =>
    absurd (List.append_eq_nil_iff.mp hfound).2 (List.cons_ne_nil _ _)⟩

theorem noteIf (problem : Bool) (line : Int) (f : Finding) :
    Vouches (problem = false) (noteIf problem line f) := by
  cases problem with
  | true => exact (note line f).imp False.elim
  | false => exact pure.imp fun _ => rfl

theorem noteAll (line : Int) (fs : List Finding) : Vouches (fs = []) (noteAll line fs) :=
  ⟨fun _ hs => hs, fun _ _ hfound =>
    (List.append_eq_nil_iff.mp hfound).imp_right List.map_eq_nil_iff.mp⟩

theorem updateScope {f : Scope → Scope}
    (h : ∀ scope : Scope, scope.functions.find? Builtin.eval.name = none →
      (f scope).functions.find? Builtin.eval.name = none) : Vouches True (updateScope f) := by
  refine ⟨fun s hs => ?_, fun _ _ hfound => ⟨hfound, trivial⟩⟩
  rcases s with ⟨chain, found⟩
  cases chain with
  | nil => exact hs
  | cons scope outer =>
      intro scope' hmem
      rcases List.mem_cons.mp hmem with rfl | hmem
      · exact h scope (hs scope List.mem_cons_self)
      · exact hs scope' (List.mem_cons_of_mem _ hmem)

theorem inScope (names : List String) (hx : Vouches P x) :
    Vouches P (inScope (.ofNames names) x) := by
  refine ⟨fun s hs scope hmem => ?_, fun s hs hfound => ?_⟩
  · exact hx.lacksEval { s with chain := .ofNames names :: s.chain } (hs.ofNames names) scope
      (List.mem_of_mem_tail hmem)
  · exact hx.found { s with chain := .ofNames names :: s.chain } (hs.ofNames names) hfound

end Vouches

end CheckM

open CheckM

/-- Names where names are bound, without a problem. -/
theorem names?_of_boundNames {form : SpecialForm} {es : List Expr} {names : List String}
    (h : boundNames form es = (names, [])) (line : Option Int) :
    (Expr.list line es).names? = some names := by
  change es.mapM Expr.atomName? = some names
  induction es generalizing names with
  | nil =>
      cases h
      rfl
  | cons e es ih =>
      unfold boundNames at h
      generalize hrest : boundNames form es = rest at h
      rcases rest with ⟨others, problems⟩
      cases e with
      | atom own name =>
          cases h
          rw [List.mapM_cons, ih hrest]
          rfl
      | integer _ _ | real _ _ | boolean _ _ | null _ | list _ _ => cases h

/-- The check of an item vouches for it, whatever its use. -/
structure Part.Vouched (p : Part) : Prop where
  value : ∀ around line, Vouches (WellUsed around p.expr) (p.check .value around line)
  callee : ∀ around line count args P, Vouches P args →
    Vouches (WellUsed around p.expr ∧ P) (p.check (.callee count args) around line)
  code : ∀ around line own own' datum,
    p.expr = .list own [.atom own' SpecialForm.quote.name, datum] →
      Vouches (datum.items?.isSome = true → WellUsed around datum) (p.check .code around line)

section Lists

variable {around : Surroundings} {parts : List Part}

theorem checkParts_vouches (hparts : ∀ p ∈ parts, p.Vouched) (line : Int) :
    Vouches (∀ p ∈ parts, WellUsed around p.expr) (checkParts around line parts) := by
  induction parts with
  | nil => exact Vouches.pure.imp fun _ p hp => absurd hp List.not_mem_nil
  | cons part parts ih =>
      refine (((hparts part List.mem_cons_self).value around line).seq
        (ih fun p hp => hparts p (List.mem_cons_of_mem _ hp))).imp fun h p hp => ?_
      rcases List.mem_cons.mp hp with rfl | hp
      · exact h.1
      · exact h.2 p hp

theorem checkBody_vouches {body : Part} (h : body.Vouched) (line : Int) (names : List String) :
    Vouches (WellUsed .body body.expr) (checkBody line names body) :=
  (h.value .body line).inScope names

theorem checkName_vouches (line : Int) (name : String) : Vouches True (checkName line name) :=
  .sight fun _ _ => (Vouches.noteIf _ _ _).imp fun _ => trivial

theorem checkCondition_vouches (line : Int) (form : SpecialForm) (e : Expr) :
    Vouches True (checkCondition line form e) :=
  .sight fun _ _ => (Vouches.noteIf _ _ _).imp fun _ => trivial

/-- Where names are bound, they are known and `eval` is not among them. -/
theorem noteAll_boundNames {form : SpecialForm} {es : List Expr} {names : List String}
    {problems : List Finding} (h : boundNames form es = (names, problems)) {own : Option Int}
    (hevals : EvalsQuoted (.list own es)) (line : Int) :
    Vouches ((Expr.list own es).names? = some names ∧ ∀ p ∈ names, p ≠ Builtin.eval.name)
      (noteAll line problems) := by
  refine (Vouches.noteAll line problems).imp fun hnone => ?_
  subst hnone
  have hnames := names?_of_boundNames h own
  exact ⟨hnames, hevals.names hnames⟩

theorem defineVariable_vouches (name : String) (type : Ty) :
    Vouches True (updateScope fun s => s.defineVariable name type) :=
  .updateScope fun _ hscope => hscope

theorem defineFunction_vouches {name : String} (h : name ≠ Builtin.eval.name)
    (entry : FunctionEntry) : Vouches True (updateScope fun s => s.defineFunction name entry) := by
  refine .updateScope fun scope hscope => ?_
  rw [Scope.defineFunction, Table.find?_insert, if_neg h.symm]
  exact hscope

/-- A special form, from the checks of its arguments. -/
theorem checkSpecial_vouches {form : SpecialForm} (hparts : ∀ p ∈ parts, p.Vouched)
    (hevals : ∀ p ∈ parts, EvalsQuoted p.expr) (line : Int) (l own : Option Int) :
    Vouches (WellUsed around (.list l (.atom own form.name :: parts.map Part.expr)))
      (checkSpecial around line form parts) := by
  fun_cases checkSpecial around line form parts with
  | case1 datum => exact Vouches.pure.imp fun _ => .quote l own _
  | case2 line' name check value =>
      have hname := (hevals _ List.mem_cons_self).atom_ne
      refine (((hparts value (by simp)).value around line).seq
        (.sight fun c _ => defineVariable_vouches name _)).imp fun h => ?_
      exact .setq l own line' hname h.1
  | case4 line' name check own' params check' body names problems hbound =>
      have hname := (hevals _ List.mem_cons_self).atom_ne
      refine ((noteAll_boundNames hbound (hevals ⟨.list own' params, check'⟩ (by simp)) line).seq
        ((defineFunction_vouches hname _).seq
          (checkBody_vouches (hparts body (by simp)) line names))).imp fun h => ?_
      exact .func l own line' hname h.1.1 h.1.2 h.2.2
  | case7 own' params check' body names problems hbound =>
      refine ((noteAll_boundNames hbound (hevals _ List.mem_cons_self) line).seq
        (checkBody_vouches (hparts body (by simp)) line names)).imp fun h => ?_
      exact .lambda l own h.1.1 h.1.2 h.2
  | case9 own' locals check' form forms names problems hbound =>
      refine ((noteAll_boundNames hbound (hevals _ List.mem_cons_self) line).seq
        ((checkParts_vouches (fun p hp => hparts p (List.mem_cons_of_mem _ hp)) line).inScope
          names)).imp fun h => ?_
      exact .prog l own h.1.1 h.1.2 (List.forall_mem_map.mpr h.2)
  | case11 test yes =>
      refine (((hparts test (by simp)).value around line).seq
        ((checkCondition_vouches line .cond test.expr).seq
          (checkParts_vouches (fun p hp => hparts p (List.mem_cons_of_mem _ hp)) line))).imp
            fun h => ?_
      exact .condThen l own h.1 (h.2.2 yes (by simp))
  | case12 test yes no =>
      refine (((hparts test (by simp)).value around line).seq
        ((checkCondition_vouches line .cond test.expr).seq
          (checkParts_vouches (fun p hp => hparts p (List.mem_cons_of_mem _ hp)) line))).imp
            fun h => ?_
      exact .condElse l own h.1 (h.2.2 yes (by simp)) (h.2.2 no (by simp))
  | case13 test form forms =>
      refine (((hparts test (by simp)).value around line).seq
        ((checkCondition_vouches line .whileLoop test.expr).seq
          (checkParts_vouches (fun p hp => hparts p (List.mem_cons_of_mem _ hp)) line))).imp
            fun h => ?_
      exact .whileLoop l own h.1 (List.forall_mem_map.mpr h.2.2)
  | case14 _ hcaught =>
      rw [Bool.or_eq_true] at hcaught
      refine ((Vouches.noteIf _ line _).seq (checkParts_vouches hparts line)).imp fun h => ?_
      match parts with
      | [] => exact .returnNull l own hcaught
      | [value] => exact .returnValue l own hcaught (h.2 value List.mem_cons_self)
      | _ :: _ :: _ => exact absurd h.1 (by simp)
  | case16 _ hcaught =>
      refine (Vouches.noteIf _ line _).imp fun h => ?_
      match parts with
      | [] => exact .breakLoop l own hcaught
      | _ :: _ => exact absurd h (by simp)
  -- What is left is not written as it should be, or stands where nothing catches it.
  | case3 | case5 | case6 | case8 | case10 | case15 | case17 | case18 =>
      exact (Vouches.note line _).imp False.elim

/-- A call of anything but `eval`, from the checks of its arguments. -/
theorem checkCall_vouches {name : String} (hne : name ≠ Builtin.eval.name)
    (hparts : ∀ p ∈ parts, p.Vouched) (line : Int) :
    Vouches (∀ p ∈ parts, WellUsed around p.expr) (checkCall around line name parts) := by
  refine .sight fun c _ => ((Vouches.noteIf _ line _).seq
    ((checkParts_vouches hparts line).seq (Q := True) ?_)).imp fun h => h.2.1
  cases c.function? name with
  | some f => exact (Vouches.noteIf _ line _).imp fun _ => trivial
  | none =>
      cases hb : Builtin.ofName? name with
      | none => exact .pure
      | some b =>
          -- Only `eval` has its argument looked at as code.
          have hb : b ≠ .eval := fun heq => hne (heq ▸ Builtin.name_of_ofName? hb).symm
          simp only [hb, if_false]
          exact .sight fun _ _ => ((Vouches.noteAll line _).seq .pure).imp fun _ => trivial

/-- A call of `eval` on a quotation looks into the data. -/
theorem checkEval_vouches {arg : Part} (harg : arg.Vouched) {l own : Option Int} {datum : Expr}
    (hquote : arg.expr = .list l [.atom own SpecialForm.quote.name, datum]) (line : Int) :
    Vouches (datum.items?.isSome = true → WellUsed around datum)
      (checkCall around line Builtin.eval.name [arg]) := by
  have hparts : ∀ p ∈ [arg], p.Vouched := fun p hp => List.mem_singleton.mp hp ▸ harg
  refine .sight fun c hc => ((Vouches.noteIf _ line _).seq
    ((checkParts_vouches hparts line).seq
      (Q := datum.items?.isSome = true → WellUsed around datum) ?_)).imp fun h => h.2.2
  rw [hc.function?, Builtin.ofName?_name]
  simp only [if_true]
  exact .sight fun _ _ => ((Vouches.noteAll line _).seq
    (harg.code around line l own datum hquote)).imp And.right

/-- A list whose items are known to hold `eval` only in front of quotations. -/
theorem checkItems_vouches {items : List Expr} (hevals : ∀ e ∈ items, EvalsQuoted e)
    (hitems : ∀ e ∈ items, Part.Vouched ⟨e, checker e⟩) (line : Int) (own : Option Int) :
    Vouches (WellUsed around (.list own items)) (checkList around line (partsOf items)) := by
  cases items with
  | nil => exact Vouches.pure.imp fun _ => .empty own
  | cons head args =>
      have hparts : ∀ p ∈ partsOf args, p.Vouched :=
        forall_mem_partsOf.mpr fun e he => hitems e (List.mem_cons_of_mem _ he)
      cases head with
      | atom own' name =>
          cases hname : SpecialForm.ofName? name with
          | some form =>
              have hspecial : Vouches (WellUsed around _) (checkSpecial around line form _) :=
                checkSpecial_vouches hparts (forall_mem_partsOf.mpr fun e he =>
                  hevals e (List.mem_cons_of_mem _ he)) line own own'
              rw [map_expr_partsOf, SpecialForm.name_of_ofName? hname] at hspecial
              simp only [partsOf, checkList, hname]
              exact hspecial
          | none =>
              have hne := (hevals _ List.mem_cons_self).atom_ne
              simp only [partsOf, checkList, hname]
              exact (checkCall_vouches hne hparts line).imp fun h =>
                .call own own' hname hne (forall_mem_partsOf.mp h)
      | integer _ _ | real _ _ | boolean _ _ | null _ | list _ _ =>
          refine ((hitems _ List.mem_cons_self).callee around line (partsOf args).length _ _
            (checkParts_vouches hparts line)).imp fun h => ?_
          exact .computed own rfl h.1 (forall_mem_partsOf.mp h.2)

/-- A list that is evaluated, from the checks of its items. -/
theorem checkList_vouches {own : Option Int} {items : List Expr}
    (hevals : EvalsQuoted (.list own items))
    (hitems : ∀ e ∈ items, EvalsQuoted e → Part.Vouched ⟨e, checker e⟩) (line : Int) :
    Vouches (WellUsed around (.list own items)) (checkList around line (partsOf items)) := by
  cases hevals with
  | literal h => exact absurd h Bool.false_ne_true
  | list _ h => exact checkItems_vouches h (fun e he => hitems e he (h e he)) line own
  | @evalQuoted _ own' line' own'' datum h =>
      -- The one argument is a quotation, and its check as code looks into the data.
      exact (checkEval_vouches (hitems _ (by simp) (h.quote line' own'')) rfl line).imp
        (.evalQuoted own own' line' own'')

/-- A function that is called on the spot, from the checks of its parts. -/
theorem checkCalledLambda_vouches (hparts : ∀ p ∈ parts, p.Vouched)
    (hevals : ∀ p ∈ parts, EvalsQuoted p.expr) {P : Prop} {args : CheckM Unit}
    (hargs : Vouches P args) (own line : Int) (count : Nat) (l own' : Option Int) :
    Vouches (WellUsed around
        (.list l (.atom own' SpecialForm.lambda.name :: parts.map Part.expr)) ∧ P)
      (checkCalledLambda own line count args parts) := by
  fun_cases checkCalledLambda own line count args parts with
  | case1 line' params check body names problems hbound =>
      refine ((noteAll_boundNames hbound (hevals _ List.mem_cons_self) line).seq
        ((Vouches.noteIf _ line _).seq (hargs.seq
          (checkBody_vouches (hparts body (by simp)) own names)))).imp fun h => ?_
      exact ⟨.lambda l own' h.1.1 h.1.2 h.2.2.2, h.2.2.1⟩
  | case2 | case3 => exact (Vouches.note line _).imp False.elim

end Lists

theorem vouched_leaf {e : Expr} {evaluated : Int → CheckM Unit} (hleaf : e.items? = none)
    (hevaluated : ∀ line, Vouches True (evaluated line)) (h : ∀ around, WellUsed around e) :
    Part.Vouched ⟨e, leafChecker evaluated⟩ where
  value around line := (hevaluated line).imp fun _ => h around
  callee around line _ _ _ hargs := ((hevaluated line).seq hargs).imp fun hP => ⟨h around, hP.2⟩
  code _ _ _ _ _ hquote := by
    subst hquote
    cases hleaf

theorem vouched_list {own : Option Int} {items : List Expr}
    (hevals : EvalsQuoted (.list own items))
    (hitems : ∀ e ∈ items, EvalsQuoted e → Part.Vouched ⟨e, checker e⟩) :
    Part.Vouched ⟨.list own items, checker (.list own items)⟩ where
  value around line := checkList_vouches hevals hitems (own.getD line)
  callee around line count args P hargs := by
    have hplain : Vouches (WellUsed around (.list own items) ∧ P)
        (do checkList around (own.getD line) (partsOf items); args) :=
      (checkList_vouches hevals hitems (own.getD line)).seq hargs
    match items with
    | .atom own' name :: rest =>
        by_cases hname : name = SpecialForm.lambda.name
        · -- A function called on the spot has a check of its own.
          subst hname
          have hrest := hevals.arguments (by decide)
          have hlambda : Vouches (WellUsed around _ ∧ P)
              (checkCalledLambda (own.getD line) line count args _) :=
            checkCalledLambda_vouches
              (forall_mem_partsOf.mpr fun e he =>
                hitems e (List.mem_cons_of_mem _ he) (hrest e he))
              (forall_mem_partsOf.mpr hrest) hargs _ line count own own'
          rw [map_expr_partsOf] at hlambda
          simp only [checker, listChecker, partsOf, if_true]
          exact hlambda
        · simp only [checker, listChecker, partsOf, hname, if_false]
          exact hplain
    | [] | .integer .. :: _ | .real .. :: _ | .boolean .. :: _ | .null .. :: _ | .list .. :: _ =>
        exact hplain
  code around line own' own'' datum hquote := by
    cases hquote
    have hdatum := hevals.arguments (by decide) datum List.mem_cons_self
    cases datum with
    | list l es =>
        simp only [checker, listChecker, partsOf, if_true]
        exact ((hitems _ (by simp) hdatum).value around line).imp fun h _ => h
    | atom _ _ | integer _ _ | real _ _ | boolean _ _ | null _ =>
        exact Vouches.pure.imp fun _ hlist => absurd hlist Bool.false_ne_true

/-- The check of an expression vouches for it. -/
theorem vouched_checker {e : Expr} (h : EvalsQuoted e) : Part.Vouched ⟨e, checker e⟩ := by
  induction e using Expr.induct with
  | atom line name =>
      exact vouched_leaf rfl (fun _ => checkName_vouches _ name) fun _ => .atom line name
  | integer _ _ | real _ _ | boolean _ _ | null _ =>
      exact vouched_leaf rfl (fun _ => .pure) fun _ => .literal rfl
  | list own items ih => exact vouched_list h ih

/-- The forms of a program are well used at the top level. -/
theorem checkForms_vouches {forms : List Form} (h : ∀ form ∈ forms, EvalsQuoted form.expr) :
    Vouches (∀ form ∈ forms, WellUsed {} form.expr) (checkForms forms) := by
  induction forms with
  | nil => exact Vouches.pure.imp fun _ form hform => absurd hform List.not_mem_nil
  | cons form forms ih =>
      refine (((vouched_checker (h form List.mem_cons_self)).value {} form.line).seq
        (ih fun f hf => h f (List.mem_cons_of_mem _ hf))).imp fun hused f hf => ?_
      rcases List.mem_cons.mp hf with rfl | hf
      · exact hused.1
      · exact hused.2 f hf

/-- A program in which the checker finds no problem is well used. -/
theorem wellUsed_of_analyze {forms : List Form} (h : ∀ form ∈ forms, EvalsQuoted form.expr)
    (hclean : (analyze forms).diagnostics = some []) :
    ∀ form ∈ forms, WellUsed {} form.expr := by
  have hfound := (analyze forms).diagnostics_eq_some_nil_iff.mp hclean
  refine ((checkForms_vouches h).found { chain := [{}] } (fun scope hmem => ?_) hfound).2
  rw [List.mem_singleton.mp hmem]
  rfl

end ListLang
