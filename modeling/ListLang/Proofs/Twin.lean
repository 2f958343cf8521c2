import ListLang.Proofs.Alike
import ListLang.Proofs.Vouch

/-!
# An Expression and What Stands in Its Place

The checks of an expression and of what folding leaves in its place concur,
whatever the expression is there for, as long as it uses no hidden name. Two
items of which this is known are twins, and lists are compared by comparing
their items: for every part of the checker there is one lemma that takes twins
to checks that concur.

For most expressions the check for one use follows from the check for another,
so the comparison is made once, for evaluation. The two exceptions are functions
that are called on the spot and quoted lists that `eval` gets.

Folding keeps every kind of list but a call that it can compute. Nothing is ever
noted about such a call: its arguments are literals, they fit the builtin, and
no function that the checker knows of has its name.

## Main definitions

* `Use.Alike`: Uses for the same thing.
* `Part.Twin`: Items whose checks concur, whatever their use.
* `SpecialForm.takes`: The numbers of arguments that a check can do with.
* `Checker.Plain`: Checks that follow from the check for evaluation.

## Theorems

* `concur_setq`, `concur_func`, `concur_special`: Special forms, from twins of
  their items.
* `concur_call`, `concur_calledLambda`: Calls, from twins of their items.
* `FoldedCall.check_silent`: Nothing is noted about a folded call.
* `alike_quote`, `alike_special`, `alike_list`: Lists in all their uses.
* `twin_checker`: An expression and what stands in its place are twins.
-/

namespace ListLang

open CheckM

variable {bound hidden : List String}

/-! ### Items -/

/-- Uses for the same thing. The checks of arguments concur. -/
inductive Use.Alike (bound hidden : List String) : Use → Use → Prop where
  | value : Alike bound hidden .value .value
  | callee (count : Nat) {x y : CheckM Unit} (h : Concur bound hidden x y) :
      Alike bound hidden (.callee count x) (.callee count y)
  | code : Alike bound hidden .code .code

/-- Two items that look alike to a check and whose own checks concur. -/
structure Part.Twin (bound hidden : List String) (p p' : Part) : Prop where
  line : p'.expr.line = p.expr.line
  name : p'.expr.atomName? = p.expr.atomName?
  type : ∀ {c c' : Chain}, c.Alike bound hidden c' →
    inferType c 0 p.expr = inferType c' 0 p'.expr
  check : ∀ {use use' : Use}, use.Alike bound hidden use' → ∀ around line,
    Concur bound hidden (p.check use around line) (p'.check use' around line)

section Items

variable {p p' : Part} {ps ps' : List Part}

theorem concur_parts (h : List.Forall₂ (Part.Twin bound hidden) ps ps') (around : Surroundings)
    (line : Int) :
    Concur bound hidden (checkParts around line ps) (checkParts around line ps') := by
  induction h with
  | nil => exact .pure
  | cons hp _ ih => exact (hp.check .value around line).seq ih

theorem concur_body (h : p.Twin bound hidden p') (line : Int) (names : List String) :
    Concur bound hidden (checkBody line names p) (checkBody line names p') :=
  .inScope names (h.check .value .body line)

theorem concur_condition (h : p.Twin bound hidden p') (line : Int) (form : SpecialForm) :
    Concur bound hidden (checkCondition line form p.expr) (checkCondition line form p'.expr) := by
  refine .sight fun c c' hc => ?_
  simp only []
  rw [h.type hc, h.line]
  exact .noteIf _ _ _

end Items

/-! ### Special Forms

What a special form does with the names it binds depends on whether there are
names. -/

section Special

variable (around : Surroundings) (line : Int)

theorem checkSpecial_setq (target value : Part) :
    checkSpecial around line .setq [target, value] = match target.expr.atomName? with
      | some name => do
          value.check .value around line
          let chain ← CheckM.sight
          updateScope fun s => s.defineVariable name (inferType chain 0 value.expr)
      | none => note line (.targetNotAtom .setq) := by
  rcases target with ⟨e, _⟩
  cases e <;> rfl

theorem checkSpecial_func (target params body : Part) :
    checkSpecial around line .func [target, params, body] =
      match target.expr.atomName?, params.expr.items? with
      | some name, some items => do
          noteAll line (boundNames .func items).2
          updateScope fun s => s.defineFunction name ⟨(boundNames .func items).1, body.expr⟩
          checkBody line (boundNames .func items).1 body
      | some _, none => note line (.namesNotList .func)
      | none, _ => note line (.targetNotAtom .func) := by
  rcases target with ⟨e, _⟩
  rcases params with ⟨f, _⟩
  cases e <;> cases f <;> rfl

theorem checkSpecial_lambda (params body : Part) :
    checkSpecial around line .lambda [params, body] = match params.expr.items? with
      | some items => do
          noteAll line (boundNames .lambda items).2
          checkBody line (boundNames .lambda items).1 body
      | none => note line (.namesNotList .lambda) := by
  rcases params with ⟨e, _⟩
  cases e <;> rfl

theorem checkSpecial_prog (locals form : Part) (forms : List Part) :
    checkSpecial around line .prog (locals :: form :: forms) = match locals.expr.items? with
      | some items => do
          noteAll line (boundNames .prog items).2
          CheckM.inScope (.ofNames (boundNames .prog items).1)
            (checkParts { around with inProg := true } line (form :: forms))
      | none => note line (.namesNotList .prog) := by
  rcases locals with ⟨e, _⟩
  cases e <;> rfl

theorem checkCalledLambda_two (own : Int) (count : Nat) (args : CheckM Unit)
    (params body : Part) :
    checkCalledLambda own line count args [params, body] = match params.expr.items? with
      | some items => do
          noteAll line (boundNames .lambda items).2
          noteIf ((boundNames .lambda items).1.length ≠ count) line
            (.calledLambdaArity (boundNames .lambda items).1.length count)
          args
          checkBody own (boundNames .lambda items).1 body
      | none => note line .calledLambdaParams := by
  rcases params with ⟨e, _⟩
  cases e <;> rfl

end Special

/-- Whether a check can do with the number of arguments. -/
def SpecialForm.takes : SpecialForm → Nat → Bool
  | .quote, 1 | .setq, 2 | .func, 3 | .lambda, 2 | .cond, 2 | .cond, 3 => true
  | .prog, _ + 2 | .whileLoop, _ + 2 | .returnValue, _ | .breakLoop, _ => true
  | _, _ => false

section Forms

variable (around : Surroundings) (line : Int)

/-- Any other number of arguments is all that is noted. -/
theorem checkSpecial_of_not_takes {form : SpecialForm} {ps : List Part}
    (h : form.takes ps.length = false) :
    checkSpecial around line form ps = note line (.formArity form ps.length) := by
  fun_cases checkSpecial around line form ps
  case case18 => rfl
  all_goals cases h

theorem concur_of_not_takes {form : SpecialForm} {ps ps' : List Part}
    (hlength : ps.length = ps'.length) (h : form.takes ps.length = false) :
    Concur bound hidden (checkSpecial around line form ps)
      (checkSpecial around line form ps') := by
  rw [checkSpecial_of_not_takes around line h,
    checkSpecial_of_not_takes around line (hlength ▸ h), hlength]
  exact .note _ _

/-- An assignment records the same type under the same name. The target itself is
    not checked. -/
theorem concur_setq {target target' value value' : Part}
    (htarget : target'.expr.atomName? = target.expr.atomName?)
    (hvalue : value.Twin bound hidden value') :
    Concur bound hidden (checkSpecial around line .setq [target, value])
      (checkSpecial around line .setq [target', value']) := by
  rw [checkSpecial_setq, checkSpecial_setq, htarget]
  split
  · refine (hvalue.check .value around line).seq (.sight fun c c' hc => ?_)
    rw [hvalue.type hc]
    exact .updateScope fun a b hab => hab.defineVariable _ _
  · exact .note _ _

theorem concur_func {target target' params params' body body' : Part}
    (htarget : target'.expr.atomName? = target.expr.atomName?)
    (hname : ∀ name, target.expr.atomName? = some name → isFoldableName name = true →
      name ∈ bound)
    (hparams : params'.expr = params.expr) (hbody : body.Twin bound hidden body') :
    Concur bound hidden (checkSpecial around line .func [target, params, body])
      (checkSpecial around line .func [target', params', body']) := by
  rw [checkSpecial_func, checkSpecial_func, htarget, hparams]
  split
  · rename_i name items hatom _
    refine (Concur.noteAll _ _).seq (.seq (.updateScope fun a b hab => ?_) (concur_body hbody _ _))
    exact hab.defineFunction (hname name hatom) rfl
  · exact .note _ _
  · exact .note _ _

theorem concur_lambda {params params' body body' : Part} (hparams : params'.expr = params.expr)
    (hbody : body.Twin bound hidden body') :
    Concur bound hidden (checkSpecial around line .lambda [params, body])
      (checkSpecial around line .lambda [params', body']) := by
  rw [checkSpecial_lambda, checkSpecial_lambda, hparams]
  split
  · exact (Concur.noteAll _ _).seq (concur_body hbody _ _)
  · exact .note _ _

theorem concur_prog {locals locals' form form' : Part} {forms forms' : List Part}
    (hlocals : locals'.expr = locals.expr) (hform : form.Twin bound hidden form')
    (hforms : List.Forall₂ (Part.Twin bound hidden) forms forms') :
    Concur bound hidden (checkSpecial around line .prog (locals :: form :: forms))
      (checkSpecial around line .prog (locals' :: form' :: forms')) := by
  rw [checkSpecial_prog, checkSpecial_prog, hlocals]
  split
  · exact (Concur.noteAll _ _).seq (.inScope _ (concur_parts (.cons hform hforms) _ _))
  · exact .note _ _

/-- A special form that looks into all its arguments. Where it binds names, the
    same names stand. -/
theorem concur_special {form : SpecialForm} (hquote : form ≠ .quote) (hsetq : form ≠ .setq)
    {ps ps' : List Part} (h : List.Forall₂ (Part.Twin bound hidden) ps ps')
    (hwritten : form.written? (ps'.map Part.expr) = form.written? (ps.map Part.expr))
    (hname : form = .func → ∀ target ∈ ps.head?, ∀ name, target.expr.atomName? = some name →
      isFoldableName name = true → name ∈ bound) :
    Concur bound hidden (checkSpecial around line form ps)
      (checkSpecial around line form ps') := by
  have hlength := h.length_eq
  by_cases htakes : form.takes ps.length = true
  · cases form with
    | quote => exact absurd rfl hquote
    | setq => exact absurd rfl hsetq
    | func =>
        rcases h with _ | ⟨htarget, _ | ⟨_, _ | ⟨hbody, _ | ⟨_, _⟩⟩⟩⟩
        · cases htakes
        · cases htakes
        · cases htakes
        · exact concur_func around line htarget.name (hname rfl _ rfl) (Option.some.inj hwritten)
            hbody
        · cases htakes
    | lambda =>
        rcases h with _ | ⟨_, _ | ⟨hbody, _ | ⟨_, _⟩⟩⟩
        · cases htakes
        · cases htakes
        · exact concur_lambda around line (Option.some.inj hwritten) hbody
        · cases htakes
    | prog =>
        rcases h with _ | ⟨_, _ | ⟨hform, hforms⟩⟩
        · cases htakes
        · cases htakes
        · exact concur_prog around line (Option.some.inj hwritten) hform hforms
    | cond =>
        rcases h with _ | ⟨htest, _ | ⟨hyes, _ | ⟨hno, _ | ⟨_, _⟩⟩⟩⟩
        · cases htakes
        · cases htakes
        · exact (htest.check .value around line).seq ((concur_condition htest line .cond).seq
            (concur_parts (.cons hyes .nil) around line))
        · exact (htest.check .value around line).seq ((concur_condition htest line .cond).seq
            (concur_parts (.cons hyes (.cons hno .nil)) around line))
        · cases htakes
    | whileLoop =>
        rcases h with _ | ⟨htest, _ | ⟨hform, hforms⟩⟩
        · cases htakes
        · cases htakes
        · exact (htest.check .value around line).seq ((concur_condition htest line .whileLoop).seq
            (concur_parts (.cons hform hforms) _ line))
    | returnValue =>
        simp only [checkSpecial, hlength]
        split
        · exact (Concur.noteIf _ _ _).seq (concur_parts h around line)
        · exact .note _ _
    | breakLoop =>
        simp only [checkSpecial, hlength]
        split
        · exact .noteIf _ _ _
        · exact .note _ _
  · exact concur_of_not_takes around line hlength (Bool.eq_false_iff.mpr htakes)

end Forms

/-! ### Calls -/

section Calls

variable {ps ps' : List Part} (h : List.Forall₂ (Part.Twin bound hidden) ps ps')
  (around : Surroundings) (line : Int)

include h in
theorem concur_evaluated :
    Concur bound hidden (checkEvaluated around line ps) (checkEvaluated around line ps') := by
  rcases h with _ | ⟨harg, _ | ⟨_, _⟩⟩
  · exact .pure
  · exact harg.check .code around line
  · exact .pure

include h in
theorem inferTypes_eq {c c' : Chain} (hc : c.Alike bound hidden c') :
    inferTypes c 0 (ps.map (·.expr)) = inferTypes c' 0 (ps'.map (·.expr)) := by
  rw [inferTypes_eq_map, inferTypes_eq_map, List.map_map, List.map_map]
  exact map_eq_map_of_forall₂ (h.imp fun _ _ hp => hp.type hc)

include h in
/-- A call of a name that is not hidden. -/
theorem concur_call {name : String} (hname : name ∉ hidden) :
    Concur bound hidden (checkCall around line name ps) (checkCall around line name ps') := by
  refine .sight fun c c' hc => ?_
  simp only []
  rw [hc.typeOf?_eq hname]
  have hparams := hc.params_eq name
  -- Both sides know a function of the name, or neither does.
  generalize c.function? name = f, c'.function? name = g at hparams ⊢
  rcases f with _ | f
  · rcases g with _ | g
    · refine (Concur.noteIf _ _ _).seq ((concur_parts h around line).seq ?_)
      cases Builtin.ofName? name with
      | none => exact .pure
      | some b =>
          refine .sight fun c c' hc => ?_
          rw [inferTypes_eq h hc]
          refine (Concur.noteAll _ _).seq ?_
          split
          · exact concur_evaluated h around line
          · exact .pure
    · cases hparams
  · rcases g with _ | g
    · cases hparams
    · refine (Concur.noteIf _ _ _).seq ((concur_parts h around line).seq ?_)
      simp only []
      rw [Option.some.inj hparams, h.length_eq]
      exact .noteIf _ _ _

end Calls

/-- Nothing is ever noted about a literal. -/
theorem checker_of_isLiteral {e : Expr} (h : e.isLiteral = true) :
    checker e = leafChecker fun _ => pure () := by
  cases e with
  | integer _ _ | real _ _ | boolean _ _ | null _ => rfl
  | atom _ _ | list _ _ => exact absurd h Bool.false_ne_true

theorem checkParts_of_isLiteral {es : List Expr} (h : ∀ e ∈ es, e.isLiteral = true)
    (around : Surroundings) (line : Int) :
    checkParts around line (partsOf es) = pure () := by
  induction es with
  | nil => rfl
  | cons e es ih =>
      rw [partsOf, checkParts, checker_of_isLiteral (h e List.mem_cons_self),
        ih fun f hf => h f (List.mem_cons_of_mem _ hf)]
      rfl

/-- Nothing is noted about a folded call, unless a function has the name of the
    builtin. -/
theorem FoldedCall.check_silent {b : Builtin} {args : List Expr} {literal : Expr}
    (h : FoldedCall b args literal) (hfoldable : b.isFoldable = true) {name : String}
    (hb : Builtin.ofName? name = some b) (around : Surroundings) (line : Int) {s : Checking}
    (hs : s.chain.function? name = none) :
    ((checkCall around line name (partsOf args)).run s).2 = s := by
  have hparts := checkParts_of_isLiteral h.args_isLiteral around line
  have hproblems := (h.signature hfoldable s.chain).1
  have hsight : ∀ f : Chain → CheckM Unit, (CheckM.sight >>= f).run s = (f s.chain).run s :=
    fun _ => rfl
  rw [checkCall, hsight]
  simp only [hs, hb, hparts, Option.isNone_some, Bool.false_and, noteIf, Bool.false_eq_true,
    ↓reduceIte, pure_bind]
  rw [hsight, map_expr_partsOf, hproblems, if_neg h.ne_eval]
  exact congrArg (Checking.mk s.chain) (List.append_nil s.found)

/-! ### Lists -/

/-- A check whose other uses follow from the check for evaluation. -/
structure Checker.Plain (k : Checker) : Prop where
  callee : ∀ count args around line,
    k (.callee count args) around line = (do k .value around line; args)
  code : ∀ around line, k .code around line = pure ()

theorem Checker.Plain.alike {k k' : Checker} (hk : k.Plain) (hk' : k'.Plain)
    (h : ∀ around line, Concur bound hidden (k .value around line) (k' .value around line))
    {use use' : Use} (huse : use.Alike bound hidden use') (around : Surroundings) (line : Int) :
    Concur bound hidden (k use around line) (k' use' around line) := by
  cases huse with
  | value => exact h around line
  | callee count hargs =>
      rw [hk.callee, hk'.callee]
      exact (h around line).seq hargs
  | code =>
      rw [hk.code, hk'.code]
      exact .pure

theorem plain_leaf (evaluated : Int → CheckM Unit) : (leafChecker evaluated).Plain :=
  ⟨fun _ _ _ _ => rfl, fun _ _ => rfl⟩

theorem plain_empty (own : Option Int) : (listChecker own []).Plain :=
  ⟨fun _ _ _ _ => rfl, fun _ _ => rfl⟩

theorem plain_computed (own : Option Int) {head : Part} (h : head.expr.atomName? = none)
    (args : List Part) : (listChecker own (head :: args)).Plain := by
  rcases head with ⟨e, _⟩
  cases e with
  | atom _ _ => cases h
  | integer _ _ | real _ _ | boolean _ _ | null _ | list _ _ =>
      exact ⟨fun _ _ _ _ => rfl, fun _ _ => rfl⟩

/-- Only a quotation is code for `eval`. -/
theorem listChecker_code (own l : Option Int) {name : String} (k : Checker) (args : List Part)
    (h : SpecialForm.ofName? name ≠ some .quote) (around : Surroundings) (line : Int) :
    listChecker own (⟨.atom l name, k⟩ :: args) .code around line = pure () := by
  simp only [listChecker]
  split
  · rename_i heq
    cases heq
    refine if_neg ?_
    rintro rfl
    exact h (SpecialForm.ofName?_name .quote)
  · rfl

/-- Only functions and quotations have other uses. -/
theorem plain_named (own l : Option Int) {name : String} (k : Checker) (args : List Part)
    (hlambda : SpecialForm.ofName? name ≠ some .lambda)
    (hquote : SpecialForm.ofName? name ≠ some .quote) :
    (listChecker own (⟨.atom l name, k⟩ :: args)).Plain := by
  refine ⟨fun count x around line => ?_, listChecker_code own l k args hquote⟩
  have hne : name ≠ SpecialForm.lambda.name := by
    rintro rfl
    exact hlambda (SpecialForm.ofName?_name .lambda)
  simp only [listChecker, hne, ↓reduceIte]

theorem checkList_computed {head : Part} (h : head.expr.atomName? = none) (args : List Part)
    (around : Surroundings) (line : Int) :
    checkList around line (head :: args) =
      head.check (.callee args.length (checkParts around line args)) around line := by
  rcases head with ⟨e, _⟩
  cases e with
  | atom _ _ => cases h
  | integer _ _ | real _ _ | boolean _ _ | null _ | list _ _ => rfl

theorem checkCalledLambda_of_length_ne {ps : List Part} (h : ps.length ≠ 2) (own line : Int)
    (count : Nat) (args : CheckM Unit) :
    checkCalledLambda own line count args ps = note line .calledLambdaShape := by
  fun_cases checkCalledLambda own line count args ps with
  | case1 | case2 => exact absurd rfl h
  | case3 => rfl

/-- A function that is called on the spot. -/
theorem concur_calledLambda {ps ps' : List Part}
    (h : List.Forall₂ (Part.Twin bound hidden) ps ps')
    (hwritten : SpecialForm.lambda.written? (ps'.map Part.expr) =
      SpecialForm.lambda.written? (ps.map Part.expr)) (own line : Int) (count : Nat)
    {x y : CheckM Unit} (hxy : Concur bound hidden x y) :
    Concur bound hidden (checkCalledLambda own line count x ps)
      (checkCalledLambda own line count y ps') := by
  by_cases hlength : ps.length = 2
  · rcases forall₂_length_two h hlength with
      ⟨params, body, params', body', rfl, rfl, _, hbody⟩
    have hparams : params'.expr = params.expr := Option.some.inj hwritten
    rw [checkCalledLambda_two, checkCalledLambda_two, hparams]
    split
    · exact (Concur.noteAll _ _).seq ((Concur.noteIf _ _ _).seq
        (hxy.seq (concur_body hbody _ _)))
    · exact .note _ _
  · rw [checkCalledLambda_of_length_ne hlength,
      checkCalledLambda_of_length_ne (h.length_eq ▸ hlength)]
    exact .note _ _

section Lists

variable {line own : Option Int} {name : String} {args args' : List Expr}

/-- Items with twins have twins as parts. -/
theorem twins_partsOf (h : List.Forall₂ (fun e e' =>
      Part.Twin bound hidden ⟨e, checker e⟩ ⟨e', checker e'⟩) args args') :
    List.Forall₂ (Part.Twin bound hidden) (partsOf args) (partsOf args') := by
  rw [partsOf_eq_map, partsOf_eq_map, List.forall₂_map_left_iff, List.forall₂_map_right_iff]
  exact h

theorem length_partsOf_eq (h : List.Forall₂ (Folded bound) args args') :
    (partsOf args).length = (partsOf args').length := by
  rw [partsOf_eq_map, partsOf_eq_map, List.length_map, List.length_map, h.length_eq]

/-- A quotation is looked into only where `eval` gets it, and then it is as it
    was written. -/
theorem alike_quote (hargs : List.Forall₂ (Folded bound) args args')
    (hwritten : SpecialForm.quote.written? args' = SpecialForm.quote.written? args)
    (hdatum : ∀ e ∈ args, Part.Twin bound hidden ⟨e, checker e⟩ ⟨e, checker e⟩)
    {use use' : Use} (huse : use.Alike bound hidden use') (around : Surroundings) (l : Int) :
    Concur bound hidden
      (checker (.list line (.atom own SpecialForm.quote.name :: args)) use around l)
      (checker (.list line (.atom own SpecialForm.quote.name :: args')) use' around l) := by
  have hlength := length_partsOf_eq hargs
  have hvalue : Concur bound hidden
      (checkSpecial around (line.getD l) .quote (partsOf args))
      (checkSpecial around (line.getD l) .quote (partsOf args')) := by
    rcases hargs with _ | ⟨_, _ | ⟨_, _⟩⟩
    · exact concur_of_not_takes around _ hlength rfl
    · exact .pure
    · exact concur_of_not_takes around _ hlength rfl
  cases huse with
  | value => exact hvalue
  | callee count hxy => exact hvalue.seq hxy
  | code =>
      rcases hargs with _ | ⟨_, _ | ⟨_, _⟩⟩
      · exact .pure
      · cases hwritten
        rename_i e _
        have htwin := (hdatum e List.mem_cons_self).check .value around l
        cases e with
        | list _ _ => exact htwin
        | atom _ _ | integer _ _ | real _ _ | boolean _ _ | null _ => exact .pure
      · simp only [checker, listChecker, partsOf]
        exact .pure

theorem checkList_special {form : SpecialForm} (h : SpecialForm.ofName? name = some form)
    (k : Checker) (ps : List Part) (around : Surroundings) (l : Int) :
    checkList around l (⟨.atom own name, k⟩ :: ps) = checkSpecial around l form ps := by
  simp only [checkList, h]

theorem checkList_call (h : SpecialForm.ofName? name = none) (k : Checker) (ps : List Part)
    (around : Surroundings) (l : Int) :
    checkList around l (⟨.atom own name, k⟩ :: ps) = checkCall around l name ps := by
  simp only [checkList, h]

/-- A special form other than an assignment or a quotation that is evaluated. -/
theorem concur_form {form : SpecialForm} (hname : SpecialForm.ofName? name = some form)
    (hquote : form ≠ .quote) (hsetq : form ≠ .setq)
    (hparts : List.Forall₂ (Part.Twin bound hidden) (partsOf args) (partsOf args'))
    (hwritten : form.written? args' = form.written? args)
    (hbound : rebound (.list line (.atom own name :: args)) ⊆ bound)
    (around : Surroundings) (l : Int) :
    Concur bound hidden (checkSpecial around l form (partsOf args))
      (checkSpecial around l form (partsOf args')) := by
  refine concur_special around l hquote hsetq hparts ?_ ?_
  · rw [map_expr_partsOf, map_expr_partsOf, hwritten]
  · -- A function is recorded under a name that the form binds.
    rintro rfl target htarget f hf hfoldable
    have hnone := isQuotation_eq_false (by rw [hname]; exact nofun) own args
    cases args with
    | nil => cases htarget
    | cons e rest =>
        cases htarget
        exact mem_of_bindingPlace hbound hnone (mem_bindingPlaces_func hname own e rest) hf
          hfoldable

/-- An assignment that is evaluated. The target may be hidden, so only the value
    has a twin. -/
theorem concur_assignment (hargs : List.Forall₂ (Folded bound) args args')
    (hvalue : ∀ target value value', args = [target, value] → Folded bound value value' →
      Part.Twin bound hidden ⟨value, checker value⟩ ⟨value', checker value'⟩)
    (around : Surroundings) (l : Int) :
    Concur bound hidden (checkSpecial around l .setq (partsOf args))
      (checkSpecial around l .setq (partsOf args')) := by
  have hlength := length_partsOf_eq hargs
  rcases hargs with _ | ⟨htarget, _ | ⟨h, _ | ⟨_, _⟩⟩⟩
  · exact concur_of_not_takes around l hlength rfl
  · exact concur_of_not_takes around l hlength rfl
  · exact concur_setq around l htarget.atomName?_eq (hvalue _ _ _ rfl h)
  · exact concur_of_not_takes around l hlength rfl

/-- A function, which may be called on the spot. -/
theorem alike_lambda
    (hparts : List.Forall₂ (Part.Twin bound hidden) (partsOf args) (partsOf args'))
    (hwritten : SpecialForm.lambda.written? args' = SpecialForm.lambda.written? args)
    (hbound : rebound (.list line (.atom own SpecialForm.lambda.name :: args)) ⊆ bound)
    {use use' : Use} (huse : use.Alike bound hidden use') (around : Surroundings) (l : Int) :
    Concur bound hidden
      (checker (.list line (.atom own SpecialForm.lambda.name :: args)) use around l)
      (checker (.list line (.atom own SpecialForm.lambda.name :: args')) use' around l) := by
  have hname := SpecialForm.ofName?_name .lambda
  cases huse with
  | value => exact concur_form hname nofun nofun hparts hwritten hbound around (line.getD l)
  | callee count hxy =>
      refine concur_calledLambda hparts ?_ _ l count hxy
      rw [map_expr_partsOf, map_expr_partsOf, hwritten]
  | code =>
      have hcode := SpecialForm.ofName?_ne hname (show SpecialForm.lambda ≠ .quote from nofun)
      simp only [checker, partsOf, listChecker_code _ _ _ _ hcode]
      exact .pure

/-- A special form, from twins of the items that are evaluated. -/
theorem alike_special {form : SpecialForm} (hname : SpecialForm.ofName? name = some form)
    (hargs : List.Forall₂ (Folded bound) args args')
    (hwritten : form.written? args' = form.written? args)
    (hbound : rebound (.list line (.atom own name :: args)) ⊆ bound)
    (hspares : Spares hidden (.list line (.atom own name :: args)))
    (ih : ∀ e ∈ args, ∀ e', rebound e ⊆ bound → Spares hidden e → Folded bound e e' →
      Part.Twin bound hidden ⟨e, checker e⟩ ⟨e', checker e'⟩)
    {use use' : Use} (huse : use.Alike bound hidden use') (around : Surroundings) (l : Int) :
    Concur bound hidden (checker (.list line (.atom own name :: args)) use around l)
      (checker (.list line (.atom own name :: args')) use' around l) := by
  have hrebound : ∀ e ∈ args, rebound e ⊆ bound := fun e he => rebound_argument hbound he
  have hspared : form ≠ .setq → ∀ e ∈ args, Spares hidden e := by
    intro hne e he
    have hassigns := assignsName_of_ne_setq (SpecialForm.ofName?_ne hname hne) own args
    exact hspares.item hassigns (List.mem_cons_of_mem _ he)
  have hparts : form ≠ .setq →
      List.Forall₂ (Part.Twin bound hidden) (partsOf args) (partsOf args') := by
    intro hne
    exact twins_partsOf (forall₂_imp_mem hargs fun e he e' h =>
      ih e he e' (hrebound e he) (hspared hne e he) h)
  by_cases hquote : form = .quote
  · subst hquote
    obtain rfl := SpecialForm.name_of_ofName? hname
    exact alike_quote hargs hwritten
      (fun e he => ih e he e (hrebound e he) (hspared nofun e he) (.refl e)) huse around l
  · by_cases hlambda : form = .lambda
    · subst hlambda
      obtain rfl := SpecialForm.name_of_ofName? hname
      exact alike_lambda (hparts nofun) hwritten hbound huse around l
    · have hplain : ∀ args, Checker.Plain (checker (.list line (.atom own name :: args))) :=
        fun args => plain_named line own _ _ (SpecialForm.ofName?_ne hname hlambda)
          (SpecialForm.ofName?_ne hname hquote)
      refine (hplain args).alike (hplain args') (fun around l => ?_) huse around l
      simp only [checker, listChecker, partsOf, checkList_special hname]
      by_cases hsetq : form = .setq
      · subst hsetq
        refine concur_assignment hargs (fun target value value' heq h => ?_) around _
        subst heq
        exact ih value (by simp) value' (hrebound value (by simp))
          (hspares.value List.mem_cons_self) h
      · exact concur_form hname hquote hsetq (hparts hsetq) hwritten hbound around _

/-- A folded call and the literal in its place. -/
theorem concur_literal (hname : name ∉ hidden) {b : Builtin}
    (hb : Builtin.ofName? name = some b) (hfoldable : b.isFoldable = true) (hfree : name ∉ bound)
    {literal : Expr} (hcall : FoldedCall b (args.map (fold bound)) literal)
    (hparts : List.Forall₂ (Part.Twin bound hidden) (partsOf args)
      (partsOf (args.map (fold bound)))) (around : Surroundings) (l : Int) :
    Concur bound hidden (checkCall around l name (partsOf args)) (pure ()) := by
  intro s t hst
  have hfunction :=
    (hst.chain.function?_eq_none (isFoldableName_of_ofName? hb hfoldable) hfree).2
  -- Before its call is replaced, the folded arguments are checked like the others.
  have hsteps := concur_call hparts around l hname s t hst
  rw [hcall.check_silent hfoldable hb around l hfunction] at hsteps
  exact hsteps

/-- A call of a function that is computed first. -/
theorem alike_computed {head head' : Expr} (hhead : head.atomName? = none)
    (hhead' : head'.atomName? = none)
    (htwin : Part.Twin bound hidden ⟨head, checker head⟩ ⟨head', checker head'⟩)
    (hparts : List.Forall₂ (Part.Twin bound hidden) (partsOf args) (partsOf args'))
    {use use' : Use} (huse : use.Alike bound hidden use') (around : Surroundings) (l : Int) :
    Concur bound hidden (checker (.list line (head :: args)) use around l)
      (checker (.list line (head' :: args')) use' around l) := by
  refine (plain_computed line hhead _).alike (plain_computed line hhead' _)
    (fun around l => ?_) huse around l
  simp only [listChecker]
  rw [checkList_computed hhead, checkList_computed hhead', hparts.length_eq]
  exact htwin.check (.callee _ (concur_parts hparts around _)) around _

/-- A list and what stands in its place, from twins of the items. -/
theorem alike_list {items : List Expr} {e' : Expr}
    (hbound : rebound (.list line items) ⊆ bound) (hspares : Spares hidden (.list line items))
    (h : Folded bound (.list line items) e')
    (ih : ∀ e ∈ items, ∀ e', rebound e ⊆ bound → Spares hidden e → Folded bound e e' →
      Part.Twin bound hidden ⟨e, checker e⟩ ⟨e', checker e'⟩)
    {use use' : Use} (huse : use.Alike bound hidden use') (around : Surroundings) (l : Int) :
    Concur bound hidden (checker (.list line items) use around l)
      (checker e' use' around l) := by
  -- The name of a call is used, and all its arguments are evaluated.
  have hcalled : ∀ {own name args args'}, items = .atom own name :: args →
      SpecialForm.ofName? name = none → List.Forall₂ (Folded bound) args args' →
      name ∉ hidden ∧
        List.Forall₂ (Part.Twin bound hidden) (partsOf args) (partsOf args') := by
    rintro own name args args' rfl hname hargs
    have hassigns := assignsName_of_ne_setq (by rw [hname]; exact nofun) own args
    refine ⟨(hspares.item hassigns List.mem_cons_self).atom, twins_partsOf ?_⟩
    refine forall₂_imp_mem hargs fun e he e' h => ?_
    exact ih e (List.mem_cons_of_mem _ he) e' (rebound_argument hbound he)
      (hspares.item hassigns (List.mem_cons_of_mem _ he)) h
  cases h.stands with
  | leaf hnone => cases hnone
  | empty _ => exact (plain_empty line).alike (plain_empty line) (fun _ _ => .pure) huse around l
  | @computed _ head head' args args' hhead hhead' hfolded hargs =>
      have hassigns := assignsName_of_computed hhead args
      have hquote := isQuotation_of_computed hhead args
      have htwin : ∀ e ∈ head :: args, ∀ e', Folded bound e e' →
          Part.Twin bound hidden ⟨e, checker e⟩ ⟨e', checker e'⟩ := fun e he e' h =>
        ih e he e' (rebound_item hbound hquote he) (hspares.item hassigns he) h
      have hparts := twins_partsOf (forall₂_imp_mem hargs fun e he e' h =>
        htwin e (List.mem_cons_of_mem _ he) e' h)
      exact alike_computed hhead hhead' (htwin head List.mem_cons_self head' hfolded) hparts huse
        around l
  | @call _ own name args args' hname hargs =>
      have hplain : ∀ args, Checker.Plain (checker (.list line (.atom own name :: args))) :=
        fun args => plain_named line own _ _ (by rw [hname]; exact nofun)
          (by rw [hname]; exact nofun)
      refine (hplain args).alike (hplain args') (fun around l => ?_) huse around l
      simp only [checker, listChecker, partsOf, checkList_call hname]
      exact concur_call (hcalled rfl hname hargs).2 around _ (hcalled rfl hname hargs).1
  | @literal _ own name b args _ hname hb hfoldable hfree hcall _ =>
      have hplain : Checker.Plain (checker (.list line (.atom own name :: args))) :=
        plain_named line own _ _ (by rw [hname]; exact nofun) (by rw [hname]; exact nofun)
      rw [checker_of_isLiteral hcall.isLiteral]
      refine hplain.alike (plain_leaf _) (fun around l => ?_) huse around l
      simp only [checker, listChecker, partsOf, checkList_call hname]
      exact concur_literal (hcalled rfl hname (folded_map args)).1 hb hfoldable hfree hcall
        (hcalled rfl hname (folded_map args)).2 around _
  | special _ own hname hargs hwritten =>
      exact alike_special hname hargs hwritten hbound hspares
        (fun e he => ih e (List.mem_cons_of_mem _ he)) huse around l

end Lists

/-! ### Expressions -/

theorem concur_name {name : String} (h : name ∉ hidden) (line : Int) :
    Concur bound hidden (checkName line name) (checkName line name) := by
  refine .sight fun c c' hc => ?_
  simp only []
  rw [hc.typeOf?_eq h, hc.isSome_function?_eq name]
  exact .noteIf _ _ _

/-- Folding keeps all that other checks see of an expression. -/
theorem Folded.twin {e e' : Expr} (h : Folded bound e e') (hbound : rebound e ⊆ bound)
    (hspares : Spares hidden e)
    (hcheck : ∀ {use use' : Use}, use.Alike bound hidden use' → ∀ around line,
      Concur bound hidden (checker e use around line) (checker e' use' around line)) :
    Part.Twin bound hidden ⟨e, checker e⟩ ⟨e', checker e'⟩ :=
  ⟨h.line_eq, h.atomName?_eq, fun hc => h.inferType_eq hc hbound hspares 0, hcheck⟩

/-- An expression and what stands in its place are twins. -/
theorem twin_checker {e e' : Expr} (hbound : rebound e ⊆ bound) (hspares : Spares hidden e)
    (h : Folded bound e e') : Part.Twin bound hidden ⟨e, checker e⟩ ⟨e', checker e'⟩ := by
  induction e using Expr.induct generalizing e' with
  | list line items ih =>
      refine h.twin hbound hspares ?_
      exact alike_list hbound hspares h fun e he e' hbound hspares h => ih e he hbound hspares h
  | atom line name =>
      obtain rfl := h.eq_of_leaf rfl
      exact h.twin hbound hspares ((plain_leaf _).alike (plain_leaf _)
        fun _ l => concur_name hspares.atom (line.getD l))
  | integer _ _ | real _ _ | boolean _ _ | null _ =>
      obtain rfl := h.eq_of_leaf rfl
      exact h.twin hbound hspares ((plain_leaf _).alike (plain_leaf _) fun _ _ => .pure)

end ListLang
