import ListLang.Eval.Evaluate
import ListLang.Proofs.Marks.Basic
import ListLang.Proofs.Simulation.Call

/-!
# Evaluation Goes by Anything but Lines

Changing the marks in an expression and in the store and then evaluating gives
what evaluating first and changing the marks then gives: the value, the store
and the way of leaving early, the line of an error included. No budget is needed
for this and nothing is left out. Evaluation that gives up does so in the same
way and at the same point.

As a consequence, the line of an error does not come out of nowhere. A change
that leaves all marks of the expression and the store alone leaves the line of
the error alone, so that line is one of these marks.

## Main definitions

* `Exit.remarked`, `resultRemarked`: Changing the marks in exits and results.
* `Commutes`: A computation on changed marks does what another does before the
  change.

## Theorems

* `Builtin.apply_remarked`: Builtins do not look at marks.
* `commutes_special`, `commutes_step`: Nor does one level of evaluation.
* `evaluateWithin_remarked`: Evaluation commutes with changing the marks.
* `evaluateWithin_line`: The line of an error is a mark.
* `evaluateWithin_marks`: Evaluation makes no marks.
-/

namespace ListLang

/-- An exit with its marks changed. The line of an error is a mark. -/
def Exit.remarked (m : Int → Option Int) : Exit → Exit
  | .fault e => .fault ⟨e.cause, e.line.bind m⟩
  | .returned v => .returned (v.remarked m)
  | .broke => .broke
  | .stalled => .stalled

/-- A result with its marks changed, where `g` changes them in what it holds. -/
def resultRemarked {α β : Type} (m : Int → Option Int) (g : α → β) :
    EStateM.Result Exit Store α → EStateM.Result Exit Store β
  | .ok a s => .ok (g a) (s.remarked m)
  | .error z s => .error (z.remarked m) (s.remarked m)

/-- From stores with changed marks, `y` does what `x` does before the change. -/
def Commutes {α β : Type} (m : Int → Option Int) (g : α → β) (x : EvalM α) (y : EvalM β) : Prop :=
  ∀ s, y (s.remarked m) = resultRemarked m g (x s)

/-! ### Builtins -/

/-- Code corresponds to itself with its marks changed. -/
def remarks (m : Int → Option Int) : Correspondence where
  code e e' := e' = e.remarked m
  hidden := []
  pinned _ := False
  lines l l' := l' = l.bind m

variable {m : Int → Option Int}

theorem values_remarks_iff {v w : Value} : (remarks m).Values v w ↔ w = v.remarked m := by
  induction v using Value.induct generalizing w with
  | list items ih =>
      rw [Value.remarked_list]
      constructor
      · intro h
        cases h with
        | list hitems =>
            have hsame := forall₂_imp_mem hitems fun v hv w hw => ((ih v hv).mp hw).symm
            rw [map_eq_map_of_forall₂ (g := id) hsame, List.map_id]
      · rintro rfl
        exact .list (forall₂_map_of_mem fun v hv => (ih v hv).mpr rfl)
  | function f =>
      constructor
      · intro h
        cases h with
        | @function _ g hfg =>
            rcases g with ⟨params, body, frame, name⟩
            rcases hfg with ⟨rfl, rfl, rfl, _, rfl⟩
            rfl
      · rintro rfl
        exact .function ⟨rfl, rfl, rfl, fun _ _ => id, rfl⟩
  | atom name => exact ⟨fun h => by cases h; rfl, fun h => h ▸ .atom name id⟩
  | integer n => exact ⟨fun h => by cases h; rfl, fun h => h ▸ .integer n⟩
  | real x => exact ⟨fun h => by cases h; rfl, fun h => h ▸ .real x⟩
  | boolean b => exact ⟨fun h => by cases h; rfl, fun h => h ▸ .boolean b⟩
  | null => exact ⟨fun h => by cases h; rfl, fun h => h ▸ .null⟩

/-- Builtins do not look at marks. -/
theorem Builtin.apply_remarked (b : Builtin) (vs : List Value) :
    b.apply (vs.map (Value.remarked m)) = (b.apply vs).map (Value.remarked m) := by
  have hvs : List.Forall₂ (remarks m).Values vs (vs.map (Value.remarked m)) :=
    forall₂_map_of_mem fun _ _ => values_remarks_iff.mpr rfl
  have hresults := Correspondence.apply_results b hvs
  generalize b.apply vs = r, b.apply (vs.map (Value.remarked m)) = r' at hresults ⊢
  cases hresults with
  | ok h => exact congrArg Except.ok (values_remarks_iff.mp h)
  | error cause => rfl

/-! ### Computations -/

namespace Commutes

variable {α β γ δ : Type} {g : α → β} {h : γ → δ}

theorem pure (a : α) : Commutes m g (pure a) (pure (g a)) :=
  fun _ => rfl

theorem exit (z : Exit) : Commutes m g (throw z) (throw (z.remarked m)) :=
  fun _ => rfl

theorem quoted (e : Expr) :
    Commutes m (Value.remarked m) (Pure.pure e.quoted) (Pure.pure (e.remarked m).quoted) := by
  have hquoted : (e.remarked m).quoted = e.quoted.remarked m := by
    rw [Expr.quoted_remarked, Value.remarked_quoted]
  rw [hquoted]
  exact pure e.quoted

theorem fault (cause : EvalCause) : Commutes m g (EvalM.fault cause) (EvalM.fault cause) :=
  fun _ => rfl

theorem faultOn (line : Option Int) (cause : EvalCause) :
    Commutes m g (EvalM.faultOn line cause) (EvalM.faultOn (line.bind m) cause) :=
  fun _ => rfl

theorem ofExcept (r : Except EvalCause α) :
    Commutes m g (EvalM.ofExcept r) (EvalM.ofExcept (r.map g)) := by
  cases r with
  | ok a => exact pure a
  | error cause => exact fault cause

theorem bind {x : EvalM α} {y : EvalM β} {f : α → EvalM γ} {f' : β → EvalM δ}
    (hxy : Commutes m g x y) (hf : ∀ a, Commutes m h (f a) (f' (g a))) :
    Commutes m h (x >>= f) (y >>= f') := by
  intro s
  have hfirst := hxy s
  cases hx : x s with
  | ok a t =>
      rw [hx, resultRemarked] at hfirst
      rw [EvalM.bind_of_ok hfirst, EvalM.bind_of_ok hx]
      exact hf a t
  | error z t =>
      rw [hx, resultRemarked] at hfirst
      rw [EvalM.bind_of_error hfirst, EvalM.bind_of_error hx]
      rfl

theorem tryCatch {x : EvalM α} {y : EvalM β} {f : Exit → EvalM α} {f' : Exit → EvalM β}
    (hxy : Commutes m g x y) (hf : ∀ z, Commutes m g (f z) (f' (z.remarked m))) :
    Commutes m g (tryCatch x f) (tryCatch y f') := by
  intro s
  have hfirst := hxy s
  cases hx : x s with
  | ok a t =>
      rw [hx, resultRemarked] at hfirst
      rw [EvalM.tryCatch_of_ok hfirst, EvalM.tryCatch_of_ok hx]
      rfl
  | error z t =>
      rw [hx, resultRemarked] at hfirst
      rw [EvalM.tryCatch_of_error hfirst, EvalM.tryCatch_of_error hx]
      exact hf z t

/-- Looking at the store. -/
theorem get {f : Store → EvalM γ} {f' : Store → EvalM δ}
    (hf : ∀ s, Commutes m h (f s) (f' (s.remarked m))) :
    Commutes m h (MonadState.get >>= f) (MonadState.get >>= f') :=
  fun s => hf s s

theorem lookup (name : String) (env : Nat) :
    Commutes m (Value.remarked m) (EvalM.lookup name env) (EvalM.lookup name env) := by
  refine get fun s => ?_
  have hlookup : (s.remarked m).lookup env name =
      (s.lookup env name).map (Value.remarked m) := by
    unfold Store.lookup
    rw [Store.find?_remarked, Store.available_remarked]
    cases s.find? env name <;> rfl
  rw [hlookup]
  exact ofExcept _

theorem bindName (name : String) (v : Value) (env : Nat) :
    Commutes m id (EvalM.bindName name v env) (EvalM.bindName name (v.remarked m) env) :=
  fun s => congrArg (EStateM.Result.ok ()) (s.remarked_define m env name v)

theorem newFrame (label : String) (parent : Nat) (bindings : Table Value) :
    Commutes m id (EvalM.newFrame label parent bindings)
      (EvalM.newFrame label parent (bindings.map (Value.remarked m))) := by
  intro s
  have hpush := s.remarked_push m ⟨label, some parent, bindings⟩
  change EStateM.Result.ok ((s.remarked m).push (Frame.remarked m ⟨label, some parent, bindings⟩)).1
    ((s.remarked m).push (Frame.remarked m ⟨label, some parent, bindings⟩)).2 = _
  rw [hpush]
  rfl

/-! ### Handlers -/

theorem catchReturn {x y : EvalM Value} (hxy : Commutes m (Value.remarked m) x y) :
    Commutes m (Value.remarked m) (EvalM.catchReturn x) (EvalM.catchReturn y) := by
  refine hxy.tryCatch fun z => ?_
  cases z with
  | returned v => exact pure v
  | fault _ | broke | stalled => exact exit _

theorem catchBreak {x y : EvalM Value} (hxy : Commutes m (Value.remarked m) x y) :
    Commutes m (Option.map (Value.remarked m)) (EvalM.catchBreak x) (EvalM.catchBreak y) := by
  have hsome : Commutes m (Option.map (Value.remarked m)) (some <$> x) (some <$> y) := by
    rw [map_eq_pure_bind, map_eq_pure_bind]
    exact hxy.bind fun v => pure (some v)
  refine hsome.tryCatch fun z => ?_
  cases z with
  | broke => exact pure none
  | fault _ | returned _ | stalled => exact exit _

theorem catchCall (f : Closure) {x y : EvalM Value} (hxy : Commutes m (Value.remarked m) x y) :
    Commutes m (Value.remarked m) (EvalM.catchCall f x)
      (EvalM.catchCall (f.remarked m) y) := by
  refine hxy.tryCatch fun z => ?_
  cases z with
  | returned v => exact pure v
  | broke => exact fault (.breakEscaped f.text)
  | fault _ | stalled => exact exit _

end Commutes

/-! ### Parts of Expressions -/

section Parts

variable {sub sub' : Evaluator} {env : Nat}
  (hsub : ∀ e env, Commutes m (Value.remarked m) (sub e env) (sub' (e.remarked m) env))
include hsub

theorem commutes_evalAll (es : List Expr) :
    Commutes m (List.map (Value.remarked m)) (evalAll sub env es)
      (evalAll sub' env (es.map (Expr.remarked m))) := by
  induction es with
  | nil => exact .pure []
  | cons e es ih => exact (hsub e env).bind fun v => ih.bind fun vs => .pure (v :: vs)

theorem commutes_evalSequence (v : Value) (es : List Expr) :
    Commutes m (Value.remarked m) (evalSequence sub env v es)
      (evalSequence sub' env (v.remarked m) (es.map (Expr.remarked m))) := by
  induction es generalizing v with
  | nil => exact .pure v
  | cons e es ih => exact (hsub e env).bind ih

theorem commutes_evalCondition (form : SpecialForm) (e : Expr) :
    Commutes m id (evalCondition sub env form e)
      (evalCondition sub' env form (e.remarked m)) := by
  refine (hsub e env).bind fun v => ?_
  have hshown := v.shown_remarked m
  cases v with
  | boolean b => exact .pure b
  | list items =>
      rw [Value.remarked_list] at hshown ⊢
      simp only [hshown]
      exact .fault _
  | atom _ | integer _ | real _ | null | function _ => exact .fault _

theorem commutes_evalLoop (test : Expr) (body : List Expr) (fuel : Nat) (v : Value) :
    Commutes m (Value.remarked m) (evalLoop sub env test body fuel v)
      (evalLoop sub' env (test.remarked m) (body.map (Expr.remarked m)) fuel (v.remarked m)) := by
  induction fuel generalizing v with
  | zero => exact .exit .stalled
  | succ fuel ih =>
      refine (commutes_evalCondition hsub .whileLoop test).bind fun b => ?_
      cases b with
      | false => exact .pure v
      | true =>
          refine (commutes_evalSequence hsub v body).catchBreak.bind fun o => ?_
          cases o with
          | none => exact .pure Value.null
          | some w => exact ih w

/-! ### Calls -/

theorem commutes_callClosure (f : Closure) (vs : List Value) :
    Commutes m (Value.remarked m) (callClosure sub f vs)
      (callClosure sub' (f.remarked m) (vs.map (Value.remarked m))) := by
  unfold callClosure
  rw [List.length_map, Value.texts_remarked]
  change Commutes m _ _ (if vs.length ≠ f.params.length then _ else _)
  by_cases hlen : vs.length ≠ f.params.length
  · rw [if_pos hlen, if_pos hlen]
    exact .fault _
  · rw [if_neg hlen, if_neg hlen]
    have hbindings : Table.insertEach {} (f.params.zip (vs.map (Value.remarked m))) =
        (Table.insertEach {} (f.params.zip vs)).map (Value.remarked m) := by
      rw [Table.map_insertEach, List.zip_map_right]
      rfl
    change Commutes m _ _ (EvalM.newFrame (f.label?.getD "lambda" ++ "-call") f.frame
      (Table.insertEach {} (f.params.zip (vs.map (Value.remarked m)))) >>= _)
    rw [hbindings]
    exact (Commutes.newFrame _ _ _).bind fun frame => (hsub f.body frame).catchCall f

theorem commutes_evalValue (v : Value) :
    Commutes m (Value.remarked m) (evalValue sub env v) (evalValue sub' env (v.remarked m)) := by
  cases v with
  | list items =>
      -- Code that is made of data has no marks that could change.
      have hcode := (Value.list items).toCode_remarked m none
      rw [Value.remarked_list] at hcode ⊢
      simp only [evalValue, hcode]
      cases hexpr : (Value.list items).toExpr none with
      | error f =>
          rw [Value.toCode, hexpr]
          exact .fault _
      | ok e =>
          have he := hsub e env
          rw [e.remarked_of_toExpr m hexpr] at he
          rw [Value.toCode, hexpr]
          exact he
  | atom _ | integer _ | real _ | boolean _ | null | function _ => exact .pure _

theorem commutes_callBuiltin (b : Builtin) (vs : List Value) :
    Commutes m (Value.remarked m) (callBuiltin sub env b vs)
      (callBuiltin sub' env b (vs.map (Value.remarked m))) := by
  have happly : Commutes m (Value.remarked m) (EvalM.ofExcept (b.apply vs))
      (EvalM.ofExcept (b.apply (vs.map (Value.remarked m)))) := by
    rw [b.apply_remarked]
    exact .ofExcept _
  by_cases hb : b = .eval
  · subst hb
    match vs, happly with
    | [], happly => exact happly
    | [v], _ => exact commutes_evalValue hsub v
    | _ :: _ :: _, happly => exact happly
  · rw [callBuiltin_of_ne_eval hb, callBuiltin_of_ne_eval hb]
    exact happly

theorem commutes_callBound (name : String) (vs : List Value) (bound : Option Value)
    (inSight : List String) :
    Commutes m (Value.remarked m) (callBound sub env name vs bound inSight)
      (callBound sub' env name (vs.map (Value.remarked m)) (bound.map (Value.remarked m))
        inSight) := by
  cases bound with
  | none =>
      rw [Option.map_none, callBound_none, callBound_none]
      cases Builtin.ofName? name with
      | some b => exact commutes_callBuiltin hsub b vs
      | none => exact .fault _
  | some v =>
      by_cases hfun : ∃ f, v = .function f
      · rcases hfun with ⟨f, rfl⟩
        exact commutes_callClosure hsub f vs
      · have hremarked : ∀ f, v.remarked m ≠ .function f := by
          intro f hf
          cases v with
          | function f' => exact hfun ⟨f', rfl⟩
          | atom _ | integer _ | real _ | boolean _ | null | list _ => cases hf
        rw [Option.map_some, callBound_of_not_function fun f hf => hfun ⟨f, hf⟩,
          callBound_of_not_function hremarked, Value.shown_remarked]
        cases Builtin.ofName? name with
        | some b => exact commutes_callBuiltin hsub b vs
        | none => exact .fault _

theorem commutes_callNamed (name : String) (args : List Expr) :
    Commutes m (Value.remarked m) (callNamed sub env name args)
      (callNamed sub' env name (args.map (Expr.remarked m))) := by
  rw [callNamed_eq, callNamed_eq]
  refine (commutes_evalAll hsub args).bind fun vs => .get fun s => ?_
  rw [Store.find?_remarked, Store.available_remarked]
  exact commutes_callBound hsub name vs _ _

theorem commutes_callComputed (callee : Expr) (args : List Expr) :
    Commutes m (Value.remarked m) (callComputed sub env callee args)
      (callComputed sub' env (callee.remarked m) (args.map (Expr.remarked m))) := by
  refine (hsub callee env).bind fun v => ?_
  have hshown := v.shown_remarked m
  cases v with
  | function f =>
      exact (commutes_evalAll hsub args).bind fun vs => commutes_callClosure hsub f vs
  | list items =>
      rw [Value.remarked_list] at hshown ⊢
      simp only [hshown]
      exact .fault _
  | atom _ | integer _ | real _ | boolean _ | null => exact .fault _

end Parts

/-! ### Special Forms -/

theorem Expr.atom_of_remarked {e : Expr} {line : Option Int} {name : String}
    (h : e.remarked m = .atom line name) : ∃ own, e = .atom own name := by
  cases e with
  | atom own _ =>
      cases h
      exact ⟨own, rfl⟩
  | integer _ _ | real _ _ | boolean _ _ | null _ | list _ _ => cases h

/-- A form is written as it should be whatever the marks on its parts. -/
theorem SpecialForm.shape_of_remarked {form : SpecialForm} {args : List Expr}
    (h : form.Shape (args.map (Expr.remarked m))) : form.Shape args := by
  generalize hes : args.map (Expr.remarked m) = es at h
  cases h with
  | quote datum =>
      match args, hes with
      | [e], _ => exact .quote e
  | setq line name value =>
      rcases List.map_eq_cons_iff.mp hes with ⟨e, rest, rfl, he, hrest⟩
      rcases Expr.atom_of_remarked he with ⟨own, rfl⟩
      match rest, hrest with
      | [e'], _ => exact .setq own name e'
  | func line name params body names hnames =>
      rcases List.map_eq_cons_iff.mp hes with ⟨e, rest, rfl, he, hrest⟩
      rcases Expr.atom_of_remarked he with ⟨own, rfl⟩
      match rest, hrest with
      | [e', e''], hrest =>
          cases hrest
          exact .func own name e' e'' names (by rwa [Expr.names?_remarked] at hnames)
  | lambda params body names hnames =>
      match args, hes with
      | [e, e'], hes =>
          cases hes
          exact .lambda e e' names (by rwa [Expr.names?_remarked] at hnames)
  | prog locals forms names hnames =>
      match args, hes with
      | e :: es', hes =>
          cases hes
          exact .prog e es' names (by rwa [Expr.names?_remarked] at hnames)
  | condThen test yes =>
      match args, hes with
      | [e, e'], _ => exact .condThen e e'
  | condElse test yes no =>
      match args, hes with
      | [e, e', e''], _ => exact .condElse e e' e''
  | whileLoop test body =>
      match args, hes with
      | e :: es', _ => exact .whileLoop e es'
  | returnNull =>
      match args, hes with
      | [], _ => exact .returnNull
  | returnValue value =>
      match args, hes with
      | [e], _ => exact .returnValue e
  | breakLoop =>
      match args, hes with
      | [], _ => exact .breakLoop

theorem SpecialForm.complaint_remarked (form : SpecialForm) (args : List Expr) :
    form.complaint (args.map (Expr.remarked m)) = form.complaint args := by
  cases form with
  | func =>
      -- Only the first of the arguments is looked at, and only for being an atom.
      match args with
      | [] => rfl
      | e :: rest => cases e <;> match rest with
        | [] | [_] | [_, _] | _ :: _ :: _ :: _ => rfl
  | lambda =>
      match args with
      | [] | [_] | [_, _] | _ :: _ :: _ :: _ => rfl
  | prog => cases args <;> rfl
  | quote | setq | cond | whileLoop | returnValue | breakLoop => rfl

section Levels

variable {sub sub' : Evaluator} {env : Nat}
  (hsub : ∀ e env, Commutes m (Value.remarked m) (sub e env) (sub' (e.remarked m) env))
include hsub

/-- A special form. Where it is not written as it should be, the error has the
    line that `e` has, and so does the error after the change. -/
theorem commutes_special (fuel : Nat) {e e' : Expr} (htext : e'.text? = e.text?)
    (hline : e'.line = e.line.bind m) (form : SpecialForm) (args : List Expr) :
    Commutes m (Value.remarked m) (special fuel sub env e form args)
      (special fuel sub' env e' form (args.map (Expr.remarked m))) := by
  by_cases hshape : form.Shape args
  · cases hshape with
    | quote datum => exact .quoted datum
    | setq line name value =>
        exact (hsub value env).bind fun v =>
          (Commutes.bindName name v env).bind fun _ => .pure v
    | func line name params body names hnames =>
        have hnames' : (params.remarked m).names? = some names := by
          rw [Expr.names?_remarked, hnames]
        simp only [List.map_cons, List.map_nil, Expr.remarked, special, hnames, hnames']
        exact (Commutes.bindName name (.function ⟨names, body, env, some name⟩) env).bind
          fun _ => .pure (Value.function ⟨names, body, env, some name⟩)
    | lambda params body names hnames =>
        have hnames' : (params.remarked m).names? = some names := by
          rw [Expr.names?_remarked, hnames]
        simp only [List.map_cons, List.map_nil, special, hnames, hnames']
        exact .pure (Value.function ⟨names, body, env, none⟩)
    | prog locals forms names hnames =>
        have hnames' : (locals.remarked m).names? = some names := by
          rw [Expr.names?_remarked, hnames]
        have hbindings : Table.insertAll {} names Value.null =
            (Table.insertAll {} names Value.null).map (Value.remarked m) := by
          rw [Table.map_insertAll]
          rfl
        simp only [List.map_cons, special, hnames, hnames']
        nth_rewrite 2 [hbindings]
        exact (Commutes.newFrame _ _ _).bind fun frame =>
          (commutes_evalSequence hsub .null forms).catchReturn
    | condThen test yes =>
        refine (commutes_evalCondition hsub .cond test).bind fun b => ?_
        cases b with
        | true => exact hsub yes env
        | false => exact .pure Value.null
    | condElse test yes no =>
        refine (commutes_evalCondition hsub .cond test).bind fun b => ?_
        cases b with
        | true => exact hsub yes env
        | false => exact hsub no env
    | whileLoop test body => exact commutes_evalLoop hsub test body fuel .null
    | returnNull => exact .exit (.returned .null)
    | returnValue value => exact (hsub value env).bind fun v => .exit (.returned v)
    | breakLoop => exact .exit .broke
  · rw [SpecialForm.special_of_not_shape hshape,
      SpecialForm.special_of_not_shape fun h => hshape (SpecialForm.shape_of_remarked h),
      SpecialForm.complaint_remarked, htext, hline]
    exact .faultOn _ _

theorem commutes_step (fuel : Nat) (e : Expr) (env : Nat) :
    Commutes m (Value.remarked m) (step fuel sub e env)
      (step fuel sub' (e.remarked m) env) := by
  cases e.layout with
  | atom line name => exact .lookup name env
  | literal hlit =>
      have hlit' : (e.remarked m).isLiteral = true := by rw [Expr.isLiteral_remarked, hlit]
      rw [step_of_isLiteral _ _ _ hlit, step_of_isLiteral _ _ _ hlit']
      exact .quoted e
  | empty line => exact .pure Value.null
  | @computed line head args hhead =>
      have hhead' : (head.remarked m).atomName? = none := by rw [Expr.atomName?_remarked, hhead]
      rw [Expr.remarked_list, List.map_cons, step_computed _ _ _ hhead, step_computed _ _ _ hhead']
      exact commutes_callComputed hsub head args
  | @special line own name form args hname =>
      have hmark : (Expr.list line (.atom own name :: args)).mark? = line := by
        simp only [Expr.mark?, Expr.isForm, Expr.headName?, Expr.atomName?, Option.bind_some, hname,
          Option.isSome_some, ↓reduceIte, Expr.line]
      have htext := (Expr.list line (.atom own name :: args)).text?_remarked m
      rw [Expr.remarked_list, hmark, List.map_cons, Expr.remarked] at htext ⊢
      rw [step_special _ _ _ hname, step_special _ _ _ hname]
      exact commutes_special hsub fuel htext rfl form args
  | call line own args hname =>
      rw [Expr.remarked_list, List.map_cons, Expr.remarked, step_call _ _ _ hname,
        step_call _ _ _ hname]
      exact commutes_callNamed hsub _ args

end Levels

/-! ### Evaluation -/

/-- Evaluation commutes with changing the marks. -/
theorem evaluateWithin_remarked (m : Int → Option Int) (limits : Limits) (budget : Nat) (e : Expr)
    (env : Nat) (s : Store) :
    evaluateWithin limits budget (e.remarked m) env (s.remarked m) =
      resultRemarked m (Value.remarked m) (evaluateWithin limits budget e env s) := by
  have hcommutes : ∀ e env, Commutes m (Value.remarked m) (evaluateWithin limits budget e env)
      (evaluateWithin limits budget (e.remarked m) env) := by
    induction budget with
    | zero =>
        intro e env
        simp only [evaluateWithin, Expr.text?_remarked]
        exact .fault _
    | succ budget ih => exact commutes_step ih limits.fuel
  exact hcommutes e env s

/-! ### Where Marks Come From -/

/-- Drop all marks but the given ones. -/
def keeping (lines : List Int) (n : Int) : Option Int :=
  if n ∈ lines then some n else none

theorem mem_of_keeping {lines : List Int} {k n : Int} (h : keeping lines k = some n) :
    n ∈ lines := by
  unfold keeping at h
  split at h
  · cases h
    assumption
  · cases h

section Origin

variable {limits : Limits} {budget : Nat} {e : Expr} {env : Nat} {s t : Store}

/-- To what evaluation gives, dropping all other marks than those of the
    expression and the store does nothing. -/
theorem evaluateWithin_keeping (limits : Limits) (budget : Nat) (e : Expr) (env : Nat) (s : Store) :
    resultRemarked (keeping (e.marks ++ s.marks)) (Value.remarked (keeping (e.marks ++ s.marks)))
        (evaluateWithin limits budget e env s) =
      resultRemarked some (Value.remarked some) (evaluateWithin limits budget e env s) := by
  have hexpr : e.remarked (keeping (e.marks ++ s.marks)) = e.remarked some :=
    Expr.remarked_congr fun n hn => if_pos (List.mem_append_left _ hn)
  have hstore : s.remarked (keeping (e.marks ++ s.marks)) = s.remarked some :=
    Store.remarked_congr fun n hn => if_pos (List.mem_append_right _ hn)
  rw [← evaluateWithin_remarked, ← evaluateWithin_remarked, hexpr, hstore]

/-- The line of an error is a mark of the expression or of the store. -/
theorem evaluateWithin_line {x : EvalError} {n : Int}
    (h : evaluateWithin limits budget e env s = .error (.fault x) t) (hn : x.line = some n) :
    n ∈ e.marks ++ s.marks := by
  have hkeep := evaluateWithin_keeping limits budget e env s
  simp only [h, resultRemarked, Exit.remarked, hn, Option.bind_some, EStateM.Result.error.injEq,
    Exit.fault.injEq, EvalError.mk.injEq, true_and] at hkeep
  exact mem_of_keeping hkeep.1

/-- Evaluation makes no marks: those in the store that it leaves were there before,
    in the store or in the expression. -/
theorem evaluateWithin_marks (limits : Limits) (budget : Nat) (e : Expr) (env : Nat) (s : Store) :
    ((evaluateWithin limits budget e env).storeAfter s).marks ⊆ e.marks ++ s.marks := by
  have hkeep := evaluateWithin_keeping limits budget e env s
  have hstore : ((evaluateWithin limits budget e env).storeAfter s).remarked
      (keeping (e.marks ++ s.marks)) =
        ((evaluateWithin limits budget e env).storeAfter s).remarked some := by
    unfold EvalM.storeAfter
    cases hr : evaluateWithin limits budget e env s with
    | ok v t =>
        rw [hr] at hkeep
        exact (EStateM.Result.ok.inj hkeep).2
    | error z t =>
        rw [hr] at hkeep
        exact (EStateM.Result.error.inj hkeep).2
  intro n hn
  have hkept := (Store.mem_marks_remarked some).mpr ⟨n, hn, rfl⟩
  rw [← hstore] at hkept
  rcases (Store.mem_marks_remarked _).mp hkept with ⟨k, _, hk⟩
  exact mem_of_keeping hk

end Origin

end ListLang
