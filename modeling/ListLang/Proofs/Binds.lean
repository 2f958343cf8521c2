import ListLang.Proofs.Confined
import ListLang.Proofs.Marks.Evaluation
import ListLang.Proofs.WellUsed

/-!
# The Names That an Expression Binds

Which names an expression may bind in the frame that it is evaluated in can be
read off the expression, as long as `eval` is applied to nothing but quotations.
They are the targets of `setq` and `func` wherever an expression is evaluated in
that same frame, in quoted code that `eval` gets as well. Blocks and functions
have frames of their own. A call evaluates code from elsewhere, but not in this
frame, and so it does not matter what is called.

## Main definitions

* `Binds`: Evaluating an expression may bind a name in its frame.
* `BindsOnly`: Computations that bind only some names in a frame.

## Theorems

* `Binds.of_special`, `Binds.of_call`, `Binds.of_computed`, `Binds.of_evalQuoted`:
  The names that a list binds.
* `BindsOnly.elsewhere`: What is confined to any frame at all binds nothing.
* `EvalsQuoted.step_bindsOnly`: One level of evaluation.
* `EvalsQuoted.evaluateWithin_bindsOnly`: An expression binds the names it binds.
* `EvalsQuoted.names_interpret`: So does a program.
-/

namespace ListLang

/-- Evaluating the expression may bind the name in its frame. -/
inductive Binds (name : String) : Expr → Prop where
  | target (line own : Option Int) {head : String} {form : SpecialForm} {args : List Expr}
      (hhead : SpecialForm.ofName? head = some form) (h : form.target? args = some name) :
      Binds name (.list line (.atom own head :: args))
  | argument (line own : Option Int) {head : String} {args : List Expr} {e : Expr}
      (hhead : ∀ form, SpecialForm.ofName? head = some form → form.isOpen = true)
      (he : e ∈ args) (h : Binds name e) : Binds name (.list line (.atom own head :: args))
  | computed (line : Option Int) {head : Expr} {args : List Expr} {e : Expr}
      (hhead : head.atomName? = none) (he : e ∈ head :: args) (h : Binds name e) :
      Binds name (.list line (head :: args))
  | evalQuoted (line own line' own' : Option Int) {head head' : String} {datum : Expr}
      (hhead : head = Builtin.eval.name) (hhead' : head' = SpecialForm.quote.name)
      (h : Binds name datum) :
      Binds name (.list line [.atom own head, .list line' [.atom own' head', datum]])

namespace Binds

variable {name : String} {line own : Option Int}

/-- Only lists bind anything. -/
theorem items?_ne_none {e : Expr} (h : Binds name e) : e.items? ≠ none := by
  cases h <;> exact Option.some_ne_none _

/-- A special form binds its target and what the arguments bind that it evaluates
    where it stands. -/
theorem of_special {form : SpecialForm} {args : List Expr}
    (h : Binds name (.list line (.atom own form.name :: args))) :
    form.target? args = some name ∨ form.isOpen = true ∧ ∃ e ∈ args, Binds name e := by
  have hform := form.ofName?_name
  generalize form.name = head at h hform
  cases h with
  | target _ _ hhead h =>
      rw [hform] at hhead
      cases hhead
      exact .inl h
  | argument _ _ hhead he h => exact .inr ⟨hhead form hform, _, he, h⟩
  | computed _ hhead _ _ => cases hhead
  | evalQuoted _ _ _ _ hhead _ _ =>
      subst hhead
      rw [Builtin.not_special] at hform
      cases hform

/-- A call of a name binds what its arguments bind. -/
theorem of_call {head : String} {args : List Expr} (hspecial : SpecialForm.ofName? head = none)
    (hne : head ≠ Builtin.eval.name) (h : Binds name (.list line (.atom own head :: args))) :
    ∃ e ∈ args, Binds name e := by
  cases h with
  | target _ _ hhead _ =>
      rw [hspecial] at hhead
      cases hhead
  | argument _ _ _ he h => exact ⟨_, he, h⟩
  | computed _ hhead _ _ => cases hhead
  | evalQuoted _ _ _ _ hhead _ _ => exact absurd hhead hne

/-- A call of what an expression gives binds what its items bind. -/
theorem of_computed {head : Expr} {args : List Expr} (hatom : head.atomName? = none)
    (h : Binds name (.list line (head :: args))) : Binds name head ∨ ∃ e ∈ args, Binds name e := by
  cases h with
  | target _ _ _ _ | argument _ _ _ _ _ | evalQuoted _ _ _ _ _ _ _ => cases hatom
  | computed _ _ he h =>
      rcases List.mem_cons.mp he with rfl | he
      · exact .inl h
      · exact .inr ⟨_, he, h⟩

/-- A quotation that `eval` gets binds what the data binds as code. -/
theorem of_evalQuoted {line' own' : Option Int} {datum : Expr}
    (h : Binds name (.list line [.atom own Builtin.eval.name,
      .list line' [.atom own' SpecialForm.quote.name, datum]])) : Binds name datum := by
  generalize hhead : Builtin.eval.name = head at h
  cases h with
  | target _ _ hform _ =>
      rw [← hhead, Builtin.not_special] at hform
      cases hform
  | argument _ _ _ he h =>
      -- The quotation itself evaluates nothing.
      rw [List.mem_singleton.mp he] at h
      rcases h.of_special with h | ⟨h, _⟩
      · cases h
      · cases h
  | computed _ hatom _ _ => cases hatom
  | evalQuoted _ _ _ _ _ _ h => exact h

end Binds

/-- A computation that binds only the given names in a frame and leaves all others
    as they are. -/
structure BindsOnly {α : Type} (N : String → Prop) (env : Nat) (x : EvalM α) : Prop where
  confined : Confined env x
  names : ∀ s, env < s.frames.size → ∀ name ∈ ((x.storeAfter s).bindings env).names,
    name ∈ (s.bindings env).names ∨ N name

/-! ### Computations -/

namespace BindsOnly

variable {N M : String → Prop} {env : Nat} {α β : Type}

theorem imp {x : EvalM α} (hx : BindsOnly N env x) (h : ∀ name, N name → M name) :
    BindsOnly M env x :=
  ⟨hx.confined, fun s henv name hname => (hx.names s henv name hname).imp_right (h name)⟩

theorem of_storeAfter {x : EvalM α} (h : ∀ s, x.storeAfter s = s) : BindsOnly N env x where
  confined s := by
    rw [h]
    exact .refl env s
  names s _ name hname := by
    rw [h] at hname
    exact .inl hname

theorem bind {x : EvalM α} {f : α → EvalM β} (hx : BindsOnly N env x)
    (hf : ∀ a, BindsOnly N env (f a)) : BindsOnly N env (x >>= f) := by
  refine ⟨hx.confined.bind fun a => (hf a).confined, fun s henv name hname => ?_⟩
  have hsize := (hx.confined s).size
  have hfirst := hx.names s henv
  rw [EvalM.storeAfter_bind] at hname
  unfold EvalM.storeAfter at hsize hfirst
  cases hxs : x s with
  | ok a t =>
      -- What is bound after the second computation was bound after the first, or is bound by it.
      rw [hxs] at hname hsize hfirst
      rcases (hf a).names t (Nat.lt_of_lt_of_le henv hsize) name hname with hname | hname
      · exact hfirst name hname
      · exact .inr hname
  | error z t =>
      rw [hxs] at hname hfirst
      exact hfirst name hname

theorem tryCatch {x : EvalM α} (hx : BindsOnly N env x) {f : Exit → EvalM α} (hf : Passive f) :
    BindsOnly N env (tryCatch x f) := by
  refine ⟨hx.confined.tryCatch hf, fun s => ?_⟩
  rw [EvalM.storeAfter_tryCatch hf]
  exact hx.names s

theorem bindName {name : String} (h : N name) (v : Value) :
    BindsOnly N env (EvalM.bindName name v env) where
  confined s := .define env s name v
  names s henv name' hname' := by
    change name' ∈ ((s.define env name v).bindings env).names at hname'
    rw [s.bindings_define henv] at hname'
    rcases List.mem_map.mp hname' with ⟨b, hb, rfl⟩
    rcases Table.mem_entries_insert hb with hb | rfl
    · exact .inl (List.mem_map_of_mem hb)
    · exact .inr h

/-- A computation that is confined to any frame at all binds nothing in a frame
    that is there. -/
theorem elsewhere {x : EvalM α} (hx : ∀ frame, Confined frame x) : BindsOnly N env x := by
  refine ⟨hx env, fun s henv name hname => .inl ?_⟩
  have hkept := (hx s.frames.size s).others env henv (Nat.ne_of_lt henv)
  unfold Store.bindings at hname ⊢
  rw [hkept] at hname
  exact hname

/-- A computation that does what another does, or leaves at once. -/
theorem of_agree {x y : EvalM α} (hy : BindsOnly N env y)
    (h : ∀ s, x s = y s ∨ ∃ z, x s = .error z s) : BindsOnly N env x := by
  have hstore : ∀ s, x.storeAfter s = y.storeAfter s ∨ x.storeAfter s = s := by
    intro s
    unfold EvalM.storeAfter
    rcases h s with heq | ⟨z, heq⟩
    · exact .inl (by rw [heq])
    · exact .inr (by rw [heq])
  constructor
  · intro s
    rcases hstore s with heq | heq
    · rw [heq]
      exact hy.confined s
    · rw [heq]
      exact .refl env s
  · intro s henv name hname
    rcases hstore s with heq | heq
    · rw [heq] at hname
      exact hy.names s henv name hname
    · rw [heq] at hname
      exact .inl hname

end BindsOnly

theorem compositional_bindsOnly (N : String → Prop) :
    Compositional fun env _ x _ => BindsOnly N env x where
  value _ := .of_storeAfter fun _ => rfl
  exit _ := .of_storeAfter fun _ => rfl
  seq hx hf := hx.bind hf
  handle hf hx := hx.tryCatch hf

/-! ### One Level of Evaluation -/

section Step

variable {sub : Evaluator} (hconfined : ∀ e env, Confined env (sub e env)) {N : String → Prop}
  {env : Nat}
include hconfined

theorem callClosure_bindsOnly (f : Closure) (vs : List Value) :
    BindsOnly N env (callClosure sub f vs) :=
  .elsewhere fun frame =>
    @CompositionalAt.callClosure _ frame sub sub (compositionalAt_confined frame) hconfined f vs

theorem special_bindsOnly {form : SpecialForm} {args : List Expr}
    (hargs : form.isOpen = true → ∀ e ∈ args, BindsOnly N env (sub e env))
    (htarget : ∀ name, form.target? args = some name → N name) (fuel : Nat) (e : Expr) :
    BindsOnly N env (special fuel sub env e form args) := by
  refine @Compositional.special _ env sub sub (compositional_bindsOnly N) fuel fuel form args hargs
    (fun name v h => .bindName (htarget name h) v) (fun bindings forms => ?_)
    (fun test body h =>
      @Compositional.evalLoop _ env sub sub (compositional_bindsOnly N) test body h fuel .null) e
  -- A block binds in its own frame.
  refine .elsewhere fun frame => .newFrame (fun inner => ?_) frame "prog" env bindings
  have hforms : Confined inner (evalSequence sub inner .null forms) :=
    @Compositional.evalSequence _ inner sub sub (compositionalAt_confined inner).toCompositional
      forms (fun e _ => hconfined e inner) .null
  exact hforms.tryCatch passive_catchReturn

theorem callNamed_bindsOnly {name : String} (hne : name ≠ Builtin.eval.name) {args : List Expr}
    (hargs : ∀ e ∈ args, BindsOnly N env (sub e env)) :
    BindsOnly N env (callNamed sub env name args) := by
  have h := compositional_bindsOnly N
  rw [callNamed_eq]
  refine (@Compositional.evalAll _ env sub sub h args hargs).bind fun vs =>
    .bind (.of_storeAfter fun _ => rfl) fun s => ?_
  refine @Compositional.callBound _ env sub sub h name vs
    (fun f => callClosure_bindsOnly hconfined f vs) (fun b hb => ?_) _ _
  -- Of the builtins, only `eval` evaluates anything.
  refine @Compositional.callBuiltin _ env sub sub h b vs fun heval => ?_
  subst heval
  exact absurd (Builtin.name_of_ofName? hb).symm hne

/-- Evaluating a quotation binds what evaluating the data as code does. Where
    `eval` is a function of the program, it binds nothing. -/
theorem evalQuoted_bindsOnly {line own : Option Int} {datum : Expr}
    (hquote : ∀ s, sub (.list line [.atom own SpecialForm.quote.name, datum]) env s =
        .ok datum.quoted s ∨
      ∃ z, sub (.list line [.atom own SpecialForm.quote.name, datum]) env s = .error z s)
    (hdatum : BindsOnly N env (sub (datum.relined none) env)) :
    BindsOnly N env (callNamed sub env Builtin.eval.name
      [.list line [.atom own SpecialForm.quote.name, datum]]) := by
  have h := compositional_bindsOnly N
  -- The call, once the quotation has given its data.
  have hcall : BindsOnly N env (get >>= fun s : Store =>
      callBound sub env Builtin.eval.name [datum.quoted] (s.find? env Builtin.eval.name)
        (s.available env)) := by
    refine .bind (.of_storeAfter fun _ => rfl) fun s => ?_
    refine @Compositional.callBound _ env sub sub h _ _
      (fun f => callClosure_bindsOnly hconfined f _) (fun b _ => ?_) _ _
    refine @Compositional.callBuiltin _ env sub sub h b _ fun _ v e hv he => ?_
    cases hv
    rw [Value.toCode, Expr.toExpr_quoted] at he
    cases he
    exact hdatum
  -- The quotation gives its data or leaves at once, and changes nothing either way.
  refine hcall.of_agree fun s => ?_
  rw [callNamed_eq]
  rcases hquote s with hquote | ⟨z, hquote⟩
  · have hargs : evalAll sub env [.list line [.atom own SpecialForm.quote.name, datum]] s =
        .ok [datum.quoted] s := by
      unfold evalAll
      rw [EvalM.bind_of_ok hquote]
      rfl
    exact .inl (EvalM.bind_of_ok hargs)
  · have hargs : evalAll sub env [.list line [.atom own SpecialForm.quote.name, datum]] s =
        .error z s := by
      unfold evalAll
      exact EvalM.bind_of_error hquote
    exact .inr ⟨z, EvalM.bind_of_error hargs⟩

/-- One level of evaluation binds the names that the expression binds, if the next
    one does and if it does not look at lines. -/
theorem EvalsQuoted.step_bindsOnly
    (hquotes : ∀ line own datum env s,
      sub (.list line [.atom own SpecialForm.quote.name, datum]) env s = .ok datum.quoted s ∨
        ∃ z, sub (.list line [.atom own SpecialForm.quote.name, datum]) env s = .error z s)
    (hrelined : ∀ N e env, BindsOnly N env (sub e env) → BindsOnly N env (sub (e.relined none) env))
    (hsub : ∀ e, EvalsQuoted e → ∀ env, BindsOnly (Binds · e) env (sub e env)) (fuel : Nat)
    {e : Expr} (he : EvalsQuoted e) (env : Nat) :
    BindsOnly (Binds · e) env (step fuel sub e env) := by
  cases he with
  | @atom line name _ =>
      exact .bind (.of_storeAfter fun _ => rfl) fun s =>
        (compositional_bindsOnly _).ofExcept (s.lookup env name)
  | literal h =>
      rw [step_of_isLiteral _ _ _ h]
      exact .of_storeAfter fun _ => rfl
  | evalQuoted line own line' own' h =>
      rw [step_call _ _ _ (by decide)]
      refine evalQuoted_bindsOnly hconfined (hquotes line' own' _ env) (hrelined _ _ env ?_)
      exact (hsub _ h env).imp fun name => .evalQuoted line own line' own' rfl rfl
  | @list line items h =>
      cases (Expr.list line items).layout with
      | literal hlit => exact absurd hlit Bool.false_ne_true
      | empty line => exact .of_storeAfter fun _ => rfl
      | @computed _ head args hhead =>
          have hitems : ∀ e ∈ head :: args,
              BindsOnly (Binds · (.list line (head :: args))) env (sub e env) :=
            fun e he => (hsub e (h e he) env).imp fun name => .computed line hhead he
          rw [step_computed _ _ _ hhead]
          exact @Compositional.callComputed _ env sub sub (compositional_bindsOnly _) head args
            (hitems head List.mem_cons_self) (fun e he => hitems e (List.mem_cons_of_mem _ he))
            (callClosure_bindsOnly hconfined)
      | @special _ own name form args hname =>
          rw [step_special _ _ _ hname]
          refine special_bindsOnly hconfined (fun hopen e he => ?_)
            (fun target => .target line own hname) fuel _
          refine (hsub e (h e (List.mem_cons_of_mem _ he)) env).imp fun target =>
            .argument line own (fun form' hform' => ?_) he
          rw [hname] at hform'
          cases hform'
          exact hopen
      | @call _ own name args hname =>
          rw [step_call _ _ _ hname]
          refine callNamed_bindsOnly hconfined (h _ List.mem_cons_self).atom_ne fun e he => ?_
          refine (hsub e (h e (List.mem_cons_of_mem _ he)) env).imp fun target =>
            .argument line own (fun form' hform' => ?_) he
          rw [hname] at hform'
          cases hform'

end Step

/-! ### Evaluation -/

theorem Store.names_bindings_remarked (m : Int → Option Int) (s : Store) (env : Nat) :
    ((s.remarked m).bindings env).names = (s.bindings env).names := by
  unfold bindings
  rw [getElem?_remarked]
  cases s.frames[env]? with
  | none => rfl
  | some f => exact f.bindings.names_map _

section Evaluation

variable (limits : Limits) (budget : Nat)

theorem confined_evaluateWithin (e : Expr) (env : Nat) :
    Confined env (evaluateWithin limits budget e env) := by
  rw [← evaluateUntil_never limits budget []]
  exact confined_evaluateUntil never limits budget [] e env

/-- The lines of an expression do not matter for the names that it binds. -/
theorem names_evaluateWithin_relined (e : Expr) (env : Nat) (s : Store) :
    (((evaluateWithin limits budget (e.relined none) env).storeAfter s).bindings env).names =
      (((evaluateWithin limits budget e env).storeAfter s).bindings env).names := by
  -- Without marks, the two expressions are one, and so are the stores that they leave.
  have hstore : ∀ e : Expr, ((evaluateWithin limits budget e env).storeAfter s).remarked
      (fun _ => none) = (evaluateWithin limits budget (e.remarked fun _ => none) env).storeAfter
        (s.remarked fun _ => none) := by
    intro e
    unfold EvalM.storeAfter
    rw [evaluateWithin_remarked]
    cases evaluateWithin limits budget e env s <;> rfl
  have hsame : (e.relined none).remarked (fun _ => none) = e.remarked fun _ => none := by
    rw [Expr.relined_none, Expr.remarked_remarked]
    rfl
  rw [← Store.names_bindings_remarked fun _ => none, hstore, hsame, ← hstore,
    Store.names_bindings_remarked]

theorem evaluateWithin_quote (line own : Option Int) (datum : Expr) (env : Nat) (s : Store) :
    evaluateWithin limits budget (.list line [.atom own SpecialForm.quote.name, datum]) env s =
        .ok datum.quoted s ∨
      ∃ z, evaluateWithin limits budget (.list line [.atom own SpecialForm.quote.name, datum]) env
        s = .error z s := by
  cases budget with
  | zero => exact .inr ⟨_, rfl⟩
  | succ budget =>
      unfold evaluateWithin
      rw [step_special _ _ _ (SpecialForm.ofName?_name .quote)]
      exact .inl rfl

/-- Evaluating an expression binds the names that it binds. -/
theorem EvalsQuoted.evaluateWithin_bindsOnly {e : Expr} (he : EvalsQuoted e) (env : Nat) :
    BindsOnly (Binds · e) env (evaluateWithin limits budget e env) := by
  induction budget generalizing e env with
  | zero => exact .of_storeAfter fun _ => rfl
  | succ budget ih =>
      refine he.step_bindsOnly (confined_evaluateWithin limits budget)
        (evaluateWithin_quote limits budget) (fun N e env h => ?_) (fun e he => ih he)
        limits.fuel env
      refine ⟨confined_evaluateWithin limits budget _ env, fun s => ?_⟩
      rw [names_evaluateWithin_relined]
      exact h.names s

end Evaluation

/-- A program binds the names that its forms bind, even if one of them fails. -/
theorem EvalsQuoted.names_interpret {forms : List Form}
    (hforms : ∀ form ∈ forms, EvalsQuoted form.expr) {s : Session}
    (hglobals : s.globals < s.store.frames.size) :
    ∀ name ∈ (s.interpret forms).2.bindings.names,
      name ∈ s.bindings.names ∨ ∃ form ∈ forms, Binds name form.expr := by
  rw [s.interpret_eq]
  rcases s.withRoom_cases forms (s.interpretWith (evaluateWithin s.limits s.budget) forms) with
    heq | ⟨e, _, heq⟩
  case inr =>
    rw [heq]
    exact fun name hname => .inl hname
  rw [heq]
  clear heq
  generalize s.budget = budget
  rcases s with ⟨limits, globals, store⟩
  dsimp only at hglobals ⊢
  induction forms generalizing store with
  | nil => exact fun name hname => .inl hname
  | cons form forms ih =>
      intro name hname
      have hform := (hforms form List.mem_cons_self).evaluateWithin_bindsOnly limits budget globals
      have hsize := (hform.confined store).size
      have hnames := hform.names store hglobals name
      unfold Session.interpretWith at hname
      unfold EvalM.storeAfter at hsize hnames
      cases hrun : evaluateWithin limits budget form.expr globals store with
      | error z t =>
          rw [hrun] at hname hnames
          exact (hnames hname).imp_right fun h => ⟨form, List.mem_cons_self, h⟩
      | ok v t =>
          -- The other forms start from the store that this one leaves.
          rw [hrun] at hname hnames hsize
          rcases ih (fun f hf => hforms f (List.mem_cons_of_mem _ hf)) t
            (Nat.lt_of_lt_of_le hglobals hsize) name hname with hname | ⟨f, hf, h⟩
          · exact (hnames hname).imp_right fun h => ⟨form, List.mem_cons_self, h⟩
          · exact .inr ⟨f, List.mem_cons_of_mem _ hf, h⟩

end ListLang
