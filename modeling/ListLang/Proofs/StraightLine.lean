import Mathlib.Data.List.Induction
import ListLang.Check.Basic
import ListLang.Proofs.Moment
import ListLang.Proofs.Signatures
import ListLang.Proofs.Vouch
import ListLang.Proofs.Writable

/-!
# Straight-Line Programs

A straight-line program evaluates and assigns: its forms are made of literals,
quoted lists, variables and calls of builtins, and at the top level an
expression may be assigned to a name. Nothing in it binds a function, so every
call reaches the builtin of its name, even where a variable has the same name.

For such programs checking is exact. A program without a diagnostic runs to its
end, unless it fails for a reason that no check can foresee, and a program with
a diagnostic always fails. The types that the checker infers on the way are
those of the values, and the types it records for the global names are those of
the values that are bound to them in the end.

What no check can foresee is a division by zero, an integer too large for a
builtin and the limit on depth. All of them are reported with words, except for
the limit on depth in a form that has an integer in it too long to be written.
And where the call stack refuses the limits, no program runs.

The check and the run go side by side. As long as the run has not failed, the
check has noted nothing, and the scope records the type of every global
variable. One form takes this from one place to the next.

## Main definitions

* `Operand`, `Statement`: The expressions and forms of straight-line programs.
* `CheckM.Notes`: What a check notes at the top level.
* `Records`: A scope records the types of the global variables.
* `formTypes`: The type of each form, right after it has been checked.
* `UnforeseenHalt`: How a program fails that no problem was found in.
* `ForetoldBy`, `ForetoldRun`: Expressions and programs that do as their checks
  foretell.

## Theorems

* `Notes.seq`, `Notes.sight`, `Notes.updateScope`: Putting checks together.
* `Operand.foretoldBy`: Expressions do as their checks foretell.
* `Statement.foretold`: So do forms, and they change the scope as they change
  the store.
* `foretoldRun_interpret`: So do programs.
* `interpret_straightLine`: Checking is exact on straight-line programs.
* `interpret_straightLine_fails_otherwise`: A clean program may fail without an
  error.
-/

namespace ListLang

/-- Expressions made of literals, quoted lists, variables and calls of builtins
    other than `eval` and `head`. -/
inductive Operand : Expr → Prop where
  | literal {e : Expr} (h : e.isLiteral = true) : Operand e
  | quoted (line own line' : Option Int) (items : List Expr) :
      Operand (.list line [.atom own SpecialForm.quote.name, .list line' items])
  | var (line : Option Int) {name : String} (hform : SpecialForm.ofName? name = none)
      (hbuiltin : Builtin.ofName? name = none) : Operand (.atom line name)
  | call (line own : Option Int) {b : Builtin} (heval : b ≠ .eval) (hhead : b ≠ .head)
      {args : List Expr} (h : ∀ e ∈ args, Operand e) :
      Operand (.list line (.atom own b.name :: args))

/-- An expression, or the assignment of one to a name. -/
inductive Statement : Expr → Prop where
  | operand {e : Expr} (h : Operand e) : Statement e
  | assignment (line own line' : Option Int) (name : String) {e : Expr} (h : Operand e) :
      Statement (.list line [.atom own SpecialForm.setq.name, .atom line' name, e])

/-! ### Checks at the Top Level -/

namespace CheckM

/-- The check notes the problems and changes the scope at the top level from one
    to another. -/
def Notes (before after : Scope) (new : List (Option Diagnostic)) (x : CheckM Unit) : Prop :=
  ∀ found, x.run ⟨[before], found⟩ = ((), ⟨[after], found ++ new⟩)

namespace Notes

variable {a b c : Scope} {m n : List (Option Diagnostic)} {x y : CheckM Unit}

theorem pure : Notes a a [] (pure ()) := by
  intro found
  rw [List.append_nil]
  rfl

theorem seq (hx : Notes a b m x) (hy : Notes b c n y) : Notes a c (m ++ n) (do x; y) := by
  intro found
  change y.run (x.run ⟨[a], found⟩).2 = _
  rw [hx found, hy (found ++ m), List.append_assoc]

theorem sight {f : Chain → CheckM Unit} (h : Notes a b m (f [a])) :
    Notes a b m (CheckM.sight >>= f) :=
  h

theorem note (line : Int) (f : Finding) : Notes a a [f.on line] (note line f) :=
  fun _ => rfl

theorem noteIf (problem : Bool) (line : Int) (f : Finding) :
    Notes a a (if problem then [f.on line] else []) (noteIf problem line f) := by
  cases problem with
  | true => exact note line f
  | false => exact pure

theorem noteAll (line : Int) (fs : List Finding) :
    Notes a a (fs.map (·.on line)) (noteAll line fs) :=
  fun _ => rfl

theorem updateScope (f : Scope → Scope) : Notes a (f a) [] (updateScope f) := by
  intro found
  rw [List.append_nil]
  rfl

end Notes

end CheckM

open CheckM

/-! ### Scopes and Stores -/

/-- A scope without functions. -/
def Scope.Plain (scope : Scope) : Prop :=
  scope.functions.entries = []

theorem Scope.Plain.function? {scope : Scope} (h : scope.Plain) (name : String) :
    Chain.function? [scope] name = none := by
  unfold Chain.function? Table.find?
  rw [List.findSome?_cons, h]
  rfl

theorem Scope.Plain.define {scope : Scope} (h : scope.Plain) (name : String) (t : Ty) :
    (scope.defineVariable name t).Plain :=
  h

theorem Chain.typeOf?_singleton (scope : Scope) (name : String) :
    Chain.typeOf? [scope] name = scope.variableTypes.find? name := by
  unfold Chain.typeOf?
  rw [List.findSome?_cons]
  cases scope.variableTypes.find? name <;> rfl

/-- The scope records the global names in their order, with the types of their
    values. -/
structure Records (scope : Scope) (s : Store) : Prop where
  nonempty : 0 < s.frames.size
  types : List.Forall₂ (fun a b => a.1 = b.1 ∧ a.2.Describes b.2) scope.variableTypes.entries
    (s.bindings 0).entries

namespace Records

variable {scope : Scope} {s : Store}

/-- A variable has a type exactly if it has a value, and then one of that type. -/
theorem find? (h : Records scope s) (name : String) :
    Option.Rel Ty.Describes (Chain.typeOf? [scope] name) (s.find? 0 name) := by
  rw [Chain.typeOf?_singleton, s.find?_zero]
  exact Table.related_lookup h.types name

theorem define (h : Records scope s) (name : String) {t : Ty} {v : Value} (hv : t.Describes v) :
    Records (scope.defineVariable name t) (s.define 0 name v) := by
  refine ⟨by rw [s.size_define]; exact h.nonempty, ?_⟩
  rw [s.bindings_define h.nonempty]
  exact Table.related_insertEntry h.types name hv

end Records

/-! ### Types -/

variable {scope : Scope}

theorem inferType_quoted (chain : Chain) {depth : Int} (hdepth : ¬ inferenceDepth < depth)
    (line own : Option Int) (datum : Expr) :
    inferType chain depth (.list line [.atom own SpecialForm.quote.name, datum]) = .list := by
  simp only [inferType, hdepth, ↓reduceIte, listType, SpecialForm.ofName?_name]

theorem inferType_call (hplain : scope.Plain) (b : Builtin) {depth : Int}
    (hdepth : ¬ inferenceDepth < depth) (line own : Option Int) (args : List Expr) :
    inferType [scope] depth (.list line (.atom own b.name :: args)) = b.resultType := by
  simp only [inferType, hdepth, ↓reduceIte, listType, b.not_special, hplain.function?,
    Option.isSome_none, Bool.false_eq_true, Builtin.ofName?_name]

/-- The type of an operand is the same at all levels that are looked at. -/
theorem Operand.inferType_eq (hplain : scope.Plain) {e : Expr} (h : Operand e) {depth : Int}
    (hdepth : ¬ inferenceDepth < depth) : inferType [scope] depth e = inferType [scope] 0 e := by
  have hzero : ¬ inferenceDepth < (0 : Int) := by decide
  cases h with
  | literal h =>
      cases e with
      | integer _ _ | real _ _ | boolean _ _ | null _ => simp only [inferType, hdepth, hzero]
      | atom _ _ | list _ _ => exact absurd h Bool.false_ne_true
  | quoted line own line' items =>
      rw [inferType_quoted _ hdepth, inferType_quoted _ hzero]
  | var line _ _ => simp only [inferType, hdepth, hzero]
  | call line own _ _ _ => rw [inferType_call hplain _ hdepth, inferType_call hplain _ hzero]

/-! ### Expressions -/

variable {limits : Limits} {whole : Expr} {s : Store}

/-- A call of a builtin, whatever else its name is bound to. -/
theorem callBound_builtin {sub : Evaluator} {b : Builtin} (heval : b ≠ .eval)
    {bound : Option Value} (hbound : ∀ f, bound ≠ some (.function f)) (env : Nat)
    (vs : List Value) (inSight : List String) :
    callBound sub env b.name vs bound inSight = EvalM.ofExcept (b.apply vs) := by
  cases bound with
  | none =>
      rw [callBound_none, Builtin.ofName?_name]
      exact callBuiltin_of_ne_eval heval sub env vs
  | some v =>
      rw [callBound_of_not_function (fun f hf => hbound f (by rw [hf])), Builtin.ofName?_name]
      exact callBuiltin_of_ne_eval heval sub env vs

/-- What is foretold of an expression inside the whole one: its check notes
    problems, and it evaluates to a value of its type, in the same store, or
    fails. -/
def ForetoldBy (limits : Limits) (whole : Expr) (scope : Scope) (x : CheckM Unit) {α : Type}
    (Q : α → Prop) (eval : Nat → EvalM α) : Prop :=
  ∃ new, Notes scope scope new x ∧ ∀ s budget, Records scope s →
    Foretold limits whole (new = []) (fun a s' => s' = s ∧ Q a) (eval budget s)

/-- Arguments do as their checks foretell, one after another. -/
theorem foretoldBy_args (around : Surroundings) (line : Int) {args : List Expr}
    (h : ∀ e ∈ args, ∀ around line, ForetoldBy limits whole scope (check around line e)
      (inferType [scope] 0 e).Describes fun budget => evaluateWithin limits budget e 0) :
    ForetoldBy limits whole scope (checkParts around line (partsOf args))
      (List.Forall₂ Ty.Describes (inferTypes [scope] 0 args))
      fun budget => evalAll (evaluateWithin limits budget) 0 args := by
  induction args with
  | nil => exact ⟨[], .pure, fun s budget _ => .ok rfl ⟨rfl, .nil⟩⟩
  | cons e es ih =>
      rcases h e List.mem_cons_self around line with ⟨m, hm, hfirst⟩
      rcases ih fun f hf => h f (List.mem_cons_of_mem _ hf) with ⟨n, hn, hrest⟩
      refine ⟨m ++ n, hm.seq hn, fun s budget hs => ?_⟩
      refine Foretold.congr ((hfirst s budget hs).bind ?_) List.append_eq_nil_iff.symm
      rintro v _ ⟨rfl, hv⟩
      refine (hrest _ budget hs).bind_sure ?_
      rintro vs _ ⟨rfl, hvs⟩
      exact .ok trivial ⟨rfl, .cons hv hvs⟩

/-- Evaluation of an expression is one step, unless there is no level left for
    it. -/
theorem ForetoldBy.of_step (hdepth : isWritable limits.depth = true) {e : Expr}
    (hwhole : whole.isWritable = true → e.isWritable = true) {x : CheckM Unit}
    {new : List (Option Diagnostic)} {Q : Value → Prop} (hnotes : Notes scope scope new x)
    (hstep : ∀ s budget, Records scope s → Foretold limits whole (new = [])
      (fun v s' => s' = s ∧ Q v) (step limits.fuel (evaluateWithin limits budget) e 0 s)) :
    ForetoldBy limits whole scope x Q fun budget => evaluateWithin limits budget e 0 := by
  refine ⟨new, hnotes, fun s budget hs => ?_⟩
  cases budget with
  | zero => exact .unforeseen .tooDeep (.tooDeep hdepth hwhole)
  | succ budget => exact hstep s budget hs

theorem foretoldBy_literal (hdepth : isWritable limits.depth = true) {e : Expr}
    (hwhole : whole.isWritable = true → e.isWritable = true) (h : e.isLiteral = true)
    (around : Surroundings) (line : Int) :
    ForetoldBy limits whole scope (check around line e) (inferType [scope] 0 e).Describes
      fun budget => evaluateWithin limits budget e 0 := by
  have hnotes : Notes scope scope [] (check around line e) := by
    cases e with
    | integer _ _ | real _ _ | boolean _ _ | null _ => exact .pure
    | atom _ _ | list _ _ => exact absurd h Bool.false_ne_true
  refine .of_step hdepth hwhole hnotes fun s budget _ => ?_
  rw [step_of_isLiteral _ _ _ h]
  exact .ok rfl ⟨rfl, describes_literal h (by decide) [scope]⟩

theorem foretoldBy_quoted (hdepth : isWritable limits.depth = true) (l own l' : Option Int)
    (items : List Expr) (hwhole : whole.isWritable = true →
      (Expr.list l [.atom own SpecialForm.quote.name, .list l' items]).isWritable = true)
    (around : Surroundings) (line : Int) :
    ForetoldBy limits whole scope
      (check around line (.list l [.atom own SpecialForm.quote.name, .list l' items]))
      (inferType [scope] 0 (.list l [.atom own SpecialForm.quote.name, .list l' items])).Describes
      fun budget => evaluateWithin limits budget
        (.list l [.atom own SpecialForm.quote.name, .list l' items]) 0 := by
  rw [inferType_quoted _ (by decide)]
  have hnotes : Notes scope scope []
      (check around line (.list l [.atom own SpecialForm.quote.name, .list l' items])) := .pure
  refine .of_step hdepth hwhole hnotes fun s budget _ => ?_
  rw [step_special _ _ _ (SpecialForm.ofName?_name .quote)]
  exact .ok rfl ⟨rfl, .list _⟩

/-- A variable is known to the check exactly if it is bound in the run. -/
theorem foretoldBy_var (hdepth : isWritable limits.depth = true) (hplain : scope.Plain)
    (l : Option Int) {name : String} (hform : SpecialForm.ofName? name = none)
    (hbuiltin : Builtin.ofName? name = none) (around : Surroundings) (line : Int) :
    ForetoldBy limits whole scope (check around line (.atom l name))
      (inferType [scope] 0 (.atom l name)).Describes
      fun budget => evaluateWithin limits budget (.atom l name) 0 := by
  have hnotes : Notes scope scope (if !(Chain.typeOf? [scope] name).isSome then
      [(Finding.undeclared name).on (l.getD line)] else []) (check around line (.atom l name)) := by
    have hcheck := (Notes.noteIf (a := scope) (!(Chain.typeOf? [scope] name).isSome) (l.getD line)
      (.undeclared name))
    refine .sight ?_
    simp only [hform, hbuiltin, hplain.function?, Option.isSome_none, Bool.false_or, Bool.or_false]
    exact hcheck
  refine .of_step hdepth (fun _ => rfl) hnotes fun s budget hs => ?_
  have hlookup : step limits.fuel (evaluateWithin limits budget) (.atom l name) 0 s =
      EvalM.ofExcept (s.lookup 0 name) s := rfl
  have htype : inferType [scope] 0 (.atom l name) = (Chain.typeOf? [scope] name).getD .any := rfl
  rw [hlookup, htype]
  unfold Store.lookup
  rcases optionRel_cases (hs.find? name) with ⟨ht, hv⟩ | ⟨t, v, ht, hv, htv⟩
  · rw [ht, hv]
    exact .foreseen (List.cons_ne_nil _ _)
  · rw [ht, hv]
    exact .ok rfl ⟨rfl, htv⟩

/-- The check of a call notes the problems of its arguments, and then those that
    their types reveal. -/
theorem notes_checkCall (hplain : scope.Plain) {b : Builtin} (heval : b ≠ .eval)
    {around : Surroundings} {line : Int} {args : List Expr}
    {new : List (Option Diagnostic)}
    (hnew : Notes scope scope new (checkParts around line (partsOf args))) :
    Notes scope scope (new ++ (builtinProblems b (inferTypes [scope] 0 args)).map (·.on line))
      (checkCall around line b.name (partsOf args)) := by
  refine .sight ?_
  simp only [hplain.function?, Builtin.ofName?_name, heval, if_false, map_expr_partsOf]
  have htypes := (Notes.noteAll (a := scope) line (builtinProblems b
    (inferTypes [scope] 0 args))).seq .pure
  rw [List.append_nil] at htypes
  have hknown := Notes.noteIf (a := scope) false line (.undefinedFunction b.name)
  exact hknown.seq (hnew.seq (.sight htypes))

/-- A call is clean if its arguments are and their types fit. -/
theorem foretoldBy_call (hdepth : isWritable limits.depth = true) (hplain : scope.Plain)
    (l own : Option Int) {b : Builtin} (heval : b ≠ .eval) (hhead : b ≠ .head) {args : List Expr}
    (hwhole : whole.isWritable = true →
      (Expr.list l (.atom own b.name :: args)).isWritable = true)
    (around : Surroundings) (line : Int)
    (h : ForetoldBy limits whole scope (checkParts around (l.getD line) (partsOf args))
      (List.Forall₂ Ty.Describes (inferTypes [scope] 0 args))
      fun budget => evalAll (evaluateWithin limits budget) 0 args) :
    ForetoldBy limits whole scope (check around line (.list l (.atom own b.name :: args)))
      (inferType [scope] 0 (.list l (.atom own b.name :: args))).Describes
      fun budget => evaluateWithin limits budget (.list l (.atom own b.name :: args)) 0 := by
  rcases h with ⟨new, hnew, hargs⟩
  rw [inferType_call hplain b (by decide)]
  have hnotes : Notes scope scope (new ++
      (builtinProblems b (inferTypes [scope] 0 args)).map (·.on (l.getD line)))
      (check around line (.list l (.atom own b.name :: args))) := by
    simp only [check, checker, listChecker, partsOf, checkList, b.not_special]
    exact notes_checkCall hplain heval hnew
  refine .of_step hdepth hwhole hnotes fun s budget hs => ?_
  have hclean : (new = [] ∧ builtinProblems b (inferTypes [scope] 0 args) = []) ↔
      new ++ (builtinProblems b (inferTypes [scope] 0 args)).map (·.on (l.getD line)) = [] := by
    rw [List.append_eq_nil_iff, List.map_eq_nil_iff]
  rw [step_call _ _ _ b.not_special, callNamed_eq]
  refine Foretold.congr ((hargs s budget hs).bind ?_) hclean
  rintro vs s ⟨rfl, hvs⟩
  -- Whatever the name of the builtin is bound to, it is no function.
  have hbound : ∀ f, s.find? 0 b.name ≠ some (.function f) := by
    intro f hfind
    rcases optionRel_cases (hs.find? b.name) with ⟨_, hnone⟩ | ⟨t, v, _, hv, htv⟩
    · rw [hnone] at hfind
      cases hfind
    · rw [hv, Option.some.injEq] at hfind
      exact htv.not_function f hfind
  change Foretold limits whole _ _ (callBound _ 0 b.name vs (s.find? 0 b.name) (s.available 0) s)
  rw [callBound_builtin heval hbound]
  exact foretold_apply heval hhead hvs

/-- Expressions do as their checks foretell. -/
theorem Operand.foretoldBy (hdepth : isWritable limits.depth = true) (hplain : scope.Plain)
    {e : Expr} (h : Operand e) (hwhole : whole.isWritable = true → e.isWritable = true)
    (around : Surroundings) (line : Int) :
    ForetoldBy limits whole scope (check around line e) (inferType [scope] 0 e).Describes
      fun budget => evaluateWithin limits budget e 0 := by
  induction h generalizing around line with
  | literal h => exact foretoldBy_literal hdepth hwhole h around line
  | quoted l own l' items => exact foretoldBy_quoted hdepth l own l' items hwhole around line
  | var l hform hbuiltin => exact foretoldBy_var hdepth hplain l hform hbuiltin around line
  | @call l own b heval hhead args _ ih =>
      have hargs : whole.isWritable = true → ∀ e ∈ args, e.isWritable = true := by
        intro h
        have hall := hwhole h
        rw [Expr.isWritable, Expr.allWritable_eq_all, List.all_eq_true] at hall
        exact fun e he => hall e (List.mem_cons_of_mem _ he)
      exact foretoldBy_call hdepth hplain l own heval hhead hwhole around line
        (foretoldBy_args around (l.getD line) fun e he => ih e he fun h => hargs h e he)

/-! ### Forms -/

/-- An operand has the same type after it has been assigned to a name, even to
    one that it uses. -/
theorem Operand.inferType_define (hplain : scope.Plain) {e : Expr} (h : Operand e)
    (name : String) :
    inferType [scope.defineVariable name (inferType [scope] 0 e)] 0 e = inferType [scope] 0 e := by
  have hzero : ¬ inferenceDepth < (0 : Int) := by decide
  cases h with
  | literal h =>
      cases e with
      | integer _ _ | real _ _ | boolean _ _ | null _ => simp only [inferType]
      | atom _ _ | list _ _ => exact absurd h Bool.false_ne_true
  | quoted line own line' items => rw [inferType_quoted _ hzero, inferType_quoted _ hzero]
  | @var line key _ _ =>
      simp only [inferType, hzero, ↓reduceIte, Chain.typeOf?_singleton, Scope.defineVariable,
        Table.find?_insert]
      by_cases hkey : key = name
      · rw [if_pos hkey, Option.getD_some]
      · rw [if_neg hkey]
  | call line own _ _ _ =>
      rw [inferType_call (hplain.define name _) _ hzero, inferType_call hplain _ hzero]

/-- An assignment has the type of its value. -/
theorem Operand.inferType_assignment (hplain : scope.Plain) {e : Expr} (h : Operand e)
    (line own line' : Option Int) (name : String) :
    inferType [scope] 0 (.list line [.atom own SpecialForm.setq.name, .atom line' name, e]) =
      inferType [scope] 0 e := by
  have hvalue : inferType [scope] (0 + 1) e = inferType [scope] 0 e :=
    h.inferType_eq hplain (by decide)
  have hzero : ¬ inferenceDepth < (0 : Int) := by decide
  simp only [inferType, hzero, ↓reduceIte, inferTypes, listType, SpecialForm.ofName?_name]
  exact hvalue

/-- A form takes the check and the run from one place to the next. -/
theorem Statement.foretold (hdepth : isWritable limits.depth = true) (hplain : scope.Plain)
    {e : Expr} (h : Statement e) (line : Int) :
    ∃ after new, after.Plain ∧ Notes scope after new (check {} line e) ∧
      ∀ s budget, Records scope s → Foretold limits e (new = [])
        (fun v s' => Records after s' ∧ (inferType [after] 0 e).Describes v)
        (evaluateWithin limits budget e 0 s) := by
  cases h with
  | operand h =>
      have hself : e.isWritable = true → e.isWritable = true := id
      rcases h.foretoldBy hdepth hplain hself {} line with ⟨new, hnew, heval⟩
      refine ⟨scope, new, hplain, hnew, fun s budget hs => (heval s budget hs).imp ?_⟩
      rintro v _ ⟨rfl, hv⟩
      exact ⟨hs, hv⟩
  | @assignment l own l' name value h =>
      have hsetq := SpecialForm.ofName?_name .setq
      have hvalue : (Expr.list l [.atom own SpecialForm.setq.name, .atom l' name,
          value]).isWritable = true → value.isWritable = true := by
        intro h
        simpa only [Expr.isWritable, Expr.allWritable, Bool.true_and, Bool.and_true] using h
      rcases h.foretoldBy hdepth hplain hvalue {} (l.getD line) with ⟨new, hnew, heval⟩
      refine ⟨scope.defineVariable name (inferType [scope] 0 value), new, hplain, ?_,
        fun s budget hs => ?_⟩
      · have hdefine := hnew.seq (.sight (f := fun chain => CheckM.updateScope fun s =>
          s.defineVariable name (inferType chain 0 value)) (.updateScope _))
        rw [List.append_nil] at hdefine
        exact hdefine
      · cases budget with
        | zero => exact .unforeseen .tooDeep (.tooDeep hdepth id)
        | succ budget =>
            change Foretold limits _ _ _ (step limits.fuel (evaluateWithin limits budget) _ 0 s)
            rw [step_special _ _ _ hsetq]
            refine (heval s budget hs).bind_sure ?_
            rintro v s ⟨rfl, hv⟩
            refine .ok trivial ⟨hs.define name hv, ?_⟩
            rw [h.inferType_assignment (hplain.define name _), h.inferType_define hplain]
            exact hv

/-! ### Programs -/

/-- The type of each form, in the global scope as it stands right after the form
    has been checked. -/
def formTypes (forms : List Form) : List Ty :=
  forms.mapIdx fun i form => inferType [(analyze (forms.take (i + 1))).globals] 0 form.expr

theorem formTypes_concat (forms : List Form) (form : Form) :
    formTypes (forms ++ [form]) =
      formTypes forms ++ [inferType [(analyze (forms ++ [form])).globals] 0 form.expr] := by
  unfold formTypes
  rw [List.mapIdx_concat]
  congr 1
  · -- Up to an earlier form, the longer program is the shorter one.
    refine List.mapIdx_eq_mapIdx_iff.mpr fun i hi => ?_
    rw [List.take_append_of_le_length (by omega)]
  · rw [List.take_of_length_le (by simp)]

theorem checkForms_concat (forms : List Form) (form : Form) :
    checkForms (forms ++ [form]) =
      (do checkForms forms; check {} form.line form.expr) := by
  induction forms with
  | nil => rfl
  | cons first forms ih => simp only [List.cons_append, checkForms, ih, bind_assoc]

theorem analyze_of_notes {forms : List Form} {new : List (Option Diagnostic)}
    (h : Notes {} scope new (checkForms forms)) : analyze forms = ⟨new, scope⟩ := by
  unfold analyze
  rw [h []]
  rfl

theorem interpret_concat (session : Session) (forms : List Form) (form : Form) :
    session.interpret (forms ++ [form]) =
      match session.interpret forms with
      | (.error halt, session) => (.error halt, session)
      | (.ok vs, session) => match session.evaluateForm form with
        | (.error halt, session) => (.error halt, session)
        | (.ok v, session) => (.ok (vs ++ [v]), session) := by
  induction forms generalizing session with
  | nil =>
      simp only [List.nil_append, Session.interpret]
      rcases session.evaluateForm form with ⟨_ | v, next⟩ <;> rfl
  | cons first forms ih =>
      simp only [List.cons_append, Session.interpret]
      rcases session.evaluateForm first with ⟨_ | v, next⟩
      · rfl
      · simp only [ih next]
        rcases next.interpret forms with ⟨_ | vs, last⟩
        · rfl
        · simp only [Except.map]
          rcases last.evaluateForm form with ⟨_ | w, _⟩ <;> rfl

/-- How a program fails that no problem was found in: with an error that no check
    could foresee, for which there are words unless it is the limit on depth in a
    form without a text. -/
inductive UnforeseenHalt (limits : Limits) (forms : List Form) : Halt → Prop where
  | failed {e : EvalError} (h : Unforeseen limits e.report.message) :
      UnforeseenHalt limits forms (.failed e)
  | unworded {form : Form} (hform : form ∈ forms) (hlong : form.expr.isWritable = false) :
      UnforeseenHalt limits forms (.unworded (.tooDeep limits.depth none))

namespace UnforeseenHalt

theorem append {forms : List Form} {halt : Halt} (h : UnforeseenHalt limits forms halt)
    (later : List Form) : UnforeseenHalt limits (forms ++ later) halt := by
  cases h with
  | failed h => exact .failed h
  | unworded hform hlong => exact .unworded (List.mem_append_left _ hform) hlong

/-- What an unforeseen error in a form means at the top level. -/
theorem of_cause {cause : EvalCause} {forms : List Form} {form : Form} (hform : form ∈ forms)
    (h : Unforeseen limits cause.report.message) (hworded : cause.WordedIn limits form.expr)
    (line : Option Int) : UnforeseenHalt limits forms (EvalError.halt form ⟨cause, line⟩) := by
  rcases hworded with hworded | ⟨hlong, rfl⟩
  · rw [EvalError.halt, if_pos hworded]
    exact .failed h
  · have hsilent : ¬ (EvalCause.tooDeep limits.depth none).isWorded = true := by
      simp only [EvalCause.isWorded, Option.isSome_none, Bool.and_false, Bool.false_eq_true,
        not_false_eq_true]
    have htext : form.expr.text? = none := by
      simp only [Expr.text?, hlong, Bool.false_eq_true, ↓reduceIte]
    rw [EvalError.halt, if_neg hsilent, htext]
    exact .unworded hform hlong

theorem ne_stalled {forms : List Form} {halt : Halt} (h : UnforeseenHalt limits forms halt) :
    halt ≠ .stalled := by
  cases h <;> exact Halt.noConfusion

end UnforeseenHalt

theorem EvalError.halt_ne_stalled (form : Form) (e : EvalError) : e.halt form ≠ .stalled := by
  unfold EvalError.halt
  split
  · exact Halt.noConfusion
  · split <;> exact Halt.noConfusion

/-- A run to the end in a clean program, or a failure in a program that is not
    clean or that no check could foresee. -/
inductive ForetoldRun (limits : Limits) (forms : List Form) (scope : Scope)
    (found : List (Option Diagnostic)) : Except Halt (List Value) × Session → Prop where
  | ok {vs : List Value} {s : Store} (hclean : found = [])
      (hvs : List.Forall₂ Ty.Describes (formTypes forms) vs) (hs : Records scope s) :
      ForetoldRun limits forms scope found (.ok vs, ⟨limits, 0, s⟩)
  | unforeseen {halt : Halt} {session : Session} (h : UnforeseenHalt limits forms halt) :
      ForetoldRun limits forms scope found (.error halt, session)
  | foreseen {halt : Halt} {session : Session} (h : found ≠ []) (hhalt : halt ≠ .stalled) :
      ForetoldRun limits forms scope found (.error halt, session)

/-- A straight-line program runs as its check foretells, if the call stack has room
    for it. -/
theorem foretoldRun_interpret {forms : List Form} (hroom : forms ≠ [] → limits.refusal? = none)
    (h : ∀ form ∈ forms, Statement form.expr) :
    ∃ scope found, scope.Plain ∧ Notes {} scope found (checkForms forms) ∧
      ForetoldRun limits forms scope found ((Session.new limits).interpret forms) := by
  -- By induction on the last form: a run that has failed stays as it is.
  induction forms using List.reverseRecOn with
  | nil =>
      have hrecords : Records {} (Session.new limits).store := ⟨Nat.one_pos, .nil⟩
      exact ⟨{}, [], rfl, .pure, .ok rfl .nil hrecords⟩
  | append_singleton forms form ih =>
      have hgranted : limits.refusal? = none := hroom (by simp)
      rcases ih (fun _ => hgranted) fun f hf => h f (List.mem_append_left _ hf) with
        ⟨scope, found, hplain, hfound, hrun⟩
      have hdepth := Limits.isWritable_depth hgranted
      rcases (h form (by simp)).foretold hdepth hplain form.line with
        ⟨after, new, hafter, hnew, heval⟩
      have hnotes : Notes {} after (found ++ new) (checkForms (forms ++ [form])) := by
        rw [checkForms_concat]
        exact hfound.seq hnew
      refine ⟨after, found ++ new, hafter, hnotes, ?_⟩
      rw [interpret_concat]
      generalize (Session.new limits).interpret forms = r at hrun
      cases hrun with
      | unforeseen h => exact .unforeseen (h.append _)
      | foreseen h hhalt => exact .foreseen (List.append_ne_nil_of_left_ne_nil h _) hhalt
      | @ok vs s hclean hvs hs =>
          simp only [Session.evaluateForm_of_room (s := ⟨limits, 0, s⟩) hgranted]
          generalize Session.budget ⟨limits, 0, s⟩ = budget
          have hform := heval s budget hs
          generalize evaluateWithin limits budget form.expr 0 s = r at hform
          cases hform with
          | unforeseen h hworded => exact .unforeseen (.of_cause (by simp) h hworded _)
          | @foreseen e _ h =>
              exact .foreseen (List.append_ne_nil_of_right_ne_nil _ h) (e.halt_ne_stalled form)
          | ok hsame hv =>
              refine .ok (List.append_eq_nil_iff.mpr ⟨hclean, hsame⟩) ?_ hv.1
              rw [formTypes_concat, analyze_of_notes hnotes]
              exact List.rel_append hvs (.cons hv.2 .nil)

/-- Checking a straight-line program is exact. If no problem is found and the call
    stack has room for the program, it runs to its end with values of the inferred
    types and with global variables of the recorded types, or fails for a reason
    that no check foresees. If a problem is found, the program fails. Without room
    nothing runs. -/
theorem interpret_straightLine (limits : Limits) (forms : List Form)
    (h : ∀ form ∈ forms, Statement form.expr) :
    ((analyze forms).diagnostics = some [] → (forms ≠ [] → limits.refusal? = none) →
      (∃ vs session, (Session.new limits).interpret forms = (.ok vs, session) ∧
        List.Forall₂ Ty.Describes (formTypes forms) vs ∧
        List.Forall₂ (fun a b => a.1 = b.1 ∧ a.2.Describes b.2)
          (analyze forms).globals.variableTypes.entries session.bindings.entries) ∨
      ∃ halt session, (Session.new limits).interpret forms = (.error halt, session) ∧
        UnforeseenHalt limits forms halt) ∧
    ((analyze forms).diagnostics ≠ some [] →
      ∃ halt session, (Session.new limits).interpret forms = (.error halt, session) ∧
        halt ≠ .stalled) ∧
    ∀ e, limits.refusal? = some e → forms ≠ [] →
      (Session.new limits).interpret forms = (.error (.refused e), Session.new limits) := by
  have hrefused : ∀ e, limits.refusal? = some e → forms ≠ [] →
      (Session.new limits).interpret forms = (.error (.refused e), Session.new limits) := by
    intro e he hforms
    rcases List.exists_cons_of_ne_nil hforms with ⟨form, rest, rfl⟩
    rw [Session.interpret_eq, Session.withRoom_of_refused (s := Session.new limits) he]
  have hclean := (analyze forms).diagnostics_eq_some_nil_iff
  refine ⟨fun hnone hroom => ?_, fun hsome => ?_, hrefused⟩
  · rcases foretoldRun_interpret hroom h with ⟨scope, found, _, hnotes, hrun⟩
    rw [hclean, analyze_of_notes hnotes] at hnone
    rw [analyze_of_notes hnotes]
    generalize (Session.new limits).interpret forms = r at hrun
    cases hrun with
    | ok _ hvs hs => exact .inl ⟨_, _, rfl, hvs, hs.types⟩
    | unforeseen h => exact .inr ⟨_, _, rfl, h⟩
    | foreseen h _ => exact absurd hnone h
  · -- A program with a problem has a form, so it is refused if there is no room.
    have hforms : forms ≠ [] := fun hnil => hsome (by rw [hnil]; rfl)
    cases hroom : limits.refusal? with
    | some e => exact ⟨_, _, hrefused e hroom hforms, Halt.noConfusion⟩
    | none =>
        rcases foretoldRun_interpret (fun _ => hroom) h with ⟨scope, found, _, hnotes, hrun⟩
        rw [Ne, hclean, analyze_of_notes hnotes] at hsome
        generalize (Session.new limits).interpret forms = r at hrun
        cases hrun with
        | ok hnone _ _ => exact absurd hnone hsome
        | unforeseen h => exact ⟨_, _, rfl, h.ne_stalled⟩
        | foreseen _ hhalt => exact ⟨_, _, rfl, hhalt⟩

/-- A list, its tail under the name of a builtin, and a call of that builtin. -/
def shadowedBuiltin : List Form :=
  [⟨.list (some 1) [.atom none "setq", .atom none "x",
      .list none [.atom none "quote", .list none [.integer none 1]]], 1⟩,
    ⟨.list (some 2) [.atom none "setq", .atom none "not",
      .list none [.atom none "tail", .atom none "x"]], 2⟩,
    ⟨.list (some 3) [.atom none "not", .list none [.atom none "islist", .atom none "x"]], 3⟩]

theorem interpret_straightLine_shadowedBuiltin :
    (∀ form ∈ shadowedBuiltin, Statement form.expr) ∧
      (analyze shadowedBuiltin).diagnostics = some [] ∧
      formTypes shadowedBuiltin = [.list, .list, .bool] ∧
      ∃ vs session, (Session.new ⟨10, 10, {}⟩).interpret shadowedBuiltin = (.ok vs, session) ∧
        List.Forall₂ Ty.Describes (formTypes shadowedBuiltin) vs ∧
        List.Forall₂ (fun a b => a.1 = b.1 ∧ a.2.Describes b.2)
          (analyze shadowedBuiltin).globals.variableTypes.entries session.bindings.entries := by
  have hx : Operand (.atom none "x") := .var none (by decide) (by decide)
  have hx' : ∀ e ∈ [Expr.atom none "x"], Operand e := fun e he => List.mem_singleton.mp he ▸ hx
  have hislist : ∀ e ∈ [Expr.list none [.atom none "islist", .atom none "x"]], Operand e :=
    fun e he => List.mem_singleton.mp he ▸
      .call none none (b := .predicate .islist) nofun nofun hx'
  have hstatements : ∀ form ∈ shadowedBuiltin, Statement form.expr := by
    simp only [shadowedBuiltin, List.forall_mem_cons, List.not_mem_nil, false_imp_iff,
      implies_true, and_true]
    exact ⟨.assignment _ _ _ "x" (.quoted _ _ _ _),
      .assignment _ _ _ "not" (.call none none (b := .tail) nofun nofun hx'),
      .operand (.call _ none (b := .not) nofun nofun hislist)⟩
  have hclean : (analyze shadowedBuiltin).diagnostics = some [] := by decide
  have hok : ((Session.new ⟨10, 10, {}⟩).interpret shadowedBuiltin).1 =
      .ok [.list [.integer 1], .list [], .boolean false] := by rfl
  refine ⟨hstatements, hclean, by decide, ?_⟩
  have hroom : shadowedBuiltin ≠ [] → Limits.refusal? ⟨10, 10, {}⟩ = none := fun _ => by decide
  rcases (interpret_straightLine ⟨10, 10, {}⟩ shadowedBuiltin hstatements).1 hclean hroom with
    hruns | ⟨halt, session, hfails, _⟩
  · exact hruns
  · rw [hfails] at hok
    cases hok

/-- An addition to an integer that is too long to be written. -/
def longSum : Form :=
  ⟨.list (some 1) [.atom none "plus", .integer none longInteger, .integer none 1], 1⟩

/-- A limit of depth that the call stack cannot count with, and one without a level
    for the arguments of a form that has no text. -/
theorem interpret_straightLine_fails_otherwise :
    Statement (.integer (some 1) 1) ∧ Statement longSum.expr ∧
      (analyze [⟨.integer (some 1) 1, 1⟩]).diagnostics = some [] ∧
      ((Session.new ⟨1000000000, 10, {}⟩).interpret [⟨.integer (some 1) 1, 1⟩]).1 =
        .error (.refused .overflow) ∧
      (analyze [longSum]).diagnostics = some [] ∧
      ((Session.new ⟨0, 10, {}⟩).interpret [longSum]).1 =
        .error (.unworded (.tooDeep 0 none)) := by
  have hliterals : ∀ e ∈ [Expr.integer none longInteger, .integer none 1], Operand e := by
    simp only [List.forall_mem_cons, List.not_mem_nil, false_imp_iff, implies_true, and_true]
    exact ⟨.literal rfl, .literal rfl⟩
  have hsum : Operand longSum.expr :=
    .call (some 1) none (b := .arithmetic .plus) Builtin.noConfusion Builtin.noConfusion hliterals
  refine ⟨.operand (.literal rfl), .operand hsum, by decide, rfl, by decide, ?_⟩
  have hlong : (Expr.integer none longInteger).text? = none := by
    simp only [Expr.text?, Expr.isWritable, isWritable_longInteger, Bool.false_eq_true, ↓reduceIte]
  have hform : longSum.expr.text? = none := by
    simp only [longSum, Expr.text?, Expr.isWritable, Expr.allWritable, isWritable_longInteger,
      Bool.false_and, Bool.and_false, Bool.false_eq_true, ↓reduceIte]
  have hrun : ((Session.new ⟨0, 10, {}⟩).interpret [longSum]).1 = .error
      ((EvalError.mk (.tooDeep 0 (Expr.integer none longInteger).text?) none).halt
        longSum) :=
    rfl
  rw [hrun, hlong, EvalError.halt, hform]
  rfl

end ListLang
