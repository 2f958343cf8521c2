import ListLang.Proofs.Discipline.Step
import ListLang.Proofs.Marks.Basic

/-!
# Well Used Forms

An expression is well used in some surroundings if every special form in it is
written as it should be, every `return` stands in a block or in the body of a
function and every `break` in the body of a loop, as far as the expression is
ever evaluated. Quoted data does not count, unless it is handed to `eval`.

Whether a form is misused depends on the code alone if `eval` is applied to
nothing but quotations, and if `eval` is not bound to anything else. Then no
code comes into being at run time.

## Main definitions

* `EvalsQuoted`: The atom `eval` occurs only in front of a quotation.
* `WellUsed`: Every form that may be evaluated is well used.
* `wellUsed`: The discipline of code that is well used.

## Theorems

* `EvalsQuoted.names`: Where names are bound, `eval` is not among them.
* `WellUsed.remarked`: Lines do not matter.
* `WellUsed.permits`: Well used code evaluates only well used code.
-/

namespace ListLang

/-- Every occurrence of the atom `eval`, in data or not, is the head of a list
    whose one argument is a quotation. -/
inductive EvalsQuoted : Expr → Prop where
  | atom (line : Option Int) {name : String} (h : name ≠ Builtin.eval.name) :
      EvalsQuoted (.atom line name)
  | literal {e : Expr} (h : e.isLiteral = true) : EvalsQuoted e
  | evalQuoted (line own line' own' : Option Int) {datum : Expr} (h : EvalsQuoted datum) :
      EvalsQuoted (.list line [.atom own Builtin.eval.name,
        .list line' [.atom own' SpecialForm.quote.name, datum]])
  | list (line : Option Int) {items : List Expr} (h : ∀ e ∈ items, EvalsQuoted e) :
      EvalsQuoted (.list line items)

theorem EvalsQuoted.atom_ne {line : Option Int} {name : String}
    (h : EvalsQuoted (.atom line name)) : name ≠ Builtin.eval.name := by
  cases h with
  | atom _ h => exact h
  | literal h => exact absurd h Bool.false_ne_true

theorem EvalsQuoted.arguments {line own : Option Int} {name : String} {args : List Expr}
    (h : EvalsQuoted (.list line (.atom own name :: args))) (hne : name ≠ Builtin.eval.name) :
    ∀ e ∈ args, EvalsQuoted e := by
  cases h with
  | literal h => exact absurd h Bool.false_ne_true
  | evalQuoted _ _ _ _ _ => exact absurd rfl hne
  | list _ h => exact fun e he => h e (List.mem_cons_of_mem _ he)

theorem EvalsQuoted.quote {datum : Expr} (h : EvalsQuoted datum) (line own : Option Int) :
    EvalsQuoted (.list line [.atom own SpecialForm.quote.name, datum]) := by
  refine .list line fun e he => ?_
  rcases List.mem_cons.mp he with rfl | he
  · exact .atom own (by decide)
  · exact List.mem_singleton.mp he ▸ h

/-- Where names are bound, `eval` is not among them. -/
theorem EvalsQuoted.names {e : Expr} (h : EvalsQuoted e) {names : List String}
    (hnames : e.names? = some names) : ∀ p ∈ names, p ≠ Builtin.eval.name := by
  intro p hp
  rcases Expr.mem_of_names? hnames hp with ⟨line, items, rfl, own, hmem⟩
  cases h with
  | literal h => exact absurd h Bool.false_ne_true
  | evalQuoted _ _ _ _ _ => cases hnames
  | list _ h => exact (h _ hmem).atom_ne

/-- Every form that may be evaluated in the given surroundings is well used. -/
inductive WellUsed : Surroundings → Expr → Prop where
  | atom {around : Surroundings} (line : Option Int) (name : String) :
      WellUsed around (.atom line name)
  | literal {around : Surroundings} {e : Expr} (h : e.isLiteral = true) : WellUsed around e
  | empty {around : Surroundings} (line : Option Int) : WellUsed around (.list line [])
  | computed {around : Surroundings} (line : Option Int) {head : Expr} {args : List Expr}
      (hhead : head.atomName? = none) (h : WellUsed around head)
      (hargs : ∀ e ∈ args, WellUsed around e) : WellUsed around (.list line (head :: args))
  | call {around : Surroundings} (line own : Option Int) {name : String} {args : List Expr}
      (hname : SpecialForm.ofName? name = none) (hne : name ≠ Builtin.eval.name)
      (hargs : ∀ e ∈ args, WellUsed around e) :
      WellUsed around (.list line (.atom own name :: args))
  | evalQuoted {around : Surroundings} (line own line' own' : Option Int) {datum : Expr}
      (h : datum.items?.isSome = true → WellUsed around datum) :
      WellUsed around (.list line [.atom own Builtin.eval.name,
        .list line' [.atom own' SpecialForm.quote.name, datum]])
  | quote {around : Surroundings} (line own : Option Int) (datum : Expr) :
      WellUsed around (.list line [.atom own SpecialForm.quote.name, datum])
  | setq {around : Surroundings} (line own line' : Option Int) {name : String} {value : Expr}
      (hname : name ≠ Builtin.eval.name) (h : WellUsed around value) :
      WellUsed around (.list line [.atom own SpecialForm.setq.name, .atom line' name, value])
  | func {around : Surroundings} (line own line' : Option Int) {name : String} {params body : Expr}
      {names : List String} (hname : name ≠ Builtin.eval.name)
      (hparams : params.names? = some names) (hnames : ∀ p ∈ names, p ≠ Builtin.eval.name)
      (h : WellUsed .body body) :
      WellUsed around (.list line [.atom own SpecialForm.func.name, .atom line' name, params, body])
  | lambda {around : Surroundings} (line own : Option Int) {params body : Expr}
      {names : List String} (hparams : params.names? = some names)
      (hnames : ∀ p ∈ names, p ≠ Builtin.eval.name) (h : WellUsed .body body) :
      WellUsed around (.list line [.atom own SpecialForm.lambda.name, params, body])
  | prog {around : Surroundings} (line own : Option Int) {locals : Expr} {forms : List Expr}
      {names : List String} (hlocals : locals.names? = some names)
      (hnames : ∀ p ∈ names, p ≠ Builtin.eval.name)
      (h : ∀ e ∈ forms, WellUsed { around with inProg := true } e) :
      WellUsed around (.list line (.atom own SpecialForm.prog.name :: locals :: forms))
  | condThen {around : Surroundings} (line own : Option Int) {test yes : Expr}
      (htest : WellUsed around test) (hyes : WellUsed around yes) :
      WellUsed around (.list line [.atom own SpecialForm.cond.name, test, yes])
  | condElse {around : Surroundings} (line own : Option Int) {test yes no : Expr}
      (htest : WellUsed around test) (hyes : WellUsed around yes) (hno : WellUsed around no) :
      WellUsed around (.list line [.atom own SpecialForm.cond.name, test, yes, no])
  | whileLoop {around : Surroundings} (line own : Option Int) {test : Expr} {body : List Expr}
      (htest : WellUsed around test) (h : ∀ e ∈ body, WellUsed { around with inWhile := true } e) :
      WellUsed around (.list line (.atom own SpecialForm.whileLoop.name :: test :: body))
  | returnNull {around : Surroundings} (line own : Option Int)
      (hcaught : around.inProg = true ∨ around.inFunc = true) :
      WellUsed around (.list line [.atom own SpecialForm.returnValue.name])
  | returnValue {around : Surroundings} (line own : Option Int) {value : Expr}
      (hcaught : around.inProg = true ∨ around.inFunc = true) (h : WellUsed around value) :
      WellUsed around (.list line [.atom own SpecialForm.returnValue.name, value])
  | breakLoop {around : Surroundings} (line own : Option Int) (hcaught : around.inWhile = true) :
      WellUsed around (.list line [.atom own SpecialForm.breakLoop.name])

/-! ### Lines -/

theorem Expr.isSome_items?_remarked (m : Int → Option Int) (e : Expr) :
    (e.remarked m).items?.isSome = e.items?.isSome := by
  cases e <;> rfl

/-- Lines do not matter for the use of forms. -/
theorem WellUsed.remarked {around : Surroundings} {e : Expr} (h : WellUsed around e)
    (m : Int → Option Int) : WellUsed around (e.remarked m) := by
  -- The hypotheses of the induction, for the items of a list.
  have hmap : ∀ {inner : Surroundings} {es : List Expr},
      (∀ e ∈ es, WellUsed inner (e.remarked m)) →
        ∀ e ∈ Expr.remarkedAll m es, WellUsed inner e := by
    intro inner es hes e he
    rw [Expr.remarkedAll_eq_map] at he
    rcases List.mem_map.mp he with ⟨f, hf, rfl⟩
    exact hes f hf
  induction h with
  | atom _ name => exact .atom none name
  | literal h => exact .literal (by rw [Expr.isLiteral_remarked, h])
  | empty _ => exact .empty _
  | computed _ hhead _ _ ih ihargs =>
      exact .computed _ (by rw [Expr.atomName?_remarked, hhead]) ih (hmap ihargs)
  | call _ _ hname hne _ ihargs => exact .call _ none hname hne (hmap ihargs)
  | evalQuoted _ _ _ _ _ ih =>
      exact .evalQuoted _ none _ none fun hlist =>
        ih (by rw [← hlist, Expr.isSome_items?_remarked])
  | quote _ _ datum => exact .quote _ none _
  | setq _ _ _ hname _ ih => exact .setq _ none _ hname ih
  | func _ _ _ hname hparams hnames _ ih =>
      exact .func _ none _ hname (by rw [Expr.names?_remarked, hparams]) hnames ih
  | lambda _ _ hparams hnames _ ih =>
      exact .lambda _ none (by rw [Expr.names?_remarked, hparams]) hnames ih
  | prog _ _ hlocals hnames _ ih =>
      exact .prog _ none (by rw [Expr.names?_remarked, hlocals]) hnames (hmap ih)
  | condThen _ _ _ _ ihtest ihyes => exact .condThen _ none ihtest ihyes
  | condElse _ _ _ _ _ ihtest ihyes ihno => exact .condElse _ none ihtest ihyes ihno
  | whileLoop _ _ _ _ ihtest ih => exact .whileLoop _ none ihtest (hmap ih)
  | returnNull _ _ hcaught => exact .returnNull _ none hcaught
  | returnValue _ _ hcaught _ ih => exact .returnValue _ none hcaught ih
  | breakLoop _ _ hcaught => exact .breakLoop _ none hcaught

/-! ### Evaluation -/

/-- The discipline of well used code. Nothing is bound to `eval`. -/
def wellUsed : Discipline where
  code := WellUsed
  pinned name := name = Builtin.eval.name
  datum _ := True
  checked := True
  stalls := True

/-- Well used code evaluates only well used code. -/
theorem WellUsed.permits {around : Surroundings} {e : Expr} (h : WellUsed around e) :
    wellUsed.Permits around e := by
  have hadmits : ∀ datum : Expr, wellUsed.Admits 0 datum.quoted :=
    fun datum => Discipline.admits_quoted (fun _ => trivial) datum 0
  cases h with
  | atom line name => exact .atom line name
  | literal h => exact .literal h
  | empty line => exact .empty line
  | computed line hhead h hargs => exact .computed line hhead h hargs
  | @call _ line own name _ hname hne hargs =>
      refine .call line own hname (.inr fun hb => hne ?_) hargs
      exact (Builtin.name_of_ofName? hb).symm
  | evalQuoted line own line' own' h =>
      -- What `eval` makes of the data is the code that was quoted, without its lines.
      refine .evalQuoted line own line' own' rfl (hadmits _) fun hlist => ?_
      rw [Expr.relined_none]
      exact (h hlist).remarked _
  | quote line own datum =>
      exact .special line own (SpecialForm.ofName?_name _) (.quote (hadmits _))
  | setq line own line' hname h =>
      exact .special line own (SpecialForm.ofName?_name _) (.setq line' hname h)
  | func line own line' hname hparams hnames h =>
      exact .special line own (SpecialForm.ofName?_name _) (.func line' hname hparams hnames h)
  | lambda line own hparams hnames h =>
      exact .special line own (SpecialForm.ofName?_name _) (.lambda hparams hnames h)
  | prog line own hlocals hnames h =>
      exact .special line own (SpecialForm.ofName?_name _) (.prog hlocals hnames h)
  | condThen line own htest hyes =>
      exact .special line own (SpecialForm.ofName?_name _) (.condThen htest hyes)
  | condElse line own htest hyes hno =>
      exact .special line own (SpecialForm.ofName?_name _) (.condElse htest hyes hno)
  | whileLoop line own htest h =>
      exact .special line own (SpecialForm.ofName?_name _) (.whileLoop trivial htest h)
  | returnNull line own hcaught =>
      exact .special line own (SpecialForm.ofName?_name _) (.returnNull fun _ => hcaught)
  | returnValue line own hcaught h =>
      exact .special line own (SpecialForm.ofName?_name _) (.returnValue (fun _ => hcaught) h)
  | breakLoop line own hcaught =>
      exact .special line own (SpecialForm.ofName?_name _) (.breakLoop fun _ => hcaught)

end ListLang
