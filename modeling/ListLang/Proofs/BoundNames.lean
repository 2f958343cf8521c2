import ListLang.Proofs.Discipline.Step
import ListLang.Proofs.Folding

/-!
# Foldable Names That Get Bound

Before anything is folded, the names of foldable builtins that a program might
bind are collected. The collection is made from the text of the program alone,
yet it has every foldable name that is ever bound in any frame while the program
runs, in code that `eval` makes of data as well.

To compare a program with another, enough is asked of it for it to keep a
discipline by itself: code that corresponds to something binds no pinned name.
Folding changes nothing that is collected, so the folded program is code of the
same kind.

## Main definitions

* `Correspondence.discipline`: The discipline of code that corresponds to
  something.
* `Store.boundNames`: The names bound in the frames of a store.

## Theorems

* `Correspondence.Values.admits`, `Correspondence.values_self`: Data that
  corresponds to something.
* `Correspondence.Matches.permits`: What matches something keeps the discipline.
* `foldable_boundNames_subset`: Every foldable name that is bound was collected.
-/

namespace ListLang

namespace Correspondence

variable {c : Correspondence}

/-- The discipline of code that corresponds to something: it binds no pinned name,
    and pinned names do not occur in data. -/
def discipline (c : Correspondence) : Discipline where
  code _ e := ∃ e', c.code e e'
  pinned := c.pinned
  datum name := ¬ c.pinned name
  checked := False
  stalls := True

/-! ### Data -/

/-- Quoted code corresponds to something only if no pinned name occurs in it. -/
theorem Values.admits {e : Expr} {w : Value} (h : c.Values e.quoted w) (n : Nat) :
    c.discipline.Admits n e.quoted := by
  induction e using Expr.induct generalizing w with
  | atom line name =>
      cases h with
      | atom _ hname => exact .atom hname
  | list line items ih =>
      rw [Expr.quoted, Expr.quotedAll_eq_map] at h ⊢
      cases h with
      | list hitems =>
          have hadmits : List.Forall₂ (fun e _ => c.discipline.Admits n e.quoted) items _ :=
            forall₂_imp_mem (List.forall₂_map_left_iff.mp hitems) fun e he _ hw => ih e he hw
          refine .list (List.forall_mem_map.mpr ?_)
          exact forall_mem_of_forall₂ hadmits.flip fun _ _ _ he => he
  | integer line n => exact .integer n
  | real line x => exact .real x
  | boolean line b => exact .boolean b
  | null line => exact .null

/-- Quoted code without pinned names corresponds to itself. -/
theorem values_self {e : Expr} {n : Nat} (h : c.discipline.Admits n e.quoted) :
    c.Values e.quoted e.quoted := by
  induction e using Expr.induct with
  | atom line name =>
      cases h with
      | atom hname => exact .atom name hname
  | list line items ih =>
      rw [Expr.quoted, Expr.quotedAll_eq_map] at h ⊢
      cases h with
      | list hitems =>
          refine .list (List.forall₂_map_left_iff.mpr (List.forall₂_map_right_iff.mpr
            (List.forall₂_same.mpr fun e he => ih e he ?_)))
          exact hitems _ (List.mem_map_of_mem he)
  | integer line n => exact .integer n
  | real line x => exact .real x
  | boolean line b => exact .boolean b
  | null line => exact .null

/-- What `eval` may make of data in a comparison, it may make by itself. -/
theorem EvalsData.discipline (h : c.EvalsData) : c.discipline.EvalsData := by
  intro around v e n hv he
  have hquoted : e.quoted = v := Value.quoted_of_toExpr he
  rw [← hquoted] at hv
  have hself : c.Values v v := by
    rw [← hquoted]
    exact values_self hv
  exact ⟨e, h v e hself he⟩

/-! ### Code -/

/-- All code in a list that corresponds to another is code of the discipline. -/
theorem code_of_forall₂ {es es' : List Expr} (h : List.Forall₂ c.code es es')
    {around : Surroundings} : ∀ e ∈ es, c.discipline.code around e :=
  forall_mem_of_forall₂ h.flip fun e' _ _ he => ⟨e', he⟩

theorem Forms.discipline {form : SpecialForm} {args args' : List Expr}
    (h : c.Forms form args args') (around : Surroundings) :
    c.discipline.Forms around form args := by
  -- Nothing is checked, so any place will do for a `return` or a `break`.
  have huncaught : ∀ {p : Prop}, c.discipline.checked → p := fun hchecked => hchecked.elim
  cases h with
  | quote h => exact .quote (h.admits 0)
  | setq l _ hname h => exact .setq l hname ⟨_, h⟩
  | func l _ hname hparams _ hnames h => exact .func l hname hparams hnames ⟨_, h⟩
  | lambda hparams _ hnames h => exact .lambda hparams hnames ⟨_, h⟩
  | prog hlocals _ hnames h => exact .prog hlocals hnames (code_of_forall₂ h)
  | condThen htest hyes => exact .condThen ⟨_, htest⟩ ⟨_, hyes⟩
  | condElse htest hyes hno => exact .condElse ⟨_, htest⟩ ⟨_, hyes⟩ ⟨_, hno⟩
  | whileLoop htest h => exact .whileLoop trivial ⟨_, htest⟩ (code_of_forall₂ h)
  | returnNull => exact .returnNull huncaught
  | returnValue h => exact .returnValue huncaught ⟨_, h⟩
  | breakLoop => exact .breakLoop huncaught

/-- An expression that matches another evaluates only code of the discipline. -/
theorem Matches.permits {e e' : Expr} (h : c.Matches e e') (around : Surroundings) :
    c.discipline.Permits around e := by
  cases h with
  | atom l _ _ => exact .atom l _
  | literal hlit _ _ => exact .literal hlit
  | empty l _ => exact .empty l
  | computed l _ hhead _ h hargs => exact .computed l hhead ⟨_, h⟩ (code_of_forall₂ hargs)
  | call l _ k _ hname heval _ hargs =>
      exact .call l k hname (heval.imp_left EvalsData.discipline) (code_of_forall₂ hargs)
  | folded l k hname hb _ hargs hcall =>
      -- What is folded is a call of a builtin other than `eval`.
      refine .call l k hname (.inr fun heq => hcall.ne_eval ?_) (code_of_forall₂ hargs)
      rw [heq] at hb
      exact (Option.some.inj hb).symm
  | special l _ k _ hname h => exact .special l k hname (h.discipline around)
  | misshapen l _ k _ hname h _ _ _ => exact .misshapen l k hname h id

end Correspondence

/-! ### Runs -/

/-- The names bound in the frames of a store. -/
def Store.boundNames (s : Store) : List String :=
  s.frames.toList.flatMap fun f => f.bindings.names

/-- No pinned name is bound in a valid store. -/
theorem Discipline.Valid.boundNames {d : Discipline} {s : Store} (h : d.Valid s) :
    ∀ name ∈ s.boundNames, ¬ d.pinned name := by
  intro name hname
  rcases List.mem_flatMap.mp hname with ⟨f, hf, hname⟩
  rcases List.mem_map.mp hname with ⟨b, hb, rfl⟩
  rcases Array.getElem?_of_mem (Array.mem_toList_iff.mp hf) with ⟨i, hi⟩
  exact h.names i f hi b hb

/-- Whatever the folder might find in code, code may also do by itself. -/
theorem permits_folding (bound : List String) {around : Surroundings} {e : Expr}
    (h : (folding bound []).discipline.code around e) :
    (folding bound []).discipline.Permits around e := by
  rcases h with ⟨e', hcode⟩
  exact (matches_of_folding hcode fun _ _ => List.not_mem_nil).permits around

/-- A program that binds no foldable names but the collected ones, as far as can
    be seen from its text, binds no others when it runs. -/
theorem boundNames_interpretUntil {bound : List String} {forms : List Form}
    (h : ∀ form ∈ forms, rebound form.expr ⊆ bound) (limits : Limits) (stop : Moment → Bool) :
    ((Session.new limits).interpretUntil stop forms).2.store.boundNames.filter isFoldableName ⊆
      bound := by
  have hstoppable : (folding bound []).discipline.Stoppable stop := ⟨.inl trivial⟩
  have hvalid := (Discipline.interpretUntil (fun _ _ => permits_folding bound) stop
    (fun form hform => ⟨form.expr, h form hform, .inr rfl⟩) (Session.new limits)
    (Discipline.valid_new limits) Nat.zero_lt_one).1
  intro name hname
  rcases List.mem_filter.mp hname with ⟨hbound, hfoldable⟩
  by_contra hnot
  exact hvalid.boundNames name hbound ⟨hfoldable, hnot⟩

/-- At every moment of a run of a program or of the folded program, every foldable
    name that is bound in some frame, to whatever value, is among the names that
    were collected before folding. -/
theorem foldable_boundNames_subset (limits : Limits) (stop : Moment → Bool) (forms : List Form) :
    ((Session.new limits).interpretUntil stop forms).2.store.boundNames.filter isFoldableName ⊆
        reboundNames forms ∧
      ((Session.new limits).interpretUntil stop (foldConstants forms)).2.store.boundNames.filter
        isFoldableName ⊆ reboundNames forms := by
  refine ⟨?_, ?_⟩
  · exact boundNames_interpretUntil (fun _ => rebound_subset_reboundNames) limits stop
  · refine boundNames_interpretUntil (fun form hform => ?_) limits stop
    rcases List.mem_map.mp hform with ⟨original, horiginal, rfl⟩
    rw [rebound_fold]
    exact rebound_subset_reboundNames horiginal

-- Data that `eval` takes for code can bind the name of a builtin.
example : "plus" ∈ ((Session.new ⟨10, 10, {}⟩).interpretUntil never
    [⟨.list none [.atom none "eval", .list none [.atom none "quote", .list none
      [.atom none "setq", .atom none "plus", .integer none 1]]], 1⟩]).2.store.boundNames := by
  decide +kernel

end ListLang
