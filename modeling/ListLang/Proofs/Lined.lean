import ListLang.Optimize.Pass
import ListLang.Parser.Basic
import ListLang.Proofs.DeadStore
import ListLang.Proofs.Folded

/-!
# Lines

Every expression that is read from a text has a line, and so has everything in
it. The optimizer puts literals in the place of calls and values in the place of
assignments, but it never loses a line: a literal gets that of the call, and a
value keeps its own.

## Main definitions

* `Expr.isLined`: Whether everything in an expression has a line.
* `Progress.Lined`, `Reader.Lined`: A parser that has kept all lines so far.

## Theorems

* `isLined_parseTokens`: Programs that are read have lines.
* `Pass.isLined_run`: Optimized programs keep them.
-/

namespace ListLang

namespace Expr

mutual

/-- Whether the expression and everything in it has a line. -/
def isLined : Expr → Bool
  | .atom line _ | .integer line _ | .real line _ | .boolean line _ | .null line => line.isSome
  | .list line items => line.isSome && areLined items

/-- Whether several expressions and everything in them has a line. -/
def areLined : List Expr → Bool
  | [] => true
  | e :: es => e.isLined && areLined es

end

theorem areLined_eq_all (es : List Expr) : areLined es = es.all isLined := by
  induction es with
  | nil => rfl
  | cons e es ih => rw [areLined, List.all_cons, ih]

theorem isLined_list {line : Option Int} {items : List Expr} :
    (Expr.list line items).isLined = true ↔
      line.isSome = true ∧ ∀ e ∈ items, e.isLined = true := by
  rw [isLined, Bool.and_eq_true, areLined_eq_all, List.all_eq_true]

theorem isSome_line_of_isLined {e : Expr} (h : e.isLined = true) : e.line.isSome = true := by
  cases e with
  | list line items => exact (isLined_list.mp h).1
  | atom _ _ | integer _ _ | real _ _ | boolean _ _ | null _ => exact h

theorem isLined_of_isLiteral {e : Expr} (h : e.isLiteral = true) :
    e.isLined = e.line.isSome := by
  cases e with
  | integer _ _ | real _ _ | boolean _ _ | null _ => rfl
  | atom _ _ | list _ _ => exact absurd h Bool.false_ne_true

end Expr

/-! ### Reading -/

/-- Whether everything in what is begun has a line. -/
def Pending.isLined : Pending → Bool
  | .list _ items => items.all Expr.isLined
  | .quote _ => true

/-- Everything that a token leads to has a line. -/
def Progress.Lined : Progress → Prop
  | .reading stack => ∀ pending ∈ stack, pending.isLined = true
  | .finished _ e => e.isLined = true
  | .refused => True

variable {stack : List Pending}

theorem lined_complete (hstack : ∀ pending ∈ stack, pending.isLined = true) (line : Int) {e : Expr}
    (he : e.isLined = true) : (complete line e stack).Lined := by
  -- A quote mark completes a quotation, which goes to what was begun before it.
  induction stack generalizing line e with
  | nil => exact he
  | cons pending stack ih =>
      have hrest : ∀ p ∈ stack, p.isLined = true := fun p hp =>
        hstack p (List.mem_cons_of_mem _ hp)
      cases pending with
      | list opened items =>
          have hitems : (Pending.list opened items).isLined = true :=
            hstack _ List.mem_cons_self
          intro p hp
          rcases List.mem_cons.mp hp with rfl | hp
          · simp only [Pending.isLined, List.all_cons, Bool.and_eq_true] at hitems ⊢
            exact ⟨he, hitems⟩
          · exact hrest p hp
      | quote mark =>
          refine ih hrest mark (Expr.isLined_list.mpr ⟨rfl, ?_⟩)
          intro f hf
          rcases List.mem_cons.mp hf with rfl | hf
          · rfl
          · rw [List.mem_singleton.mp hf]
            exact he

theorem lined_feed (hstack : ∀ pending ∈ stack, pending.isLined = true) (lenient : Bool)
    (line : Int) (t : Token) : (feed lenient line stack t).Lined := by
  have hbegin : ∀ pending : Pending, pending.isLined = true →
      (Progress.reading (pending :: stack)).Lined := by
    intro pending hpending p hp
    rcases List.mem_cons.mp hp with rfl | hp
    · exact hpending
    · exact hstack p hp
  have hfeeds := feeds_feed lenient line stack t
  generalize feed lenient line stack t = p at hfeeds
  cases hfeeds with
  | @leaf t e _ he hline =>
      refine lined_complete hstack line ?_
      cases e with
      | list l items => cases he
      | atom l _ | integer l _ | real l _ | boolean l _ | null l =>
          exact Option.isSome_of_eq_some hline
  | quote => exact hbegin (.quote line) rfl
  | lparen => exact hbegin (.list line []) rfl
  | @rparen opened items outer hclosed =>
      subst hclosed
      have hitems : (Pending.list opened items).isLined = true := hstack _ List.mem_cons_self
      refine lined_complete (fun p hp => hstack p (List.mem_cons_of_mem _ hp)) opened
        (Expr.isLined_list.mpr ⟨rfl, fun e he => ?_⟩)
      exact List.all_eq_true.mp hitems e (List.mem_reverse.mp he)
  | newline => exact hstack
  | refused _ => trivial

/-- Everything that a reader has read so far has a line. -/
structure Reader.Lined (r : Reader) : Prop where
  forms : ∀ form ∈ r.forms, form.expr.isLined = true
  begun : ∀ stack, r.mode = .reading stack → ∀ pending ∈ stack, pending.isLined = true

namespace Reader.Lined

variable {r : Reader}

/-- What is begun when reading goes on. A recovery ends with nothing begun. -/
theorem resume (h : r.Lined) {t : Token} (hresume : r.mode.resume? t = some stack) :
    ∀ pending ∈ stack, pending.isLined = true := by
  rcases Mode.resume?_cases hresume with hmode | rfl
  · exact h.begun _ hmode
  · exact nofun

theorem feed (h : r.Lined) (lenient : Bool) (t : Token) : (r.feed lenient t).Lined := by
  unfold Reader.feed
  split
  · rename_i hnone
    refine ⟨h.forms, fun stack hmode => ?_⟩
    -- What is skipped leaves nothing begun.
    rcases Mode.skip_cases hnone with hskip | ⟨depth, hskip⟩
    · cases hskip.symm.trans hmode
      exact nofun
    · cases hskip.symm.trans hmode
  · rename_i stack hresume
    have hlined := lined_feed (h.resume hresume) lenient r.parser.line t
    -- The token may begin something, complete a form or be refused.
    cases hfeed : ListLang.feed lenient r.parser.line stack t with
    | reading stack' =>
        rw [hfeed] at hlined
        refine ⟨h.forms, fun stack hmode => ?_⟩
        cases hmode
        exact hlined
    | finished line e =>
        rw [hfeed] at hlined
        refine ⟨fun form hform => ?_, fun stack hmode => ?_⟩
        · rcases List.mem_append.mp hform with hform | hform
          · exact h.forms form hform
          · rw [List.mem_singleton.mp hform]
            exact hlined
        · cases hmode
          exact nofun
    | refused => exact ⟨h.forms, fun stack hmode => by cases hmode⟩

end Reader.Lined

/-- Programs that are read have lines, with or without problems. -/
theorem isLined_parseTokens (lenient : Bool) (tokens : List Token) :
    ∀ form ∈ (parseTokens lenient tokens).1, form.expr.isLined = true := by
  have hread : ∀ (ts : List Token) (r : Reader), r.Lined →
      (ts.foldl (Reader.feed lenient) r).Lined := by
    intro ts
    induction ts with
    | nil => exact fun r h => h
    | cons t ts ih => exact fun r h => ih _ (h.feed lenient t)
  have hstart : Reader.Lined { parser := Parser.ofTokens tokens } := by
    refine ⟨nofun, ?_⟩
    intro stack hmode
    cases hmode
    exact nofun
  exact (hread tokens _ hstart).forms

/-! ### Optimizing -/

/-- Folding keeps the lines. -/
theorem Folded.isLined {bound : List String} {e e' : Expr} (h : Folded bound e e')
    (he : e.isLined = true) : e'.isLined = true := by
  induction e using Expr.induct generalizing e' with
  | list line items ih =>
      rcases Expr.isLined_list.mp he with ⟨hline, hitems⟩
      have hlist : ∀ {items'}, List.Forall₂ (Folded bound) items items' →
          (Expr.list line items').isLined = true := by
        intro items' hfolded
        refine Expr.isLined_list.mpr ⟨hline, ?_⟩
        exact forall_mem_of_forall₂ hfolded fun e he e' h => ih e he h (hitems e he)
      cases h.stands with
      | leaf hnone => cases hnone
      | empty _ => exact he
      | computed _ _ _ hhead hargs => exact hlist (.cons hhead hargs)
      | call _ own _ hargs => exact hlist (.cons (.refl _) hargs)
      | special _ own _ hargs _ => exact hlist (.cons (.refl _) hargs)
      | literal _ _ _ _ _ hcall hkept =>
          rw [Expr.isLined_of_isLiteral hcall.isLiteral, hkept]
          exact hline
  | atom _ _ | integer _ _ | real _ _ | boolean _ _ | null _ =>
      rw [h.eq_of_leaf rfl]
      exact he

theorem isLined_withoutDeadStore (dead : List String) {e : Expr} (he : e.isLined = true) :
    (withoutDeadStore dead e).isLined = true := by
  unfold withoutDeadStore
  split
  · rename_i name value hstore
    split
    · rcases list_of_store? hstore with ⟨line, own, l, rfl⟩
      exact (Expr.isLined_list.mp he).2 value (by simp)
    · exact he
  · exact he

/-- Optimizing keeps the lines. -/
theorem Pass.isLined_run (pass : Pass) {forms : List Form}
    (h : ∀ form ∈ forms, form.expr.isLined = true) :
    ∀ form ∈ pass.run forms, form.expr.isLined = true := by
  cases pass with
  | constantFolding =>
      refine List.forall_mem_map.mpr fun form hform => ?_
      exact (Folded.of_fold form.expr).isLined (h form hform)
  | deadStoreElimination =>
      refine List.forall_mem_map.mpr fun form hform => ?_
      exact isLined_withoutDeadStore _ (h form hform)

end ListLang
