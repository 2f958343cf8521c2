import ListLang.Eval.Session
import ListLang.Proofs.Marks.Evaluation

/-!
# Evaluating Quoted Code

Quoting a list and evaluating it again does what evaluating the list does, one
level further in. The one difference is in the lines, which the code loses when
it becomes data. An error that would have had a line of the code has none, and
functions that the code makes have no lines in their bodies; an error in the
body of a function that was there before keeps its line.

One number may be a line of the code and of the store at once. Whose line an
error has shows in what becomes of it when the marks of the code are changed: a
line of the code changes with them, and a line of the store does not.

To tell the lines of the code from those of the store, both are made different
by doubling. Marks of the store become even and marks of the code odd. The run
of the code and the run of the quoted code are then the same run with its marks
changed back in two ways, and so is every run of the code with other marks.

## Main definitions

* `Value.unlined`, `Store.unlined`: Values and stores without lines.
* `errorLine?`: The line of an error.
* `LineKept`: What becomes of the line of an error.
* `SameButLines`: Outcomes that differ in lines only.

## Theorems

* `evaluate_quoted`: Evaluating a quotation is evaluating the code without lines.
* `evaluateWithin_restored`: Every run is the run with doubled marks, with its marks
  changed back.
* `sameButLines_of_restored`: Two outcomes that are one with its marks changed back.
* `evaluate_relined`: Evaluating code without its lines.
* `evaluate_eval_quote`: Evaluating quoted code.
-/

namespace ListLang

/-- The value without the lines in the bodies of its functions. -/
def Value.unlined (v : Value) : Value :=
  v.remarked fun _ => none

/-- The store without the lines in the bodies of its functions. -/
def Store.unlined (s : Store) : Store :=
  s.remarked fun _ => none

/-- The line of an outcome that is an error and knows its line. -/
def errorLine? : EStateM.Result Exit Store Value → Option Int
  | .error (.fault e) _ => e.line
  | .error _ _ | .ok _ _ => none

/-- What becomes of the line of an error when the code loses its lines, where
    `moved` is the line of the error when the marks of the code are changed. A
    line of the code moves with its marks, and it is lost. A line of the store
    stays whatever the marks of the code are, and it is kept. -/
inductive LineKept (code store : List Int) (moved : (Int → Option Int) → Option Int) :
    Option Int → Option Int → Prop where
  | unknown (hmoved : ∀ m, moved m = none) : LineKept code store moved none none
  | kept {n : Int} (h : n ∈ store) (hmoved : ∀ m, moved m = some n) :
      LineKept code store moved (some n) (some n)
  | lost {n : Int} (h : n ∈ code) (hmoved : ∀ m, moved m = m n) :
      LineKept code store moved (some n) none

/-- Outcomes that differ in lines only, where those of errors differ as said. -/
inductive SameButLines (code store : List Int) (moved : (Int → Option Int) → Option Int) :
    EStateM.Result Exit Store Value → EStateM.Result Exit Store Value → Prop where
  | value {v w : Value} {s t : Store} (h : v.unlined = w.unlined) (hst : s.unlined = t.unlined) :
      SameButLines code store moved (.ok v s) (.ok w t)
  | fault (cause : EvalCause) {l l' : Option Int} {s t : Store}
      (h : LineKept code store moved l l') (hst : s.unlined = t.unlined) :
      SameButLines code store moved (.error (.fault ⟨cause, l⟩) s) (.error (.fault ⟨cause, l'⟩) t)
  | returned {v w : Value} {s t : Store} (h : v.unlined = w.unlined)
      (hst : s.unlined = t.unlined) :
      SameButLines code store moved (.error (.returned v) s) (.error (.returned w) t)
  | broke {s t : Store} (hst : s.unlined = t.unlined) :
      SameButLines code store moved (.error .broke s) (.error .broke t)
  | stalled {s t : Store} (hst : s.unlined = t.unlined) :
      SameButLines code store moved (.error .stalled s) (.error .stalled t)

/-! ### Quotations -/

/-- Evaluating a quotation is evaluating the code without lines, one level further
    in. -/
theorem evaluate_quoted (limits : Limits) {depth : Int} (hdepth : depth + 1 ≤ limits.depth)
    (line own line' own' l : Option Int) (items : List Expr) (env : Nat) {s : Store}
    (heval : ∀ f, s.find? env Builtin.eval.name ≠ some (.function f)) :
    evaluate limits depth (.list line [.atom own Builtin.eval.name,
        .list line' [.atom own' SpecialForm.quote.name, .list l items]]) env s =
      evaluate limits (depth + 1) ((Expr.list l items).relined none) env s := by
  rcases Int.eq_ofNat_of_zero_le (Int.sub_nonneg_of_le hdepth) with ⟨levels, hlevels⟩
  have houter : (limits.depth - depth + 1).toNat = levels + 1 + 1 := by omega
  have hinner : (limits.depth - (depth + 1) + 1).toNat = levels + 1 := by omega
  unfold evaluate
  rw [houter, hinner]
  generalize hsub : evaluateWithin limits (levels + 1) = sub
  have hquote : sub (.list line' [.atom own' SpecialForm.quote.name, .list l items]) env =
      pure (Expr.list l items).quoted := by
    rw [← hsub]
    exact step_special _ _ _ (SpecialForm.ofName?_name .quote) ..
  -- The name stands for the builtin, and the data it is given is a list.
  have hcall : callBound sub env Builtin.eval.name [(Expr.list l items).quoted]
      (s.find? env Builtin.eval.name) (s.available env) =
        evalValue sub env (Expr.list l items).quoted := by
    cases hfind : s.find? env Builtin.eval.name with
    | none => rw [callBound_none, Builtin.ofName?_name]; rfl
    | some v =>
        rw [callBound_of_not_function fun f hf => heval f (by rw [hfind, hf]),
          Builtin.ofName?_name]
        rfl
  have hvalue : evalValue sub env (Expr.list l items).quoted =
      sub ((Expr.list l items).relined none) env := by
    have hcode : (Expr.list l items).quoted.toCode none =
        .ok ((Expr.list l items).relined none) := by
      rw [Value.toCode, Expr.toExpr_quoted]
      rfl
    rw [Expr.quoted] at hcode ⊢
    simp only [evalValue, hcode]
    rfl
  rw [evaluateWithin, hsub, step_call _ _ _ (by decide), callNamed_eq]
  simp only [evalAll, hquote]
  change callBound sub env Builtin.eval.name [(Expr.list l items).quoted]
    (s.find? env Builtin.eval.name) (s.available env) s = _
  rw [hcall, hvalue]

/-! ### Doubled Marks -/

/-- Make a mark of the store even. -/
def evenly (n : Int) : Option Int :=
  some (2 * n)

/-- Make a mark of the code odd. -/
def oddly (n : Int) : Option Int :=
  some (2 * n + 1)

/-- Change the marks of the store back to what they were, and those of the code
    to what is said of them. -/
def restored (m : Int → Option Int) (n : Int) : Option Int :=
  if n % 2 = 0 then some (n / 2) else m (n / 2)

theorem restored_evenly (m : Int → Option Int) (n : Int) :
    (evenly n).bind (restored m) = some n := by
  have heven : 2 * n % 2 = 0 := by omega
  simp only [evenly, restored, Option.bind_some, heven, ↓reduceIte, Option.some.injEq]
  omega

theorem restored_oddly (m : Int → Option Int) (n : Int) : (oddly n).bind (restored m) = m n := by
  have hodd : (2 * n + 1) % 2 ≠ 0 := by omega
  have hhalf : (2 * n + 1) / 2 = n := by omega
  simp only [oddly, restored, Option.bind_some, hodd, ↓reduceIte, hhalf]

/-- Changing a doubled mark back tells whose mark it was. -/
theorem lineKept_of_doubled {e : Expr} {s : Store} {k : Int}
    (hk : k ∈ (e.remarked oddly).marks ++ (s.remarked evenly).marks)
    {moved : (Int → Option Int) → Option Int} (hmoved : ∀ m, moved m = restored m k) :
    LineKept e.marks s.marks moved (restored some k) (restored (fun _ => none) k) := by
  rcases List.mem_append.mp hk with hk | hk
  · rcases (Expr.mem_marks_remarked _).mp hk with ⟨n, hn, hnk⟩
    have hback : ∀ m, restored m k = m n := by
      intro m
      rw [← restored_oddly m n, hnk, Option.bind_some]
    rw [hback, hback]
    exact .lost hn fun m => (hmoved m).trans (hback m)
  · rcases (Store.mem_marks_remarked _).mp hk with ⟨n, hn, hnk⟩
    have hback : ∀ m, restored m k = some n := by
      intro m
      rw [← restored_evenly m n, hnk, Option.bind_some]
    rw [hback, hback]
    exact .kept hn fun m => (hmoved m).trans (hback m)

/-- Evaluating code with its marks changed is evaluating it with doubled marks and
    changing those back. -/
theorem evaluateWithin_restored (limits : Limits) (budget : Nat) {e e' : Expr}
    {m : Int → Option Int} (h : e'.remarked some = e.remarked m) (env : Nat) (s : Store) :
    resultRemarked some (Value.remarked some) (evaluateWithin limits budget e' env s) =
      resultRemarked (restored m) (Value.remarked (restored m))
        (evaluateWithin limits budget (e.remarked oddly) env (s.remarked evenly)) := by
  have hexpr : (e.remarked oddly).remarked (restored m) = e'.remarked some := by
    rw [h]
    simp only [Expr.remarked_remarked, restored_oddly]
  have hstore : (s.remarked evenly).remarked (restored m) = s.remarked some := by
    simp only [Store.remarked_remarked, restored_evenly]
  rw [← evaluateWithin_remarked, ← evaluateWithin_remarked, hexpr, hstore]

theorem errorLine?_resultRemarked (m : Int → Option Int) (g : Value → Value)
    (r : EStateM.Result Exit Store Value) :
    errorLine? (resultRemarked m g r) = (errorLine? r).bind m := by
  cases r with
  | ok v s => rfl
  | error z s => cases z <;> rfl

theorem Value.unlined_remarked (m : Int → Option Int) (v : Value) :
    (v.remarked m).unlined = v.unlined := by
  simp only [unlined, remarked_remarked, Option.bind_fun_none]

theorem Store.unlined_remarked (m : Int → Option Int) (s : Store) :
    (s.remarked m).unlined = s.unlined := by
  simp only [unlined, remarked_remarked, Option.bind_fun_none]

/-- An exit is another with its marks changed, apart from lines that are no
    marks. -/
inductive Exit.Changed (m : Int → Option Int) : Exit → Exit → Prop where
  | fault {cause : EvalCause} {l : Option Int} :
      Exit.Changed m (.fault ⟨cause, l.bind m⟩) (.fault ⟨cause, l⟩)
  | returned {v u : Value} (h : v.remarked some = u.remarked m) :
      Exit.Changed m (.returned v) (.returned u)
  | broke : Exit.Changed m .broke .broke
  | stalled : Exit.Changed m .stalled .stalled

theorem changed_of_remarked {m : Int → Option Int} {z y : Exit}
    (h : z.remarked some = y.remarked m) : z.Changed m y := by
  cases y with
  | fault x =>
      cases z with
      | fault e =>
          simp only [Exit.remarked, Exit.fault.injEq, EvalError.mk.injEq, Option.bind_fun_some] at h
          rcases e with ⟨cause, l⟩
          rcases h with ⟨rfl, rfl⟩
          exact .fault
      | returned _ | broke | stalled => cases h
  | returned u =>
      cases z with
      | returned v => exact .returned (Exit.returned.inj h)
      | fault _ | broke | stalled => cases h
  | broke =>
      cases z with
      | broke => exact .broke
      | fault _ | returned _ | stalled => cases h
  | stalled =>
      cases z with
      | stalled => exact .stalled
      | fault _ | returned _ | broke => cases h

theorem ok_of_resultRemarked {m : Int → Option Int} {r : EStateM.Result Exit Store Value}
    {w : Value} {t : Store} (h : resultRemarked m (Value.remarked m) r = .ok w t) :
    ∃ v s, r = .ok v s ∧ v.remarked m = w ∧ s.remarked m = t := by
  cases r with
  | ok v s =>
      cases h
      exact ⟨v, s, rfl, rfl, rfl⟩
  | error z s => cases h

theorem error_of_resultRemarked {m : Int → Option Int} {r : EStateM.Result Exit Store Value}
    {y : Exit} {t : Store} (h : resultRemarked m (Value.remarked m) r = .error y t) :
    ∃ z s, r = .error z s ∧ z.remarked m = y ∧ s.remarked m = t := by
  cases r with
  | ok v s => cases h
  | error z s =>
      cases h
      exact ⟨z, s, rfl, rfl, rfl⟩

/-- Two outcomes that are one outcome with its marks changed back, those of the
    code to what they were or to none, differ in lines only. -/
theorem sameButLines_of_restored {code store : List Int}
    {moved : (Int → Option Int) → Option Int} {r r' whole : EStateM.Result Exit Store Value}
    (h : resultRemarked some (Value.remarked some) r =
      resultRemarked (restored some) (Value.remarked (restored some)) whole)
    (h' : resultRemarked some (Value.remarked some) r' =
      resultRemarked (restored fun _ => none) (Value.remarked (restored fun _ => none)) whole)
    (hlines : ∀ cause l t, whole = .error (.fault ⟨cause, l⟩) t →
      LineKept code store moved (l.bind (restored some)) (l.bind (restored fun _ => none))) :
    SameButLines code store moved r r' := by
  have hvalues : ∀ {v w u : Value}, v.remarked some = u.remarked (restored some) →
      w.remarked some = u.remarked (restored fun _ => none) → v.unlined = w.unlined := by
    intro v w u hv hw
    rw [← v.unlined_remarked some, ← w.unlined_remarked some, hv, hw, Value.unlined_remarked,
      Value.unlined_remarked]
  have hstores : ∀ {s t u : Store}, s.remarked some = u.remarked (restored some) →
      t.remarked some = u.remarked (restored fun _ => none) → s.unlined = t.unlined := by
    intro s t u hs ht
    rw [← s.unlined_remarked some, ← t.unlined_remarked some, hs, ht, Store.unlined_remarked,
      Store.unlined_remarked]
  cases whole with
  | ok u s₀ =>
      rcases ok_of_resultRemarked h with ⟨v, s, rfl, hv, hs⟩
      rcases ok_of_resultRemarked h' with ⟨w, t, rfl, hw, ht⟩
      exact .value (hvalues hv hw) (hstores hs ht)
  | error z₀ s₀ =>
      rcases error_of_resultRemarked h with ⟨z, s, rfl, hz, hs⟩
      rcases error_of_resultRemarked h' with ⟨z', t, rfl, hz', ht⟩
      have hst := hstores hs ht
      cases changed_of_remarked hz with
      | @fault cause l₀ =>
          cases changed_of_remarked hz' with
          | fault => exact .fault cause (hlines cause l₀ s₀ rfl) hst
      | returned hv =>
          cases changed_of_remarked hz' with
          | returned hw => exact .returned (hvalues hv hw) hst
      | broke =>
          cases changed_of_remarked hz' with
          | broke => exact .broke hst
      | stalled =>
          cases changed_of_remarked hz' with
          | stalled => exact .stalled hst

/-! ### Quoted Code -/

/-- Evaluating code and evaluating it without its lines differ in lines only. -/
theorem evaluate_relined (limits : Limits) (depth : Int) (e : Expr) (env : Nat) (s : Store) :
    SameButLines e.marks s.marks
      (fun m => errorLine? (evaluate limits depth (e.remarked m) env s))
      (evaluate limits depth e env s) (evaluate limits depth (e.relined none) env s) := by
  unfold evaluate
  generalize (limits.depth - depth + 1).toNat = budget
  generalize hwhole :
    evaluateWithin limits budget (e.remarked oddly) env (s.remarked evenly) = whole
  -- Every run is the run with doubled marks, changed back in some way.
  have hrestored : ∀ {e' : Expr} {m : Int → Option Int}, e'.remarked some = e.remarked m →
      resultRemarked some (Value.remarked some) (evaluateWithin limits budget e' env s) =
        resultRemarked (restored m) (Value.remarked (restored m)) whole := by
    intro e' m h
    rw [← hwhole]
    exact evaluateWithin_restored limits budget h env s
  have hmarks : ∀ m, (e.remarked m).remarked some = e.remarked m := by
    intro m
    simp only [Expr.remarked_remarked, Option.bind_fun_some]
  refine sameButLines_of_restored (hrestored rfl) (hrestored ?_) ?_
  · rw [Expr.relined_none, hmarks]
  · intro cause l t hfault
    have hmoved : ∀ m, errorLine? (evaluateWithin limits budget (e.remarked m) env s) =
        l.bind (restored m) := by
      intro m
      have hline := congrArg errorLine? (hrestored (hmarks m))
      rw [errorLine?_resultRemarked, errorLine?_resultRemarked, Option.bind_fun_some, hfault]
        at hline
      exact hline
    cases l with
    | none => exact .unknown hmoved
    | some k =>
        rw [← hwhole] at hfault
        exact lineKept_of_doubled (evaluateWithin_line hfault rfl) hmoved

/-- Where `eval` is not bound to a function, quoting a list and evaluating it does
    what evaluating the list does one level further in, in any store. Values and
    stores differ only in the lines in the bodies of functions. An error is the
    same error, with its line if that is a line of the store and without if it is
    one of the list, which is to say that it moves with the marks of the list. -/
theorem evaluate_eval_quote (limits : Limits) {depth : Int} (hdepth : depth + 1 ≤ limits.depth)
    (line own line' own' l : Option Int) (items : List Expr) (env : Nat) {s : Store}
    (heval : ∀ f, s.find? env Builtin.eval.name ≠ some (.function f)) :
    SameButLines (Expr.list l items).marks s.marks
      (fun m => errorLine? (evaluate limits (depth + 1) ((Expr.list l items).remarked m) env s))
      (evaluate limits (depth + 1) (.list l items) env s)
      (evaluate limits depth (.list line [.atom own Builtin.eval.name,
        .list line' [.atom own' SpecialForm.quote.name, .list l items]]) env s) := by
  rw [evaluate_quoted limits hdepth line own line' own' l items env heval]
  exact evaluate_relined limits (depth + 1) (.list l items) env s

/-- An assignment on the third line without a name to assign to. -/
def namelessSetq : Expr :=
  .list (some 3) [.atom (some 3) "setq", .integer (some 3) 1]

/-- The store of a new session. -/
def freshStore : Store :=
  (Session.new ⟨10, 10, {}⟩).store

theorem evaluate_eval_quote_namelessSetq :
    (∀ f, freshStore.find? 0 Builtin.eval.name ≠ some (.function f)) ∧
      SameButLines namelessSetq.marks freshStore.marks
        (fun m => errorLine? (evaluate ⟨10, 10, {}⟩ (0 + 1) (namelessSetq.remarked m) 0 freshStore))
        (evaluate ⟨10, 10, {}⟩ (0 + 1) namelessSetq 0 freshStore)
        (evaluate ⟨10, 10, {}⟩ 0 (.list (some 3) [.atom none "eval",
          .list none [.atom none "quote", namelessSetq]]) 0 freshStore) ∧
      evaluate ⟨10, 10, {}⟩ (0 + 1) namelessSetq 0 freshStore =
        .error (.fault ⟨.malformed .setq (some "(setq 1)"), some 3⟩) freshStore ∧
      evaluate ⟨10, 10, {}⟩ 0 (.list (some 3) [.atom none "eval",
          .list none [.atom none "quote", namelessSetq]]) 0 freshStore =
        .error (.fault ⟨.malformed .setq (some "(setq 1)"), none⟩) freshStore := by
  have heval : ∀ f, freshStore.find? 0 Builtin.eval.name ≠ some (.function f) := nofun
  exact ⟨heval, evaluate_eval_quote ⟨10, 10, {}⟩ (by decide) _ none none none _ _ 0 heval, rfl, rfl⟩

end ListLang
