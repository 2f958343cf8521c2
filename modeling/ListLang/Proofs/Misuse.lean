import Mathlib.Data.List.Basic
import ListLang.Proofs.Vouch

/-!
# Checked Programs Misuse Nothing

If the checker finds no problem in a program, no run of the program ends with a
complaint about a form that is not written as it should be, or about a `return`
or a `break` that nothing catches. The checker looks at code and not at what it
does, so this can only be said of programs whose code is all there to be looked
at: `eval` is applied to nothing but quotations.

The checker vouches for the forms of a program, and forms that are well used
evaluate only such forms. What is left is to tell the complaints by their
wording.

## Theorems

* `EvalCause.front_message`: How messages begin.
* `EvalCause.message_of_not_misuse`: The messages that are about misuse.
* `interpret_not_misused`: A checked program misuses nothing.
-/

namespace ListLang

/-! ### Wording -/

theorem head?_append_of {a : String} {c : Char} (h : a.toList.head? = some c) (b : String) :
    (a ++ b).toList.head? = some c := by
  rw [String.toList_append, List.head?_append, h]
  rfl

/-- A message about anything but misuse or a condition begins with a capital
    letter or a quotation mark. -/
theorem EvalCause.front_message {cause : EvalCause} (h : cause.isMisuse = false)
    (hcondition : ∀ form got, cause ≠ .conditionKind form got) :
    ∃ c ∈ ['E', 'U', 'C', '\'', 'F', 'T', 'I', 'D'],
      cause.report.message.toList.head? = some c := by
  cases cause with
  | conditionKind form got => exact absurd rfl (hcondition form got)
  | malformed _ _ | namesExpected _ _ | strayReturn | strayBreak | breakEscaped _ => cases h
  | tooDeep _ _ | builtinUnworded _ =>
      exact ⟨'E', by decide, head?_append_of (head?_append_of rfl _) _⟩
  | unexpected _ _ => exact ⟨'U', by decide, head?_append_of rfl _⟩
  | undefinedAtom _ _ | undefinedFunction _ _ =>
      exact ⟨'U', by decide, head?_append_of (head?_append_of rfl _) _⟩
  | headNotFunction _ =>
      exact ⟨'C', by decide, show "Cannot call non-function value".toList.head? = _ from rfl⟩
  | functionInCode _ =>
      exact ⟨'C', by decide, show
        "Cannot convert a function value back into an expression".toList.head? = _ from rfl⟩
  | headOfEmpty =>
      exact ⟨'C', by decide, show "Cannot get head of empty list".toList.head? = _ from rfl⟩
  | notFunction _ _ => exact ⟨'\'', by decide, head?_append_of (head?_append_of rfl _) _⟩
  | builtinArity _ _ | functionArity _ _ _ =>
      exact ⟨'F', by decide, head?_append_of (head?_append_of (head?_append_of
        (head?_append_of (head?_append_of rfl _) _) _) _) _⟩
  | notNumber _ _ _ | notComparable _ _ _ | notBoolean _ _ _ | notList _ _ _ =>
      exact ⟨'T', by decide, head?_append_of (head?_append_of (head?_append_of rfl _) _) _⟩
  | integerTooLarge _ _ _ => exact ⟨'I', by decide, head?_append_of (head?_append_of rfl _) _⟩
  | divisionByZero _ =>
      exact ⟨'D', by decide, show "Division by zero".toList.head? = _ from rfl⟩

/-- Only misuse is worded in these ways. -/
theorem EvalCause.message_of_not_misuse {cause : EvalCause} (h : cause.isMisuse = false) :
    cause.report.message ≠ "return used outside of prog or function" ∧
      cause.report.message ≠ "break used outside of while" ∧
      ∀ text : String, cause.report.message ≠ "Malformed " ++ text ++ " form" := by
  have hmalformed : ∀ text : String,
      ("Malformed " ++ text ++ " form").toList.head? = some 'M' :=
    fun text => head?_append_of (head?_append_of rfl _) _
  by_cases hcondition : ∃ form got, cause = .conditionKind form got
  · rcases hcondition with ⟨form, got, rfl⟩
    -- This message begins with the name of a form, which could be `return` or `break`.
    have hmessage : (conditionKind form got).report.message =
        form.name ++ " condition must be a boolean" := rfl
    rw [hmessage]
    refine ⟨?_, ?_, fun text heq => ?_⟩
    · cases form <;> decide
    · cases form <;> decide
    · have hfront := hmalformed text
      rw [← heq] at hfront
      cases form <;> exact absurd hfront (by decide)
  · rcases front_message h fun form got heq => hcondition ⟨form, got, heq⟩ with ⟨c, hc, hfront⟩
    refine ⟨fun heq => ?_, fun heq => ?_, fun text heq => ?_⟩
    · rw [heq] at hfront
      cases hfront
      exact absurd hc (by decide)
    · rw [heq] at hfront
      cases hfront
      exact absurd hc (by decide)
    · rw [heq, hmalformed] at hfront
      cases hfront
      exact absurd hc (by decide)

/-! ### Soundness of the Checker -/

/-- A program in which `eval` is applied only to quotations, and in which the
    checker finds no problem, never fails because of a `return` or a `break`
    that nothing catches or because of a form that is not written as it should
    be. -/
theorem interpret_not_misused (limits : Limits) {forms : List Form}
    (hevals : ∀ form ∈ forms, EvalsQuoted form.expr)
    (hclean : (analyze forms).diagnostics = some []) {e : EvalError}
    (hfailed : ((Session.new limits).interpret forms).1 = .error (.failed e)) :
    e.report.message ≠ "return used outside of prog or function" ∧
      e.report.message ≠ "break used outside of while" ∧
      ∀ text : String, e.report.message ≠ "Malformed " ++ text ++ " form" := by
  -- The checker vouches for the forms, and well used forms keep their discipline.
  have hused : ∀ form ∈ forms, wellUsed.code {} form.expr := wellUsed_of_analyze hevals hclean
  rw [← Session.interpretUntil_never] at hfailed
  have hrun := Discipline.interpretUntil (d := wellUsed) (fun _ _ => WellUsed.permits) never hused
    (Session.new limits) (Discipline.valid_new limits) Nat.zero_lt_one
  exact EvalCause.message_of_not_misuse (hrun.2 trivial e hfailed)

/-- A function that returns, and quoted code that calls it and fails. -/
def emptyHead : List Form :=
  [⟨.list none [.atom none "func", .atom none "first", .list none [.atom none "xs"],
      .list none [.atom none "return", .list none [.atom none "head", .atom none "xs"]]], 1⟩,
    ⟨.list none [.atom none "eval", .list none [.atom none "quote",
      .list none [.atom none "first", .list none [.atom none "quote", .list none []]]]], 2⟩]

theorem interpret_not_misused_emptyHead :
    (∀ form ∈ emptyHead, EvalsQuoted form.expr) ∧ (analyze emptyHead).diagnostics = some [] ∧
      ((Session.new ⟨20, 20, {}⟩).interpret emptyHead).1 = .error (.failed ⟨.headOfEmpty, some 2⟩) ∧
      (EvalError.mk .headOfEmpty (some 2)).report.message ≠
        "return used outside of prog or function" ∧
      (EvalError.mk .headOfEmpty (some 2)).report.message ≠ "break used outside of while" ∧
      ∀ text : String,
        (EvalError.mk .headOfEmpty (some 2)).report.message ≠ "Malformed " ++ text ++ " form" := by
  have hevals : ∀ form ∈ emptyHead, EvalsQuoted form.expr := by
    have hatom : ∀ name : String, name ≠ "eval" → EvalsQuoted (.atom none name) :=
      fun _ => .atom none
    have hlist : ∀ es : List Expr, es.Forall EvalsQuoted → EvalsQuoted (.list none es) :=
      fun _ h => .list none (List.forall_iff_forall_mem.mp h)
    exact List.forall_iff_forall_mem.mp ⟨hlist _ ⟨hatom _ (by decide), hatom _ (by decide),
      hlist [_] (hatom _ (by decide)), hlist _ ⟨hatom _ (by decide), hlist _
        ⟨hatom _ (by decide), hatom _ (by decide)⟩⟩⟩, .evalQuoted none none none none (hlist _
          ⟨hatom _ (by decide), hlist _ ⟨hatom _ (by decide), hlist [] trivial⟩⟩)⟩
  have hclean : (analyze emptyHead).diagnostics = some [] := by rfl
  have hfailed : ((Session.new ⟨20, 20, {}⟩).interpret emptyHead).1 =
      .error (.failed ⟨.headOfEmpty, some 2⟩) := by rfl
  exact ⟨hevals, hclean, hfailed, interpret_not_misused ⟨20, 20, {}⟩ hevals hclean hfailed⟩

end ListLang
