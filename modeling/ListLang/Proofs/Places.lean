import ListLang.Parser.Basic
import ListLang.Proofs.Quotation

/-!
# Where Expressions Stand

Tokens carry no position, so the line of an expression is something that the
reader makes up as it goes along. This module says what it should be: an
expression is made of the tokens between two places in the program, and its line
is one more than the number of line breaks before the first of them. Each
expression inside is made of fewer tokens, between places of its own.

Reading is then a matter of keeping the places in mind. Whatever is begun began
at some place, and what is complete by now goes from there up to the token just
read.

## Main definitions

* `lineAt`: The line of a place.
* `Spans`, `SpansAll`: The tokens between two places are an expression, or
  several.
* `StartsAt`: A token is the first of an expression.
* `Begun`: The places where what is begun began.
* `Leads`: What one token leads to, with the places.

## Theorems

* `Spans.line_eq`: An expression is on the line of its first token.
* `Spans.startsAt`: So is every expression in it.
* `leads_complete`, `leads_feed`: Reading keeps to the places.
-/

namespace ListLang

/-- The line of a place among some tokens: one more than the line breaks before
    it. -/
def lineAt (tokens : List Token) (place : Nat) : Int :=
  1 + (tokens.take place).count .newline

theorem lineAt_mono (tokens : List Token) {i j : Nat} (h : i ≤ j) :
    lineAt tokens i ≤ lineAt tokens j := by
  have hcount := (List.take_sublist_take_left h (l := tokens)).count_le .newline
  simp only [lineAt]
  omega

/-- A line break ends its line, and no other token does. -/
theorem lineAt_succ {tokens : List Token} {i : Nat} {t : Token} (h : tokens[i]? = some t) :
    lineAt tokens (i + 1) = if t = .newline then lineAt tokens i + 1 else lineAt tokens i := by
  simp only [lineAt, List.take_add_one, h, Option.toList_some, List.count_append,
    List.count_singleton, beq_iff_eq]
  split <;> omega

mutual

/-- The tokens from the place `i` up to the place `j` are an expression. It is on
    the line of its first token, and so is everything in it; the name that stands
    for a quote mark is where the mark is. Words that are no names are names only
    if `lenient`. -/
inductive Spans (lenient : Bool) (tokens : List Token) : Nat → Nat → Expr → Prop where
  | integer {i : Nat} {n : Int} (h : tokens[i]? = some (.integer n)) :
      Spans lenient tokens i (i + 1) (.integer (some (lineAt tokens i)) n)
  | real {i : Nat} {x : Float} (h : tokens[i]? = some (.real x)) :
      Spans lenient tokens i (i + 1) (.real (some (lineAt tokens i)) x)
  | boolean {i : Nat} {b : Bool} (h : tokens[i]? = some (.boolean b)) :
      Spans lenient tokens i (i + 1) (.boolean (some (lineAt tokens i)) b)
  | null {i : Nat} (h : tokens[i]? = some .null) :
      Spans lenient tokens i (i + 1) (.null (some (lineAt tokens i)))
  | name {i : Nat} {s : String}
      (h : tokens[i]? = some (.identifier s) ∨ tokens[i]? = some (.keyword s) ∨
        lenient = true ∧ tokens[i]? = some (.unknown s)) :
      Spans lenient tokens i (i + 1) (.atom (some (lineAt tokens i)) s)
  | quote {i j k : Nat} {e : Expr} (h : tokens[i]? = some .quote)
      (hbreaks : SpansAll lenient tokens (i + 1) j []) (he : Spans lenient tokens j k e) :
      Spans lenient tokens i k (.list (some (lineAt tokens i))
        [.atom (some (lineAt tokens i)) SpecialForm.quote.name, e])
  | list {i j : Nat} {items : List Expr} (h : tokens[i]? = some .lparen)
      (hitems : SpansAll lenient tokens (i + 1) j items) (hclose : tokens[j]? = some .rparen) :
      Spans lenient tokens i (j + 1) (.list (some (lineAt tokens i)) items)

/-- The tokens from the place `i` up to the place `j` are several expressions, one
    after another, with line breaks anywhere between them. -/
inductive SpansAll (lenient : Bool) (tokens : List Token) : Nat → Nat → List Expr → Prop where
  | nil (i : Nat) : SpansAll lenient tokens i i []
  | newline {i j : Nat} {es : List Expr} (h : SpansAll lenient tokens i j es)
      (hbreak : tokens[j]? = some .newline) : SpansAll lenient tokens i (j + 1) es
  | snoc {i j k : Nat} {es : List Expr} {e : Expr} (h : SpansAll lenient tokens i j es)
      (he : Spans lenient tokens j k e) : SpansAll lenient tokens i k (es ++ [e])

end

variable {lenient : Bool} {tokens : List Token} {i j n start : Nat} {e : Expr}
  {stack : List Pending} {t : Token}

mutual

theorem Spans.lt {i j : Nat} {e : Expr} (h : Spans lenient tokens i j e) : i < j := by
  match h with
  | .integer _ | .real _ | .boolean _ | .null _ | .name _ => exact Nat.lt_succ_self i
  | .quote _ hbreaks he =>
      have hle := hbreaks.le
      have hlt := he.lt
      omega
  | .list _ hitems _ =>
      have hle := hitems.le
      omega

theorem SpansAll.le {i j : Nat} {es : List Expr} (h : SpansAll lenient tokens i j es) :
    i ≤ j := by
  match h with
  | .nil _ => exact Nat.le_refl i
  | .newline h _ =>
      have hle := h.le
      omega
  | .snoc h he =>
      have hle := h.le
      have hlt := he.lt
      omega

end

/-- An expression is on the line of its first token. -/
theorem Spans.line_eq (h : Spans lenient tokens i j e) : e.line = some (lineAt tokens i) := by
  cases h <;> rfl

/-- Each of several expressions has places of its own. -/
theorem SpansAll.of_mem {i j : Nat} {es : List Expr} (h : SpansAll lenient tokens i j es)
    (he : e ∈ es) : ∃ first next, Spans lenient tokens first next e := by
  match h with
  | .nil _ => exact absurd he List.not_mem_nil
  | .newline h _ => exact h.of_mem he
  | .snoc h hlast =>
      rcases List.mem_append.mp he with he | he
      · exact h.of_mem he
      · rw [List.mem_singleton.mp he]
        exact ⟨_, _, hlast⟩

/-- The token at a place is the first of an expression, or it is the quote mark
    for which the expression stands. -/
def StartsAt (lenient : Bool) (tokens : List Token) (place : Nat) (e : Expr) : Prop :=
  (∃ next, Spans lenient tokens place next e) ∨
    tokens[place]? = some .quote ∧ e = .atom (some (lineAt tokens place)) SpecialForm.quote.name

/-- Every expression inside another starts somewhere, and is on the line where it
    starts. -/
theorem Spans.startsAt {e' : Expr} (h : Spans lenient tokens i j e) (hocc : e'.Occurs e) :
    ∃ place, StartsAt lenient tokens place e' ∧ e'.line = some (lineAt tokens place) := by
  induction hocc generalizing i j with
  | self => exact ⟨i, .inl ⟨j, h⟩, h.line_eq⟩
  | item hf hocc ih =>
      cases h with
      | list _ hitems _ =>
          rcases hitems.of_mem hf with ⟨first, next, hspans⟩
          exact ih hspans
      | quote hmark _ he =>
          rcases List.mem_cons.mp hf with rfl | hf
          · -- Nothing occurs in the name but the name itself.
            cases hocc
            exact ⟨i, .inr ⟨hmark, rfl⟩, rfl⟩
          · rw [List.mem_singleton.mp hf] at ih
            exact ih he

/-! ### Reading -/

/-- What is begun by the tokens from the place `start` up to another place, each
    thing at the place where it began. -/
inductive Begun (lenient : Bool) (tokens : List Token) (start : Nat) :
    Nat → List Pending → Prop where
  | nil {n : Nat} (hbreaks : SpansAll lenient tokens start n []) : Begun lenient tokens start n []
  | quote {i n : Nat} {stack : List Pending} (h : Begun lenient tokens start i stack)
      (hmark : tokens[i]? = some .quote) (hbreaks : SpansAll lenient tokens (i + 1) n []) :
      Begun lenient tokens start n (.quote (lineAt tokens i) :: stack)
  | list {i n : Nat} {stack : List Pending} {items : List Expr}
      (h : Begun lenient tokens start i stack) (hopen : tokens[i]? = some .lparen)
      (hitems : SpansAll lenient tokens (i + 1) n items.reverse) :
      Begun lenient tokens start n (.list (lineAt tokens i) items :: stack)

namespace Begun

theorem le (h : Begun lenient tokens start n stack) : start ≤ n := by
  induction h with
  | nil hbreaks => exact hbreaks.le
  | quote _ _ hbreaks ih =>
      have hle := hbreaks.le
      omega
  | list _ _ hitems ih =>
      have hle := hitems.le
      omega

/-- A line break changes nothing about what is begun. -/
theorem newline (h : Begun lenient tokens start n stack) (hbreak : tokens[n]? = some .newline) :
    Begun lenient tokens start (n + 1) stack := by
  cases h with
  | nil hbreaks => exact .nil (hbreaks.newline hbreak)
  | quote h hmark hbreaks => exact .quote h hmark (hbreaks.newline hbreak)
  | list h hopen hitems => exact .list h hopen (hitems.newline hbreak)

/-- If the tokens end here, the error is on a line between the place where all
    began and this one. -/
theorem line_atEnd (h : Begun lenient tokens start n stack) :
    lineAt tokens start ≤ (ParseError.atEnd (lineAt tokens n) stack).line ∧
      (ParseError.atEnd (lineAt tokens n) stack).line ≤ lineAt tokens n := by
  have hle := lineAt_mono tokens h.le
  cases h with
  | nil _ => exact ⟨hle, Int.le_refl _⟩
  | list _ _ _ => exact ⟨hle, Int.le_refl _⟩
  | quote h _ hbreaks =>
      have hmark : _ ≤ n := Nat.le_of_succ_le hbreaks.le
      exact ⟨lineAt_mono tokens h.le, lineAt_mono tokens hmark⟩

end Begun

/-- What the tokens from the place `start` up to the place `n` lead to. Something
    is begun, or an expression is complete and goes up to that place. -/
inductive Leads (lenient : Bool) (tokens : List Token) (start n : Nat) : Progress → Prop where
  | reading {stack : List Pending} (h : Begun lenient tokens start n stack) :
      Leads lenient tokens start n (.reading stack)
  | finished {i : Nat} {e : Expr} (hbreaks : SpansAll lenient tokens start i [])
      (h : Spans lenient tokens i n e) :
      Leads lenient tokens start n (.finished (lineAt tokens i) e)
  | refused : Leads lenient tokens start n .refused

/-- A complete expression goes to the innermost thing begun, with all its tokens. -/
theorem leads_complete (h : Begun lenient tokens start i stack)
    (he : Spans lenient tokens i n e) :
    Leads lenient tokens start n (complete (lineAt tokens i) e stack) := by
  -- By induction on what is begun: quote marks are passed until a list or nothing is left.
  induction h generalizing e with
  | nil hbreaks => exact .finished hbreaks he
  | quote _ hmark hbreaks ih => exact ih (.quote hmark hbreaks he)
  | list h hopen hitems =>
      refine .reading (.list h hopen ?_)
      rw [List.reverse_cons]
      exact hitems.snoc he

/-- One token leads on from what was begun before it. -/
theorem leads_feed (h : Begun lenient tokens start n stack) (ht : tokens[n]? = some t) :
    Leads lenient tokens start (n + 1) (feed lenient (lineAt tokens n) stack t) := by
  cases t with
  | integer v => exact leads_complete h (.integer ht)
  | real x => exact leads_complete h (.real ht)
  | boolean b => exact leads_complete h (.boolean ht)
  | null => exact leads_complete h (.null ht)
  | identifier s => exact leads_complete h (.name (.inl ht))
  | keyword s => exact leads_complete h (.name (.inr (.inl ht)))
  | unknown s =>
      cases lenient with
      | true => exact leads_complete h (.name (.inr (.inr ⟨rfl, ht⟩)))
      | false => exact .refused
  | quote => exact .reading (.quote h ht (.nil _))
  | lparen => exact .reading (.list h ht (.nil _))
  | newline => exact .reading (h.newline ht)
  | rparen =>
      -- Only an open list can be closed.
      cases h with
      | nil _ => exact .refused
      | quote _ _ _ => exact .refused
      | list h hopen hitems => exact leads_complete h (.list hopen hitems ht)

end ListLang
