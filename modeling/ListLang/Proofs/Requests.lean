import ListLang.Proofs.Concatenation
import ListLang.Proofs.Places

/-!
# A Parser in Use

A parser can be asked for an expression or for the rest of a program, again and
again, and a request that fails does not end its use: the next one goes on from
where the failure left it, with the lists that were left open still counted.
Whatever it is asked for and whatever the tokens are, the parser knows where it
is. Its position is within the tokens, its line is the line of that position, it
never has fewer than no lists open, and every request that finds a token reads
at least one. What it returns carries the lines of the places where it stands,
and neither its diagnostics nor the forms of a program ever go back to an earlier
line.

For a program the argument follows the reader from token to token and remembers
one place, `start`. All that has been returned or complained about lies before
it, and what is begun began there or later.

## Main definitions

* `Request`, `Parser.after`: What a parser can be asked for.
* `Parser.At`: A parser knows its place.
* `Parser.Sound`: So it does, and its diagnostics are in order.
* `Reader.Placed`: A reader knows the places of what it has read.

## Theorems

* `Parser.Sound.elementFrom`: A request for an expression.
* `Reader.Placed.feed`, `Reader.Placed.foldl`: Reading a program.
* `Parser.Sound.program`: A request for the rest of a program.
* `parser_keeps_place`: A parser knows its place after any requests.
-/

namespace ListLang

/-- What a parser can be asked for. -/
inductive Request where
  /-- One expression. -/
  | element
  /-- All that is left. -/
  | program

/-- The parser after a request, whether it failed or not. -/
def Parser.after (lenient : Bool) (p : Parser) : Request → Parser
  | .element => (p.element lenient).2
  | .program => (p.program lenient).2

/-- A parser knows its place: what is left to read are the tokens from its
    position on, and its line is the line of that position. -/
structure Parser.At (tokens : List Token) (p : Parser) : Prop where
  rest : p.rest = tokens.drop p.position
  position_le : p.position ≤ tokens.length
  line : p.line = lineAt tokens p.position

/-- A parser knows its place, has no fewer than no lists open, and its diagnostics
    are in order, none of them on a line that is still to come. -/
structure Parser.Sound (tokens : List Token) (p : Parser) : Prop extends p.At tokens where
  openLists : 0 ≤ p.openLists
  ordered : (p.diagnostics.map Diagnostic.line).Pairwise (· ≤ ·)
  bounded : ∀ d ∈ p.diagnostics, d.line ≤ p.line

variable {lenient : Bool} {tokens rest : List Token} {p : Parser} {t : Token}

namespace Parser

theorem At.current? (h : p.At tokens) : p.current? = tokens[p.position]? := by
  rw [Parser.current?, h.rest, List.head?_drop]

theorem At.next (h : p.At tokens) (hrest : p.rest = t :: rest) :
    tokens[p.position]? = some t := by
  rw [← h.current?, Parser.current?, hrest]
  rfl

theorem At.pass (h : p.At tokens) (hrest : p.rest = t :: rest) : (p.pass t).At tokens := by
  have ht := h.next hrest
  refine ⟨?_, ?_, ?_⟩
  · change p.rest.tail = tokens.drop (p.position + 1)
    rw [h.rest, List.tail_drop]
  · exact (List.getElem?_eq_some_iff.mp ht).1
  · change (if t = .newline then p.line + 1 else p.line) = lineAt tokens (p.position + 1)
    rw [lineAt_succ ht, h.line]

theorem At.line_le_pass (h : p.At tokens) (hrest : p.rest = t :: rest) :
    p.line ≤ (p.pass t).line := by
  rw [h.line, (h.pass hrest).line]
  exact lineAt_mono tokens (Nat.le_succ p.position)

theorem At.position_of_rest_nil (h : p.At tokens) (hrest : p.rest = []) :
    p.position = tokens.length := by
  have hlength := List.drop_eq_nil_iff.mp (h.rest.symm.trans hrest)
  exact Nat.le_antisymm h.position_le hlength

theorem Sound.pass (h : p.Sound tokens) (hrest : p.rest = t :: rest) :
    (p.pass t).Sound tokens :=
  ⟨h.toAt.pass hrest, h.openLists, h.ordered, fun d hd =>
    Int.le_trans (h.bounded d hd) (h.toAt.line_le_pass hrest)⟩

/-- Only the number of open lists has changed. -/
theorem Sound.withOpenLists (h : p.Sound tokens) {openLists : Int} (hopen : 0 ≤ openLists) :
    Parser.Sound tokens { p with openLists := openLists } :=
  ⟨⟨h.rest, h.position_le, h.line⟩, hopen, h.ordered, h.bounded⟩

theorem openAfter_nonneg {openLists : Int} (h : 0 ≤ openLists) (t : Token) :
    0 ≤ openAfter openLists t := by
  cases t with
  | rparen => exact Int.le_max_left 0 _
  | integer _ | real _ | boolean _ | null | identifier _ | keyword _ | quote | lparen | newline
  | unknown _ => exact h

/-- A request for an expression, of which something is begun, leaves a parser that
    knows its place, and reads at least one token if there is one. The expression
    that it returns ends there. -/
theorem Sound.elementFrom {start : Nat} {stack : List Pending} (h : p.Sound tokens)
    (hrest : p.rest = rest) (hbegun : Begun lenient tokens start p.position stack) :
    (p.elementFrom lenient stack rest).2.Sound tokens ∧
      p.position ≤ (p.elementFrom lenient stack rest).2.position ∧
      (rest ≠ [] → p.position < (p.elementFrom lenient stack rest).2.position) ∧
      ∀ e, (p.elementFrom lenient stack rest).1 = .ok e → ∃ first, start ≤ first ∧
        Spans lenient tokens first (p.elementFrom lenient stack rest).2.position e := by
  have hopen : ∀ stack, 0 ≤ p.openLists + openCount stack := by
    intro stack
    have hnonneg := h.openLists
    omega
  -- By induction on what is left to read; the places of what is begun carry the argument.
  induction rest generalizing p stack with
  | nil =>
      rw [Parser.elementFrom]
      refine ⟨h.withOpenLists (hopen stack), Nat.le_refl _, fun hne => absurd rfl hne, ?_⟩
      intro e he
      cases he
  | cons t rest ih =>
      have hpass := h.pass hrest
      have hleads := leads_feed hbegun (h.toAt.next hrest)
      rw [← h.line] at hleads
      rw [Parser.elementFrom]
      generalize ListLang.feed lenient p.line stack t = progress at hleads
      cases hleads with
      | reading hbegun' =>
          have hafter : (p.pass t).rest = rest := by
            rw [Parser.pass, hrest, List.tail_cons]
          rcases ih hpass hafter hbegun' hopen with ⟨hsound, hle, _, hspans⟩
          exact ⟨hsound, Nat.le_of_succ_le hle, fun _ => hle, hspans⟩
      | finished hbreaks hspans =>
          refine ⟨hpass, Nat.le_succ _, fun _ => Nat.lt_succ_self _, ?_⟩
          intro e he
          cases he
          exact ⟨_, hbreaks.le, hspans⟩
      | refused =>
          refine ⟨hpass.withOpenLists (openAfter_nonneg (hopen stack) t), Nat.le_succ _,
            fun _ => Nat.lt_succ_self _, ?_⟩
          intro e he
          cases he

end Parser

/-! ### Reading a Program -/

/-- A reader that began at the place `origin` knows its place. The forms it has
    read and the diagnostics it has made are in order and all before the place
    `start`, and what is begun began there. -/
structure Reader.Placed (lenient : Bool) (tokens : List Token) (origin start : Nat) (r : Reader) :
    Prop where
  cursor : r.parser.At tokens
  openLists : 0 ≤ r.parser.openLists
  origin_le : origin ≤ start
  start_le : start ≤ r.parser.position
  begun : ∀ stack, r.mode = .reading stack → Begun lenient tokens start r.parser.position stack
  problems : (r.parser.diagnostics.map Diagnostic.line).Pairwise (· ≤ ·)
  problems_le : ∀ d ∈ r.parser.diagnostics, d.line ≤ lineAt tokens start
  forms : (r.forms.map Form.line).Pairwise (· ≤ ·)
  spans : ∀ form ∈ r.forms, ∃ first next, origin ≤ first ∧ next ≤ start ∧
    form.line = lineAt tokens first ∧ Spans lenient tokens first next form.expr

/-- What is on no earlier line than the rest may be put after it. -/
theorem pairwise_line_append_singleton {α : Type} {line : α → Int} {xs : List α} {x : α}
    (h : (xs.map line).Pairwise (· ≤ ·)) (hle : ∀ y ∈ xs, line y ≤ line x) :
    ((xs ++ [x]).map line).Pairwise (· ≤ ·) := by
  rw [List.map_append]
  refine List.pairwise_append.mpr ⟨h, List.pairwise_singleton _ _, ?_⟩
  intro m hm n hn
  rcases List.mem_map.mp hm with ⟨y, hy, rfl⟩
  rw [List.mem_singleton.mp hn]
  exact hle y hy

theorem Reader.rest_feed (r : Reader) (lenient : Bool) (t : Token) :
    (r.feed lenient t).parser.rest = r.parser.rest.tail := by
  unfold Reader.feed
  split
  · rfl
  · split <;> rfl

theorem Reader.rest_close (r : Reader) : r.close.rest = r.parser.rest := by
  unfold Reader.close
  split <;> rfl

namespace Reader.Placed

variable {origin start : Nat} {r : Reader}

/-- All that is before a place is before any later place. -/
theorem mono (h : r.Placed lenient tokens origin start) {later : Nat} (hle : start ≤ later) :
    (∀ d ∈ r.parser.diagnostics, d.line ≤ lineAt tokens later) ∧
      ∀ form ∈ r.forms, ∃ first next, origin ≤ first ∧ next ≤ later ∧
        form.line = lineAt tokens first ∧ Spans lenient tokens first next form.expr := by
  refine ⟨fun d hd => Int.le_trans (h.problems_le d hd) (lineAt_mono tokens hle), ?_⟩
  intro form hform
  rcases h.spans form hform with ⟨first, next, horigin, hnext, hrest⟩
  exact ⟨first, next, horigin, Nat.le_trans hnext hle, hrest⟩

/-- No form starts on a line after the place `start`. -/
theorem line_le (h : r.Placed lenient tokens origin start) {form : Form} (hform : form ∈ r.forms) :
    form.line ≤ lineAt tokens start := by
  rcases h.spans form hform with ⟨first, next, _, hnext, hline, hspans⟩
  rw [hline]
  exact lineAt_mono tokens (Nat.le_trans (Nat.le_of_lt hspans.lt) hnext)

/-- No diagnostic is on a line that is still to come. -/
theorem problem_le_line (h : r.Placed lenient tokens origin start) (d : Diagnostic)
    (hd : d ∈ r.parser.diagnostics) : d.line ≤ r.parser.line := by
  rw [h.cursor.line]
  exact Int.le_trans (h.problems_le d hd) (lineAt_mono tokens h.start_le)

/-- Where a token is read, what is begun began at `start`, or it begins here. -/
theorem resume (h : r.Placed lenient tokens origin start) {stack : List Pending}
    (hresume : r.mode.resume? t = some stack) :
    ∃ later, start ≤ later ∧ Begun lenient tokens later r.parser.position stack := by
  rcases Mode.resume?_cases hresume with hmode | rfl
  · exact ⟨start, Nat.le_refl _, h.begun stack hmode⟩
  · exact ⟨r.parser.position, h.start_le, .nil (.nil _)⟩

theorem leftOpen_nonneg (h : r.Placed lenient tokens origin start) : 0 ≤ r.leftOpen := by
  unfold Reader.leftOpen
  split
  · exact h.openLists
  · exact Int.le_refl 0

/-- One token takes a reader that knows its place to the next place. -/
theorem feed (h : r.Placed lenient tokens origin start) (hrest : r.parser.rest = t :: rest) :
    ∃ later, (r.feed lenient t).Placed lenient tokens origin later := by
  have hpass : Parser.At tokens { r.parser.pass t with openLists := r.leftOpen } :=
    have hnext := h.cursor.pass hrest
    ⟨hnext.rest, hnext.position_le, hnext.line⟩
  have hbefore : start ≤ r.parser.position + 1 := Nat.le_succ_of_le h.start_le
  have hfresh : Begun lenient tokens (r.parser.position + 1) (r.parser.position + 1) [] :=
    .nil (.nil _)
  cases hresume : r.mode.resume? t with
  | none =>
      -- A token that is skipped leaves nothing begun.
      have hstep : r.feed lenient t =
          { r with
            parser := { r.parser.pass t with openLists := r.leftOpen }
            mode := r.mode.skip t } := by
        simp only [Reader.feed, hresume]
      rw [hstep]
      refine ⟨r.parser.position + 1, hpass, h.leftOpen_nonneg, Nat.le_trans h.origin_le hbefore,
        Nat.le_refl _, ?_, h.problems, (h.mono hbefore).1, h.forms, (h.mono hbefore).2⟩
      intro stack hmode
      rcases Mode.skip_cases hresume with hskip | ⟨depth, hskip⟩
      · cases hskip.symm.trans hmode
        exact hfresh
      · cases hskip.symm.trans hmode
  | some stack =>
      rcases h.resume hresume with ⟨later, hlater, hbegun⟩
      have hleads := leads_feed hbegun (h.cursor.next hrest)
      rw [← h.cursor.line] at hleads
      simp only [Reader.feed, hresume]
      generalize ListLang.feed lenient r.parser.line stack t = progress at hleads
      cases hleads with
      | reading hbegun' =>
          refine ⟨later, hpass, h.leftOpen_nonneg, Nat.le_trans h.origin_le hlater,
            Nat.le_succ_of_le hbegun.le, ?_, h.problems, (h.mono hlater).1, h.forms,
            (h.mono hlater).2⟩
          intro stack' hmode
          cases hmode
          exact hbegun'
      | @finished first e hbreaks hspans =>
          have hfirst : start ≤ first := Nat.le_trans hlater hbreaks.le
          refine ⟨r.parser.position + 1, hpass, h.leftOpen_nonneg,
            Nat.le_trans h.origin_le hbefore, Nat.le_refl _, ?_, h.problems, (h.mono hbefore).1,
            ?_, ?_⟩
          · intro stack' hmode
            cases hmode
            exact hfresh
          · -- The new form starts where the others have ended.
            refine pairwise_line_append_singleton h.forms fun form hform => ?_
            exact Int.le_trans (h.line_le hform) (lineAt_mono tokens hfirst)
          · intro form hform
            rcases List.mem_append.mp hform with hform | hform
            · exact (h.mono hbefore).2 form hform
            · rw [List.mem_singleton.mp hform]
              exact ⟨first, _, Nat.le_trans h.origin_le hfirst, Nat.le_refl _, rfl, hspans⟩
      | refused =>
          -- What was begun is given up, and the complaint is on the line of the token.
          have hleft : 0 ≤ r.leftOpen + openCount stack :=
            Int.add_nonneg h.leftOpen_nonneg (Int.natCast_nonneg _)
          refine ⟨r.parser.position + 1, ⟨hpass.rest, hpass.position_le, hpass.line⟩,
            Parser.openAfter_nonneg hleft t, Nat.le_trans h.origin_le hbefore, Nat.le_refl _, ?_,
            ?_, ?_, h.forms, (h.mono hbefore).2⟩
          · intro stack' hmode
            cases hmode
          · exact pairwise_line_append_singleton h.problems h.problem_le_line
          · intro d hd
            rcases List.mem_append.mp hd with hd | hd
            · exact (h.mono hbefore).1 d hd
            · rw [List.mem_singleton.mp hd]
              change r.parser.line ≤ _
              rw [h.cursor.line]
              exact lineAt_mono tokens (Nat.le_succ _)

/-- All tokens take it to the end of them. -/
theorem foldl (h : r.Placed lenient tokens origin start) (hrest : r.parser.rest = rest) :
    (rest.foldl (Reader.feed lenient) r).parser.rest = [] ∧
      ∃ later, (rest.foldl (Reader.feed lenient) r).Placed lenient tokens origin later := by
  induction rest generalizing r start with
  | nil => exact ⟨hrest, start, h⟩
  | cons t rest ih =>
      rcases h.feed hrest with ⟨later, hlater⟩
      have hnext : (r.feed lenient t).parser.rest = rest := by
        rw [rest_feed, hrest, List.tail_cons]
      exact ih hlater hnext

/-- What is missing at the end is complained about after all else. -/
theorem close (h : r.Placed lenient tokens origin start) : r.close.Sound tokens := by
  have hplain : r.parser.Sound tokens :=
    ⟨h.cursor, h.openLists, h.problems, h.problem_le_line⟩
  cases hmode : r.mode with
  | recovering depth =>
      simp only [Reader.close, hmode]
      exact hplain
  | reading stack =>
      cases stack with
      | nil =>
          simp only [Reader.close, hmode]
          exact hplain
      | cons pending stack =>
          -- A quote mark without anything after it is complained about on its own line, which
          -- may be before this one but not before `start`.
          have hend := (h.begun _ hmode).line_atEnd
          rw [← h.cursor.line] at hend
          have hopen := h.openLists
          simp only [Reader.close, hmode]
          refine ⟨⟨h.cursor.rest, h.cursor.position_le, h.cursor.line⟩, ?_, ?_, ?_⟩
          · change 0 ≤ r.parser.openLists + openCount (pending :: stack)
            omega
          · refine pairwise_line_append_singleton h.problems fun d hd => ?_
            exact Int.le_trans (h.problems_le d hd) hend.1
          · intro d hd
            rcases List.mem_append.mp hd with hd | hd
            · exact hplain.bounded d hd
            · rw [List.mem_singleton.mp hd]
              exact hend.2

end Reader.Placed

/-! ### Requests -/

namespace Parser

theorem sound_ofTokens (tokens : List Token) : (ofTokens tokens).Sound tokens :=
  ⟨⟨rfl, Nat.zero_le _, rfl⟩, Int.le_refl 0, .nil, fun _ hd => absurd hd List.not_mem_nil⟩

/-- A request for the rest of a program gets to the end of the tokens. The forms it
    returns are in order, and each stands where it says. -/
theorem Sound.program (h : p.Sound tokens) (lenient : Bool) :
    (p.program lenient).2.Sound tokens ∧ (p.program lenient).2.position = tokens.length ∧
      ((p.program lenient).1.map Form.line).Pairwise (· ≤ ·) ∧
      ∀ form ∈ (p.program lenient).1, ∃ first next, p.position ≤ first ∧ next ≤ tokens.length ∧
        form.line = lineAt tokens first ∧ Spans lenient tokens first next form.expr := by
  have hstart : Reader.Placed lenient tokens p.position p.position { parser := p } := by
    refine ⟨h.toAt, h.openLists, Nat.le_refl _, Nat.le_refl _, ?_, h.ordered, ?_, .nil,
      fun _ hform => absurd hform List.not_mem_nil⟩
    · intro stack hmode
      cases hmode
      exact .nil (.nil _)
    · rw [← h.line]
      exact h.bounded
  rcases hstart.foldl rfl with ⟨hnone, last, hlast⟩
  have hend : (p.program lenient).2.position = tokens.length :=
    hlast.close.toAt.position_of_rest_nil (by rw [Reader.rest_close, hnone])
  refine ⟨hlast.close, hend, hlast.forms, ?_⟩
  intro form hform
  rcases hlast.spans form hform with ⟨first, next, hfirst, hnext, hspans⟩
  exact ⟨first, next, hfirst, Nat.le_trans hnext (Nat.le_trans hlast.start_le
    hlast.cursor.position_le), hspans⟩

/-- A request for an expression starts with nothing begun. -/
theorem Sound.element (h : p.Sound tokens) (lenient : Bool) :
    (p.element lenient).2.Sound tokens ∧
      (p.rest ≠ [] → p.position < (p.element lenient).2.position) ∧
      ∀ e, (p.element lenient).1 = .ok e → ∃ first, p.position ≤ first ∧
        Spans lenient tokens first (p.element lenient).2.position e := by
  rcases h.elementFrom rfl (.nil (.nil p.position)) with ⟨hsound, _, hlt, hspans⟩
  exact ⟨hsound, hlt, hspans⟩

theorem Sound.after (h : p.Sound tokens) (request : Request) :
    (p.after lenient request).Sound tokens := by
  cases request with
  | element => exact (h.element lenient).1
  | program => exact (h.program lenient).1

/-- Every request that finds a token reads it. -/
theorem Sound.position_lt (h : p.Sound tokens) (hcurrent : p.current? ≠ none)
    (request : Request) : p.position < (p.after lenient request).position := by
  have hrest : p.rest ≠ [] := fun hnil => hcurrent (by rw [Parser.current?, hnil]; rfl)
  cases request with
  | element => exact (h.element lenient).2.1 hrest
  | program =>
      change p.position < (p.program lenient).2.position
      rw [(h.program lenient).2.1]
      rw [h.toAt.current?] at hcurrent
      exact Nat.lt_of_not_le fun hle => hcurrent (List.getElem?_eq_none hle)

theorem Sound.foldl (h : p.Sound tokens) (requests : List Request) :
    (requests.foldl (Parser.after lenient) p).Sound tokens := by
  induction requests generalizing p with
  | nil => exact h
  | cons request requests ih => exact ih (h.after request)

end Parser

/-- A parser knows its place after any requests, those that failed included: its
    position is within the tokens, the token to be read next is the one there, its
    line is the line of that position, it has no fewer than no lists open, and its
    diagnostics are in the order of their lines.

    Any further request that finds a token gets past it, and one for the rest of a
    program gets to the end. What is returned is made of tokens from the position
    on, up to the position after it for a single expression, and is on the line of
    its first token, as is each expression in it. Forms are on the line of their
    expression, and in the order of their lines. -/
theorem parser_keeps_place (lenient : Bool) (tokens : List Token) (requests : List Request) :
    let p := requests.foldl (Parser.after lenient) (Parser.ofTokens tokens)
    (p.position ≤ tokens.length ∧ p.current? = tokens[p.position]? ∧
        p.line = lineAt tokens p.position ∧ 0 ≤ p.openLists ∧
        (p.diagnostics.map Diagnostic.line).Pairwise (· ≤ ·)) ∧
      (∀ request, p.current? ≠ none → p.position < (p.after lenient request).position) ∧
      (∀ e, (p.element lenient).1 = .ok e →
        (∃ first, p.position ≤ first ∧
          Spans lenient tokens first (p.element lenient).2.position e) ∧
        ∀ e' : Expr, e'.Occurs e →
          ∃ place, StartsAt lenient tokens place e' ∧ e'.line = some (lineAt tokens place)) ∧
      (p.program lenient).2.position = tokens.length ∧
      ((p.program lenient).1.map Form.line).Pairwise (· ≤ ·) ∧
      ∀ form ∈ (p.program lenient).1, form.expr.line = some form.line ∧
        (∃ first next, p.position ≤ first ∧ next ≤ tokens.length ∧
          Spans lenient tokens first next form.expr) ∧
        ∀ e' : Expr, e'.Occurs form.expr →
          ∃ place, StartsAt lenient tokens place e' ∧ e'.line = some (lineAt tokens place) := by
  intro p
  have hsound : p.Sound tokens := (Parser.sound_ofTokens tokens).foldl requests
  have hprogram := hsound.program lenient
  refine ⟨⟨hsound.position_le, hsound.toAt.current?, hsound.line, hsound.openLists,
    hsound.ordered⟩, fun request hcurrent => hsound.position_lt hcurrent request, ?_,
    hprogram.2.1, hprogram.2.2.1, ?_⟩
  · intro e he
    rcases (hsound.element lenient).2.2 e he with ⟨first, hfirst, hspans⟩
    exact ⟨⟨first, hfirst, hspans⟩, fun e' => hspans.startsAt⟩
  · intro form hform
    rcases hprogram.2.2.2 form hform with ⟨first, next, hfirst, hnext, hline, hspans⟩
    refine ⟨?_, ⟨first, next, hfirst, hnext, hspans⟩, fun e' => hspans.startsAt⟩
    rw [hspans.line_eq, hline]

/-- A closing parenthesis too many, a list broken off by a word that is no name, a
    quotation over two lines and a list that is never closed. -/
def strayTokens : List Token :=
  [.rparen, .lparen, .identifier "a", .unknown "x1", .newline, .quote, .newline, .identifier "b",
    .newline, .lparen]

/-- Two requests fail on these tokens, the second with a list open. The third gets
    the quotation. -/
theorem parser_keeps_place_strayTokens :
    let p := [Request.element, .element].foldl (Parser.after false) (Parser.ofTokens strayTokens)
    let quotation : Expr := .list (some 2) [.atom (some 2) "quote", .atom (some 3) "b"]
    p.position = 4 ∧ p.openLists = 1 ∧ p.current? = strayTokens[4]? ∧ p.line = 1 ∧
      p.current? ≠ none ∧ 4 < (p.after false .element).position ∧
      (p.element false).1 = .ok quotation ∧
      (∃ first, 4 ≤ first ∧ Spans false strayTokens first 8 quotation) ∧
      (∃ place, StartsAt false strayTokens place (.atom (some 3) "b") ∧
        some 3 = some (lineAt strayTokens place)) ∧
      ⟨quotation, 2⟩ ∈ (p.program false).1 ∧
      ∃ first next, 4 ≤ first ∧ next ≤ 10 ∧ Spans false strayTokens first next quotation := by
  intro p quotation
  rcases parser_keeps_place false strayTokens [.element, .element] with
    ⟨⟨_, hcurrent, hline, _, _⟩, hadvances, helement, _, _, hforms⟩
  have hsome : p.current? ≠ none := Option.some_ne_none _
  have hquotation : (p.element false).1 = .ok quotation := rfl
  have hform : ⟨quotation, 2⟩ ∈ (p.program false).1 := .head _
  have hname : (Expr.atom (some 3) "b").Occurs quotation := .item (.tail _ (.head _)) .self
  exact ⟨rfl, rfl, hcurrent, hline, hsome, hadvances .element hsome, hquotation,
    (helement quotation hquotation).1, (helement quotation hquotation).2 _ hname, hform,
    (hforms _ hform).2.1⟩

end ListLang
