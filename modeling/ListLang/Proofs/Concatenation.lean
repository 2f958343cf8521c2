import ListLang.Parser.Basic

/-!
# One Program After Another

Reading is compositional, and the errors of one part of a program stay in it: if
no parenthesis is left open at the end of a line and no quote mark waits for an
expression, then what comes after that line is read as if it stood alone, a
number of lines further down.

Two arguments meet at the line break. The first is about the part before it. A
recovery gives up all lists that are open and starts afresh somewhere in the
middle of them, so the parentheses that should have closed those lists become
errors of their own or are skipped; but the reader never has more lists open
than there are parentheses waiting to be closed, and at the end there are none.
The second is about the part after it. The reader does nothing with a line but
write it down, so that reading the same tokens from a later line gives the same
program with all lines shifted.

## Main definitions

* `nest`, `unclosed`: The parentheses that some tokens leave open.
* `Expr.shifted`, `Form.shifted`, `Diagnostic.shifted`: The same thing a number of
  lines further down.
* `Reader.Returns`: A reader that what is left will take back to the top level.
* `Reader.Continues`: A reader does as another did, after something else.

## Theorems

* `Reader.Returns.feed`, `Reader.Returns.foldl`: A reader comes back to the top
  level.
* `Reader.Continues.feed`, `Reader.Continues.foldl`: Reading on from a later line.
* `parseTokens_append`: One program after another.
-/

namespace ListLang

/-- The number of parentheses open after a token, with `n` open before it. A
    closing parenthesis with no partner closes nothing. -/
def nest (n : Nat) : Token → Nat
  | .lparen => n + 1
  | .rparen => n - 1
  | _ => n

/-- The number of opening parentheses that have no partner. -/
def unclosed (tokens : List Token) : Nat :=
  tokens.foldl nest 0

theorem nest_mono {m n : Nat} (h : m ≤ n) (t : Token) : nest m t ≤ nest n t := by
  cases t <;> simp only [nest] <;> omega

theorem nest_of_isLeaf {t : Token} (h : t.isLeaf = true) (n : Nat) : nest n t = n := by
  cases t with
  | quote | lparen | rparen | newline => cases h
  | integer _ | real _ | boolean _ | null | identifier _ | keyword _ | unknown _ => rfl

theorem foldl_nest_mono {m n : Nat} (h : m ≤ n) (tokens : List Token) :
    tokens.foldl nest m ≤ tokens.foldl nest n := by
  induction tokens generalizing m n with
  | nil => exact h
  | cons t tokens ih => exact ih (nest_mono h t)

/-! ### Back to the Top Level -/

/-- The number of lists that are open. A recovery has given up all of them. -/
def Mode.openCount : Mode → Nat
  | .reading stack => ListLang.openCount stack
  | .recovering _ => 0

/-- Whether the innermost thing begun is a quote mark. -/
def Mode.isQuoting : Mode → Bool
  | .reading (.quote _ :: _) => true
  | _ => false

/-- The mode of a reader after it has made progress. The depth of a recovery is
    that of the reader. -/
def Progress.mode (depth : Int) : Progress → Mode
  | .reading stack => .reading stack
  | .finished _ _ => .reading []
  | .refused => .recovering depth

/-- A complete expression opens and closes no list, and ends all quotations that
    wait for it. -/
theorem mode_complete (depth line : Int) (e : Expr) (stack : List Pending) :
    ((complete line e stack).mode depth).openCount = openCount stack ∧
      ((complete line e stack).mode depth).isQuoting = false := by
  induction stack generalizing line e with
  | nil => exact ⟨rfl, rfl⟩
  | cons pending stack ih =>
      cases pending with
      | list opened items => exact ⟨rfl, rfl⟩
      | quote mark => exact ih mark _

/-- One token opens and closes as many lists as it has parentheses, unless it is
    out of place. -/
theorem openCount_feed (lenient : Bool) (depth line : Int) (stack : List Pending) (t : Token) :
    ((feed lenient line stack t).mode depth).openCount = nest (openCount stack) t ∨
      feed lenient line stack t = .refused := by
  have hfeeds := feeds_feed lenient line stack t
  generalize feed lenient line stack t = p at hfeeds
  cases hfeeds with
  | leaf ht _ _ =>
      rw [nest_of_isLeaf ht]
      exact .inl (mode_complete depth line _ stack).1
  | quote | newline | lparen => exact .inl rfl
  | @rparen opened items outer hstack =>
      rw [hstack]
      exact .inl (mode_complete depth opened _ outer).1
  | refused _ => exact .inr rfl

/-- What is begun after some tokens that have to be followed by more has as many
    lists as there are parentheses open. -/
theorem openCount_of_reading {lenient : Bool} {line : Int} {stack stack' : List Pending} {t : Token}
    (h : feed lenient line stack t = .reading stack') :
    openCount stack' = nest (openCount stack) t := by
  have hcount := openCount_feed lenient 0 line stack t
  rw [h] at hcount
  exact hcount.resolve_right Progress.noConfusion

theorem openCount_feed_le (lenient : Bool) (depth line : Int) (stack : List Pending) (t : Token) :
    ((feed lenient line stack t).mode depth).openCount ≤ nest (openCount stack) t := by
  rcases openCount_feed lenient depth line stack t with hcount | hrefused
  · exact Nat.le_of_eq hcount
  · rw [hrefused]
    exact Nat.zero_le _

/-- Only a quote mark begins a quotation, and only a line break leaves one
    waiting. -/
theorem isQuoting_feed (lenient : Bool) (depth line : Int) (stack : List Pending) (t : Token)
    (h : ((feed lenient line stack t).mode depth).isQuoting = true) :
    t = .quote ∨ t = .newline ∧ (Mode.reading stack).isQuoting = true := by
  have hdone : ∀ line e stack, ((complete line e stack).mode depth).isQuoting ≠ true :=
    fun line e stack => Bool.eq_false_iff.mp (mode_complete depth line e stack).2
  have hfeeds := feeds_feed lenient line stack t
  generalize feed lenient line stack t = p at hfeeds h
  cases hfeeds with
  | leaf _ _ _ => exact absurd h (hdone line _ stack)
  | rparen _ => exact absurd h (hdone _ _ _)
  | quote => exact .inl rfl
  | newline => exact .inr ⟨rfl, h⟩
  | lparen | refused _ => cases h

namespace Reader

/-- The mode after a token that is read, whatever it leads to. -/
theorem mode_feed_of_resume {r : Reader} {t : Token} {stack : List Pending}
    (h : r.mode.resume? t = some stack) (lenient : Bool) :
    (r.feed lenient t).mode = (ListLang.feed lenient r.parser.line stack t).mode
      (Parser.openAfter (r.leftOpen + openCount stack) t) := by
  simp only [Reader.feed, h]
  cases ListLang.feed lenient r.parser.line stack t <;> rfl

/-- The mode after a token that is skipped. -/
theorem mode_feed_of_skip {r : Reader} {t : Token} (h : r.mode.resume? t = none) (lenient : Bool) :
    (r.feed lenient t).mode.openCount = 0 ∧ (r.feed lenient t).mode.isQuoting = false := by
  have hmode : (r.feed lenient t).mode = r.mode.skip t := by simp only [Reader.feed, h]
  rw [hmode]
  rcases Mode.skip_cases h with hskip | ⟨depth, hskip⟩ <;> rw [hskip] <;> exact ⟨rfl, rfl⟩

end Reader

/-- What is left of a part of a program will take the reader back to the top
    level: it closes every list that is open, and it has something for a quote
    mark that waits. -/
structure Reader.Returns (r : Reader) (rest : List Token) : Prop where
  leftOpen : r.leftOpen = 0
  closes : rest.foldl nest r.mode.openCount = 0
  unquoted : (rest.filter (· ≠ .newline)).getLast? ≠ some .quote
  quoting : r.mode.isQuoting = true → rest.filter (· ≠ .newline) ≠ []

namespace Reader

/-- One token opens no more lists than it has parentheses, also in a recovery. -/
theorem openCount_feed_le (r : Reader) (lenient : Bool) (t : Token) :
    (r.feed lenient t).mode.openCount ≤ nest r.mode.openCount t := by
  cases hresume : r.mode.resume? t with
  | none =>
      rw [(mode_feed_of_skip hresume lenient).1]
      exact Nat.zero_le _
  | some stack =>
      rw [mode_feed_of_resume hresume]
      refine Nat.le_trans (ListLang.openCount_feed_le _ _ _ _ _) (nest_mono ?_ t)
      -- A recovery has given up what was open, so reading goes on with no more than that.
      rcases Mode.resume?_cases hresume with hmode | rfl
      · rw [hmode]
        exact Nat.le_refl _
      · exact Nat.zero_le _

theorem isQuoting_feed (r : Reader) (lenient : Bool) (t : Token)
    (h : (r.feed lenient t).mode.isQuoting = true) :
    t = .quote ∨ t = .newline ∧ r.mode.isQuoting = true := by
  cases hresume : r.mode.resume? t with
  | none =>
      rw [(mode_feed_of_skip hresume lenient).2] at h
      cases h
  | some stack =>
      rw [mode_feed_of_resume hresume] at h
      refine (ListLang.isQuoting_feed _ _ _ _ _ h).imp_right (And.imp_right fun hquoting => ?_)
      rcases Mode.resume?_cases hresume with hmode | rfl
      · rw [hmode]
        exact hquoting
      · cases hquoting

/-- Lists that are left open are forgotten before the next token. -/
theorem leftOpen_feed {r : Reader} (h : r.leftOpen = 0) (lenient : Bool) (t : Token) :
    (r.feed lenient t).leftOpen = 0 := by
  unfold Reader.feed
  split
  · unfold leftOpen
    split
    · exact h
    · rfl
  · split
    · exact h
    · exact h
    · rfl

theorem Returns.feed {r : Reader} {t : Token} {rest : List Token} (h : r.Returns (t :: rest))
    (lenient : Bool) : (r.feed lenient t).Returns rest := by
  have hlast := h.unquoted
  refine ⟨leftOpen_feed h.leftOpen lenient t, ?_, fun hquote => ?_, fun hquoting => ?_⟩
  · -- The reader may have fewer lists open than there are parentheses, but never more.
    have hle := foldl_nest_mono (r.openCount_feed_le lenient t) rest
    exact Nat.le_zero.mp (Nat.le_trans hle (Nat.le_of_eq h.closes))
  · -- The last token of what is left is the last token of the whole.
    refine hlast ?_
    rw [List.filter_cons]
    split
    · rw [List.getLast?_cons, hquote]
      rfl
    · exact hquote
  · rcases r.isQuoting_feed lenient t hquoting with rfl | ⟨rfl, hbefore⟩
    · -- A quote mark that has just been read is not the last token.
      intro hnone
      rw [List.filter_cons_of_pos (by simp), hnone] at hlast
      exact hlast rfl
    · have hsome := h.quoting hbefore
      rw [List.filter_cons_of_neg (by simp)] at hsome
      exact hsome

theorem Returns.foldl {r : Reader} {tokens : List Token} (h : r.Returns tokens) (lenient : Bool) :
    (tokens.foldl (Reader.feed lenient) r).Returns [] := by
  induction tokens generalizing r with
  | nil => exact h
  | cons t tokens ih => exact ih (h.feed lenient)

/-- A reader that needs nothing more has nothing begun. -/
theorem Returns.mode {r : Reader} (h : r.Returns []) :
    r.mode = .reading [] ∨ ∃ depth, r.mode = .recovering depth := by
  cases hmode : r.mode with
  | recovering depth => exact .inr ⟨depth, rfl⟩
  | reading stack =>
      have hcloses := h.closes
      have hquoting := h.quoting
      rw [hmode] at hcloses hquoting
      match stack with
      | [] => exact .inl rfl
      | .list _ _ :: _ => cases hcloses
      | .quote _ :: _ => exact absurd rfl (hquoting rfl)

end Reader

/-! ### Further Down -/

namespace Expr

mutual

/-- The expression `k` lines further down. -/
def shifted (k : Int) : Expr → Expr
  | .atom line name => .atom (line.map (· + k)) name
  | .integer line n => .integer (line.map (· + k)) n
  | .real line x => .real (line.map (· + k)) x
  | .boolean line b => .boolean (line.map (· + k)) b
  | .null line => .null (line.map (· + k))
  | .list line items => .list (line.map (· + k)) (shiftedAll k items)

/-- Several expressions `k` lines further down. -/
def shiftedAll (k : Int) : List Expr → List Expr
  | [] => []
  | e :: es => e.shifted k :: shiftedAll k es

end

theorem shiftedAll_eq_map (k : Int) (es : List Expr) : shiftedAll k es = es.map (shifted k) := by
  induction es with
  | nil => rfl
  | cons e es ih => rw [shiftedAll, List.map_cons, ih]

theorem shifted_zero (e : Expr) : e.shifted 0 = e := by
  have hline : ∀ line : Option Int, line.map (· + 0) = line := by simp
  induction e using Expr.induct with
  | list line items ih =>
      rw [shifted, shiftedAll_eq_map, List.map_congr_left ih, List.map_id', hline]
  | atom _ _ | integer _ _ | real _ _ | boolean _ _ | null _ => rw [shifted, hline]

end Expr

/-- The form `k` lines further down. -/
def Form.shifted (k : Int) (form : Form) : Form :=
  ⟨form.expr.shifted k, form.line + k⟩

/-- The diagnostic `k` lines further down. -/
def Diagnostic.shifted (k : Int) (d : Diagnostic) : Diagnostic :=
  { d with line := d.line + k }

theorem Form.shifted_zero (form : Form) : form.shifted 0 = form := by
  rw [Form.shifted, Expr.shifted_zero, Int.add_zero]

theorem Diagnostic.shifted_zero (d : Diagnostic) : d.shifted 0 = d := by
  rw [Diagnostic.shifted, Int.add_zero]

/-- What is begun, `k` lines further down. -/
def Pending.shifted (k : Int) : Pending → Pending
  | .list line items => .list (line + k) (items.map (Expr.shifted k))
  | .quote line => .quote (line + k)

/-- What one token leads to, `k` lines further down. -/
def Progress.shifted (k : Int) : Progress → Progress
  | .reading stack => .reading (stack.map (Pending.shifted k))
  | .finished line e => .finished (line + k) (e.shifted k)
  | .refused => .refused

/-- What reading is about, `k` lines further down. -/
def Mode.shifted (k : Int) : Mode → Mode
  | .reading stack => .reading (stack.map (Pending.shifted k))
  | .recovering depth => .recovering depth

theorem openCount_shifted (k : Int) (stack : List Pending) :
    openCount (stack.map (Pending.shifted k)) = openCount stack := by
  induction stack with
  | nil => rfl
  | cons pending stack ih =>
      cases pending with
      | list _ _ => exact congrArg (· + 1) ih
      | quote _ => exact ih

theorem complete_shifted (k line : Int) (e : Expr) (stack : List Pending) :
    complete (line + k) (e.shifted k) (stack.map (Pending.shifted k)) =
      (complete line e stack).shifted k := by
  induction stack generalizing line e with
  | nil => rfl
  | cons pending stack ih =>
      cases pending with
      | list opened items => rfl
      | quote mark => exact ih mark (.list (some mark) [.atom (some mark) "quote", e])

/-- A token leads to the same thing on a later line. -/
theorem feed_shifted (lenient : Bool) (k line : Int) (stack : List Pending) (t : Token) :
    feed lenient (line + k) (stack.map (Pending.shifted k)) t =
      (feed lenient line stack t).shifted k := by
  cases t with
  | integer n => exact complete_shifted k line (.integer (some line) n) stack
  | real x => exact complete_shifted k line (.real (some line) x) stack
  | boolean b => exact complete_shifted k line (.boolean (some line) b) stack
  | null => exact complete_shifted k line (.null (some line)) stack
  | identifier s => exact complete_shifted k line (.atom (some line) s) stack
  | keyword s => exact complete_shifted k line (.atom (some line) s) stack
  | unknown s =>
      cases lenient with
      | true => exact complete_shifted k line (.atom (some line) s) stack
      | false => rfl
  | quote | lparen | newline => rfl
  | rparen =>
      match stack with
      | [] | .quote _ :: _ => rfl
      | .list opened items :: outer =>
          have hlist := complete_shifted k opened (.list (some opened) items.reverse) outer
          rw [Expr.shifted, Expr.shiftedAll_eq_map, List.map_reverse] at hlist
          exact hlist

theorem diagnostic_unexpected_shifted (k : Int) (t : Token) (line : Int) :
    (ParseError.unexpected t (line + k)).diagnostic =
      (ParseError.unexpected t line).diagnostic.shifted k := rfl

theorem diagnostic_atEnd_shifted (k line : Int) (stack : List Pending) :
    (ParseError.atEnd (line + k) (stack.map (Pending.shifted k))).diagnostic =
      (ParseError.atEnd line stack).diagnostic.shifted k := by
  match stack with
  | [] | .list _ _ :: _ | .quote _ :: _ => rfl

theorem Mode.resume?_shifted (k : Int) (mode : Mode) (t : Token) :
    (mode.shifted k).resume? t = (mode.resume? t).map (List.map (Pending.shifted k)) := by
  cases mode with
  | reading stack => rfl
  | recovering depth => cases t <;> rfl

theorem Mode.skip_shifted (k : Int) (mode : Mode) (t : Token) :
    (mode.shifted k).skip t = (mode.skip t).shifted k := by
  cases mode with
  | reading stack => rfl
  | recovering depth =>
      cases t with
      | rparen =>
          simp only [Mode.shifted, Mode.skip]
          split <;> rfl
      | integer _ | real _ | boolean _ | null | identifier _ | keyword _ | quote | lparen
      | newline | unknown _ => rfl

/-- A reader does as another did, `k` lines further down and after it has read
    some forms and met some problems. -/
structure Reader.Continues (forms : List Form) (problems : List Diagnostic) (k : Int)
    (r later : Reader) : Prop where
  line : later.parser.line = r.parser.line + k
  openLists : later.parser.openLists = r.parser.openLists
  mode : later.mode = r.mode.shifted k
  forms : later.forms = forms ++ r.forms.map (Form.shifted k)
  diagnostics : later.parser.diagnostics =
    problems ++ r.parser.diagnostics.map (Diagnostic.shifted k)

namespace Reader

variable {forms : List Form} {problems : List Diagnostic} {k : Int} {r later : Reader}

theorem line_feed (r : Reader) (lenient : Bool) (t : Token) :
    (r.feed lenient t).parser.line = (r.parser.pass t).line := by
  unfold Reader.feed
  split
  · rfl
  · split <;> rfl

/-- Every line break counts. -/
theorem line_foldl (r : Reader) (lenient : Bool) (tokens : List Token) :
    (tokens.foldl (Reader.feed lenient) r).parser.line =
      r.parser.line + tokens.count .newline := by
  induction tokens generalizing r with
  | nil => simp
  | cons t tokens ih =>
      rw [List.foldl_cons, ih, line_feed, List.count_cons]
      simp only [Parser.pass, beq_iff_eq]
      split <;> omega

theorem Continues.leftOpen (h : r.Continues forms problems k later) :
    later.leftOpen = r.leftOpen := by
  have hmode := h.mode
  unfold Reader.leftOpen
  cases hr : r.mode with
  | reading stack =>
      rw [hr] at hmode
      simp only [hmode, Mode.shifted, h.openLists]
  | recovering depth =>
      rw [hr] at hmode
      simp only [hmode, Mode.shifted]

theorem Continues.pass (h : r.Continues forms problems k later) (t : Token) :
    (later.parser.pass t).line = (r.parser.pass t).line + k := by
  simp only [Parser.pass, h.line]
  split <;> omega

theorem Continues.feed (h : r.Continues forms problems k later) (lenient : Bool) (t : Token) :
    (r.feed lenient t).Continues forms problems k (later.feed lenient t) := by
  have hresume : later.mode.resume? t = (r.mode.resume? t).map (List.map (Pending.shifted k)) := by
    rw [h.mode, Mode.resume?_shifted]
  cases hstack : r.mode.resume? t with
  | none =>
      rw [hstack, Option.map_none] at hresume
      simp only [Reader.feed, hstack, hresume]
      refine ⟨h.pass t, h.leftOpen, ?_, h.forms, h.diagnostics⟩
      rw [h.mode, Mode.skip_shifted]
  | some stack =>
      rw [hstack, Option.map_some] at hresume
      have hfeed := feed_shifted lenient k r.parser.line stack t
      simp only [Reader.feed, hstack, hresume, h.line, hfeed]
      cases ListLang.feed lenient r.parser.line stack t with
      | reading stack' => exact ⟨h.pass t, h.leftOpen, rfl, h.forms, h.diagnostics⟩
      | finished line e =>
          refine ⟨h.pass t, h.leftOpen, rfl, ?_, h.diagnostics⟩
          simp only [h.forms, List.map_append, List.append_assoc]
          rfl
      | refused =>
          simp only [Progress.shifted, h.leftOpen, openCount_shifted]
          refine ⟨h.pass t, rfl, rfl, h.forms, ?_⟩
          simp only [Parser.pass, h.diagnostics, diagnostic_unexpected_shifted, List.map_append,
            List.append_assoc]
          rfl

theorem Continues.foldl (h : r.Continues forms problems k later) (lenient : Bool)
    (tokens : List Token) :
    (tokens.foldl (Reader.feed lenient) r).Continues forms problems k
      (tokens.foldl (Reader.feed lenient) later) := by
  induction tokens generalizing r later with
  | nil => exact h
  | cons t tokens ih => exact ih (h.feed lenient t)

/-- At the end a reader misses what the other missed. -/
theorem Continues.close (h : r.Continues forms problems k later) :
    later.close.diagnostics = problems ++ r.close.diagnostics.map (Diagnostic.shifted k) := by
  have hmode := h.mode
  unfold Reader.close
  cases hr : r.mode with
  | recovering depth =>
      rw [hr] at hmode
      simp only [hmode, Mode.shifted]
      exact h.diagnostics
  | reading stack =>
      rw [hr] at hmode
      cases stack with
      | nil =>
          simp only [hmode, Mode.shifted, List.map_nil]
          exact h.diagnostics
      | cons pending stack =>
          have hatEnd := diagnostic_atEnd_shifted k r.parser.line (pending :: stack)
          rw [List.map_cons] at hatEnd
          simp only [hmode, Mode.shifted, List.map_cons, h.diagnostics, h.line, hatEnd,
            List.map_append, List.append_assoc]
          rfl

/-- A line break after a part of a program is the start of the next part. -/
theorem Returns.newline {r : Reader} (h : r.Returns []) (lenient : Bool) (tokens : List Token) :
    Continues r.forms r.parser.diagnostics r.parser.line { parser := Parser.ofTokens tokens }
      (r.feed lenient .newline) := by
  have hresume : r.mode.resume? .newline = some [] := by
    rcases h.mode with hmode | ⟨depth, hmode⟩ <;> rw [hmode] <;> rfl
  simp only [Reader.feed, hresume, ListLang.feed]
  refine ⟨?_, h.leftOpen, rfl, ?_, ?_⟩
  · exact Int.add_comm r.parser.line 1
  · exact (List.append_nil r.forms).symm
  · exact (List.append_nil r.parser.diagnostics).symm

theorem Returns.close {r : Reader} (h : r.Returns []) : r.close = r.parser := by
  rcases h.mode with hmode | ⟨depth, hmode⟩ <;> simp only [Reader.close, hmode]

end Reader

/-- What a reader makes of some tokens from a later start on. -/
theorem parseTokens_continues {forms : List Form} {problems : List Diagnostic} {k : Int}
    {tokens : List Token} {r : Reader}
    (h : Reader.Continues forms problems k { parser := Parser.ofTokens tokens } r)
    (lenient : Bool) :
    (tokens.foldl (Reader.feed lenient) r).forms =
        forms ++ (parseTokens lenient tokens).1.map (Form.shifted k) ∧
      (tokens.foldl (Reader.feed lenient) r).close.diagnostics =
        problems ++ (parseTokens lenient tokens).2.map (Diagnostic.shifted k) :=
  ⟨(h.foldl lenient tokens).forms, (h.foldl lenient tokens).close⟩

/-- One program after another: if the first leaves no parenthesis open and no
    quote mark waiting, the second is read as if it stood alone, only so many
    lines further down, whatever was wrong with the first. -/
theorem parseTokens_append (lenient : Bool) {before : List Token} (hclosed : unclosed before = 0)
    (hquote : (before.filter (· ≠ .newline)).getLast? ≠ some .quote) (after : List Token) :
    parseTokens lenient (before ++ .newline :: after) =
      ((parseTokens lenient before).1 ++
          (parseTokens lenient after).1.map (Form.shifted (1 + before.count .newline)),
        (parseTokens lenient before).2 ++
          (parseTokens lenient after).2.map (Diagnostic.shifted (1 + before.count .newline))) := by
  let start : Reader := { parser := Parser.ofTokens (before ++ .newline :: after) }
  let middle := before.foldl (Reader.feed lenient) start
  have hstart : start.Returns before := ⟨rfl, hclosed, hquote, nofun⟩
  have hreturns : middle.Returns [] := hstart.foldl lenient
  have hline : middle.parser.line = 1 + before.count .newline := start.line_foldl lenient before
  -- The first part is read as it is alone, with more tokens left to read.
  have hfresh : Reader.Continues [] [] 0 { parser := Parser.ofTokens before } start :=
    ⟨rfl, rfl, rfl, rfl, rfl⟩
  have hforms := (parseTokens_continues hfresh lenient).1
  have hproblems := (parseTokens_continues hfresh lenient).2
  rw [List.nil_append, List.map_congr_left fun form _ => form.shifted_zero, List.map_id'] at hforms
  rw [List.nil_append, List.map_congr_left fun d _ => d.shifted_zero, List.map_id'] at hproblems
  change middle.forms = _ at hforms
  change middle.close.diagnostics = _ at hproblems
  rw [hreturns.close] at hproblems
  -- The second part goes on from there.
  have hlast := parseTokens_continues (hreturns.newline lenient after) lenient
  rw [hforms, hproblems, hline] at hlast
  have hread : (before ++ .newline :: after).foldl (Reader.feed lenient) start =
      after.foldl (Reader.feed lenient) (middle.feed lenient .newline) := by
    rw [List.foldl_append, List.foldl_cons]
  refine Prod.ext ?_ ?_
  · exact (congrArg Reader.forms hread).trans hlast.1
  · exact (congrArg (fun r => r.close.diagnostics) hread).trans hlast.2

/-- A call broken off inside another, with parentheses left over, and a quoted
    list over two lines. -/
def brokenCall : List Token :=
  [.lparen, .keyword "plus", .lparen, .unknown "x1", .lparen, .integer 1, .rparen, .rparen,
    .rparen, .newline, .rparen, .quote, .lparen, .newline, .integer 2, .rparen]

theorem parseTokens_append_brokenCall :
    unclosed brokenCall = 0 ∧ (brokenCall.filter (· ≠ .newline)).getLast? ≠ some .quote ∧
      parseTokens false (brokenCall ++ .newline :: [.lparen, .newline, .quote]) =
        ((parseTokens false brokenCall).1 ++
            (parseTokens false [.lparen, .newline, .quote]).1.map (Form.shifted 3),
          (parseTokens false brokenCall).2 ++
            (parseTokens false [.lparen, .newline, .quote]).2.map (Diagnostic.shifted 3)) := by
  have hclosed : unclosed brokenCall = 0 := by decide
  have hquote : (brokenCall.filter (· ≠ .newline)).getLast? ≠ some .quote := by decide
  exact ⟨hclosed, hquote, parseTokens_append false hclosed hquote [.lparen, .newline, .quote]⟩

end ListLang
