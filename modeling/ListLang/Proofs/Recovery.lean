import ListLang.Proofs.Concatenation

/-!
# Past a Broken Form

A token out of place costs the form it stands in, one diagnostic and nothing
else, provided that what is left of the form opens no further list and stays on
the line. A recovery skips as many closing parentheses as lists were open where
it began, so all depends on that number. It is kept by counting along the stack
of what is begun, which has as many lists as there are parentheses without a
partner, however many lists have been opened and closed in between and however
many quote marks wait.

The number also shows when the parser is asked for one expression of the tokens up
to the broken place: it runs out of them, and leaves behind the lists that it
could not close, one for each parenthesis without a partner.

## Main definitions

* `ParseError.isAtEnd`: Whether the input ended too early.
* `Reader.Keeps`: A reader has read no form and met no problem.

## Theorems

* `Reader.foldl_of_element`: A reader gets as far as a request for one expression.
* `Reader.foldl_recovering`: A recovery ends at the parenthesis that closes the
  form.
* `Reader.past_broken_form`: A broken form leaves one diagnostic behind.
* `program_after_broken_form`: What comes after a broken form is read as if it
  stood alone.
-/

namespace ListLang

/-- Whether the error is that of an input which ends too early. -/
def ParseError.isAtEnd : ParseError → Bool
  | .unexpected .. => false
  | .unclosedList .. | .nothingQuoted _ | .endOfInput _ => true

/-- A reader has read no form and met no problem since it was another. -/
structure Reader.Keeps (r later : Reader) : Prop where
  leftOpen : later.leftOpen = r.leftOpen
  forms : later.forms = r.forms
  diagnostics : later.parser.diagnostics = r.parser.diagnostics

namespace Reader

theorem Keeps.trans {r s t : Reader} (h : r.Keeps s) (h' : s.Keeps t) : r.Keeps t :=
  ⟨h'.leftOpen.trans h.leftOpen, h'.forms.trans h.forms, h'.diagnostics.trans h.diagnostics⟩

theorem leftOpen_of_reading {r : Reader} {stack : List Pending} (h : r.mode = .reading stack) :
    r.leftOpen = r.parser.openLists := by
  rw [leftOpen, h]

theorem leftOpen_of_recovering {r : Reader} {depth : Int} (h : r.mode = .recovering depth) :
    r.leftOpen = 0 := by
  rw [leftOpen, h]

/-! ### Up to the Broken Place -/

/-- A token that more tokens have to follow. -/
theorem feed_of_reading {r : Reader} {stack stack' : List Pending} {lenient : Bool} {t : Token}
    (hmode : r.mode = .reading stack)
    (h : ListLang.feed lenient r.parser.line stack t = .reading stack') :
    (r.feed lenient t).mode = .reading stack' ∧ r.Keeps (r.feed lenient t) := by
  simp only [Reader.feed, hmode, Mode.resume?, h]
  exact ⟨trivial, rfl, rfl, rfl⟩

/-- Where a request for one expression runs out of tokens, a reader has read them
    as well. It has begun the same things, among them a list for each parenthesis
    that is open, and those are the lists that the request leaves open. -/
theorem foldl_of_element {lenient : Bool} {tokens : List Token} {p stopped : Parser}
    {stack : List Pending} {error : ParseError}
    (h : p.elementFrom lenient stack tokens = (.error error, stopped))
    (hend : error.isAtEnd = true) {r : Reader} (hmode : r.mode = .reading stack)
    (hline : r.parser.line = p.line) :
    ∃ stack', (tokens.foldl (Reader.feed lenient) r).mode = .reading stack' ∧
      openCount stack' = tokens.foldl nest (openCount stack) ∧
      stopped.openLists = p.openLists + openCount stack' ∧
      r.Keeps (tokens.foldl (Reader.feed lenient) r) := by
  -- The request and the reader feed the same tokens to the same stack, on the same line.
  induction tokens generalizing p r stack with
  | nil =>
      rw [Parser.elementFrom, Prod.mk.injEq] at h
      exact ⟨stack, hmode, rfl, by rw [← h.2], rfl, rfl, rfl⟩
  | cons t tokens ih =>
      rw [Parser.elementFrom] at h
      cases hfeed : ListLang.feed lenient p.line stack t with
      | finished line e =>
          rw [hfeed] at h
          cases h
      | refused =>
          -- A token that is refused is an error of its own.
          rw [hfeed] at h
          cases h
          cases hend
      | reading stack' =>
          rw [hfeed] at h
          rw [← hline] at hfeed
          rcases feed_of_reading hmode hfeed with ⟨hmode', hkeeps⟩
          have hnest := openCount_of_reading hfeed
          have hline' : (r.feed lenient t).parser.line = (p.pass t).line := by
            rw [line_feed]
            simp only [Parser.pass, hline]
          rcases ih h hmode' hline' with ⟨stack'', hlast, hcount, hopen, hkeeps'⟩
          rw [hnest] at hcount
          exact ⟨stack'', hlast, hcount, hopen, hkeeps.trans hkeeps'⟩

/-! ### Up to the End of the Form -/

theorem feed_of_skip {r : Reader} {t : Token} (h : r.mode.resume? t = none) (lenient : Bool) :
    (r.feed lenient t).mode = r.mode.skip t ∧ r.Keeps (r.feed lenient t) := by
  have hnone : r.leftOpen = 0 := by
    cases hmode : r.mode with
    | reading stack =>
        rw [hmode] at h
        cases h
    | recovering depth => exact leftOpen_of_recovering hmode
  refine ⟨?_, ?_, ?_, ?_⟩
  · simp only [Reader.feed, h]
  · rw [hnone]
    exact leftOpen_feed hnone lenient t
  · simp only [Reader.feed, h]
  · simp only [Reader.feed, h, Parser.pass]

theorem resume?_recovering {t : Token} (hparen : t ≠ .lparen) (hbreak : t ≠ .newline)
    (depth : Int) : (Mode.recovering depth).resume? t = none := by
  cases t with
  | lparen => exact absurd rfl hparen
  | newline => exact absurd rfl hbreak
  | integer _ | real _ | boolean _ | null | identifier _ | keyword _ | quote | rparen
  | unknown _ => rfl

theorem skip_of_ne_rparen {t : Token} (h : t ≠ .rparen) (depth : Int) :
    (Mode.recovering depth).skip t = .recovering depth := by
  cases t with
  | rparen => exact absurd rfl h
  | integer _ | real _ | boolean _ | null | identifier _ | keyword _ | quote | lparen | newline
  | unknown _ => rfl

/-- A recovery that needs as many closing parentheses as there are ends with the
    last of them. -/
theorem foldl_recovering (lenient : Bool) {tokens : List Token} (hflat : .lparen ∉ tokens)
    (hbreaks : .newline ∉ tokens) (hlast : tokens.getLast? = some .rparen) {r : Reader}
    (hmode : r.mode = .recovering (tokens.count .rparen)) :
    (tokens.foldl (Reader.feed lenient) r).mode = .reading [] ∧
      r.Keeps (tokens.foldl (Reader.feed lenient) r) := by
  -- The depth is the number of closing parentheses still to come. It gets to zero with the
  -- last of them, and not before, since the last token is one.
  induction tokens generalizing r with
  | nil => cases hlast
  | cons t tokens ih =>
      rw [List.mem_cons, not_or] at hflat hbreaks
      have hresume : r.mode.resume? t = none := by
        rw [hmode]
        exact resume?_recovering (Ne.symm hflat.1) (Ne.symm hbreaks.1) _
      rcases feed_of_skip hresume lenient with ⟨hskip, hkeeps⟩
      by_cases hnone : tokens = []
      · -- The last token closes the one list that is still open.
        subst hnone
        rw [List.getLast?_singleton, Option.some.injEq] at hlast
        subst hlast
        rw [hmode] at hskip
        exact ⟨hskip, hkeeps⟩
      · have hlast' : tokens.getLast? = some .rparen := by
          rw [List.getLast?_cons_of_ne_nil hnone] at hlast
          exact hlast
        have hclosed : 0 < tokens.count .rparen :=
          List.count_pos_iff.mpr (List.mem_of_getLast? hlast')
        have hmode' : (r.feed lenient t).mode = .recovering (tokens.count .rparen) := by
          rw [hskip, hmode]
          by_cases ht : t = .rparen
          · subst ht
            rw [List.count_cons_self]
            have hopen : ¬ ((tokens.count .rparen + 1 : Nat) : Int) - 1 ≤ 0 := by omega
            simp only [Mode.skip, if_neg hopen, Mode.recovering.injEq]
            omega
          · rw [skip_of_ne_rparen ht, List.count_cons_of_ne ht]
        rcases ih hflat.2 hbreaks.2 hlast' hmode' with ⟨hend, hkeeps'⟩
        exact ⟨hend, hkeeps.trans hkeeps'⟩

/-! ### The Broken Form -/

/-- At the top level, a form broken by a word that is no name is read past, to the
    top level again. All that is left of it is one diagnostic, on the line of that
    word. -/
theorem past_broken_form {before after : List Token} {p stopped : Parser} {error : ParseError}
    (hbefore : p.elementFrom false [] before = (.error error, stopped))
    (hend : error.isAtEnd = true) (hopen : unclosed before = after.count .rparen)
    (hflat : .lparen ∉ after) (hbreaks : .newline ∉ after)
    (hlast : after.getLast? = some .rparen) (text : String) {r : Reader}
    (hmode : r.mode = .reading []) (hline : r.parser.line = p.line)
    (hfresh : r.parser.openLists = 0) :
    ∃ later, (before ++ .unknown text :: after).foldl (Reader.feed false) r = later ∧
      later.mode = .reading [] ∧ later.parser.openLists = 0 ∧ later.forms = r.forms ∧
      later.parser.diagnostics = r.parser.diagnostics ++
        [(ParseError.unexpected (.unknown text)
          (r.parser.line + before.count .newline)).diagnostic] := by
  rcases foldl_of_element hbefore hend hmode hline with ⟨stack, hstack, hcount, _, hkeeps⟩
  have hreached := r.line_foldl false before
  generalize hmiddle : before.foldl (Reader.feed false) r = middle at hstack hkeeps hreached
  -- The word is refused, and the recovery has to close what is open there.
  have hdepth : middle.parser.openLists + openCount stack = after.count .rparen := by
    rw [← leftOpen_of_reading hstack, hkeeps.leftOpen, leftOpen_of_reading hmode, hfresh,
      Int.zero_add, hcount, ← hopen]
    rfl
  have hbroken : middle.feed false (.unknown text) =
      { middle with
        parser := { middle.parser.pass (.unknown text) with
          openLists := after.count .rparen
          diagnostics := middle.parser.diagnostics ++
            [(ParseError.unexpected (.unknown text) middle.parser.line).diagnostic] }
        mode := .recovering (after.count .rparen) } := by
    simp only [Reader.feed, leftOpen_of_reading hstack, hstack, Mode.resume?, ListLang.feed,
      Bool.false_eq_true, ↓reduceIte, Parser.openAfter, Parser.pass, hdepth]
  have hrecovering : (middle.feed false (.unknown text)).mode =
      .recovering (after.count .rparen) := by rw [hbroken]
  rcases foldl_recovering false hflat hbreaks hlast hrecovering with ⟨htop, hskipped⟩
  refine ⟨_, rfl, ?_⟩
  rw [List.foldl_append, List.foldl_cons, hmiddle]
  refine ⟨htop, ?_, ?_, ?_⟩
  · rw [← leftOpen_of_reading htop, hskipped.leftOpen, leftOpen_of_recovering hrecovering]
  · rw [hskipped.forms, hbroken]
    exact hkeeps.forms
  · rw [hskipped.diagnostics, hbroken, ← hreached, ← hkeeps.diagnostics]

/-! ### What Comes After -/

variable {forms : List Form} {problems : List Diagnostic} {k : Int} {r later : Reader}

/-- A reader that does as another did ends as far down and with as many lists
    open. -/
theorem Continues.close_place (h : r.Continues forms problems k later) :
    later.close.line = r.close.line + k ∧ later.close.openLists = r.close.openLists := by
  have hmode := h.mode
  unfold Reader.close
  cases hr : r.mode with
  | recovering depth =>
      rw [hr] at hmode
      simp only [hmode, Mode.shifted]
      exact ⟨h.line, h.openLists⟩
  | reading stack =>
      rw [hr] at hmode
      cases stack with
      | nil =>
          simp only [hmode, Mode.shifted, List.map_nil]
          exact ⟨h.line, h.openLists⟩
      | cons pending stack =>
          have hcount := openCount_shifted k (pending :: stack)
          rw [List.map_cons] at hcount
          simp only [hmode, Mode.shifted, List.map_cons, h.line, h.openLists, hcount, and_self]

end Reader

/-- A broken form costs one diagnostic. Let the parser, asked for one expression,
    get through some tokens without an error and run out of them. The lists that it
    leaves open are then as many as the parentheses without a partner. If a word
    that is no name comes next, and then on the same line tokens that open no list,
    with a closing parenthesis for each that is open and one at the end, then the
    form is gone. There is no form for it and one diagnostic, and reading goes on as
    if what comes after stood alone, only so many lines further down. -/
theorem program_after_broken_form {before after : List Token} {stopped : Parser}
    {error : ParseError}
    (hbefore : (Parser.ofTokens before).element false = (.error error, stopped))
    (hend : error.isAtEnd = true) (hopen : unclosed before = after.count .rparen)
    (hflat : .lparen ∉ after) (hbreaks : .newline ∉ after)
    (hlast : after.getLast? = some .rparen) (text : String) (rest : List Token) :
    let whole := (Parser.ofTokens (before ++ .unknown text :: after ++ rest)).program false
    let alone := (Parser.ofTokens rest).program false
    let down : Int := before.count .newline
    stopped.openLists = unclosed before ∧
      whole.1 = alone.1.map (Form.shifted down) ∧
      whole.2.diagnostics =
        { line := 1 + down
          message := "Unexpected token '" ++ text ++ "'"
          stage := readingStage } :: alone.2.diagnostics.map (Diagnostic.shifted down) ∧
      whole.2.line = alone.2.line + down ∧ whole.2.openLists = alone.2.openLists := by
  intro whole alone down
  let tokens := before ++ .unknown text :: after ++ rest
  let start : Reader := { parser := Parser.ofTokens tokens }
  have hrequest : (Parser.ofTokens before).elementFrom false [] before = (.error error, stopped) :=
    hbefore
  rcases Reader.past_broken_form hrequest hend hopen hflat hbreaks hlast text
    (show start.mode = .reading [] from rfl) rfl rfl with
    ⟨middle, hmiddle, hmode, hnone, hforms, hproblems⟩
  have hread : tokens.foldl (Reader.feed false) start = rest.foldl (Reader.feed false) middle := by
    rw [List.foldl_append, hmiddle]
  have hline : middle.parser.line = 1 + down := by
    rw [← hmiddle, Reader.line_foldl, List.count_append, List.count_cons_of_ne Token.noConfusion,
      List.count_eq_zero_of_not_mem hbreaks]
    rfl
  -- After the form, the reader is where a new one would be, so many lines further down.
  have hcontinues : Reader.Continues []
      [{ line := 1 + down, message := "Unexpected token '" ++ text ++ "'", stage := readingStage }]
      down { parser := Parser.ofTokens rest } middle :=
    ⟨hline, hnone, hmode, hforms, hproblems⟩
  have hafter := parseTokens_continues hcontinues false
  have hclose := (hcontinues.foldl false rest).close_place
  rw [← hread] at hafter hclose
  refine ⟨?_, hafter.1, hafter.2, hclose.1, hclose.2⟩
  rcases Reader.foldl_of_element hrequest hend (show start.mode = .reading [] from rfl) rfl with
    ⟨stack, _, hcount, hleft, _⟩
  rw [hleft, hcount]
  exact Int.zero_add _

/-- The beginning of a call over two lines, with a list that is closed, a quoted
    list that is not, and a quote mark at the end. -/
def unfinishedCall : List Token :=
  [.lparen, .keyword "plus", .newline, .lparen, .integer 1, .rparen, .quote, .lparen, .quote]

/-- What could be the rest of it, with another word that is no name. -/
def flatRest : List Token :=
  [.integer 2, .unknown "y2", .rparen, .quote, .rparen]

theorem program_after_broken_form_unfinishedCall :
    unclosed unfinishedCall = flatRest.count .rparen ∧
      ((Parser.ofTokens unfinishedCall).element false).2.openLists = unclosed unfinishedCall ∧
      Token.lparen ∉ flatRest ∧ Token.newline ∉ flatRest ∧ flatRest.getLast? = some .rparen ∧
      parseTokens false
          (unfinishedCall ++ .unknown "x1" :: flatRest ++ [.rparen, .newline, .identifier "z"]) =
        ([⟨.atom (some 3) "z", 3⟩],
          [⟨2, "Unexpected token 'x1'", readingStage⟩,
            ⟨2, "Unexpected token ')'", readingStage⟩]) := by
  have hbefore : (Parser.ofTokens unfinishedCall).element false =
      (.error (.nothingQuoted 2), ((Parser.ofTokens unfinishedCall).element false).2) := rfl
  have hopen : unclosed unfinishedCall = flatRest.count .rparen := by decide
  have hflat : Token.lparen ∉ flatRest := by decide
  have hbreaks : Token.newline ∉ flatRest := by decide
  have hafter := program_after_broken_form hbefore rfl hopen hflat hbreaks rfl "x1"
    [.rparen, .newline, .identifier "z"]
  exact ⟨hopen, hafter.1, hflat, hbreaks, rfl, Prod.ext hafter.2.1 hafter.2.2.1⟩

end ListLang
