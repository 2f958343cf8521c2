import ListLang.Parser.Basic

/-!
# The Grammar of Programs

Which lists of tokens are programs, said without a parser: an expression is a
literal, a name, a quote mark with an expression after it, or expressions
between parentheses, and a program is any number of expressions. Line breaks may
stand anywhere and mean nothing.

The parser accepts exactly these lists, and the forms it returns are the
expressions they are made of. It never repairs anything silently: whatever it
drops, skips or fails to close leaves a diagnostic behind.

The argument goes through an outline of the reader that has no lines, no
diagnostics and no recovery. As long as nothing is wrong, the reader follows its
outline token by token. The outline stops at the first token out of place, and
from there on the reader has a diagnostic that it never loses. What an outline
has taken is spelled out by the grammar, and whatever the grammar spells an
outline takes.

## Main definitions

* `Grammar.Element`, `Grammar.Elements`: The tokens of an expression, and of
  several.
* `Outline`: What has been read so far, without lines.
* `Outline.take`, `Outline.takeAll`: Reading on, up to the first token that is
  out of place.
* `Reader.Follows`: A reader does as an outline does.
* `Grammar.Opened`, `Grammar.Spells`: The tokens that lead to an outline.

## Theorems

* `Reader.Follows.feed`, `Reader.Follows.foldl`: A reader follows its outline.
* `Grammar.Spells.take`, `Grammar.Spells.takeAll`: What is taken is spelled.
* `Grammar.Element.takeAll`, `Grammar.Elements.takeAll`: What is spelled is taken.
* `parseTokens_iff_elements`: The parser accepts exactly the grammar.
-/

namespace ListLang

/-- What a quote mark makes of the expression after it. -/
def quotation (e : Expr) : Expr :=
  .list none [.atom none SpecialForm.quote.name, e]

namespace Grammar

mutual

/-- The tokens of one expression, line breaks left out, and the expression
    without its lines. Words that are no names are names only if `lenient`. -/
inductive Element (lenient : Bool) : List Token → Expr → Prop where
  | integer (n : Int) : Element lenient [.integer n] (.integer none n)
  | real (x : Float) : Element lenient [.real x] (.real none x)
  | boolean (b : Bool) : Element lenient [.boolean b] (.boolean none b)
  | null : Element lenient [.null] (.null none)
  | identifier (name : String) : Element lenient [.identifier name] (.atom none name)
  | keyword (name : String) : Element lenient [.keyword name] (.atom none name)
  | unknown (text : String) (h : lenient = true) : Element lenient [.unknown text] (.atom none text)
  | quote {ts : List Token} {e : Expr} (h : Element lenient ts e) :
      Element lenient (.quote :: ts) (quotation e)
  | list {ts : List Token} {es : List Expr} (h : Elements lenient ts es) :
      Element lenient (.lparen :: ts ++ [.rparen]) (.list none es)

/-- The tokens of several expressions, one after another. -/
inductive Elements (lenient : Bool) : List Token → List Expr → Prop where
  | nil : Elements lenient [] []
  | cons {ts us : List Token} {e : Expr} {es : List Expr} (h : Element lenient ts e)
      (hs : Elements lenient us es) : Elements lenient (ts ++ us) (e :: es)

end

theorem Elements.append {lenient : Bool} {ts us : List Token} {es fs : List Expr}
    (h : Elements lenient ts es) (hs : Elements lenient us fs) :
    Elements lenient (ts ++ us) (es ++ fs) := by
  match h with
  | .nil => exact hs
  | .cons hhead htail =>
      rw [List.append_assoc, List.cons_append]
      exact .cons hhead (htail.append hs)

theorem Elements.snoc {lenient : Bool} {ts us : List Token} {es : List Expr} {e : Expr}
    (h : Elements lenient ts es) (he : Element lenient us e) :
    Elements lenient (ts ++ us) (es ++ [e]) := by
  have hlast : Elements lenient (us ++ []) [e] := .cons he .nil
  rw [List.append_nil] at hlast
  exact h.append hlast

end Grammar

/-! ### Outlines -/

/-- Something begun and not yet complete, without its line. -/
inductive Opening where
  /-- An open list with its items so far in reverse. -/
  | list (items : List Expr)
  /-- A quote mark. -/
  | quote

/-- What has been read so far, without lines. -/
structure Outline where
  /-- The expressions that are complete. -/
  done : List Expr := []
  /-- What is begun, innermost first. -/
  openings : List Opening := []

namespace Outline

/-- Hand a complete expression to the innermost thing begun. -/
def hand (done : List Expr) (e : Expr) : List Opening → Outline
  | [] => ⟨done ++ [e], []⟩
  | .list items :: openings => ⟨done, .list (e :: items) :: openings⟩
  | .quote :: openings => hand done (quotation e) openings

/-- Take one token, unless it is out of place. -/
def take (lenient : Bool) (o : Outline) : Token → Option Outline
  | .integer n => some (hand o.done (.integer none n) o.openings)
  | .real x => some (hand o.done (.real none x) o.openings)
  | .boolean b => some (hand o.done (.boolean none b) o.openings)
  | .null => some (hand o.done (.null none) o.openings)
  | .identifier s | .keyword s => some (hand o.done (.atom none s) o.openings)
  | .unknown s => if lenient then some (hand o.done (.atom none s) o.openings) else none
  | .quote => some ⟨o.done, .quote :: o.openings⟩
  | .lparen => some ⟨o.done, .list [] :: o.openings⟩
  | .rparen => match o.openings with
    | .list items :: outer => some (hand o.done (.list none items.reverse) outer)
    | _ => none
  | .newline => some o

/-- Take tokens up to the first that is out of place. -/
def takeAll (lenient : Bool) (o : Outline) (tokens : List Token) : Option Outline :=
  tokens.foldlM (take lenient) o

theorem takeAll_cons (lenient : Bool) (o : Outline) (t : Token) (tokens : List Token) :
    o.takeAll lenient (t :: tokens) = (o.take lenient t).bind (·.takeAll lenient tokens) :=
  List.foldlM_cons

theorem takeAll_append (lenient : Bool) (o : Outline) (ts us : List Token) :
    o.takeAll lenient (ts ++ us) = (o.takeAll lenient ts).bind (·.takeAll lenient us) :=
  List.foldlM_append

/-- Line breaks mean nothing. -/
theorem takeAll_filter_newline (lenient : Bool) (o : Outline) (tokens : List Token) :
    o.takeAll lenient (tokens.filter (· ≠ .newline)) = o.takeAll lenient tokens := by
  induction tokens generalizing o with
  | nil => rfl
  | cons t tokens ih =>
      by_cases ht : t = .newline
      · subst ht
        rw [List.filter_cons_of_neg (by simp), ih, takeAll_cons]
        rfl
      · rw [List.filter_cons_of_pos (by simpa using ht), takeAll_cons, takeAll_cons]
        simp only [ih]

end Outline

/-! ### Readers -/

/-- Something begun, without its line. -/
def Pending.opening : Pending → Opening
  | .list _ items => .list (items.map (Expr.relined none))
  | .quote _ => .quote

/-- The outline that one token leads to, after the expressions in `done`. -/
def Progress.outline? (done : List Expr) : Progress → Option Outline
  | .reading stack => some ⟨done, stack.map Pending.opening⟩
  | .finished _ e => some ⟨done ++ [e.relined none], []⟩
  | .refused => none

theorem outline?_complete (done : List Expr) (line : Int) (e : Expr) (stack : List Pending) :
    (complete line e stack).outline? done =
      some (Outline.hand done (e.relined none) (stack.map Pending.opening)) := by
  -- A quote mark turns the expression into a quotation and hands that on.
  induction stack generalizing line e with
  | nil => rfl
  | cons pending stack ih =>
      cases pending with
      | list opened items => rfl
      | quote mark => exact ih mark (.list (some mark) [.atom (some mark) "quote", e])

/-- Reading one token leads to the outline that taking it leads to. -/
theorem outline?_feed (lenient : Bool) (done : List Expr) (line : Int) (stack : List Pending)
    (t : Token) :
    (feed lenient line stack t).outline? done =
      Outline.take lenient ⟨done, stack.map Pending.opening⟩ t := by
  cases t with
  | integer n => exact outline?_complete done line (.integer (some line) n) stack
  | real x => exact outline?_complete done line (.real (some line) x) stack
  | boolean b => exact outline?_complete done line (.boolean (some line) b) stack
  | null => exact outline?_complete done line (.null (some line)) stack
  | identifier s => exact outline?_complete done line (.atom (some line) s) stack
  | keyword s => exact outline?_complete done line (.atom (some line) s) stack
  | unknown s =>
      cases lenient with
      | true => exact outline?_complete done line (.atom (some line) s) stack
      | false => rfl
  | quote => rfl
  | lparen => rfl
  | newline => rfl
  | rparen =>
      -- Only an open list can be closed.
      match stack with
      | [] => rfl
      | .quote _ :: _ => rfl
      | .list opened items :: outer =>
          have hlist := outline?_complete done opened (.list (some opened) items.reverse) outer
          rw [Expr.relined, Expr.relinedAll_eq_map, List.map_reverse] at hlist
          exact hlist

/-- A reader has noted no problem and has read what the outline says. -/
structure Reader.Outlined (r : Reader) (o : Outline) : Prop where
  clean : r.parser.diagnostics = []
  done : r.forms.map (fun form => form.expr.relined none) = o.done
  openings : ∃ stack, r.mode = .reading stack ∧ stack.map Pending.opening = o.openings

/-- A reader has read what the outline says, or has noted a problem where there
    is no outline. -/
def Reader.Follows (r : Reader) : Option Outline → Prop
  | some o => r.Outlined o
  | none => r.parser.diagnostics ≠ []

namespace Reader

/-- Diagnostics are never lost. -/
theorem diagnostics_feed_ne_nil {r : Reader} (h : r.parser.diagnostics ≠ []) (lenient : Bool)
    (t : Token) : (r.feed lenient t).parser.diagnostics ≠ [] := by
  unfold Reader.feed
  split
  · exact h
  · split
    · exact h
    · exact h
    · exact List.append_ne_nil_of_left_ne_nil h _

/-- One token takes a reader and its outline to the same place. -/
theorem Outlined.feed {r : Reader} {o : Outline} (h : r.Outlined o) (lenient : Bool) (t : Token) :
    (r.feed lenient t).Follows (o.take lenient t) := by
  rcases h.openings with ⟨stack, hmode, hopenings⟩
  have htake := outline?_feed lenient o.done r.parser.line stack t
  rw [hopenings] at htake
  rw [← htake]
  simp only [Reader.feed, hmode, Mode.resume?]
  -- What the token leads to decides both what the reader does and what its outline is.
  cases ListLang.feed lenient r.parser.line stack t with
  | reading stack' => exact ⟨h.clean, h.done, stack', rfl, rfl⟩
  | finished line e =>
      refine ⟨h.clean, ?_, [], rfl, rfl⟩
      rw [List.map_append, h.done]
      rfl
  | refused => exact List.append_ne_nil_of_right_ne_nil _ (List.cons_ne_nil _ _)

/-- A reader follows its outline from one token to the next. -/
theorem Follows.feed {r : Reader} {o? : Option Outline} (h : r.Follows o?) (lenient : Bool)
    (t : Token) : (r.feed lenient t).Follows (o?.bind (·.take lenient t)) := by
  cases o? with
  | some o => exact Outlined.feed h lenient t
  | none => exact diagnostics_feed_ne_nil h lenient t

/-- A reader follows its outline through any number of tokens. -/
theorem Follows.foldl {r : Reader} {o? : Option Outline} (h : r.Follows o?) (lenient : Bool)
    (tokens : List Token) :
    (tokens.foldl (Reader.feed lenient) r).Follows (o?.bind (·.takeAll lenient tokens)) := by
  induction tokens generalizing r o? with
  | nil =>
      have hsame : o?.bind (fun o => o.takeAll lenient []) = o? := by cases o? <;> rfl
      rw [hsame]
      exact h
  | cons t tokens ih =>
      have hrest := ih (h.feed lenient t)
      rw [Option.bind_assoc] at hrest
      simp only [Outline.takeAll_cons]
      exact hrest

/-- At the end nothing may be left open. -/
theorem Outlined.close_clean_iff {r : Reader} {o : Outline} (h : r.Outlined o) :
    r.close.diagnostics = [] ↔ o.openings = [] := by
  rcases h.openings with ⟨stack, hmode, hopenings⟩
  rw [← hopenings]
  cases stack with
  | nil => simp only [Reader.close, hmode, h.clean, List.map_nil]
  | cons pending stack =>
      simp only [Reader.close, hmode, List.map_cons, reduceCtorEq, iff_false]
      exact List.append_ne_nil_of_right_ne_nil _ (List.cons_ne_nil _ _)

/-- Diagnostics are not lost at the end either. -/
theorem diagnostics_close_ne_nil {r : Reader} (h : r.parser.diagnostics ≠ []) :
    r.close.diagnostics ≠ [] := by
  unfold Reader.close
  split
  · exact h
  · exact h
  · exact List.append_ne_nil_of_left_ne_nil h _

end Reader

/-- The parser finds nothing wrong if and only if an outline takes all tokens and
    leaves nothing open, and then the forms are what the outline has. -/
theorem parseTokens_iff_takeAll (lenient : Bool) (tokens : List Token) (es : List Expr) :
    (parseTokens lenient tokens).2 = [] ∧
        (parseTokens lenient tokens).1.map (fun form => form.expr.relined none) = es ↔
      Outline.takeAll lenient {} tokens = some ⟨es, []⟩ := by
  have hstart : Reader.Follows { parser := Parser.ofTokens tokens } (some {}) :=
    ⟨rfl, rfl, [], rfl, rfl⟩
  have hend := hstart.foldl lenient tokens
  rw [Option.bind_some] at hend
  simp only [parseTokens, Parser.program, Parser.ofTokens] at hend ⊢
  generalize tokens.foldl (Reader.feed lenient) { parser := Parser.ofTokens tokens } = r
    at hend ⊢
  cases htake : Outline.takeAll lenient {} tokens with
  | none =>
      rw [htake] at hend
      have hproblem := Reader.diagnostics_close_ne_nil hend
      exact ⟨fun h => absurd h.1 hproblem, nofun⟩
  | some o =>
      rw [htake] at hend
      rcases o with ⟨done, openings⟩
      rw [Reader.Outlined.close_clean_iff hend, hend.done, Option.some.injEq, Outline.mk.injEq,
        and_comm]

/-! ### What Is Taken Is Spelled -/

namespace Grammar

/-- The tokens from the outermost thing begun on. -/
inductive Opened (lenient : Bool) : List Token → List Opening → Prop where
  | nil : Opened lenient [] []
  | quote {ts : List Token} {openings : List Opening} (h : Opened lenient ts openings) :
      Opened lenient (ts ++ [.quote]) (.quote :: openings)
  | list {ts us : List Token} {openings : List Opening} {items : List Expr}
      (h : Opened lenient ts openings) (hs : Elements lenient us items.reverse) :
      Opened lenient (ts ++ .lparen :: us) (.list items :: openings)

/-- The tokens of the complete expressions of an outline and of what is begun. -/
def Spells (lenient : Bool) (tokens : List Token) (o : Outline) : Prop :=
  ∃ ts us, tokens = ts ++ us ∧ Elements lenient ts o.done ∧ Opened lenient us o.openings

variable {lenient : Bool}

/-- An expression goes to the innermost thing begun, and so do its tokens. -/
theorem Spells.hand {ts us : List Token} {done : List Expr} {openings : List Opening} {e : Expr}
    (h : Spells lenient ts ⟨done, openings⟩) (he : Element lenient us e) :
    Spells lenient (ts ++ us) (Outline.hand done e openings) := by
  rcases h with ⟨before, after, rfl, hdone, hopened⟩
  simp only at hdone hopened
  -- By induction on what is begun: quote marks are passed until a list or nothing is left.
  induction hopened generalizing us e with
  | nil =>
      refine ⟨before ++ us, [], by simp, hdone.snoc he, .nil⟩
  | @list ts' us' openings items hopened hitems =>
      refine ⟨before, ts' ++ .lparen :: (us' ++ us), by simp, hdone, .list hopened ?_⟩
      rw [List.reverse_cons]
      exact hitems.snoc he
  | @quote ts' openings hopened ih =>
      have hquoted := ih (.quote he)
      have htokens : before ++ (ts' ++ [Token.quote]) ++ us = before ++ ts' ++ .quote :: us := by
        simp
      rw [htokens]
      exact hquoted

/-- A token that is taken is spelled. A line break is spelled by nothing. -/
theorem Spells.take {ts : List Token} {o o' : Outline} (h : Spells lenient ts o) {t : Token}
    (ht : t ≠ .newline) (htake : o.take lenient t = some o') : Spells lenient (ts ++ [t]) o' := by
  cases t with
  | integer n =>
      cases htake
      exact h.hand (.integer n)
  | real x =>
      cases htake
      exact h.hand (.real x)
  | boolean b =>
      cases htake
      exact h.hand (.boolean b)
  | null =>
      cases htake
      exact h.hand .null
  | identifier s =>
      cases htake
      exact h.hand (.identifier s)
  | keyword s =>
      cases htake
      exact h.hand (.keyword s)
  | unknown s =>
      cases lenient with
      | false => cases htake
      | true =>
          cases htake
          exact h.hand (.unknown s rfl)
  | quote =>
      cases htake
      rcases h with ⟨before, after, rfl, hdone, hopened⟩
      exact ⟨before, after ++ [.quote], by simp, hdone, .quote hopened⟩
  | lparen =>
      cases htake
      rcases h with ⟨before, after, rfl, hdone, hopened⟩
      exact ⟨before, after ++ [.lparen], by simp, hdone, .list hopened .nil⟩
  | rparen =>
      rcases o with ⟨done, openings⟩
      rcases h with ⟨before, after, rfl, hdone, hopened⟩
      -- The list that is closed is an expression of what was begun before it.
      cases hopened with
      | nil => cases htake
      | quote _ => cases htake
      | @list ts' us' openings items hopened hitems =>
          cases htake
          have houter : Spells lenient (before ++ ts') ⟨done, openings⟩ :=
            ⟨before, ts', rfl, hdone, hopened⟩
          have hclosed := houter.hand (.list hitems)
          have htokens : before ++ (ts' ++ Token.lparen :: us') ++ [.rparen] =
              before ++ ts' ++ (.lparen :: us' ++ [.rparen]) := by simp
          rw [htokens]
          exact hclosed
  | newline => exact absurd rfl ht

/-- All that is taken is spelled. -/
theorem Spells.takeAll {ts : List Token} {o o' : Outline} (h : Spells lenient ts o)
    {tokens : List Token} (hbreaks : .newline ∉ tokens)
    (htake : o.takeAll lenient tokens = some o') : Spells lenient (ts ++ tokens) o' := by
  induction tokens generalizing ts o with
  | nil =>
      cases htake
      rw [List.append_nil]
      exact h
  | cons t tokens ih =>
      rw [Outline.takeAll_cons, Option.bind_eq_some_iff] at htake
      rcases htake with ⟨next, hnext, hrest⟩
      have ht : t ≠ .newline := fun heq => hbreaks (heq ▸ List.mem_cons_self)
      have hbreaks' : .newline ∉ tokens := fun hmem => hbreaks (List.mem_cons_of_mem _ hmem)
      have hspelled := ih (h.take ht hnext) hbreaks' hrest
      rw [List.append_assoc, List.singleton_append] at hspelled
      exact hspelled

/-- An outline with nothing open is spelled by its expressions alone. -/
theorem Spells.elements {ts : List Token} {es : List Expr} (h : Spells lenient ts ⟨es, []⟩) :
    Elements lenient ts es := by
  rcases h with ⟨before, after, rfl, hdone, hopened⟩
  cases hopened
  rw [List.append_nil]
  exact hdone

/-! ### What Is Spelled Is Taken -/

/-- Expressions handed one after another to an open list are its next items. -/
theorem foldl_hand_list (done items : List Expr) (openings : List Opening) (es : List Expr) :
    es.foldl (fun o e => Outline.hand o.done e o.openings) ⟨done, .list items :: openings⟩ =
      ⟨done, .list (es.reverse ++ items) :: openings⟩ := by
  induction es generalizing items with
  | nil => rfl
  | cons e es ih =>
      rw [List.foldl_cons, List.reverse_cons, List.append_assoc, List.singleton_append]
      exact ih (e :: items)

/-- Where nothing is begun, expressions are complete as they come. -/
theorem foldl_hand_nil (done es : List Expr) :
    es.foldl (fun o e => Outline.hand o.done e o.openings) ⟨done, []⟩ = ⟨done ++ es, []⟩ := by
  induction es generalizing done with
  | nil => rw [List.foldl_nil, List.append_nil]
  | cons e es ih =>
      have hrest := ih (done ++ [e])
      rw [List.append_assoc, List.singleton_append] at hrest
      exact hrest

mutual

/-- The tokens of an expression lead to the outline that is handed the
    expression. -/
theorem Element.takeAll {ts : List Token} {e : Expr} (h : Element lenient ts e) (o : Outline) :
    o.takeAll lenient ts = some (Outline.hand o.done e o.openings) := by
  match h with
  | .integer _ | .real _ | .boolean _ | .null | .identifier _ | .keyword _ => rfl
  | .unknown _ hlenient =>
      subst hlenient
      rfl
  | .quote hquoted =>
      rw [Outline.takeAll_cons]
      exact hquoted.takeAll ⟨o.done, .quote :: o.openings⟩
  | @Element.list _ us es hitems =>
      -- The items gather in the list that was opened, and closing it hands it on.
      have hinner := hitems.takeAll ⟨o.done, .list [] :: o.openings⟩
      rw [foldl_hand_list, List.append_nil] at hinner
      have hclose : Outline.takeAll lenient ⟨o.done, .list es.reverse :: o.openings⟩ [.rparen] =
          some (Outline.hand o.done (.list none es.reverse.reverse) o.openings) := rfl
      rw [List.reverse_reverse] at hclose
      rw [List.cons_append, Outline.takeAll_cons]
      change Outline.takeAll lenient ⟨o.done, .list [] :: o.openings⟩ (us ++ [.rparen]) = _
      rw [Outline.takeAll_append, hinner, Option.bind_some, hclose]

/-- The tokens of several expressions lead to the outline that is handed one
    after another. -/
theorem Elements.takeAll {ts : List Token} {es : List Expr} (h : Elements lenient ts es)
    (o : Outline) :
    o.takeAll lenient ts = some (es.foldl (fun o e => Outline.hand o.done e o.openings) o) := by
  match h with
  | .nil => rfl
  | .cons hhead htail =>
      rw [Outline.takeAll_append, hhead.takeAll o, Option.bind_some, htail.takeAll, List.foldl_cons]

end

/-- An outline takes exactly the tokens of some expressions, and then these are
    what it has. -/
theorem takeAll_iff_elements {tokens : List Token} (hbreaks : .newline ∉ tokens)
    (es : List Expr) :
    Outline.takeAll lenient {} tokens = some ⟨es, []⟩ ↔ Elements lenient tokens es := by
  constructor
  · intro htake
    have hstart : Spells lenient [] {} := ⟨[], [], rfl, .nil, .nil⟩
    exact (hstart.takeAll hbreaks htake).elements
  · intro helements
    have htaken := helements.takeAll {}
    rw [foldl_hand_nil, List.nil_append] at htaken
    exact htaken

end Grammar

/-- The parser accepts exactly the grammar: it finds nothing wrong with a list of
    tokens and returns certain expressions if and only if the tokens, line
    breaks left out, are those expressions one after another. -/
theorem parseTokens_iff_elements (lenient : Bool) (tokens : List Token) (es : List Expr) :
    (parseTokens lenient tokens).2 = [] ∧
        (parseTokens lenient tokens).1.map (fun form => form.expr.relined none) = es ↔
      Grammar.Elements lenient (tokens.filter (· ≠ .newline)) es := by
  have hbreaks : Token.newline ∉ tokens.filter (· ≠ .newline) := by simp
  rw [parseTokens_iff_takeAll, ← Outline.takeAll_filter_newline,
    Grammar.takeAll_iff_elements hbreaks]

end ListLang
