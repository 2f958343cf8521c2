import ListLang.Program
import ListLang.Proofs.Concatenation
import ListLang.Proofs.Grammar
import ListLang.Proofs.Lexing
import ListLang.Proofs.Related

/-!
# Printing and Reading Back

The text of an expression reads as that expression. For a program that reads
without problems this makes a normal form of it: its expressions, one on each
line, with single blanks between them and quote marks written out.

The tokens of the printed text are not those of the text that was read, since a
quote mark is printed as a list, but they spell the same expression by the same
grammar. Where all tokens of an expression are on one line, everything in the
expression is on that line.

## Main definitions

* `Expr.hasReal`: Whether a real literal occurs in an expression.
* `Printed`: The tokens of the text of an expression, which spell it.
* `Reader.Arrives`: A reader that has stayed on its line and met no problem.
* `Reader.Between`: A reader between two forms.

## Theorems

* `Grammar.Element.printed`: What is spelled by tokens can be printed.
* `Grammar.Element.arrives`: What is spelled on one line is read on that line.
* `parse_lines`: What can be printed is read back.
* `parse_printed`: Printing and reading back is the identity.
-/

namespace ListLang

namespace Expr

mutual

/-- Whether a real literal occurs in the expression. -/
def hasReal : Expr → Bool
  | .real _ _ => true
  | .list _ items => anyReal items
  | .atom _ _ | .integer _ _ | .boolean _ _ | .null _ => false

/-- Whether a real literal occurs in one of the expressions. -/
def anyReal : List Expr → Bool
  | [] => false
  | e :: es => e.hasReal || anyReal es

end

theorem anyReal_eq_any (es : List Expr) : anyReal es = es.any hasReal := by
  induction es with
  | nil => rfl
  | cons e es ih => rw [anyReal, List.any_cons, ih]

theorem hasReal_list {line : Option Int} {items : List Expr} :
    (Expr.list line items).hasReal = false ↔ ∀ e ∈ items, e.hasReal = false := by
  simp only [hasReal, anyReal_eq_any, List.any_eq_false, Bool.not_eq_true]

theorem hasReal_relined (line : Option Int) (e : Expr) :
    (e.relined line).hasReal = false ↔ e.hasReal = false := by
  induction e using Expr.induct with
  | list l items ih =>
      rw [relined, hasReal_list, hasReal_list, relinedAll_eq_map, List.forall_mem_map]
      exact forall₂_congr ih
  | atom _ _ | integer _ _ | real _ _ | boolean _ _ | null _ => exact Iff.rfl

theorem text_relined (line : Option Int) (e : Expr) : (e.relined line).text = e.text := by
  induction e using Expr.induct with
  | list l items ih =>
      simp only [relined, text, textAll_eq_map, relinedAll_eq_map, List.map_map, Function.comp_def,
        List.map_congr_left ih]
  | atom _ _ | integer _ _ | real _ _ | boolean _ _ | null _ => rfl

theorem isWritable_relined (line : Option Int) (e : Expr) :
    (e.relined line).isWritable = e.isWritable := by
  induction e using Expr.induct with
  | list l items ih =>
      rw [relined, relinedAll_eq_map]
      exact allWritable_map ih
  | atom _ _ | integer _ _ | real _ _ | boolean _ _ | null _ => rfl

theorem isWritable_quoted (e : Expr) : e.quoted.isWritable = e.isWritable := by
  induction e using Expr.induct with
  | list l items ih =>
      rw [Bool.eq_iff_iff]
      simp only [quoted, quotedAll_eq_map, Value.isWritable, Value.allWritable_eq_all, isWritable,
        allWritable_eq_all, List.all_map, List.all_eq_true, Function.comp_apply]
      exact forall₂_congr fun e he => by rw [ih e he]
  | atom _ _ | integer _ _ | real _ _ | boolean _ _ | null _ => rfl

/-- Quoted code looks like the code. -/
theorem text_quoted (e : Expr) : e.quoted.text = e.text := by
  induction e using Expr.induct with
  | list l items ih =>
      simp only [quoted, Value.text, text, Value.textAll_eq_map, textAll_eq_map, quotedAll_eq_map,
        List.map_map, Function.comp_def, List.map_congr_left ih]
  | atom _ _ | integer _ _ | real _ _ | boolean _ _ | null _ => rfl

theorem toList_text_list (line : Option Int) (items : List Expr) :
    (Expr.list line items).text.toList =
      '(' :: ([' '].intercalate (items.map fun e => e.text.toList) ++ [')']) := by
  rw [text, String.toList_append, String.toList_append, String.toList_intercalate, textAll_eq_map,
    List.map_map]
  rfl

end Expr

/-! ### Printing -/

/-- The tokens of the text of an expression, which has one and which they spell. -/
structure Printed (lenient : Bool) (e : Expr) (tokens : List Token) : Prop where
  writable : e.isWritable = true
  reads : Reads e.text.toList tokens
  element : Grammar.Element lenient tokens e

namespace Grammar

variable {lenient : Bool}

/-- An expression that is one token is printed as its text. -/
theorem printed_token {e : Expr} {t : Token} (hwritable : e.isWritable = true)
    (htext : e.text = t.text) (hreads : Reads t.text.toList [t])
    (helement : Element lenient [t] e) : ∃ us, Printed lenient e us := by
  rw [← htext] at hreads
  exact ⟨[t], hwritable, hreads, helement⟩

/-- Expressions spelled one by one are spelled by all their tokens, with nothing
    between them. -/
theorem elements_of_printed {es : List Expr} {tokens : List (List Token)}
    (h : List.Forall₂ (Printed lenient) es tokens) :
    Elements lenient ([].intercalate tokens) es := by
  induction h with
  | nil => exact .nil
  | @cons e ts es tokens hhead htail ih =>
      cases htail with
      | nil =>
          have hlast := Elements.cons hhead.element .nil
          rw [List.append_nil] at hlast
          rw [List.intercalate_singleton]
          exact hlast
      | cons _ _ =>
          rw [List.intercalate_cons_cons, List.append_nil]
          exact .cons hhead.element ih

/-- A list is printed with its items between parentheses and blanks between the
    items. -/
theorem printed_list {es : List Expr} {tokens : List (List Token)}
    (h : List.Forall₂ (Printed lenient) es tokens) :
    Printed lenient (.list none es) (.lparen :: [].intercalate tokens ++ [.rparen]) := by
  have hwritable : (Expr.list none es).isWritable = true := by
    rw [Expr.isWritable, Expr.allWritable_eq_all, List.all_eq_true]
    exact forall_mem_of_forall₂ h.flip fun _ _ _ hprinted => hprinted.writable
  refine ⟨hwritable, ?_, .list (elements_of_printed h)⟩
  have htexts : List.Forall₂ Reads (es.map fun e => e.text.toList) tokens :=
    List.forall₂_map_left_iff.mpr (h.imp fun _ _ hprinted => hprinted.reads)
  have hblank : delimiter? ' ' = some none := rfl
  have hopen : delimiter? '(' = some (some .lparen) := rfl
  have hclose : delimiter? ')' = some (some .rparen) := rfl
  rw [Expr.toList_text_list]
  exact Reads.nil.cut ((Reads.intercalate htexts hblank).cut .nil hclose) hopen

mutual

/-- What is spelled by tokens with a text of their own can be printed. -/
theorem Element.printed {ts : List Token} {e : Expr} (h : Element lenient ts e)
    (hreal : e.hasReal = false)
    (hspelled : ∀ t ∈ ts, (∀ x, t ≠ .real x) → Reads t.text.toList [t]) :
    ∃ us, Printed lenient e us := by
  match h with
  | .integer n =>
      have hreads := hspelled (.integer n) (.head _) nofun
      exact printed_token ((reads_toString_iff n).mp hreads) rfl hreads (.integer n)
  | .real x => cases hreal
  | .boolean b => exact printed_token rfl rfl (hspelled _ (.head _) nofun) (.boolean b)
  | .null => exact printed_token rfl rfl (hspelled _ (.head _) nofun) .null
  | .identifier name => exact printed_token rfl rfl (hspelled _ (.head _) nofun) (.identifier name)
  | .keyword name => exact printed_token rfl rfl (hspelled _ (.head _) nofun) (.keyword name)
  | .unknown text hlenient =>
      exact printed_token rfl rfl (hspelled _ (.head _) nofun) (.unknown text hlenient)
  | @Element.quote _ ts e hquoted =>
      -- A quote mark is printed as a list whose head is a name.
      have hlist := Expr.hasReal_list.mp hreal
      rcases hquoted.printed (hlist e (by simp))
        (fun t ht => hspelled t (List.mem_cons_of_mem _ ht)) with ⟨us, hus⟩
      have hname : Printed lenient (.atom none SpecialForm.quote.name) [.keyword "quote"] :=
        ⟨rfl, rfl, .keyword "quote"⟩
      exact ⟨_, printed_list (.cons hname (.cons hus .nil))⟩
  | @Element.list _ ts es hitems =>
      rcases hitems.printed (Expr.hasReal_list.mp hreal) (fun t ht => hspelled t (by simp [ht]))
        with ⟨tokens, htokens⟩
      exact ⟨_, printed_list htokens⟩

/-- What is spelled one after another can be printed one by one. -/
theorem Elements.printed {ts : List Token} {es : List Expr} (h : Elements lenient ts es)
    (hreal : ∀ e ∈ es, e.hasReal = false)
    (hspelled : ∀ t ∈ ts, (∀ x, t ≠ .real x) → Reads t.text.toList [t]) :
    ∃ tokens, List.Forall₂ (Printed lenient) es tokens := by
  match h with
  | .nil => exact ⟨[], .nil⟩
  | .cons hhead htail =>
      rcases hhead.printed (hreal _ List.mem_cons_self)
        (fun t ht => hspelled t (List.mem_append_left _ ht)) with ⟨us, hus⟩
      rcases htail.printed (fun e he => hreal e (List.mem_cons_of_mem _ he))
        (fun t ht => hspelled t (List.mem_append_right _ ht)) with ⟨tokens, htokens⟩
      exact ⟨us :: tokens, .cons hus htokens⟩

end

end Grammar

/-! ### Reading on One Line -/

/-- The forms that one token completes. -/
def Progress.forms : Progress → List Form
  | .finished line e => [⟨e, line⟩]
  | .reading _ | .refused => []

/-- A reader has stayed on its line, met no problem and got as far as `p` says. -/
structure Reader.Arrives (r : Reader) (p : Progress) (later : Reader) : Prop where
  line : later.parser.line = r.parser.line
  clean : later.parser.diagnostics = r.parser.diagnostics
  forms : later.forms = r.forms ++ p.forms
  mode : later.mode = p.mode 0

namespace Reader

variable {r later last : Reader} {stack : List Pending} {p : Progress} {lenient : Bool}

theorem Arrives.trans (h : r.Arrives (.reading stack) later) (hlast : later.Arrives p last) :
    r.Arrives p last := by
  refine ⟨hlast.line.trans h.line, hlast.clean.trans h.clean, ?_, hlast.mode⟩
  rw [hlast.forms, h.forms]
  exact congrArg (· ++ p.forms) (List.append_nil r.forms)

theorem arrives_self (hmode : r.mode = .reading stack) : r.Arrives (.reading stack) r :=
  ⟨rfl, rfl, (List.append_nil r.forms).symm, hmode⟩

/-- A token that is not out of place takes the reader where it leads. -/
theorem arrives_feed (hmode : r.mode = .reading stack) {t : Token}
    (hfeed : ListLang.feed lenient r.parser.line stack t = p) (ht : t ≠ .newline)
    (hp : p ≠ .refused) : r.Arrives p (r.feed lenient t) := by
  have hresume : r.mode.resume? t = some stack := by rw [hmode]; rfl
  simp only [Reader.feed, hresume, hfeed]
  cases p with
  | reading stack' => exact ⟨if_neg ht, rfl, (List.append_nil r.forms).symm, rfl⟩
  | finished line e => exact ⟨if_neg ht, rfl, rfl, rfl⟩
  | refused => exact absurd rfl hp

end Reader

theorem complete_ne_refused (line : Int) (e : Expr) (stack : List Pending) :
    complete line e stack ≠ .refused := by
  induction stack generalizing line e with
  | nil => exact nofun
  | cons pending stack ih =>
      cases pending with
      | list opened items => exact nofun
      | quote mark => exact ih mark _

namespace Grammar

variable {lenient : Bool}

mutual

/-- What is spelled on one line is read on that line, with that line throughout. -/
theorem Element.arrives {ts : List Token} {e : Expr} (h : Element lenient ts e) {r : Reader}
    {stack : List Pending} (hmode : r.mode = .reading stack) :
    r.Arrives (complete r.parser.line (e.relined (some r.parser.line)) stack)
      (ts.foldl (Reader.feed lenient) r) := by
  match h with
  | .integer _ | .real _ | .boolean _ | .null | .identifier _ | .keyword _ =>
      exact Reader.arrives_feed hmode rfl nofun (complete_ne_refused _ _ _)
  | .unknown _ hlenient =>
      subst hlenient
      exact Reader.arrives_feed hmode rfl nofun (complete_ne_refused _ _ _)
  | @Element.quote _ ts e hquoted =>
      have hmark : r.Arrives (.reading (.quote r.parser.line :: stack)) (r.feed lenient .quote) :=
        Reader.arrives_feed hmode rfl nofun nofun
      have hrest := hquoted.arrives hmark.mode
      rw [hmark.line] at hrest
      exact hmark.trans hrest
  | @Element.list _ ts es hitems =>
      -- The items gather in the list that was opened, and closing it completes it.
      have hopen : r.Arrives (.reading (.list r.parser.line [] :: stack))
          (r.feed lenient .lparen) :=
        Reader.arrives_feed hmode rfl nofun nofun
      have hinner := hopen.trans (hitems.arrives hopen.mode)
      rw [hopen.line, List.append_nil] at hinner
      have hlist : ∀ line, feed lenient line (.list r.parser.line
            (es.map (Expr.relined (some r.parser.line))).reverse :: stack) .rparen =
          complete r.parser.line ((Expr.list none es).relined (some r.parser.line)) stack := by
        intro line
        rw [feed, List.reverse_reverse, Expr.relined, Expr.relinedAll_eq_map]
      have hclose := Reader.arrives_feed hinner.mode (hlist _) nofun (complete_ne_refused _ _ stack)
      rw [List.cons_append, List.foldl_cons, List.foldl_append, List.foldl_cons, List.foldl_nil]
      exact hinner.trans hclose

/-- What is spelled in an open list on one line becomes its next items. -/
theorem Elements.arrives {ts : List Token} {es : List Expr} (h : Elements lenient ts es)
    {r : Reader} {opened : Int} {items : List Expr} {stack : List Pending}
    (hmode : r.mode = .reading (.list opened items :: stack)) :
    r.Arrives (.reading (.list opened
        ((es.map (Expr.relined (some r.parser.line))).reverse ++ items) :: stack))
      (ts.foldl (Reader.feed lenient) r) := by
  match h with
  | .nil => exact Reader.arrives_self hmode
  | .cons hhead htail =>
      -- The first item is handed to the list, so the others go on from there.
      have hfirst := hhead.arrives hmode
      have hrest := htail.arrives hfirst.mode
      rw [hfirst.line] at hrest
      rw [List.foldl_append, List.map_cons, List.reverse_cons, List.append_assoc,
        List.singleton_append]
      exact hfirst.trans hrest

end

end Grammar

/-- A reader between two forms. -/
structure Reader.Between (r : Reader) (line : Int) (forms : List Form)
    (problems : List Diagnostic) : Prop where
  line : r.parser.line = line
  forms : r.forms = forms
  diagnostics : r.parser.diagnostics = problems
  mode : r.mode = .reading []

namespace Reader.Between

variable {r : Reader} {line : Int} {forms : List Form} {problems : List Diagnostic} {lenient : Bool}

theorem close (h : r.Between line forms problems) : r.close.diagnostics = problems := by
  simp only [Reader.close, h.mode]
  exact h.diagnostics

theorem newline (h : r.Between line forms problems) :
    (r.feed lenient .newline).Between (line + 1) forms problems := by
  have hresume : r.mode.resume? .newline = some [] := by rw [h.mode]; rfl
  simp only [Reader.feed, hresume, ListLang.feed]
  exact ⟨congrArg (· + 1) h.line, h.forms, h.diagnostics, rfl⟩

theorem element (h : r.Between line forms problems) {ts : List Token} {e : Expr}
    (he : Grammar.Element lenient ts e) :
    (ts.foldl (Reader.feed lenient) r).Between line
      (forms ++ [⟨e.relined (some line), line⟩]) problems := by
  have harrives := he.arrives h.mode
  refine ⟨harrives.line.trans h.line, harrives.forms.trans ?_, harrives.clean.trans h.diagnostics,
    harrives.mode⟩
  rw [h.forms, h.line]
  rfl

/-- Expressions on lines of their own are read one after another, each with its
    line throughout. -/
theorem elements (h : r.Between line forms problems) {tokens : List (List Token)} {es : List Expr}
    (hes : List.Forall₂ (Grammar.Element lenient) tokens es) :
    ∃ last, (([Token.newline].intercalate tokens).foldl (Reader.feed lenient) r).Between last
      (forms ++ es.mapIdx fun i e => ⟨e.relined (some (line + i)), line + i⟩) problems := by
  induction hes generalizing r line forms with
  | nil =>
      refine ⟨line, ?_⟩
      rw [List.mapIdx_nil, List.append_nil]
      exact h
  | @cons ts e tokens es hhead htail ih =>
      have hfirst := h.element hhead
      have hforms : ∀ rest : List Form, forms ++ [⟨e.relined (some line), line⟩] ++ rest =
          forms ++ ⟨e.relined (some (line + (0 : Nat))), line + (0 : Nat)⟩ :: rest := by simp
      cases htail with
      | nil =>
          refine ⟨line, ?_⟩
          rw [List.intercalate_singleton, List.mapIdx_singleton, ← hforms, List.append_nil]
          exact hfirst
      | cons hnext hrest =>
          rcases ih hfirst.newline with ⟨last, hlast⟩
          refine ⟨last, ?_⟩
          rw [hforms] at hlast
          rw [List.intercalate_cons_cons, List.append_assoc, List.foldl_append,
            List.singleton_append, List.foldl_cons, List.mapIdx_cons]
          have hline : ∀ i : Nat, line + 1 + i = line + (i + 1 : Nat) := by omega
          simp only [hline] at hlast
          exact hlast

end Reader.Between

/-! ### Programs -/

/-- Expressions on lines of their own are a program. -/
theorem parseTokens_lines {lenient : Bool} {tokens : List (List Token)} {es : List Expr}
    (h : List.Forall₂ (Grammar.Element lenient) tokens es) :
    parseTokens lenient ([Token.newline].intercalate tokens) =
      (es.mapIdx fun i e => ⟨e.relined (some (i + 1)), i + 1⟩, []) := by
  have hstart : Reader.Between { parser := Parser.ofTokens ([Token.newline].intercalate tokens) }
      1 [] [] := ⟨rfl, rfl, rfl, rfl⟩
  rcases hstart.elements h with ⟨last, hlast⟩
  simp only [Int.add_comm 1, List.nil_append] at hlast
  exact Prod.ext hlast.forms hlast.close

/-- What can be printed is read back, with one expression on each line. -/
theorem parse_lines {lenient : Bool} {es : List Expr} {tokens : List (List Token)}
    (h : List.Forall₂ (Printed lenient) es tokens) :
    parse lenient ("\n".intercalate (es.map Expr.text)) =
      .ok (es.mapIdx fun i e => ⟨e.relined (some (i + 1)), i + 1⟩, []) := by
  have htexts : List.Forall₂ Reads ((es.map Expr.text).map String.toList) tokens := by
    rw [List.map_map]
    exact List.forall₂_map_left_iff.mpr (h.imp fun _ _ hprinted => hprinted.reads)
  have hbreak : delimiter? '\n' = some (some .newline) := rfl
  have htokens : tokenize ("\n".intercalate (es.map Expr.text)) =
      .ok ([Token.newline].intercalate tokens) := by
    rw [tokenize, String.toList_intercalate]
    exact Reads.intercalate htexts hbreak
  have hspelled : List.Forall₂ (Grammar.Element lenient) tokens es :=
    (h.imp fun _ _ hprinted => hprinted.element).flip
  rw [parse, htokens, Except.map, parseTokens_lines hspelled]

/-- A program that is read without problems is spelled by its tokens, line breaks
    left out. -/
theorem elements_of_parse {lenient : Bool} {source : String} {forms : List Form}
    (h : parse lenient source = .ok (forms, [])) :
    ∃ tokens, Reads source.toList tokens ∧
      Grammar.Elements lenient (tokens.filter (· ≠ .newline))
        (forms.map fun form => form.expr.relined none) := by
  unfold parse at h
  cases htokens : tokenize source with
  | error e =>
      rw [htokens] at h
      cases h
  | ok tokens =>
      rw [htokens] at h
      have hparse : parseTokens lenient tokens = (forms, []) := Except.ok.inj h
      refine ⟨tokens, htokens, ?_⟩
      rw [← Grammar.takeAll_iff_elements (by simp), Outline.takeAll_filter_newline,
        ← parseTokens_iff_takeAll, hparse]
      exact ⟨rfl, rfl⟩

/-- A program that is read without problems and has no reals can be printed. -/
theorem printed_of_parse {lenient : Bool} {source : String} {forms : List Form}
    (h : parse lenient source = .ok (forms, []))
    (hreal : ∀ form ∈ forms, form.expr.hasReal = false) :
    ∃ tokens, List.Forall₂ (Printed lenient)
      (forms.map fun form => form.expr.relined none) tokens := by
  rcases elements_of_parse h with ⟨tokens, hreads, helements⟩
  refine helements.printed ?_ fun t ht hnot => ?_
  · intro e he
    rcases List.mem_map.mp he with ⟨form, hform, rfl⟩
    exact (Expr.hasReal_relined none form.expr).mpr (hreal form hform)
  · rcases List.mem_filter.mp ht with ⟨hmem, hbreak⟩
    exact hreads.text_of_mem hmem (by simpa using hbreak) hnot

/-- Printing and reading back is the identity: a program that is read without
    problems and has no real literals is read again from the texts of its
    expressions, one on each line. All expressions can be written, and as data
    they have the same texts. -/
theorem parse_printed {lenient : Bool} {source : String} {forms : List Form}
    (h : parse lenient source = .ok (forms, []))
    (hreal : ∀ form ∈ forms, form.expr.hasReal = false) :
    parse lenient ("\n".intercalate (forms.map fun form => form.expr.text)) =
        .ok (forms.mapIdx fun i form => ⟨form.expr.relined (some (i + 1)), i + 1⟩, []) ∧
      ∀ form ∈ forms, form.expr.text? = some form.expr.text ∧
        form.expr.quoted.text? = some form.expr.text := by
  rcases printed_of_parse h hreal with ⟨tokens, hprinted⟩
  have hall := forall_mem_of_forall₂ hprinted.flip fun _ _ _ hprinted => hprinted.writable
  have hwritten : ∀ form ∈ forms, form.expr.text? = some form.expr.text ∧
      form.expr.quoted.text? = some form.expr.text := by
    intro form hform
    have hwritable : form.expr.isWritable = true := by
      rw [← form.expr.isWritable_relined none]
      exact hall _ (List.mem_map_of_mem hform)
    simp only [Expr.text?, Value.text?, Expr.isWritable_quoted, hwritable, ↓reduceIte,
      Expr.text_quoted, and_self]
  refine ⟨?_, hwritten⟩
  have hread := parse_lines hprinted
  -- Lines are neither printed nor kept, so it makes no difference that there are none.
  have htexts : (forms.map fun form => form.expr.relined none).map Expr.text =
      forms.map fun form => form.expr.text := by
    simp only [List.map_map, Function.comp_def, Expr.text_relined]
  rw [htexts] at hread
  rw [hread]
  refine congrArg Except.ok (Prod.ext (List.ext_getElem? fun i => ?_) rfl)
  simp only [List.getElem?_mapIdx, List.getElem?_map, Option.map_map, Function.comp_def,
    Expr.relined_relined]

/-- A form over two lines and another after it, with a word that is no name and
    integers that are not written as they are printed. -/
def tangledText : String := "(f1\n '(+007 -0 ())) null"

/-- The forms of that text. -/
def tangledForms : List Form :=
  [⟨.list (some 1) [.atom (some 1) "f1",
      .list (some 2) [.atom (some 2) "quote",
        .list (some 2) [.integer (some 2) 7, .integer (some 2) 0, .list (some 2) []]]], 1⟩,
    ⟨.null (some 2), 2⟩]

theorem parse_printed_tangledText :
    parse true tangledText = .ok (tangledForms, []) ∧
      (∀ form ∈ tangledForms, form.expr.hasReal = false) ∧
      parse true ("\n".intercalate (tangledForms.map fun form => form.expr.text)) =
        .ok (tangledForms.mapIdx fun i form => ⟨form.expr.relined (some (i + 1)), i + 1⟩, []) ∧
      ∀ form ∈ tangledForms, form.expr.text? = some form.expr.text ∧
        form.expr.quoted.text? = some form.expr.text := by
  have hparse : parse true tangledText = .ok (tangledForms, []) := by rfl
  have hreal : ∀ form ∈ tangledForms, form.expr.hasReal = false := by decide
  exact ⟨hparse, hreal, parse_printed hparse hreal⟩

end ListLang
