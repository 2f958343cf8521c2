import Mathlib.Data.Nat.Digits.Defs
import ListLang.Proofs.Lexing

/-!
# Words and Delimiters

The two laws of how a text becomes tokens.

The first is about delimiters. A text has the tokens of what stands before a
delimiter, the token of the delimiter if it has one, and the tokens of what stands
after it, wherever the delimiter is: at an end of the text, among others of its
kind, or right after a word. Cutting a text at all its delimiters leaves words and
nothing else, and no word gives a line break. So there are as many of those among
the tokens as in the text.

The second is about words. A word is an integer if it is a sign, which may be left
out, and digits; any other numeral is a real. A word that is no numeral keeps its
text, whatever kind of token it is.

## Main definitions

* `Delimits`: The tokens of a delimiter.
* `baseTen`: The integer that a sign and digits denote.

## Theorems

* `Reads.of_cut`: The parts of a text that has tokens have tokens.
* `Reads.count_newline`: The line breaks of a text are those of its tokens.
* `tokenize_at_delimiter`: The law of delimiters.
* `Numeral.integer_eq_baseTen`: An integer is read in base ten.
* `word_classified`: The law of words.
-/

namespace ListLang

/-! ### Delimiters -/

/-- The tokens of a delimiter: one for a line break, a parenthesis or a quote mark,
    and none for any other blank. -/
inductive Delimits : Char → List Token → Prop where
  | lineBreak : Delimits '\n' [.newline]
  | opening : Delimits '(' [.lparen]
  | closing : Delimits ')' [.rparen]
  | quoteMark : Delimits singleQuote [.quote]
  | blank {c : Char} (hblank : isBlank c = true) (hbreak : c ≠ '\n') : Delimits c []

theorem Delimits.delimiter? {c : Char} {marks : List Token} (h : Delimits c marks) :
    ∃ mark, delimiter? c = some mark ∧ mark.toList = marks := by
  cases h with
  | lineBreak => exact ⟨_, rfl, rfl⟩
  | opening => exact ⟨_, rfl, rfl⟩
  | closing => exact ⟨_, rfl, rfl⟩
  | quoteMark => exact ⟨_, rfl, rfl⟩
  | blank hblank hbreak =>
      refine ⟨none, ?_, rfl⟩
      simp only [ListLang.delimiter?, if_neg hbreak, if_pos hblank]

/-- The parts of a text that has tokens have tokens. -/
theorem Reads.of_cut {before after : List Char} {tokens : List Token} {c : Char}
    {mark : Option Token} (hc : delimiter? c = some mark)
    (h : Reads (before ++ c :: after) tokens) :
    ∃ ts us, Reads before ts ∧ Reads after us ∧ tokens = ts ++ (mark.toList ++ us) := by
  unfold Reads at *
  rw [tokens_cut hc] at h
  cases hbefore : (lexemes before).mapM Lexeme.token with
  | error e =>
      rw [hbefore] at h
      cases h
  | ok ts =>
      cases hafter : (lexemes after).mapM Lexeme.token with
      | error e =>
          rw [hbefore, hafter] at h
          cases h
      | ok us =>
          rw [hbefore, hafter] at h
          cases h
          exact ⟨ts, us, rfl, rfl, rfl⟩

/-- A text has no delimiter, or it can be cut at one. -/
theorem exists_delimiter (cs : List Char) :
    (∀ c ∈ cs, delimiter? c = none) ∨
      ∃ before c after mark, cs = before ++ c :: after ∧ delimiter? c = some mark := by
  by_cases hall : ∀ c ∈ cs, delimiter? c = none
  · exact .inl hall
  · simp only [not_forall] at hall
    rcases hall with ⟨c, hc, hsome⟩
    rcases Option.ne_none_iff_exists'.mp hsome with ⟨mark, hmark⟩
    rcases List.append_of_mem hc with ⟨before, after, hcs⟩
    exact .inr ⟨before, c, after, mark, hcs, hmark⟩

theorem Token.ofWord_ne_newline (cs : List Char) : Token.ofWord cs ≠ .ok .newline := by
  intro h
  cases hread : Numeral.read? cs with
  | none =>
      rcases Token.ofWord_of_read?_none hread with ⟨t, ht, hverbatim, _⟩
      rw [ht] at h
      cases h
      cases hverbatim
  | some n =>
      rw [Token.ofWord_of_read? hread] at h
      rcases token_of_ofNumeral hread h with ⟨_, hinteger, _⟩ | ⟨_, hreal⟩
      · cases hinteger
      · cases hreal

theorem count_newline_delimiter {c : Char} {mark : Option Token} (hc : delimiter? c = some mark) :
    mark.toList.count .newline = [c].count '\n' := by
  by_cases hbreak : c = '\n'
  · rw [hbreak] at hc ⊢
    cases hc
    rfl
  · -- No other delimiter is a line break, nor is its token.
    have hmark : .newline ∉ mark.toList := by
      intro hmem
      rw [Option.mem_toList.mp hmem] at hc
      unfold delimiter? at hc
      rw [if_neg hbreak] at hc
      repeat' split at hc
      all_goals cases hc
    rw [List.count_eq_zero_of_not_mem hmark, List.count_eq_zero_of_not_mem]
    intro hmem
    exact hbreak (List.mem_singleton.mp hmem).symm

theorem count_newline_of_inside {cs : List Char} {tokens : List Token} (h : Reads cs tokens)
    (hinside : ∀ c ∈ cs, delimiter? c = none) : tokens.count .newline = cs.count '\n' := by
  have hbreak : '\n' ∉ cs := by
    intro hmem
    cases hinside _ hmem
  rw [List.count_eq_zero_of_not_mem hbreak]
  by_cases hnil : cs = []
  · rw [hnil] at h
    cases h
    rfl
  · have hword : IsWord cs := ⟨hnil, hinside⟩
    cases htoken : Token.ofWord cs with
    | error e =>
        rw [Reads, hword.lexemes_eq, List.mapM_cons, Lexeme.token, htoken] at h
        cases h
    | ok t =>
        rw [Reads, hword.reads htoken] at h
        cases h
        refine List.count_eq_zero_of_not_mem ?_
        intro hmem
        rw [← List.mem_singleton.mp hmem] at htoken
        exact Token.ofWord_ne_newline cs htoken

/-- A text has as many line breaks as its tokens. -/
theorem Reads.count_newline {cs : List Char} {tokens : List Token} (h : Reads cs tokens) :
    tokens.count .newline = cs.count '\n' := by
  -- By induction on the length: both sides of a cut are shorter than the whole.
  induction hlength : cs.length using Nat.strong_induction_on generalizing cs tokens with
  | _ n ih =>
      rcases exists_delimiter cs with hinside | ⟨before, c, after, mark, hcs, hc⟩
      · exact count_newline_of_inside h hinside
      · subst hcs
        rcases h.of_cut hc with ⟨ts, us, hbefore, hafter, rfl⟩
        rw [List.length_append, List.length_cons] at hlength
        have hts := ih before.length (by omega) hbefore rfl
        have hus := ih after.length (by omega) hafter rfl
        rw [List.count_append, List.count_append, hts, hus, count_newline_delimiter hc,
          ← List.count_append, ← List.count_append, List.singleton_append]

/-- A text that is cut at a delimiter has the tokens of its two parts, with that of
    the delimiter between them, and it fails exactly if one of the parts does. In
    particular, no line break is lost and none is made up. -/
theorem tokenize_at_delimiter :
    (∀ (c : Char) (marks : List Token), Delimits c marks → ∀ s t : String,
      (tokenize (s ++ String.singleton c ++ t) = do
        let before ← tokenize s
        let after ← tokenize t
        return before ++ marks ++ after) ∧
      ((∃ e, tokenize (s ++ String.singleton c ++ t) = .error e) ↔
        (∃ e, tokenize s = .error e) ∨ ∃ e, tokenize t = .error e)) ∧
    ∀ (source : String) (tokens : List Token), tokenize source = .ok tokens →
      tokens.count .newline = source.toList.count '\n' := by
  refine ⟨?_, fun source tokens h => Reads.count_newline h⟩
  intro c marks hc s t
  rcases hc.delimiter? with ⟨mark, hmark, rfl⟩
  have hcut : tokenize (s ++ String.singleton c ++ t) = do
      let before ← tokenize s
      let after ← tokenize t
      return before ++ mark.toList ++ after := by
    simp only [tokenize, String.toList_append, String.toList_singleton, List.append_assoc,
      List.singleton_append, tokens_cut hmark]
  refine ⟨hcut, ?_⟩
  rw [hcut]
  cases tokenize s with
  | error e => exact iff_of_true ⟨e, rfl⟩ (.inl ⟨e, rfl⟩)
  | ok before =>
      cases tokenize t with
      | error e => exact iff_of_true ⟨e, rfl⟩ (.inr ⟨e, rfl⟩)
      | ok after =>
          refine iff_of_false ?_ ?_
          · rintro ⟨e, he⟩
            cases he
          · rintro (⟨e, he⟩ | ⟨e, he⟩)
            · cases he
            · cases he

/-- The law at a line break that stands right after a number and right before a
    blank. -/
theorem tokenize_at_delimiter_lineBreak :
    Delimits '\n' [.newline] ∧
      tokenize ("(plus +07" ++ String.singleton '\n' ++ " x)") =
        .ok [.lparen, .keyword "plus", .integer 7, .newline, .identifier "x", .rparen] ∧
      [Token.lparen, .keyword "plus", .integer 7, .newline, .identifier "x", .rparen].count
        .newline = ("(plus +07" ++ String.singleton '\n' ++ " x)").toList.count '\n' :=
  have hcut := (tokenize_at_delimiter.1 '\n' _ .lineBreak "(plus +07" " x)").1.trans rfl
  ⟨.lineBreak, hcut, tokenize_at_delimiter.2 _ _ hcut⟩

/-! ### Words -/

/-- The integer that a sign and digits denote in base ten. -/
def baseTen (negative : Bool) (ds : List Char) : Int :=
  let magnitude : Nat := Nat.ofDigits 10 (ds.reverse.map fun c => c.toNat - '0'.toNat)
  if negative then -magnitude else magnitude

theorem Numeral.eq_of_isInteger {n : Numeral} (h : n.isInteger = true) :
    n = ⟨n.negative, n.whole, none, none⟩ := by
  rcases n with ⟨negative, whole, fraction, power⟩
  simp only [isInteger, Bool.and_eq_true, Option.isNone_iff_eq_none] at h
  rw [h.1, h.2]

theorem Numeral.digitsValue_eq_ofDigits (ds : List Char) :
    digitsValue ds = Nat.ofDigits 10 (ds.reverse.map fun c => c.toNat - '0'.toNat) := by
  rw [Nat.ofDigits_eq_foldr, List.foldr_map, List.foldr_reverse]
  simp only [digitsValue, digitValue, Nat.cast_id, Nat.add_comm]

theorem Numeral.integer_eq_baseTen (n : Numeral) : n.integer = baseTen n.negative n.whole := by
  rw [integer, signed, digitsValue_eq_ofDigits]
  rfl

theorem IntegerText.ofWord {negative : Bool} {ds cs : List Char} (h : IntegerText negative ds cs) :
    Token.ofWord cs =
      if 4300 < ds.length then .error (.tooManyDigits ds.length)
      else .ok (.integer (baseTen negative ds)) := by
  have hread := Numeral.read?_eq_some_iff.mpr (integerText_iff_written.mp h)
  rw [Token.ofWord_of_read? hread, ← Numeral.integer_eq_baseTen ⟨negative, ds, none, none⟩]
  rfl

theorem Numeral.Written.ofWord {n : Numeral} {cs : List Char} (h : n.Written cs)
    (hnot : ¬ ∃ negative ds, IntegerText negative ds cs) :
    Token.ofWord cs = .ok (.real n.real) := by
  have hreal : ¬ n.isInteger = true := by
    intro hinteger
    rw [Numeral.eq_of_isInteger hinteger] at h
    exact hnot ⟨_, _, integerText_iff_written.mpr h⟩
  rw [Token.ofWord_of_read? (read?_eq_some_iff.mpr h), Token.ofNumeral, if_neg hreal]

theorem Token.ofWord_of_not_written {cs : List Char} (hnot : ¬ ∃ n : Numeral, n.Written cs) :
    ∃ t, Token.ofWord cs = .ok t ∧ t.Verbatim ∧ t.text = String.ofList cs := by
  refine Token.ofWord_of_read?_none (Option.eq_none_iff_forall_ne_some.mpr ?_)
  intro n hread
  exact hnot ⟨n, Numeral.read?_eq_some_iff.mp hread⟩

/-- What a word becomes, by how it is written. -/
inductive Classified (cs : List Char) : Except LexError Token → Prop where
  | integer {negative : Bool} {ds : List Char} (hinteger : IntegerText negative ds cs)
      (hlength : ds.length ≤ 4300) : Classified cs (.ok (.integer (baseTen negative ds)))
  | tooLong {negative : Bool} {ds : List Char} (hinteger : IntegerText negative ds cs)
      (hlength : 4300 < ds.length) : Classified cs (.error (.tooManyDigits ds.length))
  | real {n : Numeral} (hwritten : n.Written cs)
      (hnot : ¬ ∃ negative ds, IntegerText negative ds cs) : Classified cs (.ok (.real n.real))
  | verbatim {t : Token} (hnot : ¬ ∃ n : Numeral, n.Written cs) (hverbatim : t.Verbatim)
      (htext : t.text = String.ofList cs) : Classified cs (.ok t)

theorem classified_ofWord (cs : List Char) : Classified cs (Token.ofWord cs) := by
  by_cases hinteger : ∃ negative ds, IntegerText negative ds cs
  · rcases hinteger with ⟨negative, ds, hinteger⟩
    rw [hinteger.ofWord]
    split
    · rename_i hlength
      exact .tooLong hinteger hlength
    · rename_i hlength
      exact .integer hinteger (Nat.not_lt.mp hlength)
  · by_cases hwritten : ∃ n : Numeral, n.Written cs
    · rcases hwritten with ⟨n, hwritten⟩
      rw [hwritten.ofWord hinteger]
      exact .real hwritten hinteger
    · rcases Token.ofWord_of_not_written hwritten with ⟨t, ht, hverbatim, htext⟩
      rw [ht]
      exact .verbatim hwritten hverbatim htext

/-- A word is an integer exactly if it is a sign, which may be left out, and at most
    4300 digits, and then it is the integer that these denote; with more digits it
    is refused. It is a real exactly if it is any other numeral. Exactly the words
    that are no numerals keep their text. -/
theorem word_classified (cs : List Char) :
    (∀ value, Token.ofWord cs = .ok (.integer value) ↔
      ∃ negative ds, IntegerText negative ds cs ∧ ds.length ≤ 4300 ∧ value = baseTen negative ds) ∧
    (∀ error, Token.ofWord cs = .error error ↔
      ∃ negative ds, IntegerText negative ds cs ∧ 4300 < ds.length ∧
        error = .tooManyDigits ds.length) ∧
    (∀ x, Token.ofWord cs = .ok (.real x) ↔
      (¬ ∃ negative ds, IntegerText negative ds cs) ∧ ∃ n : Numeral, n.Written cs ∧ x = n.real) ∧
    ((∃ t, Token.ofWord cs = .ok t ∧ t.Verbatim ∧ t.text = String.ofList cs) ↔
      ¬ ∃ n : Numeral, n.Written cs) := by
  have hclassified := classified_ofWord cs
  refine ⟨fun value => ⟨?_, ?_⟩, fun error => ⟨?_, ?_⟩, fun x => ⟨?_, ?_⟩, ?_,
    Token.ofWord_of_not_written⟩
  · intro h
    rw [h] at hclassified
    cases hclassified with
    | integer hinteger hlength => exact ⟨_, _, hinteger, hlength, rfl⟩
    | verbatim hnot hverbatim htext => cases hverbatim
  · rintro ⟨negative, ds, hinteger, hlength, rfl⟩
    rw [hinteger.ofWord, if_neg (Nat.not_lt.mpr hlength)]
  · intro h
    rw [h] at hclassified
    cases hclassified with
    | tooLong hinteger hlength => exact ⟨_, _, hinteger, hlength, rfl⟩
  · rintro ⟨negative, ds, hinteger, hlength, rfl⟩
    rw [hinteger.ofWord, if_pos hlength]
  · intro h
    rw [h] at hclassified
    cases hclassified with
    | real hwritten hnot => exact ⟨hnot, _, hwritten, rfl⟩
    | verbatim hnot hverbatim htext => cases hverbatim
  · rintro ⟨hnot, n, hwritten, rfl⟩
    exact hwritten.ofWord hnot
  · rintro ⟨t, ht, hverbatim, _⟩
    -- The token of a numeral is a number, which no such token is.
    rw [ht] at hclassified
    cases hclassified with
    | integer _ _ => cases hverbatim
    | real _ _ => cases hverbatim
    | verbatim hnot _ _ => exact hnot

end ListLang
