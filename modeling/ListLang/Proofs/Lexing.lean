import Mathlib.Algebra.Group.Nat.Defs
import Mathlib.Data.List.Forall2
import ListLang.Proofs.Numerals
import ListLang.Token.Lexer

/-!
# Cutting and Spelling

What the tokens of a text depend on. A text may be cut at any delimiter: what
stands before it and what stands after it have their tokens independently of
each other. So the tokens of texts joined by a delimiter are the tokens of the
texts, with that of the delimiter between them.

A token has a text, and that text reads as the same token again, although it
need not be the text that the token was read from: an integer may have been
written with a plus sign or with zeros in front, which its own text lacks. Reals
are left out, since nothing is known here about how they are written.

## Main definitions

* `IsWord`: Characters that make one word.
* `Reads`: A text has certain tokens.
* `Token.Verbatim`: A token that stands for a word as it is.

## Theorems

* `lexemesFrom_append`, `tokens_cut`: Cutting a text at a delimiter.
* `Reads.cut`, `Reads.intercalate`: The tokens of texts with delimiters between
  them.
* `Numeral.read?_digits`, `Numeral.read?_toString`: Digits are read as the number
  that they denote.
* `Token.ofWord_of_read?`, `Token.ofWord_of_read?_none`: The token of a word that is
  a numeral, and of one that is not.
* `Reads.text_of_mem`: The text of a token reads as that token.
-/

namespace ListLang

/-! ### Delimiters -/

theorem finishWord_append (word : List Char) (rest more : List Lexeme) :
    finishWord word (rest ++ more) = finishWord word rest ++ more := by
  unfold finishWord
  split <;> rfl

/-- A text may be cut at any delimiter. -/
theorem lexemesFrom_append {c : Char} {mark : Option Token} (hc : delimiter? c = some mark)
    (word before after : List Char) :
    lexemesFrom word (before ++ c :: after) =
      lexemesFrom word before ++ (mark.toList.map Lexeme.mark ++ lexemesFrom [] after) := by
  induction before generalizing word with
  | nil =>
      rw [List.nil_append, lexemesFrom, lexemesFrom, ← finishWord_append, hc]
      cases mark <;> rfl
  | cons d before ih =>
      rw [List.cons_append, lexemesFrom, lexemesFrom]
      cases delimiter? d with
      | none => exact ih (d :: word)
      | some mark? =>
          cases mark? with
          | none => simp only [ih, finishWord_append]
          | some token =>
              simp only [ih, ← List.cons_append, finishWord_append]

/-- Characters that make one word: there are some, and none is a delimiter. -/
structure IsWord (cs : List Char) : Prop where
  ne_nil : cs ≠ []
  inside : ∀ c ∈ cs, delimiter? c = none

theorem lexemesFrom_of_inside {cs : List Char} (h : ∀ c ∈ cs, delimiter? c = none)
    (word : List Char) : lexemesFrom word cs = finishWord (cs.reverse ++ word) [] := by
  induction cs generalizing word with
  | nil => rfl
  | cons c cs ih =>
      have hc := h c List.mem_cons_self
      rw [lexemesFrom, hc, List.reverse_cons, List.append_assoc]
      exact ih (fun d hd => h d (List.mem_cons_of_mem _ hd)) (c :: word)

theorem IsWord.lexemes_eq {cs : List Char} (h : IsWord cs) : lexemes cs = [.word cs] := by
  have hne : cs.reverse ≠ [] := fun hnil => h.ne_nil (List.reverse_eq_nil_iff.mp hnil)
  rw [lexemes, lexemesFrom_of_inside h.inside, List.append_nil, finishWord,
    List.isEmpty_eq_false_iff.mpr hne, List.reverse_reverse]
  rfl

/-- What a lexeme is made of: the token of some delimiter, or a word. -/
def Lexeme.Formed : Lexeme → Prop
  | .mark token => ∃ c, delimiter? c = some (some token)
  | .word cs => IsWord cs

/-- A text is cut into delimiters and words. -/
theorem formed_of_mem_lexemesFrom {word : List Char} (hword : ∀ c ∈ word, delimiter? c = none)
    {cs : List Char} : ∀ lexeme ∈ lexemesFrom word cs, lexeme.Formed := by
  have hfinish : ∀ word : List Char, (∀ c ∈ word, delimiter? c = none) → ∀ rest : List Lexeme,
      (∀ lexeme ∈ rest, lexeme.Formed) → ∀ lexeme ∈ finishWord word rest, lexeme.Formed := by
    intro word hword rest hrest lexeme hmem
    unfold finishWord at hmem
    split at hmem
    · exact hrest lexeme hmem
    · rename_i hne
      rcases List.mem_cons.mp hmem with rfl | hmem
      · refine ⟨?_, fun c hc => hword c (List.mem_reverse.mp hc)⟩
        simpa using hne
      · exact hrest lexeme hmem
  induction cs generalizing word with
  | nil => exact hfinish word hword [] nofun
  | cons c cs ih =>
      rw [lexemesFrom]
      cases hc : delimiter? c with
      | none =>
          refine ih fun d hd => ?_
          rcases List.mem_cons.mp hd with rfl | hd
          · exact hc
          · exact hword d hd
      | some mark =>
          have hrest := @ih [] nofun
          cases mark with
          | none => exact hfinish word hword _ hrest
          | some token =>
              refine hfinish word hword _ fun lexeme hmem => ?_
              rcases List.mem_cons.mp hmem with rfl | hmem
              · exact ⟨c, hc⟩
              · exact hrest lexeme hmem

/-! ### The Tokens of a Text -/

/-- A text has certain tokens. -/
def Reads (cs : List Char) (tokens : List Token) : Prop :=
  (lexemes cs).mapM Lexeme.token = .ok tokens

theorem Reads.nil : Reads [] [] := rfl

/-- A word has one token. -/
theorem IsWord.reads {cs : List Char} (h : IsWord cs) {t : Token} (ht : Token.ofWord cs = .ok t) :
    Reads cs [t] := by
  rw [Reads, h.lexemes_eq, List.mapM_cons, Lexeme.token, ht]
  rfl

/-- The tokens on both sides of a delimiter are independent of each other. -/
theorem tokens_cut {c : Char} {mark : Option Token} (hc : delimiter? c = some mark)
    (before after : List Char) :
    (lexemes (before ++ c :: after)).mapM Lexeme.token = do
      let ts ← (lexemes before).mapM Lexeme.token
      let us ← (lexemes after).mapM Lexeme.token
      return ts ++ (mark.toList ++ us) := by
  have hmark : (mark.toList.map Lexeme.mark).mapM Lexeme.token = .ok mark.toList := by
    cases mark <;> rfl
  simp only [lexemes, lexemesFrom_append hc, List.mapM_append, hmark]
  cases (lexemesFrom [] before).mapM Lexeme.token with
  | error e => rfl
  | ok ts => cases (lexemesFrom [] after).mapM Lexeme.token <;> rfl

theorem Reads.cut {before after : List Char} {ts us : List Token} (hbefore : Reads before ts)
    (hafter : Reads after us) {c : Char} {mark : Option Token} (hc : delimiter? c = some mark) :
    Reads (before ++ c :: after) (ts ++ (mark.toList ++ us)) := by
  rw [Reads] at *
  rw [tokens_cut hc, hbefore, hafter]
  rfl

/-- The tokens of texts with a delimiter between them. -/
theorem Reads.intercalate {texts : List (List Char)} {tokens : List (List Token)}
    (h : List.Forall₂ Reads texts tokens) {c : Char} {mark : Option Token}
    (hc : delimiter? c = some mark) :
    Reads ([c].intercalate texts) (mark.toList.intercalate tokens) := by
  induction h with
  | nil => exact .nil
  | @cons text ts texts tokens hhead htail ih =>
      cases htail with
      | nil =>
          rw [List.intercalate_singleton, List.intercalate_singleton]
          exact hhead
      | cons hnext hrest =>
          rw [List.intercalate_cons_cons, List.intercalate_cons_cons, List.append_assoc,
            List.append_assoc]
          exact hhead.cut ih hc

theorem exists_of_mem_mapM {ls : List Lexeme} {tokens : List Token}
    (h : ls.mapM Lexeme.token = .ok tokens) {t : Token} (ht : t ∈ tokens) :
    ∃ lexeme ∈ ls, lexeme.token = .ok t := by
  induction ls generalizing tokens with
  | nil =>
      cases h
      cases ht
  | cons lexeme ls ih =>
      rw [List.mapM_cons] at h
      cases hhead : lexeme.token with
      | error e =>
          rw [hhead] at h
          cases h
      | ok u =>
          rw [hhead] at h
          cases htail : ls.mapM Lexeme.token with
          | error e =>
              rw [htail] at h
              cases h
          | ok us =>
              rw [htail] at h
              cases h
              rcases List.mem_cons.mp ht with rfl | ht
              · exact ⟨lexeme, List.mem_cons_self, hhead⟩
              · rcases ih htail ht with ⟨found, hfound, htoken⟩
                exact ⟨found, List.mem_cons_of_mem _ hfound, htoken⟩

/-- Every token of a text is that of a delimiter or of a word. -/
theorem Reads.formed_of_mem {cs : List Char} {tokens : List Token} (h : Reads cs tokens) {t : Token}
    (ht : t ∈ tokens) :
    (∃ c, delimiter? c = some (some t)) ∨ ∃ word, IsWord word ∧ Token.ofWord word = .ok t := by
  rcases exists_of_mem_mapM h ht with ⟨lexeme, hmem, htoken⟩
  have hformed := @formed_of_mem_lexemesFrom [] nofun cs lexeme hmem
  cases lexeme with
  | mark token =>
      cases htoken
      exact .inl hformed
  | word cs => exact .inr ⟨cs, hformed, htoken⟩

/-- The tokens of the delimiters. -/
theorem token_of_delimiter? {c : Char} {t : Token} (h : delimiter? c = some (some t)) :
    t = .newline ∨ t = .lparen ∨ t = .rparen ∨ t = .quote := by
  unfold delimiter? at h
  repeat' split at h
  all_goals cases h
  all_goals simp

/-! ### Digits -/

theorem toNat_of_isDigit {c : Char} (h : c.isDigit = true) : 48 ≤ c.toNat ∧ c.toNat < 58 := by
  simp only [Char.isDigit, Bool.and_eq_true, decide_eq_true_eq, ge_iff_le,
    UInt32.le_iff_toNat_le] at h
  exact ⟨h.1, Nat.lt_succ_of_le h.2⟩

theorem delimiter?_of_isDigit {c : Char} (h : c.isDigit = true) : delimiter? c = none := by
  have hall : ∀ n < 58, 48 ≤ n → delimiter? (Char.ofNat n) = none := by decide
  rcases toNat_of_isDigit h with ⟨hlow, hhigh⟩
  rw [← Char.ofNat_toNat c]
  exact hall c.toNat hhigh hlow

/-- So many digits denote a number below that power of ten. -/
theorem Numeral.digitsValue_lt {ds : List Char} (h : ∀ c ∈ ds, c.isDigit = true) :
    digitsValue ds < 10 ^ ds.length := by
  change Nat.ofDigitChars 10 ds 0 < 10 ^ ds.length
  induction ds with
  | nil => decide
  | cons c ds ih =>
      have htail := ih fun d hd => h d (List.mem_cons_of_mem _ hd)
      have hdigit : c.toNat - '0'.toNat + 1 ≤ 10 := by
        have hzero : '0'.toNat = 48 := rfl
        have hbounds := toNat_of_isDigit (h c List.mem_cons_self)
        omega
      rw [Nat.ofDigitChars_cons, Nat.ofDigitChars_eq_ofDigitChars_zero, List.length_cons,
        Nat.mul_zero, Nat.zero_add, Nat.pow_succ]
      calc 10 ^ ds.length * (c.toNat - '0'.toNat) + Nat.ofDigitChars 10 ds 0
          < 10 ^ ds.length * (c.toNat - '0'.toNat + 1) := by rw [Nat.mul_add_one]; omega
        _ ≤ 10 ^ ds.length * 10 := Nat.mul_le_mul_left _ hdigit

/-- The sign of a number as it is written. -/
def signChars (negative : Bool) : List Char :=
  if negative then ['-'] else []

theorem signText_signChars (negative : Bool) : SignText negative (signChars negative) := by
  cases negative with
  | true => exact .minus
  | false => exact .absent

/-- Digits are read as the number that they denote. -/
theorem Numeral.read?_digits {ds : List Char} (hne : ds ≠ []) (h : ∀ c ∈ ds, c.isDigit = true)
    (negative : Bool) : read? (signChars negative ++ ds) = some ⟨negative, ds, none, none⟩ :=
  read?_eq_some_iff.mpr (integerText_iff_written.mp ⟨signText_signChars negative, hne, h⟩)

/-- The text of an integer is its sign and its digits. -/
theorem toList_toString (n : Int) :
    (toString n).toList = signChars (decide (n < 0)) ++ Nat.toDigits 10 n.natAbs := by
  cases n with
  | ofNat m =>
      have hsign : decide (Int.ofNat m < 0) = false := by
        simp only [decide_eq_false_iff_not]
        exact Int.not_lt.mpr (Int.natCast_nonneg m)
      rw [hsign]
      exact Nat.toList_repr
  | negSucc m =>
      have hsign : decide (Int.negSucc m < 0) = true := by
        simp only [decide_eq_true_eq]
        exact Int.negSucc_lt_zero m
      rw [hsign]
      have happend : (toString (Int.negSucc m)).toList = "-".toList ++ (m + 1).repr.toList :=
        String.toList_append
      rw [happend, Nat.toList_repr]
      rfl

/-- Names contain no digits. -/
theorem isReserved_of_digit {s : String} (h : s.toList.any Char.isDigit = true) :
    Token.isReserved s = false := by
  have hspecial : ∀ f ∈ SpecialForm.all, f.name.toList.any Char.isDigit = false := by decide
  have hbuiltin : ∀ b ∈ Builtin.all, b.name.toList.any Char.isDigit = false := by decide
  unfold Token.isReserved
  cases hf : SpecialForm.ofName? s with
  | some f =>
      have hname := hspecial f f.mem_all
      rw [SpecialForm.name_of_ofName? hf, h] at hname
      cases hname
  | none =>
      cases hb : Builtin.ofName? s with
      | some b =>
          have hname := hbuiltin b b.mem_all
          rw [Builtin.name_of_ofName? hb, h] at hname
          cases hname
      | none => rfl

/-! ### Classifying Words -/

/-- A token that stands for a word as it is: a literal other than a number, a name,
    or a word that is unknown. -/
inductive Token.Verbatim : Token → Prop where
  | boolean (value : Bool) : Verbatim (.boolean value)
  | null : Verbatim .null
  | keyword (name : String) : Verbatim (.keyword name)
  | identifier (name : String) : Verbatim (.identifier name)
  | unknown (text : String) : Verbatim (.unknown text)

/-- A word that is a numeral has the token of that numeral: it is no literal of
    another kind and no reserved name, since these have no digits. -/
theorem Token.ofWord_of_read? {cs : List Char} {n : Numeral} (h : Numeral.read? cs = some n) :
    Token.ofWord cs = Token.ofNumeral n := by
  have hdigit : (String.ofList cs).toList.any Char.isDigit = true := by
    rw [String.toList_ofList]
    exact List.any_eq_true.mpr (Numeral.read?_eq_some_iff.mp h).exists_digit
  have hne : ∀ s : String, s.toList.any Char.isDigit = false → String.ofList cs ≠ s := by
    intro s hs heq
    rw [heq, hs] at hdigit
    cases hdigit
  simp only [Token.ofWord, if_neg (hne "true" (by decide)), if_neg (hne "false" (by decide)),
    if_neg (hne "null" (by decide)), isReserved_of_digit hdigit, h]
  rfl

/-- Any other word has a token that stands for it as it is. -/
theorem Token.ofWord_of_read?_none {cs : List Char} (h : Numeral.read? cs = none) :
    ∃ t, Token.ofWord cs = .ok t ∧ t.Verbatim ∧ t.text = String.ofList cs := by
  simp only [Token.ofWord, h]
  split
  · rename_i htrue
    exact ⟨_, rfl, .boolean true, htrue.symm⟩
  split
  · rename_i hfalse
    exact ⟨_, rfl, .boolean false, hfalse.symm⟩
  split
  · rename_i hnull
    exact ⟨_, rfl, .null, hnull.symm⟩
  split
  · exact ⟨_, rfl, .keyword _, rfl⟩
  split
  · exact ⟨_, rfl, .identifier _, rfl⟩
  · exact ⟨_, rfl, .unknown _, rfl⟩

/-! ### Spelling -/

theorem isWord_toString (n : Int) : IsWord (toString n).toList := by
  rw [toList_toString]
  refine ⟨List.append_ne_nil_of_right_ne_nil _ Nat.toDigits_ne_nil, fun c hc => ?_⟩
  rcases List.mem_append.mp hc with hsign | hdigit
  · unfold signChars at hsign
    split at hsign
    · rw [List.mem_singleton.mp hsign]
      decide
    · cases hsign
  · exact delimiter?_of_isDigit (Nat.isDigit_of_mem_toDigits (by decide) (by decide) hdigit)

theorem Numeral.read?_toString (n : Int) :
    read? (toString n).toList = some ⟨decide (n < 0), Nat.toDigits 10 n.natAbs, none, none⟩ := by
  rw [toList_toString]
  exact read?_digits Nat.toDigits_ne_nil
    (fun c hc => Nat.isDigit_of_mem_toDigits (by decide) (by decide) hc) _

theorem Numeral.integer_toDigits (n : Int) :
    integer ⟨decide (n < 0), Nat.toDigits 10 n.natAbs, none, none⟩ = n := by
  have hvalue : digitsValue (Nat.toDigits 10 n.natAbs) = n.natAbs := Nat.ofDigitChars_ten_toDigits
  simp only [integer, signed, hvalue, decide_eq_true_eq]
  split <;> omega

/-- The text of an integer is read as that integer, unless it is too long. -/
theorem Token.ofWord_toString (n : Int) : Token.ofWord (toString n).toList =
    if isWritable n then .ok (.integer n)
    else .error (.tooManyDigits (Nat.toDigits 10 n.natAbs).length) := by
  simp only [Token.ofWord_of_read? (Numeral.read?_toString n), Token.ofNumeral, Numeral.isInteger,
    Numeral.integer_toDigits, isWritable, decide_eq_true_eq]
  by_cases hlength : (Nat.toDigits 10 n.natAbs).length ≤ digitLimit
  · rw [if_pos hlength, if_neg (Nat.not_lt.mpr hlength)]
    rfl
  · rw [if_neg hlength, if_pos (Nat.not_le.mp hlength)]
    rfl

theorem reads_toString_iff (n : Int) :
    Reads (toString n).toList [.integer n] ↔ isWritable n = true := by
  constructor
  · intro h
    rw [Reads, (isWord_toString n).lexemes_eq, List.mapM_cons, Lexeme.token,
      Token.ofWord_toString] at h
    cases hn : isWritable n with
    | true => rfl
    | false =>
        rw [hn] at h
        cases h
  · intro hn
    refine (isWord_toString n).reads ?_
    rw [Token.ofWord_toString, if_pos hn]

/-- A numeral is an integer of limited length or a real. -/
theorem token_of_ofNumeral {word : List Char} {m : Numeral} (hread : Numeral.read? word = some m)
    {t : Token} (h : Token.ofNumeral m = .ok t) :
    (∃ n : Int, t = .integer n ∧ isWritable n = true) ∨ ∃ x, t = .real x := by
  unfold Token.ofNumeral at h
  split at h
  · split at h
    · cases h
    · rename_i hlength
      cases h
      have habs : m.integer.natAbs = Numeral.digitsValue m.whole := by
        unfold Numeral.integer Numeral.signed
        split <;> omega
      refine .inl ⟨m.integer, rfl, decide_eq_true ?_⟩
      rw [habs, Nat.length_toDigits_le_iff (by decide) (by decide)]
      have hwhole := (Numeral.read?_eq_some_iff.mp hread).isDigit_of_mem_whole
      exact Nat.lt_of_lt_of_le (Numeral.digitsValue_lt hwhole)
        (Nat.pow_le_pow_right (by decide) (Nat.not_lt.mp hlength))
  · cases h
    exact .inr ⟨_, rfl⟩

/-- A word is the text of its token, unless that is a number. -/
theorem text_of_ofWord {word : List Char} {t : Token} (h : Token.ofWord word = .ok t) :
    t.text.toList = word ∨ (∃ n : Int, t = .integer n ∧ isWritable n = true) ∨
      ∃ x, t = .real x := by
  cases hread : Numeral.read? word with
  | some m =>
      rw [Token.ofWord_of_read? hread] at h
      exact .inr (token_of_ofNumeral hread h)
  | none =>
      rcases Token.ofWord_of_read?_none hread with ⟨u, hu, _, htext⟩
      rw [hu] at h
      cases h
      refine .inl ?_
      rw [htext, String.toList_ofList]

/-- The text of a token reads as that token, though a line break has no text and
    a real may have another. -/
theorem Reads.text_of_mem {cs : List Char} {tokens : List Token} (h : Reads cs tokens) {t : Token}
    (ht : t ∈ tokens) (hbreak : t ≠ .newline) (hreal : ∀ x, t ≠ .real x) :
    Reads t.text.toList [t] := by
  rcases h.formed_of_mem ht with ⟨c, hc⟩ | ⟨word, hword, htoken⟩
  · rcases token_of_delimiter? hc with rfl | rfl | rfl | rfl
    · exact absurd rfl hbreak
    · rfl
    · rfl
    · rfl
  · rcases text_of_ofWord htoken with htext | ⟨n, rfl, hn⟩ | ⟨x, rfl⟩
    · rw [htext]
      exact hword.reads htoken
    · exact (reads_toString_iff n).mpr hn
    · exact absurd rfl (hreal x)

end ListLang
