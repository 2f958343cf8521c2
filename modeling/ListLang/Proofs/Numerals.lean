import Mathlib.Data.List.TakeWhile
import ListLang.Number.Numeral

/-!
# The Grammar of Numerals

How numbers are written, said by rules and not by a reader. A numeral is a sign
that may be left out, a mantissa, and a power of ten that may be left out. The
mantissa is digits with a point and perhaps more digits after them, or a point
with digits after it, or digits alone.

The reader takes the longest runs of digits it can and never goes back. That loses
nothing, since what may follow a run of digits never begins with a digit: a text
is read as a numeral exactly if the rules say that it is one, and with the same
parts. So no text is a numeral in two ways.

## Main definitions

* `Digits`: One or more digits.
* `SignText`, `MantissaText`, `PowerText`: The parts of a numeral as they are
  written.
* `Numeral.Written`: A text is a certain numeral.
* `IntegerText`: How an integer is written.

## Theorems

* `integerText_iff_written`: An integer is a numeral without point and power.
* `takeWhile_digits`, `dropWhile_digits`: A run of digits ends where it should.
* `Numeral.readPower?_eq_some_iff`: Reading a power of ten follows the rules.
* `Numeral.read?_eq_some_iff`: Reading a numeral follows the rules.
-/

namespace ListLang

/-- One or more decimal digits. -/
structure Digits (ds : List Char) : Prop where
  ne_nil : ds ≠ []
  isDigit : ∀ c ∈ ds, c.isDigit = true

/-- A sign, which may be left out; true is minus. -/
inductive SignText : Bool → List Char → Prop where
  | absent : SignText false []
  | plus : SignText false ['+']
  | minus : SignText true ['-']

/-- The digits before the point, those after it if there is a point, and how all
    of that is written. -/
inductive MantissaText : List Char → Option (List Char) → List Char → Prop where
  | pointed {ds fs : List Char} (hds : Digits ds) (hfs : ∀ c ∈ fs, c.isDigit = true) :
      MantissaText ds (some fs) (ds ++ '.' :: fs)
  | pointFirst {fs : List Char} (hfs : Digits fs) : MantissaText [] (some fs) ('.' :: fs)
  | plain {ds : List Char} (hds : Digits ds) : MantissaText ds none ds

/-- A power of ten, which may be left out, and how it is written. -/
inductive PowerText : Option TenPower → List Char → Prop where
  | absent : PowerText none []
  | written {mark : Char} {negative : Bool} {sign ds : List Char} (hmark : mark = 'e' ∨ mark = 'E')
      (hsign : SignText negative sign) (hds : Digits ds) :
      PowerText (some ⟨negative, ds⟩) (mark :: (sign ++ ds))

/-- A text is a certain numeral: sign, mantissa and power of ten, one after the
    other. -/
inductive Numeral.Written : Numeral → List Char → Prop where
  | intro {negative : Bool} {whole : List Char} {fraction : Option (List Char)}
      {power : Option TenPower} {sign mantissa exponent : List Char}
      (hsign : SignText negative sign) (hmantissa : MantissaText whole fraction mantissa)
      (hpower : PowerText power exponent) :
      Written ⟨negative, whole, fraction, power⟩ (sign ++ (mantissa ++ exponent))

/-- How an integer is written: a sign, which may be left out, and digits. -/
inductive IntegerText (negative : Bool) (ds : List Char) : List Char → Prop where
  | intro {sign : List Char} (hsign : SignText negative sign) (hds : Digits ds) :
      IntegerText negative ds (sign ++ ds)

/-- An integer is a numeral that has neither point nor power of ten. -/
theorem integerText_iff_written {negative : Bool} {ds cs : List Char} :
    IntegerText negative ds cs ↔ (⟨negative, ds, none, none⟩ : Numeral).Written cs := by
  constructor
  · rintro ⟨hsign, hds⟩
    have hwritten := Numeral.Written.intro hsign (.plain hds) .absent
    rw [List.append_nil] at hwritten
    exact hwritten
  · intro h
    cases h with
    | intro hsign hmantissa hpower =>
        cases hmantissa with
        | plain hds =>
            cases hpower with
            | absent =>
                rw [List.append_nil]
                exact ⟨hsign, hds⟩

theorem Numeral.Written.exists_digit {n : Numeral} {cs : List Char} (h : n.Written cs) :
    ∃ c ∈ cs, c.isDigit = true := by
  have hfirst : ∀ ds : List Char, Digits ds → ∃ c ∈ ds, c.isDigit = true := fun ds hds =>
    ⟨ds.head hds.ne_nil, List.head_mem hds.ne_nil, hds.isDigit _ (List.head_mem hds.ne_nil)⟩
  cases h with
  | intro hsign hmantissa hpower =>
      -- Of the three parts, only the mantissa is sure to have a digit.
      simp only [List.mem_append, or_and_right, exists_or]
      refine .inr (.inl ?_)
      cases hmantissa with
      | pointed hds hfs =>
          rcases hfirst _ hds with ⟨c, hc, hdigit⟩
          exact ⟨c, List.mem_append_left _ hc, hdigit⟩
      | pointFirst hfs =>
          rcases hfirst _ hfs with ⟨c, hc, hdigit⟩
          exact ⟨c, List.mem_cons_of_mem _ hc, hdigit⟩
      | plain hds => exact hfirst _ hds

theorem Numeral.Written.isDigit_of_mem_whole {n : Numeral} {cs : List Char} (h : n.Written cs) :
    ∀ c ∈ n.whole, c.isDigit = true := by
  cases h with
  | intro hsign hmantissa hpower =>
      cases hmantissa with
      | pointed hds hfs => exact hds.isDigit
      | pointFirst hfs => exact fun c hc => absurd hc List.not_mem_nil
      | plain hds => exact hds.isDigit

/-! ### Where a Run Ends -/

/-- A text does not begin with a character of a certain kind. -/
def BeginsOff (p : Char → Bool) (cs : List Char) : Prop :=
  ∀ c ∈ cs.head?, p c = false

/-- Every text is a run of digits and what follows it. -/
theorem exists_digitRun (cs : List Char) :
    ∃ ds rest, cs = ds ++ rest ∧ (∀ c ∈ ds, c.isDigit = true) ∧ BeginsOff Char.isDigit rest := by
  refine ⟨cs.takeWhile Char.isDigit, cs.dropWhile Char.isDigit,
    List.takeWhile_append_dropWhile.symm, fun c hc => List.mem_takeWhile_imp hc, ?_⟩
  intro c hc
  have hfirst := List.head?_dropWhile_not Char.isDigit cs
  rw [Option.mem_def.mp hc] at hfirst
  exact hfirst

theorem takeWhile_digits {ds rest : List Char} (hds : ∀ c ∈ ds, c.isDigit = true)
    (hrest : BeginsOff Char.isDigit rest) : (ds ++ rest).takeWhile Char.isDigit = ds := by
  rw [List.takeWhile_append_of_pos hds]
  cases rest with
  | nil => rw [List.takeWhile_nil, List.append_nil]
  | cons c cs =>
      have hc : c.isDigit = false := hrest c rfl
      rw [List.takeWhile_cons_of_neg (by simp only [hc, Bool.false_eq_true, not_false_eq_true]),
        List.append_nil]

theorem dropWhile_digits {ds rest : List Char} (hds : ∀ c ∈ ds, c.isDigit = true)
    (hrest : BeginsOff Char.isDigit rest) : (ds ++ rest).dropWhile Char.isDigit = rest := by
  rw [List.dropWhile_append_of_pos hds]
  cases rest with
  | nil => rfl
  | cons c cs =>
      have hc : c.isDigit = false := hrest c rfl
      exact List.dropWhile_cons_of_neg (by simp only [hc, Bool.false_eq_true, not_false_eq_true])

/-- A power of ten begins with a letter, so it ends a run of digits. -/
theorem PowerText.beginsOff {power : Option TenPower} {cs : List Char} (h : PowerText power cs) :
    BeginsOff Char.isDigit cs := by
  intro c hc
  cases h with
  | absent => cases hc
  | written hmark hsign hds =>
      cases hc
      rcases hmark with rfl | rfl <;> rfl

/-- Whether a character is a sign. -/
def isSign (c : Char) : Bool :=
  c = '+' || c = '-'

theorem isSign_of_isDigit {c : Char} (h : c.isDigit = true) : isSign c = false := by
  simp only [isSign, Bool.or_eq_false_iff, decide_eq_false_iff_not]
  constructor
  · rintro rfl
    cases h
  · rintro rfl
    cases h

theorem Digits.beginsOff {ds : List Char} (h : Digits ds) (rest : List Char) :
    BeginsOff isSign (ds ++ rest) := by
  intro c hc
  cases ds with
  | nil => exact absurd rfl h.ne_nil
  | cons d ds =>
      cases hc
      exact isSign_of_isDigit (h.isDigit _ List.mem_cons_self)

theorem MantissaText.beginsOff {whole : List Char} {fraction : Option (List Char)}
    {cs : List Char} (h : MantissaText whole fraction cs) (rest : List Char) :
    BeginsOff isSign (cs ++ rest) := by
  cases h with
  | pointed hds hfs =>
      rw [List.append_assoc]
      exact hds.beginsOff _
  | pointFirst hfs =>
      intro c hc
      cases hc
      rfl
  | plain hds => exact hds.beginsOff rest

namespace Numeral

/-! ### Reading by the Rules -/

theorem takeSign_append {negative : Bool} {sign rest : List Char} (hsign : SignText negative sign)
    (hrest : BeginsOff isSign rest) : takeSign (sign ++ rest) = (negative, rest) := by
  cases hsign with
  | plus => rfl
  | minus => rfl
  | absent =>
      -- Nothing is taken off, for what follows does not look like a sign.
      rw [List.nil_append]
      unfold takeSign
      split
      · cases hrest '+' rfl
      · cases hrest '-' rfl
      · rfl

theorem exists_sign (cs : List Char) :
    ∃ negative sign rest, SignText negative sign ∧ cs = sign ++ rest ∧
      takeSign cs = (negative, rest) := by
  unfold takeSign
  split
  · exact ⟨false, ['+'], _, .plus, rfl, rfl⟩
  · exact ⟨true, ['-'], _, .minus, rfl, rfl⟩
  · exact ⟨false, [], _, .absent, rfl, rfl⟩

theorem powerText_of_readPower? {cs : List Char} {power : Option TenPower}
    (h : readPower? cs = some power) : PowerText power cs := by
  cases cs with
  | nil =>
      cases h
      exact .absent
  | cons mark cs =>
      rcases exists_sign cs with ⟨negative, sign, ds, hsign, rfl, htake⟩
      simp only [readPower?, htake] at h
      split at h
      · rename_i hmark
        split at h
        · rename_i hds
          cases h
          exact .written hmark hsign ⟨hds.1, List.all_eq_true.mp hds.2⟩
        · cases h
      · cases h

/-- A text is read as a power of ten exactly if it is one. -/
theorem readPower?_eq_some_iff {cs : List Char} {power : Option TenPower} :
    readPower? cs = some power ↔ PowerText power cs := by
  refine ⟨powerText_of_readPower?, ?_⟩
  intro h
  cases h with
  | absent => rfl
  | @written mark negative sign ds hmark hsign hds =>
      have htake : takeSign (sign ++ ds) = (negative, ds) := by
        have hoff := hds.beginsOff []
        rw [List.append_nil] at hoff
        exact takeSign_append hsign hoff
      have hall : ds ≠ [] ∧ ds.all Char.isDigit = true :=
        ⟨hds.ne_nil, List.all_eq_true.mpr hds.isDigit⟩
      simp only [readPower?, if_pos hmark, htake, if_pos hall]

theorem written_of_read? {cs : List Char} {n : Numeral} (h : read? cs = some n) :
    n.Written cs := by
  rcases exists_sign cs with ⟨negative, sign, body, hsign, rfl, htake⟩
  rcases exists_digitRun body with ⟨whole, rest, rfl, hwhole, hrest⟩
  simp only [read?, htake, takeWhile_digits hwhole hrest, dropWhile_digits hwhole hrest] at h
  split at h
  · -- A point ends the first run of digits, and a second one follows it.
    rename_i tail
    rcases exists_digitRun tail with ⟨fraction, exponent, rfl, hfraction, hexponent⟩
    simp only [takeWhile_digits hfraction hexponent, dropWhile_digits hfraction hexponent] at h
    split at h
    · cases h
    · rename_i hsome
      rcases Option.map_eq_some_iff.mp h with ⟨power, hpower, rfl⟩
      have hsplit : whole ++ '.' :: (fraction ++ exponent) =
          (whole ++ '.' :: fraction) ++ exponent := by
        rw [List.append_assoc, List.cons_append]
      rw [hsplit]
      refine .intro hsign ?_ (powerText_of_readPower? hpower)
      by_cases hnil : whole = []
      · rw [hnil] at hsome ⊢
        exact .pointFirst ⟨fun hfs => hsome ⟨rfl, hfs⟩, hfraction⟩
      · exact .pointed ⟨hnil, hwhole⟩ hfraction
  · split at h
    · cases h
    · rename_i hnil
      rcases Option.map_eq_some_iff.mp h with ⟨power, hpower, rfl⟩
      exact .intro hsign (.plain ⟨hnil, hwhole⟩) (powerText_of_readPower? hpower)

theorem read?_of_point {cs whole fraction exponent : List Char} {negative : Bool}
    {power : Option TenPower}
    (htake : takeSign cs = (negative, whole ++ '.' :: (fraction ++ exponent)))
    (hwhole : ∀ c ∈ whole, c.isDigit = true) (hfraction : ∀ c ∈ fraction, c.isDigit = true)
    (hsome : ¬ (whole = [] ∧ fraction = [])) (hpower : PowerText power exponent) :
    read? cs = some ⟨negative, whole, some fraction, power⟩ := by
  have hpoint : BeginsOff Char.isDigit ('.' :: (fraction ++ exponent)) := by
    intro c hc
    cases hc
    rfl
  simp only [read?, htake, takeWhile_digits hwhole hpoint, dropWhile_digits hwhole hpoint,
    takeWhile_digits hfraction hpower.beginsOff, dropWhile_digits hfraction hpower.beginsOff,
    if_neg hsome, readPower?_eq_some_iff.mpr hpower, Option.map_some]

theorem read?_of_written {cs : List Char} {n : Numeral} (h : n.Written cs) :
    read? cs = some n := by
  cases h with
  | @intro negative whole fraction power sign mantissa exponent hsign hmantissa hpower =>
      have htake := takeSign_append hsign (hmantissa.beginsOff exponent)
      cases hmantissa with
      | pointed hds hfs =>
          refine read?_of_point (htake.trans ?_) hds.isDigit hfs (fun hnil => hds.ne_nil hnil.1)
            hpower
          rw [List.append_assoc, List.cons_append]
      | pointFirst hfs =>
          exact read?_of_point htake (fun c hc => absurd hc List.not_mem_nil) hfs.isDigit
            (fun hnil => hfs.ne_nil hnil.2) hpower
      | plain hds =>
          have hread := readPower?_eq_some_iff.mpr hpower
          simp only [read?, htake, takeWhile_digits hds.isDigit hpower.beginsOff,
            dropWhile_digits hds.isDigit hpower.beginsOff, if_neg hds.ne_nil]
          split
          · -- What follows is empty or begins with a letter, in no case with a point.
            cases hpower with
            | written hmark _ _ => exact absurd hmark (by decide)
          · rw [hread, Option.map_some]

/-- A text is read as a numeral exactly if the rules say that it is that one. -/
theorem read?_eq_some_iff {cs : List Char} {n : Numeral} : read? cs = some n ↔ n.Written cs :=
  ⟨written_of_read?, read?_of_written⟩

end Numeral

end ListLang
