import ListLang.Text.Printable

/-!
# Quoted Text

Text set between quotes, so that every character of it shows. Single quotes
are used unless the text holds a single quote and no double quote. Backslash,
the chosen quote, tab and the two line breaks are written with a backslash, and
any other unprintable character by its number in hexadecimal.

## Main definitions

* `quoted`: A text between quotes.
* `quotedList`: A list of texts, each between quotes.
-/

namespace ListLang

/-- The number `n` in lower-case hexadecimal, filled up with zeros to `width`
    digits. -/
def hexText (width n : Nat) : String :=
  let digits := Nat.toDigits 16 n
  String.ofList (List.replicate (width - digits.length) '0' ++ digits)

/-- An unprintable character, written by its number. -/
def escapedNumber (c : Char) : String :=
  if c.toNat < 0x100 then "\\x" ++ hexText 2 c.toNat
  else if c.toNat < 0x10000 then "\\u" ++ hexText 4 c.toNat
  else "\\U" ++ hexText 8 c.toNat

/-- One character of a text between the quotes `mark`. -/
def quotedChar (mark c : Char) : String :=
  if c = mark ∨ c = '\\' then "\\" ++ String.singleton c
  else if c = '\n' then "\\n"
  else if c = '\r' then "\\r"
  else if c = '\t' then "\\t"
  else if isPrintable c then String.singleton c
  else escapedNumber c

/-- The single quote. -/
def singleQuote : Char := Char.ofNat 0x27

/-- The double quote. -/
def doubleQuote : Char := Char.ofNat 0x22

/-- The quote that surrounds a text. -/
def quoteMark (cs : List Char) : Char :=
  if singleQuote ∈ cs ∧ doubleQuote ∉ cs then doubleQuote else singleQuote

/-- A text between quotes. -/
def quoted (s : String) : String :=
  let mark := quoteMark s.toList
  let ends := String.singleton mark
  ends ++ String.join (s.toList.map (quotedChar mark)) ++ ends

/-- A list of texts, each between quotes. -/
def quotedList (names : List String) : String :=
  "[" ++ ", ".intercalate (names.map quoted) ++ "]"

end ListLang
