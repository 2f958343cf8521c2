import ListLang.Number.IntegerText
import ListLang.Number.Numeral
import ListLang.Text.Blank
import ListLang.Text.Letter
import ListLang.Token.Basic

/-!
# From Text to Tokens

A program's text falls apart at its delimiters: blanks, parentheses and quote
marks. A delimiter is a token by itself, or nothing if it is a blank other than
the line break; what stands between two delimiters is a word. Every word is a
token, if only an unknown one. The single thing a text can do wrong is to spell
an integer with too many digits.

## Main definitions

* `Lexeme`: A token by itself or a word.
* `lexemes`: Cutting a text at its delimiters.
* `Token.ofWord`: Classifying a word.
* `tokenize`: The tokens of a text.
-/

namespace ListLang

/-- Why a text has no tokens. -/
inductive LexError where
  /-- An integer is written with more digits than are allowed. -/
  | tooManyDigits (count : Nat)
deriving DecidableEq

/-- The text of a lexical error. -/
def LexError.message : LexError → String
  | .tooManyDigits count =>
      digitsExceeded ++ ": value has " ++ toString count ++ " digits" ++ digitsAdvice

/-- What lies between the cuts of a text. -/
inductive Lexeme where
  /-- A delimiter that is a token. -/
  | mark (token : Token)
  /-- A run of characters without delimiters. -/
  | word (chars : List Char)

/-- The token of a delimiter, or `none` inside for a blank that has none. A
    character that is no delimiter gives `none`. -/
def delimiter? (c : Char) : Option (Option Token) :=
  if c = '\n' then some (some .newline)
  else if isBlank c then some none
  else if c = '(' then some (some .lparen)
  else if c = ')' then some (some .rparen)
  else if c = singleQuote then some (some .quote)
  else none

/-- The word whose characters, in reverse, are `word`, unless it is empty. -/
def finishWord (word : List Char) (rest : List Lexeme) : List Lexeme :=
  if word.isEmpty then rest else .word word.reverse :: rest

/-- Cut a text at its delimiters. The characters of the word under way are in
    `word`, in reverse. -/
def lexemesFrom (word : List Char) : List Char → List Lexeme
  | [] => finishWord word []
  | c :: cs => match delimiter? c with
    | some (some token) => finishWord word (.mark token :: lexemesFrom [] cs)
    | some none => finishWord word (lexemesFrom [] cs)
    | none => lexemesFrom (c :: word) cs

/-- Cut a text at its delimiters. -/
def lexemes (cs : List Char) : List Lexeme :=
  lexemesFrom [] cs

/-- The token of a number as written. -/
def Token.ofNumeral (n : Numeral) : Except LexError Token :=
  if n.isInteger then
    if digitLimit < n.whole.length then .error (.tooManyDigits n.whole.length)
    else .ok (.integer n.integer)
  else .ok (.real n.real)

/-- The token of a word. Literals come first, then reserved names, numbers and
    names made of letters. -/
def Token.ofWord (cs : List Char) : Except LexError Token :=
  let s := String.ofList cs
  if s = "true" then .ok (.boolean true)
  else if s = "false" then .ok (.boolean false)
  else if s = "null" then .ok .null
  else if Token.isReserved s then .ok (.keyword s)
  else match Numeral.read? cs with
    | some n => Token.ofNumeral n
    | none => .ok (if cs.all isLetter then .identifier s else .unknown s)

/-- The token of a lexeme. -/
def Lexeme.token : Lexeme → Except LexError Token
  | .mark token => .ok token
  | .word cs => Token.ofWord cs

/-- The tokens of a text. -/
def tokenize (source : String) : Except LexError (List Token) :=
  (lexemes source.toList).mapM Lexeme.token

end ListLang
