import ListLang.Builtin.Signature
import ListLang.Number.RealText
import ListLang.SpecialForm
import ListLang.Text.Quoted

/-!
# Tokens

The smallest meaningful pieces of a program's text. Tokens carry no position:
line breaks are tokens of their own, and a line is known by how many of them
came before.

## Main definitions

* `Token`: The tokens.
* `Token.kind`: The name of a token's kind.
* `Token.text`: How a token looks in a program.
* `Token.inspect`: Kind and content of a token, for debugging.
-/

namespace ListLang

/-- The tokens of a program. -/
inductive Token where
  /-- An integer literal. -/
  | integer (value : Int)
  /-- A real literal. -/
  | real (value : Float)
  /-- A truth value. -/
  | boolean (value : Bool)
  /-- The null literal. -/
  | null
  /-- A name made of letters. -/
  | identifier (name : String)
  /-- The name of a special form or of a builtin. -/
  | keyword (name : String)
  /-- The quote mark. -/
  | quote
  /-- An opening parenthesis. -/
  | lparen
  /-- A closing parenthesis. -/
  | rparen
  /-- A line break. -/
  | newline
  /-- A word that is none of these. -/
  | unknown (text : String)
deriving DecidableEq

namespace Token

/-- The name of a token's kind. -/
def kind : Token → String
  | integer _ => "INTEGER"
  | real _ => "REAL"
  | boolean _ => "BOOLEAN"
  | null => "NULL"
  | identifier _ => "IDENTIFIER"
  | keyword _ => "KEYWORD"
  | quote => "QUOTE"
  | lparen => "LPAREN"
  | rparen => "RPAREN"
  | newline => "NEWLINE"
  | unknown _ => "UNKNOWN"

/-- How the token looks in a program. -/
def text : Token → String
  | integer n => toString n
  | real x => realText x
  | boolean b => if b then "true" else "false"
  | null => "null"
  | identifier s | keyword s | unknown s => s
  | quote => "'"
  | lparen => "("
  | rparen => ")"
  | newline => "newline"

/-- The content of a token, texts between quotes. -/
def content : Token → String
  | integer n => toString n
  | real x => realText x
  | boolean b => if b then "True" else "False"
  | null | newline => "None"
  | identifier s | keyword s | unknown s => quoted s
  | quote => quoted "'"
  | lparen => quoted "("
  | rparen => quoted ")"

/-- Kind and content of the token. -/
def inspect (t : Token) : String :=
  "FLangToken(" ++ t.kind ++ ", " ++ t.content ++ ")"

/-- Whether a name is reserved: it belongs to a special form or a builtin. -/
def isReserved (s : String) : Bool :=
  (SpecialForm.ofName? s).isSome || (Builtin.ofName? s).isSome

end Token

end ListLang
