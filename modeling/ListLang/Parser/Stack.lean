import ListLang.Expr
import ListLang.Token.Basic

/-!
# Reading One Token

Tokens are read one at a time against a stack of what has been begun and not
yet completed: open lists with the items read so far, and quote marks waiting
for the expression they quote. A literal or a closing parenthesis completes an
expression, which goes to the innermost thing begun; when nothing is begun, it
is the expression that was asked for.

## Main definitions

* `Pending`: A list or a quote mark that is not yet complete.
* `openCount`: The number of open lists on a stack.
* `Progress`: What one token leads to.
* `complete`, `feed`: Taking one expression, or one token.
* `Feeds`: All that one token can lead to.

## Theorems

* `feeds_feed`: One token leads to nothing else.
-/

namespace ListLang

/-- Something begun and not yet complete. -/
inductive Pending where
  /-- A list opened on a line, with its items so far in reverse. -/
  | list (line : Int) (items : List Expr)
  /-- A quote mark on a line. -/
  | quote (line : Int)

/-- The number of open lists on a stack. -/
def openCount : List Pending → Nat
  | [] => 0
  | .list .. :: stack => openCount stack + 1
  | .quote _ :: stack => openCount stack

/-- What one token leads to. -/
inductive Progress where
  /-- More tokens are needed. -/
  | reading (stack : List Pending)
  /-- An expression, begun on a line, is complete. -/
  | finished (line : Int) (e : Expr)
  /-- The token cannot stand here. -/
  | refused

/-- Hand a completed expression, begun on `line`, to the innermost thing
    begun. -/
def complete (line : Int) (e : Expr) : List Pending → Progress
  | [] => .finished line e
  | .list opened items :: stack => .reading (.list opened (e :: items) :: stack)
  | .quote mark :: stack =>
      complete mark (.list (some mark) [.atom (some mark) "quote", e]) stack

/-- Take one token, which stands on `line`. -/
def feed (lenient : Bool) (line : Int) (stack : List Pending) : Token → Progress
  | .integer n => complete line (.integer (some line) n) stack
  | .real x => complete line (.real (some line) x) stack
  | .boolean b => complete line (.boolean (some line) b) stack
  | .null => complete line (.null (some line)) stack
  | .identifier s | .keyword s => complete line (.atom (some line) s) stack
  | .unknown s => if lenient then complete line (.atom (some line) s) stack else .refused
  | .quote => .reading (.quote line :: stack)
  | .lparen => .reading (.list line [] :: stack)
  | .rparen => match stack with
    | .list opened items :: outer => complete opened (.list (some opened) items.reverse) outer
    | _ => .refused
  | .newline => .reading stack

/-- Whether a token is, by itself, an expression. -/
def Token.isLeaf : Token → Bool
  | .quote | .lparen | .rparen | .newline => false
  | .integer _ | .real _ | .boolean _ | .null | .identifier _ | .keyword _ | .unknown _ => true

/-- All that a token on `line` can lead to. -/
inductive Feeds (line : Int) (stack : List Pending) : Token → Progress → Prop where
  /-- It is an expression. -/
  | leaf {t : Token} {e : Expr} (ht : t.isLeaf = true) (he : e.items? = none)
      (hline : e.line = some line) : Feeds line stack t (complete line e stack)
  /-- It begins a quotation. -/
  | quote : Feeds line stack .quote (.reading (.quote line :: stack))
  /-- It begins a list. -/
  | lparen : Feeds line stack .lparen (.reading (.list line [] :: stack))
  /-- It completes a list. -/
  | rparen {opened : Int} {items : List Expr} {outer : List Pending}
      (h : stack = .list opened items :: outer) :
      Feeds line stack .rparen (complete opened (.list (some opened) items.reverse) outer)
  /-- It means nothing. -/
  | newline : Feeds line stack .newline (.reading stack)
  /-- It is out of place. -/
  | refused {t : Token} (ht : t = .rparen ∨ ∃ s, t = .unknown s) : Feeds line stack t .refused

theorem feeds_feed (lenient : Bool) (line : Int) (stack : List Pending) (t : Token) :
    Feeds line stack t (feed lenient line stack t) := by
  cases t with
  | integer _ | real _ | boolean _ | null | identifier _ | keyword _ => exact .leaf rfl rfl rfl
  | unknown s =>
      cases lenient with
      | true => exact .leaf rfl rfl rfl
      | false => exact .refused (.inr ⟨s, rfl⟩)
  | quote => exact .quote
  | lparen => exact .lparen
  | newline => exact .newline
  | rparen =>
      -- Only an open list can be closed.
      match stack with
      | [] | .quote _ :: _ => exact .refused (.inl rfl)
      | .list opened items :: outer => exact .rparen rfl

end ListLang
