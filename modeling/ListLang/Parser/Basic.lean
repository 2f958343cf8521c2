import ListLang.Parser.Error

/-!
# From Tokens to Expressions

A parser stands somewhere in a list of tokens. It can be asked for one
expression, which may fail, or for the whole rest of a program.

Reading a whole program survives errors. After one, tokens are skipped up to
the end of the line, the next opening parenthesis, or the parenthesis that
closes the broken form, and reading starts afresh from there.

## Main definitions

* `Parser`: A parser between two requests.
* `Parser.element`: Reading one expression.
* `Mode`: Reading a form, or getting past a broken one.
* `Reader`, `Reader.feed`: A parser in the middle of a program.
* `Parser.program`: Reading all that is left, past errors.
* `parseTokens`: The forms of a list of tokens.

## Theorems

* `Mode.resume?_cases`, `Mode.skip_cases`: What a token that is read finds begun,
  and what one that is skipped leaves.
-/

namespace ListLang

/-- A parser between two requests. -/
structure Parser where
  /-- The tokens not yet read. -/
  rest : List Token
  /-- The number of tokens read. -/
  position : Nat := 0
  /-- The current line. -/
  line : Int := 1
  /-- Lists opened and never closed, left behind by a request that failed. -/
  openLists : Int := 0
  /-- The problems met while reading programs. -/
  diagnostics : List Diagnostic := []

namespace Parser

/-- A parser at the start of its tokens. -/
def ofTokens (tokens : List Token) : Parser :=
  { rest := tokens }

/-- The token to be read next. -/
def current? (p : Parser) : Option Token :=
  p.rest.head?

/-- Move past the next token, which is `t`. -/
def pass (p : Parser) (t : Token) : Parser :=
  { p with
    rest := p.rest.tail
    position := p.position + 1
    line := if t = .newline then p.line + 1 else p.line }

/-- The open lists after a refused token: a closing parenthesis closes one. -/
def openAfter (openLists : Int) : Token → Int
  | .rparen => max 0 (openLists - 1)
  | _ => openLists

/-- Read one expression of which `stack` is begun. The last argument is what is
    left to read. -/
def elementFrom (lenient : Bool) (p : Parser) (stack : List Pending) :
    List Token → Except ParseError Expr × Parser
  | [] => (.error (.atEnd p.line stack), { p with openLists := p.openLists + openCount stack })
  | t :: rest =>
      match feed lenient p.line stack t with
      | .reading stack' => elementFrom lenient (p.pass t) stack' rest
      | .finished _ e => (.ok e, p.pass t)
      | .refused =>
          (.error (.unexpected t p.line),
            { p.pass t with openLists := openAfter (p.openLists + openCount stack) t })

/-- Read one expression. -/
def element (lenient : Bool) (p : Parser) : Except ParseError Expr × Parser :=
  p.elementFrom lenient [] p.rest

end Parser

/-- What reading a program is about at some point. -/
inductive Mode where
  /-- A form of which `stack` is begun. -/
  | reading (stack : List Pending)
  /-- Getting past a broken form with `depth` open lists. -/
  | recovering (depth : Int)

/-- What is begun when a token is to be read, or `none` when it is to be
    skipped. A line break and an opening parenthesis end a recovery. -/
def Mode.resume? (mode : Mode) (t : Token) : Option (List Pending) :=
  match mode, t with
  | .reading stack, _ => some stack
  | .recovering _, .newline | .recovering _, .lparen => some []
  | .recovering _, _ => none

/-- The mode after skipping a token. The parenthesis that closes the broken
    form ends the recovery. -/
def Mode.skip (mode : Mode) (t : Token) : Mode :=
  match mode, t with
  | .recovering depth, .rparen =>
      if depth - 1 ≤ 0 then .reading [] else .recovering (depth - 1)
  | mode, _ => mode

/-- What is begun when a token is read was begun before, or nothing is. -/
theorem Mode.resume?_cases {mode : Mode} {t : Token} {stack : List Pending}
    (h : mode.resume? t = some stack) : mode = .reading stack ∨ stack = [] := by
  unfold Mode.resume? at h
  split at h <;> cases h
  · exact .inl rfl
  · exact .inr rfl
  · exact .inr rfl

/-- A token that is skipped leaves nothing begun. -/
theorem Mode.skip_cases {mode : Mode} {t : Token} (h : mode.resume? t = none) :
    mode.skip t = .reading [] ∨ ∃ depth, mode.skip t = .recovering depth := by
  cases mode with
  | reading stack => cases h
  | recovering depth =>
      unfold Mode.skip
      split
      · split
        · exact .inl rfl
        · exact .inr ⟨_, rfl⟩
      · exact .inr ⟨depth, rfl⟩

/-- A parser in the middle of a program. -/
structure Reader where
  /-- The parser. -/
  parser : Parser
  /-- The forms read so far. -/
  forms : List Form := []
  /-- What is being read. -/
  mode : Mode := .reading []

namespace Reader

/-- The lists that count as left open when a token comes. Those of a broken form
    are forgotten then, but not before: at the end of the tokens they still
    count. -/
def leftOpen (r : Reader) : Int :=
  match r.mode with
  | .reading _ => r.parser.openLists
  | .recovering _ => 0

/-- Take one token. -/
def feed (lenient : Bool) (r : Reader) (t : Token) : Reader :=
  let next := { r.parser.pass t with openLists := r.leftOpen }
  match r.mode.resume? t with
  | none => { r with parser := next, mode := r.mode.skip t }
  | some stack => match ListLang.feed lenient r.parser.line stack t with
    | .reading stack' => { r with parser := next, mode := .reading stack' }
    | .finished line e =>
        { parser := next, forms := r.forms ++ [⟨e, line⟩], mode := .reading [] }
    | .refused =>
        let error := ParseError.unexpected t r.parser.line
        let left := Parser.openAfter (r.leftOpen + openCount stack) t
        { r with
          parser := { next with
            openLists := left
            diagnostics := next.diagnostics ++ [error.diagnostic] }
          mode := .recovering left }

/-- The parser at the end of its tokens. Something begun is an error there. -/
def close (r : Reader) : Parser :=
  match r.mode with
  | .reading [] | .recovering _ => r.parser
  | .reading stack =>
      let error := ParseError.atEnd r.parser.line stack
      { r.parser with
        openLists := r.parser.openLists + openCount stack
        diagnostics := r.parser.diagnostics ++ [error.diagnostic] }

end Reader

/-- Read all that is left, past errors. -/
def Parser.program (lenient : Bool) (p : Parser) : List Form × Parser :=
  let r := p.rest.foldl (Reader.feed lenient) { parser := p }
  (r.forms, r.close)

/-- The forms of a list of tokens, with the problems met. -/
def parseTokens (lenient : Bool) (tokens : List Token) : List Form × List Diagnostic :=
  let (forms, parser) := (Parser.ofTokens tokens).program lenient
  (forms, parser.diagnostics)

end ListLang
