/-
States and replies of the parser.

A parser reads tokens from the front of the remaining ones.  It goes on after an error that it can
repair, and gives up at one that it cannot; then the error is already recorded, and the nearest
declaration around it takes over.  A parser may also meet a fault, which no declaration repairs: the
tokens lack the one that ends them, or a numeral or a string lacks its value.

Main definitions:

* `LoxLang.SyntaxCause`, `LoxLang.SyntaxError` — errors, each at a token;
* `LoxLang.ParserState` — the remaining tokens, the number of function bodies around, the errors;
* `LoxLang.Reply`, `LoxLang.Parser` — what a parser answers, and parsers as a monad;
* `LoxLang.Parser.peek`, `accept`, `expect`, `note`, `giveUp` — reading a token, and errors;
* `LoxLang.Parser.nested` — reading a function body;
* `LoxLang.Parser.recovering` — taking over from an error.
-/

import LoxLang.Report
import LoxLang.Syntax.Basic

set_option relaxedAutoImplicit false
set_option autoImplicit false

namespace LoxLang

/-! ### Errors -/

/-- What a parser misses when it gives up. -/
inductive Expectation where
  | functionName
  | parenAfterFunctionName
  | parameterName
  | parenAfterParameters
  | braceBeforeBody
  | variableName
  | semicolonAfterVariable
  | parenAfterFor
  | semicolonAfterLoopCondition
  | parenAfterForClauses
  | parenAfterIf
  | parenAfterIfCondition
  | semicolonAfterValue
  | semicolonAfterReturnValue
  | parenAfterWhile
  | parenAfterCondition
  | braceAfterBlock
  | semicolonAfterExpression
  | parenAfterArguments
  | parenAfterExpression
  | expression
  deriving DecidableEq, Repr

/-- The wording of an expectation. -/
def Expectation.message : Expectation → String
  | .functionName => "Expect function name."
  | .parenAfterFunctionName => "Expect '(' after function name."
  | .parameterName => "Expect parameter name."
  | .parenAfterParameters => "Expect ')' after parameters."
  | .braceBeforeBody => "Expect '\x7b' before function body."
  | .variableName => "Expect variable name."
  | .semicolonAfterVariable => "Expect ';' after variable declaration."
  | .parenAfterFor => "Expect '(' after 'for'."
  | .semicolonAfterLoopCondition => "Expect ';' after loop condition."
  | .parenAfterForClauses => "Expect ')' after for clauses."
  | .parenAfterIf => "Expect '(' after 'if'."
  | .parenAfterIfCondition => "Expect ')' after if condition."
  | .semicolonAfterValue => "Expect ';' after value."
  | .semicolonAfterReturnValue => "Expect ';' after return value."
  | .parenAfterWhile => "Expect '(' after 'while'."
  | .parenAfterCondition => "Expect ')' after condition."
  | .braceAfterBlock => "Expect '\x7d' after block."
  | .semicolonAfterExpression => "Expect ';' after expression."
  | .parenAfterArguments => "Expect ')' after arguments."
  | .parenAfterExpression => "Expect ')' after expression."
  | .expression => "Expect expression."

/-- The most arguments of a call and parameters of a function. -/
def maxArguments : Nat := 255

/-- Why tokens are not a program.  The parser gives up only at an expectation. -/
inductive SyntaxCause where
  | expected (expectation : Expectation)
  | tooManyParameters
  | tooManyArguments
  | invalidTarget
  | topLevelReturn
  deriving DecidableEq, Repr

/-- The wording of a cause. -/
def SyntaxCause.message : SyntaxCause → String
  | .expected expectation => expectation.message
  | .tooManyParameters => s!"Can't have more than {maxArguments} parameters."
  | .tooManyArguments => s!"Can't have more than {maxArguments} arguments."
  | .invalidTarget => "Invalid assignment target."
  | .topLevelReturn => "Can't return from top-level code."

/-- An error at a token. -/
structure SyntaxError where
  token : Token
  cause : SyntaxCause
  deriving DecidableEq

/-- The report of an error. -/
def SyntaxError.report (error : SyntaxError) : Report :=
  Report.ofToken error.token error.cause.message

/-- What no declaration repairs. -/
inductive ParserFault where
  /-- The tokens lack the one that ends them. -/
  | offEnd
  /-- A numeral or a string lacks its value. -/
  | missingLiteral
  deriving DecidableEq, Repr

/-! ### States and replies -/

/-- The state of a parser. -/
structure ParserState where
  /-- The tokens that are not read yet. -/
  rest : List Token
  /-- The number of function bodies around. -/
  depth : Nat
  /-- The errors so far, in order. -/
  errors : List SyntaxError

/-- The state in front of a list of tokens. -/
def ParserState.start (tokens : List Token) : ParserState := ⟨tokens, 0, []⟩

/-- What a parser answers. -/
inductive Reply (α : Type) where
  | ok (value : α) (state : ParserState)
  /-- The parser gave up; the error is recorded. -/
  | gaveUp (state : ParserState)
  | fault (fault : ParserFault) (state : ParserState)
  | outOfFuel

/-- A parser. -/
def Parser (α : Type) : Type := ParserState → Reply α

namespace Parser

variable {α β : Type}

/-- Answer a value without reading. -/
@[inline] def pure (value : α) : Parser α := fun s => .ok value s

/-- Go on with what a parser answers. -/
@[inline] def bind (p : Parser α) (next : α → Parser β) : Parser β := fun s =>
  match p s with
  | .ok value s => next value s
  | .gaveUp s => .gaveUp s
  | .fault fault s => .fault fault s
  | .outOfFuel => .outOfFuel

instance : Monad Parser where
  pure := Parser.pure
  bind := Parser.bind

/-- No fuel is left. -/
def outOfFuel : Parser α := fun _ => .outOfFuel

/-! ### Reading a token -/

/-- The next token. -/
def peek : Parser Token := fun s =>
  match s.rest with
  | [] => .fault .offEnd s
  | token :: _ => .ok token s

/-- Go past a token, but not past the one that ends the tokens. -/
def advance : Parser Unit := fun s =>
  match s.rest with
  | [] => .fault .offEnd s
  | token :: rest => if token.isEnd then .ok () s else .ok () { s with rest }

/-- The next token is of a kind that passes the test, and does not end the tokens. -/
def check (test : TokenKind → Bool) : Parser Bool := fun s =>
  match s.rest with
  | [] => .fault .offEnd s
  | token :: _ => .ok (!token.isEnd && test token.kind) s

/-- The next token if it is of a kind that passes the test; it is read. -/
def accept (test : TokenKind → Bool) : Parser (Option Token) := fun s =>
  match s.rest with
  | [] => .fault .offEnd s
  | token :: rest =>
      if !token.isEnd && test token.kind then .ok (some token) { s with rest }
      else .ok none s

/-! ### Errors -/

/-- Record an error at a token and go on. -/
def note (token : Token) (cause : SyntaxCause) : Parser Unit := fun s =>
  .ok () { s with errors := s.errors ++ [⟨token, cause⟩] }

/-- Record that something is missing at the next token, and give up. -/
def giveUp (expectation : Expectation) : Parser α := fun s =>
  match s.rest with
  | [] => .fault .offEnd s
  | token :: _ => .gaveUp { s with errors := s.errors ++ [⟨token, .expected expectation⟩] }

/-- The next token, which must be of the given kind. -/
def expect (kind : TokenKind) (expectation : Expectation) : Parser Token := do
  match ← accept (· == kind) with
  | some token => return token
  | none => giveUp expectation

/-- The value of a numeral or a string. -/
def literalOf (token : Token) : Parser Literal := fun s =>
  match token.literal with
  | some value => .ok value s
  | none => .fault .missingLiteral s

/-! ### Function bodies -/

/-- The number of function bodies around. -/
def depth : Parser Nat := fun s => .ok s.depth s

/-- Read with one more function body around.  Behind it, however the reading ends, the number that
the reading leaves goes down by one. -/
def nested (p : Parser α) : Parser α := fun s =>
  match p { s with depth := s.depth + 1 } with
  | .ok value t => .ok value { t with depth := t.depth - 1 }
  | .gaveUp t => .gaveUp { t with depth := t.depth - 1 }
  | .fault fault t => .fault fault { t with depth := t.depth - 1 }
  | .outOfFuel => .outOfFuel

/-! ### Recovery -/

/-- The tokens from the next place on where a declaration may begin: behind a semicolon, in front of
a word that begins a statement, or at the end.  The token before the given ones is of the given
kind.  None if the end is missing. -/
def boundary? (before : TokenKind) : List Token → Option (List Token)
  | [] => none
  | token :: rest =>
      if token.isEnd || before == .semicolon || token.kind.startsStatement then some (token :: rest)
      else boundary? token.kind rest

/-- The tokens to go on with after an error in front of the given ones; at least one token is
skipped, unless it ends them. -/
def synchronized? : List Token → Option (List Token)
  | [] => none
  | token :: rest => if token.isEnd then some (token :: rest) else boundary? token.kind rest

/-- Skip to the next place where a declaration may begin. -/
def synchronize : Parser Unit := fun s =>
  match synchronized? s.rest with
  | some rest => .ok () { s with rest }
  | none => .fault .offEnd { s with rest := [] }

/-- Take over when a parser gives up: skip to where a declaration may begin, and answer none. -/
def recovering (p : Parser α) : Parser (Option α) := fun s =>
  match p s with
  | .ok value s => .ok (some value) s
  | .gaveUp s => bind synchronize (fun _ => pure none) s
  | .fault fault s => .fault fault s
  | .outOfFuel => .outOfFuel

end Parser

end LoxLang
