/-
Reading a source text as a program.

The errors of the tokens come before those of the program.  A reading has no program only if a
numeral is too long, or if the tokens lack their end or a value, which those of a source text never
do.

Main definitions:

* `LoxLang.ReadingFault` — why a source text has no program at all;
* `LoxLang.Reading` — the reports of a reading and its program;
* `LoxLang.readTokens`, `LoxLang.read` — the reading of tokens and of a source text;
* `LoxLang.relexed` — the lexemes of tokens in a row.
-/

import LoxLang.Token.Lexer
import LoxLang.Syntax.Parser

set_option relaxedAutoImplicit false
set_option autoImplicit false

namespace LoxLang

/-- Why a source text has no program at all. -/
inductive ReadingFault where
  /-- An integer numeral has too many digits. -/
  | tooLong (digits : Nat)
  | parser (fault : ParserFault)
  /-- The parser gave up outside any declaration, or had too little fuel. -/
  | stuck
  deriving DecidableEq, Repr

/-- What reading a source text came to. -/
structure Reading where
  /-- The reports, in order. -/
  reports : List Report
  program : Except ReadingFault (List Stmt)

/-- The reading of a list of tokens. -/
def readTokens (tokens : List Token) : Reading :=
  match parse tokens with
  | .ok program state => ⟨state.errors.map SyntaxError.report, .ok program⟩
  | .gaveUp state => ⟨state.errors.map SyntaxError.report, .error .stuck⟩
  | .fault fault state => ⟨state.errors.map SyntaxError.report, .error (.parser fault)⟩
  | .outOfFuel => ⟨[], .error .stuck⟩

/-- The reading of a source text. -/
def read (source : String) : Reading :=
  let found := scan source
  let lexical := found.errors.map LexicalError.report
  match found.tooLong with
  | some digits => ⟨lexical, .error (.tooLong digits)⟩
  | none =>
      let reading := readTokens found.tokens
      { reading with reports := lexical ++ reading.reports }

/-- The lexemes of tokens, without the one that ends them, with a space between any two. -/
def relexed (tokens : List Token) : String :=
  " ".intercalate ((tokens.filter fun token => !token.isEnd).map Token.lexeme)

end LoxLang
