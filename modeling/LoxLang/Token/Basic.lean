/-
Tokens.

Main definitions:

* `LoxLang.Token` — a kind, the text it was read from, a literal value if it has one, and a line;
* `LoxLang.Token.listing` — the token in a listing;
* `LoxLang.Token.onLine` — the same token on another line.
-/

import LoxLang.Literal
import LoxLang.Token.Kind

set_option relaxedAutoImplicit false
set_option autoImplicit false

namespace LoxLang

/-- A token of a source text. -/
structure Token where
  kind : TokenKind
  lexeme : String
  literal : Option Literal
  line : Int
  deriving DecidableEq

namespace Token

/-- The token that ends every source text. -/
def endOfSource (line : Int) : Token := ⟨.endOfSource, "", none, line⟩

/-- The token ends its source text. -/
def isEnd (token : Token) : Bool := token.kind == .endOfSource

/-- The same token on another line. -/
def onLine (token : Token) (line : Int) : Token := { token with line }

/-- The name of the kind, the lexeme and the literal. -/
def listing (token : Token) : String :=
  token.kind.name ++ " " ++ token.lexeme ++ " " ++ (token.literal.map Literal.listed).getD ""

end Token

end LoxLang
