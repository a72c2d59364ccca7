/-
Kinds of tokens.

Main definitions:

* `LoxLang.TokenKind` — punctuation, operators, literals, reserved words and the end;
* `LoxLang.TokenKind.all`, `LoxLang.TokenKind.name` — the kinds in their order, and their names;
* `LoxLang.TokenKind.reserved` — the sixteen reserved words;
* `LoxLang.TokenKind.ofWord` — the kind of a word;
* `LoxLang.TokenKind.startsStatement` — the reserved words that begin a statement.

Main results:

* `LoxLang.TokenKind.mem_all`, `LoxLang.TokenKind.ofName?_name` — every kind is listed, and its name
  tells it from the others.
-/

set_option relaxedAutoImplicit false
set_option autoImplicit false

namespace LoxLang

/-- The kind of a token. -/
inductive TokenKind where
  | leftParen
  | rightParen
  | leftBrace
  | rightBrace
  | comma
  | dot
  | minus
  | plus
  | semicolon
  | slash
  | star
  | bang
  | bangEqual
  | equal
  | equalEqual
  | greater
  | greaterEqual
  | less
  | lessEqual
  | identifier
  | string
  | number
  | andWord
  | classWord
  | elseWord
  | falseWord
  | funWord
  | forWord
  | ifWord
  | nilWord
  | orWord
  | printWord
  | returnWord
  | superWord
  | thisWord
  | trueWord
  | varWord
  | whileWord
  | endOfSource
  deriving DecidableEq, Repr

namespace TokenKind

/-- All kinds, in their order. -/
def all : List TokenKind :=
  [leftParen, rightParen, leftBrace, rightBrace, comma, dot, minus, plus, semicolon, slash, star,
    bang, bangEqual, equal, equalEqual, greater, greaterEqual, less, lessEqual,
    identifier, string, number,
    andWord, classWord, elseWord, falseWord, funWord, forWord, ifWord, nilWord, orWord, printWord,
    returnWord, superWord, thisWord, trueWord, varWord, whileWord,
    endOfSource]

theorem mem_all (kind : TokenKind) : kind ∈ all := by
  cases kind <;> decide

/-- The name of a kind in listings. -/
def name : TokenKind → String
  | leftParen => "LEFT_PAREN"
  | rightParen => "RIGHT_PAREN"
  | leftBrace => "LEFT_BRACE"
  | rightBrace => "RIGHT_BRACE"
  | comma => "COMMA"
  | dot => "DOT"
  | minus => "MINUS"
  | plus => "PLUS"
  | semicolon => "SEMICOLON"
  | slash => "SLASH"
  | star => "STAR"
  | bang => "BANG"
  | bangEqual => "BANG_EQUAL"
  | equal => "EQUAL"
  | equalEqual => "EQUAL_EQUAL"
  | greater => "GREATER"
  | greaterEqual => "GREATER_EQUAL"
  | less => "LESS"
  | lessEqual => "LESS_EQUAL"
  | identifier => "IDENTIFIER"
  | string => "STRING"
  | number => "NUMBER"
  | andWord => "AND"
  | classWord => "CLASS"
  | elseWord => "ELSE"
  | falseWord => "FALSE"
  | funWord => "FUN"
  | forWord => "FOR"
  | ifWord => "IF"
  | nilWord => "NIL"
  | orWord => "OR"
  | printWord => "PRINT"
  | returnWord => "RETURN"
  | superWord => "SUPER"
  | thisWord => "THIS"
  | trueWord => "TRUE"
  | varWord => "VAR"
  | whileWord => "WHILE"
  | endOfSource => "EOF"

/-- The kind of a name. -/
def ofName? (text : String) : Option TokenKind := all.find? fun kind => kind.name == text

theorem ofName?_name (kind : TokenKind) : ofName? kind.name = some kind := by
  cases kind <;> decide

/-- The reserved words and their kinds, in order. -/
def reserved : List (String × TokenKind) :=
  [("and", andWord), ("class", classWord), ("else", elseWord), ("false", falseWord),
    ("fun", funWord), ("for", forWord), ("if", ifWord), ("nil", nilWord), ("or", orWord),
    ("print", printWord), ("return", returnWord), ("super", superWord), ("this", thisWord),
    ("true", trueWord), ("var", varWord), ("while", whileWord)]

/-- The kind of a word: its own if it is reserved, otherwise that of identifiers. -/
def ofWord (word : String) : TokenKind := (reserved.lookup word).getD identifier

/-- The reserved words that begin a statement; recovery from an error stops in front of them. -/
def startsStatement : TokenKind → Bool
  | classWord | funWord | varWord | forWord | ifWord | whileWord | printWord | returnWord => true
  | _ => false

end TokenKind

end LoxLang
