/-
The parser.

```
program     → declaration* end
declaration → "fun" function | "var" variable | statement
statement   → expression ";" | for | if | print | return | while | block
expression  → name "=" expression | disjunction
disjunction → conjunction ("or" conjunction)*
conjunction → equality ("and" equality)*
equality    → comparison (("!=" | "==") comparison)*
comparison  → term ((">" | ">=" | "<" | "<=") term)*
term        → factor (("-" | "+") factor)*
factor      → unary (("/" | "*") unary)*
unary       → ("!" | "-") unary | call
call        → primary ("(" arguments? ")")*
primary     → "true" | "false" | "nil" | number | string | name | "(" expression ")"
```

The six levels between an expression and a unary expression differ only in their operators, so they
are data, from the loosest to the tightest.  A `for` statement is read as the `while` loop that it
stands for.  All functions are recursive on an amount of fuel, of which a fixed multiple of the
number of tokens is enough.

Main definitions:

* `LoxLang.Level`, `LoxLang.Level.all` — the levels of binary operators;
* `LoxLang.Parser.expression`, `LoxLang.Parser.statement`, `LoxLang.Parser.declaration` — the rules;
* `LoxLang.forLoop` — the loop that a `for` statement stands for;
* `LoxLang.parse` — the program that a list of tokens is;
* `LoxLang.outline` — the declarations at the top, one by one.
-/

import LoxLang.Syntax.ParserState

set_option relaxedAutoImplicit false
set_option autoImplicit false

namespace LoxLang

/-! ### Levels of binary operators -/

/-- A level of binary operators: the kinds of its operators, and whether they are logical. -/
structure Level where
  operators : List TokenKind
  logical : Bool

namespace Level

/-- The levels, from the loosest to the tightest. -/
def all : List Level :=
  [⟨[.orWord], true⟩, ⟨[.andWord], true⟩, ⟨[.bangEqual, .equalEqual], false⟩,
    ⟨[.greater, .greaterEqual, .less, .lessEqual], false⟩, ⟨[.minus, .plus], false⟩,
    ⟨[.slash, .star], false⟩]

/-- The expression of an operator of the level. -/
def node (level : Level) (left : Expr) (operator : Token) (right : Expr) : Expr :=
  if level.logical then .logical left operator right else .binary left operator right

end Level

/-- The operators of unary expressions. -/
def unaryOperators : List TokenKind := [.bang, .minus]

/-- The loop that a `for` statement stands for: the increment comes after the body in a block of its
own, a condition that is left out is true, and the initializer comes before the loop in a block
around both. -/
def forLoop (initializer : Option Stmt) (condition increment : Option Expr) (body : Stmt) : Stmt :=
  let body :=
    match increment with
    | none => body
    | some increment => .block [body, .expression increment]
  let loop := Stmt.loop (condition.getD (.literal (.bool true))) body
  match initializer with
  | none => loop
  | some initializer => .block [initializer, loop]

namespace Parser

/-! ### Limits -/

/-- Record an error at the next token if there are as many before it as are allowed. -/
def noteExcess (before : Nat) (cause : SyntaxCause) : Parser Unit := do
  if maxArguments ≤ before then
    note (← peek) cause
  else
    return ()

/-- Record an error at the keyword of a return outside function bodies. -/
def noteTopLevel (keyword : Token) : Parser Unit := do
  if (← depth) = 0 then
    note keyword .topLevelReturn
  else
    return ()

/-! ### Expressions -/

mutual

/-- An expression: an assignment, or anything tighter. -/
def expression : Nat → Parser Expr
  | 0 => outOfFuel
  | fuel + 1 => do
      let target ← operand fuel Level.all
      match ← accept (· == .equal) with
      | none => return target
      | some equals =>
          let value ← expression fuel
          match target with
          | .lookup name => return .assign name value
          | _ =>
              note equals .invalidTarget
              return value

/-- An operand of the levels above the given ones. -/
def operand : Nat → List Level → Parser Expr
  | 0, _ => outOfFuel
  | fuel + 1, [] => unary fuel
  | fuel + 1, level :: tighter => do
      let left ← operand fuel tighter
      operations fuel level tighter left

/-- The operators of a level, and their right operands, after a left operand. -/
def operations : Nat → Level → List Level → Expr → Parser Expr
  | 0, _, _, _ => outOfFuel
  | fuel + 1, level, tighter, left => do
      match ← accept level.operators.contains with
      | none => return left
      | some operator =>
          let right ← operand fuel tighter
          operations fuel level tighter (level.node left operator right)

/-- A unary operator and its operand, or a call. -/
def unary : Nat → Parser Expr
  | 0 => outOfFuel
  | fuel + 1 => do
      match ← accept unaryOperators.contains with
      | some operator =>
          let right ← unary fuel
          return .unary operator right
      | none =>
          let callee ← primary fuel
          calls fuel callee

/-- The calls after a callee. -/
def calls : Nat → Expr → Parser Expr
  | 0, _ => outOfFuel
  | fuel + 1, callee => do
      match ← accept (· == .leftParen) with
      | none => return callee
      | some _ =>
          let arguments ← argumentList fuel
          let paren ← expect .rightParen .parenAfterArguments
          calls fuel (.call callee paren arguments)

/-- The arguments of a call, unless the closing parenthesis follows at once. -/
def argumentList : Nat → Parser (List Expr)
  | 0 => outOfFuel
  | fuel + 1 => do
      if ← check (· == .rightParen) then
        return []
      else
        arguments fuel 0

/-- At least one argument, after the given number of them. -/
def arguments : Nat → Nat → Parser (List Expr)
  | 0, _ => outOfFuel
  | fuel + 1, before => do
      noteExcess before .tooManyArguments
      let first ← expression fuel
      match ← accept (· == .comma) with
      | none => return [first]
      | some _ =>
          let others ← arguments fuel (before + 1)
          return first :: others

/-- A literal, a name, or an expression between parentheses. -/
def primary : Nat → Parser Expr
  | 0 => outOfFuel
  | fuel + 1 => do
      let token ← peek
      match token.kind with
      | .falseWord =>
          advance
          return .literal (.bool false)
      | .trueWord =>
          advance
          return .literal (.bool true)
      | .nilWord =>
          advance
          return .literal .nil
      | .number | .string =>
          advance
          return .literal (← literalOf token)
      | .identifier =>
          advance
          return .lookup token
      | .leftParen =>
          advance
          let inner ← expression fuel
          let _ ← expect .rightParen .parenAfterExpression
          return .grouping inner
      | _ => giveUp .expression

end

/-! ### Parameters -/

/-- At least one parameter, after the given number of them. -/
def parameters : Nat → Nat → Parser (List Token)
  | 0, _ => outOfFuel
  | fuel + 1, before => do
      noteExcess before .tooManyParameters
      let first ← expect .identifier .parameterName
      match ← accept (· == .comma) with
      | none => return [first]
      | some _ =>
          let others ← parameters fuel (before + 1)
          return first :: others

/-- The parameters of a function, unless the closing parenthesis follows at once. -/
def parameterList (fuel : Nat) : Parser (List Token) := do
  if ← check (· == .rightParen) then
    return []
  else
    parameters fuel 0

/-! ### Simple statements -/

/-- An expression, unless a token of the given kind follows at once. -/
def optionalExpression (fuel : Nat) (stop : TokenKind) : Parser (Option Expr) := do
  if ← check (· == stop) then
    return none
  else
    return some (← expression fuel)

/-- What a variable starts with, if an equals sign announces it. -/
def initializer (fuel : Nat) : Parser (Option Expr) := do
  match ← accept (· == .equal) with
  | none => return none
  | some _ => return some (← expression fuel)

/-- A variable declaration after its keyword. -/
def variableDeclaration (fuel : Nat) : Parser Stmt := do
  let name ← expect .identifier .variableName
  let value ← initializer fuel
  let _ ← expect .semicolon .semicolonAfterVariable
  return .declare name value

/-- An expression statement. -/
def expressionStatement (fuel : Nat) : Parser Stmt := do
  let value ← expression fuel
  let _ ← expect .semicolon .semicolonAfterExpression
  return .expression value

/-- A print statement after its keyword. -/
def printStatement (fuel : Nat) : Parser Stmt := do
  let value ← expression fuel
  let _ ← expect .semicolon .semicolonAfterValue
  return .print value

/-- A return statement after its keyword. -/
def returnStatement (fuel : Nat) (keyword : Token) : Parser Stmt := do
  noteTopLevel keyword
  let value ← optionalExpression fuel .semicolon
  let _ ← expect .semicolon .semicolonAfterReturnValue
  return .giveBack keyword value

/-! ### Statements and declarations -/

mutual

/-- A declaration.  An error that the parser gives up at is repaired here; then there is none. -/
def declaration : Nat → Parser (Option Stmt)
  | 0 => outOfFuel
  | fuel + 1 => recovering (bareDeclaration fuel)

/-- A declaration, without repairing errors. -/
def bareDeclaration : Nat → Parser Stmt
  | 0 => outOfFuel
  | fuel + 1 => do
      match ← accept (· == .funWord) with
      | some _ => function fuel
      | none =>
          match ← accept (· == .varWord) with
          | some _ => variableDeclaration fuel
          | none => statement fuel

/-- A function after its keyword. -/
def function : Nat → Parser Stmt
  | 0 => outOfFuel
  | fuel + 1 => do
      let name ← expect .identifier .functionName
      let _ ← expect .leftParen .parenAfterFunctionName
      let parameters ← parameterList fuel
      let _ ← expect .rightParen .parenAfterParameters
      let _ ← expect .leftBrace .braceBeforeBody
      let body ← nested (block fuel)
      return .function name parameters body

/-- A statement. -/
def statement : Nat → Parser Stmt
  | 0 => outOfFuel
  | fuel + 1 => do
      let token ← peek
      match token.kind with
      | .forWord =>
          advance
          forStatement fuel
      | .ifWord =>
          advance
          ifStatement fuel
      | .printWord =>
          advance
          printStatement fuel
      | .returnWord =>
          advance
          returnStatement fuel token
      | .whileWord =>
          advance
          whileStatement fuel
      | .leftBrace =>
          advance
          return .block (← block fuel)
      | _ => expressionStatement fuel

/-- A for statement after its keyword. -/
def forStatement : Nat → Parser Stmt
  | 0 => outOfFuel
  | fuel + 1 => do
      let _ ← expect .leftParen .parenAfterFor
      let initializer ← forInitializer fuel
      let condition ← optionalExpression fuel .semicolon
      let _ ← expect .semicolon .semicolonAfterLoopCondition
      let increment ← optionalExpression fuel .rightParen
      let _ ← expect .rightParen .parenAfterForClauses
      let body ← statement fuel
      return forLoop initializer condition increment body

/-- The initializer of a for statement, with its semicolon. -/
def forInitializer : Nat → Parser (Option Stmt)
  | 0 => outOfFuel
  | fuel + 1 => do
      match ← accept (· == .semicolon) with
      | some _ => return none
      | none =>
          match ← accept (· == .varWord) with
          | some _ => return some (← variableDeclaration fuel)
          | none => return some (← expressionStatement fuel)

/-- An if statement after its keyword.  An else belongs to the nearest if before it. -/
def ifStatement : Nat → Parser Stmt
  | 0 => outOfFuel
  | fuel + 1 => do
      let _ ← expect .leftParen .parenAfterIf
      let condition ← expression fuel
      let _ ← expect .rightParen .parenAfterIfCondition
      let thenBranch ← statement fuel
      match ← accept (· == .elseWord) with
      | none => return .branch condition thenBranch none
      | some _ => return .branch condition thenBranch (some (← statement fuel))

/-- A while statement after its keyword. -/
def whileStatement : Nat → Parser Stmt
  | 0 => outOfFuel
  | fuel + 1 => do
      let _ ← expect .leftParen .parenAfterWhile
      let condition ← expression fuel
      let _ ← expect .rightParen .parenAfterCondition
      let body ← statement fuel
      return .loop condition body

/-- The declarations of a block after its opening brace, and the closing one. -/
def block : Nat → Parser (List Stmt)
  | 0 => outOfFuel
  | fuel + 1 => do
      let body ← blockItems fuel
      let _ ← expect .rightBrace .braceAfterBlock
      return body

/-- The declarations in front of a closing brace or the end. -/
def blockItems : Nat → Parser (List Stmt)
  | 0 => outOfFuel
  | fuel + 1 => do
      let token ← peek
      if token.kind == .rightBrace || token.isEnd then
        return []
      else
        let first ← declaration fuel
        let others ← blockItems fuel
        return first.toList ++ others

end

/-! ### Programs -/

/-- The declarations in front of the end. -/
def program : Nat → Parser (List Stmt)
  | 0 => outOfFuel
  | fuel + 1 => do
      let token ← peek
      if token.isEnd then
        return []
      else
        let first ← declaration fuel
        let others ← program fuel
        return first.toList ++ others

end Parser

/-- Fuel for a list of tokens: no rule takes more than some twenty steps without reading one. -/
def parserFuel (tokens : List Token) : Nat := 32 * (tokens.length + 1)

/-- Read a list of tokens as a program. -/
def parse (tokens : List Token) : Reply (List Stmt) :=
  Parser.program (parserFuel tokens) (ParserState.start tokens)

/-! ### Declarations one by one -/

/-- What reading one declaration at the top came to: the declaration if there is one, and the state
behind it. -/
structure OutlineStep where
  declaration : Option Stmt
  state : ParserState

/-- The declarations in front of the end, one by one. -/
def outlineFrom : Nat → ParserState → List OutlineStep
  | 0, _ => []
  | fuel + 1, state =>
      match state.rest with
      | [] => []
      | token :: _ =>
          if token.isEnd then []
          else
            match Parser.declaration fuel state with
            | .ok declaration next => ⟨declaration, next⟩ :: outlineFrom fuel next
            | _ => []

/-- The declarations of a list of tokens, one by one. -/
def outline (tokens : List Token) : List OutlineStep :=
  outlineFrom (parserFuel tokens) (ParserState.start tokens)

end LoxLang
