/-
**Programs with the violations that reading goes on after.**

Four rules of the language are not about where tokens may stand: only a name is assigned to, a call
has at most `LoxLang.maxArguments` arguments, a function has at most as many parameters, and
`return` stands inside function bodies.  Without them the grammar is *relaxed*: anything that may be
an operand of `or` stands left of an equals sign, calls and functions have any number of arguments
and parameters, and `return` stands anywhere.

A derivation of this grammar is a tree that carries the tokens it is written with, each together
with what its place requires of it.  So the tokens are computed from the tree, and so are

* what the program is taken for: the tree with all arguments and parameters, in which an assignment
  to anything but a name is its right side;
* the violations, one for each place where one of the four rules is broken.

An `else` belongs to the nearest `if` that lacks one: a statement that dangles, that is, ends in an
`if` without an `else`, is never the branch in front of an `else`.

* `LoxLang.Relaxed.Word`, `LoxLang.Relaxed.Operator` — tokens with the kind that their place
  requires;
* `LoxLang.Relaxed.Expression`, `Statement`, `Declarations`, `Program` — the derivations;
* `LoxLang.Relaxed.Program.tokens`, `Program.kept`, `Program.violations` — what is read off them.
-/

import LoxLang.Proofs.Syntax.LenientGrammar

set_option relaxedAutoImplicit false
set_option autoImplicit false

namespace LoxLang.Relaxed

open Lenient (Layer)

/-! ### Tokens at their places -/

/-- A token of the given kind. -/
abbrev Word (kind : TokenKind) : Type := { token : Token // token.kind = kind }

/-- A token of one of the given kinds. -/
abbrev Operator (kinds : List TokenKind) : Type :=
  { token : Token // kinds.contains token.kind = true }

/-- The token is a literal with the given value. -/
inductive Denotes : Token → Literal → Prop
  | true {t : Token} (h : t.kind = .trueWord) : Denotes t (.bool true)
  | false {t : Token} (h : t.kind = .falseWord) : Denotes t (.bool false)
  | nil {t : Token} (h : t.kind = .nilWord) : Denotes t .nil
  | literal {t : Token} {v : Literal} (h : t.kind = .number ∨ t.kind = .string)
      (hv : t.literal = some v) : Denotes t v

/-! ### Expressions -/

mutual

/-- A derivation of an expression at the given place. -/
inductive Expression : Layer → Type
  | assign (target : Expression (.operand Level.all)) (equals : Word .equal)
      (value : Expression .assignment) : Expression .assignment
  | ofOperand (e : Expression (.operand Level.all)) : Expression .assignment
  | operation {level : Level} {tighter : List Level}
      (left : Expression (.operand (level :: tighter))) (operator : Operator level.operators)
      (right : Expression (.operand tighter)) : Expression (.operand (level :: tighter))
  | ofTighter {level : Level} {tighter : List Level} (e : Expression (.operand tighter)) :
      Expression (.operand (level :: tighter))
  | ofUnary (e : Expression .unary) : Expression (.operand [])
  | unary (operator : Operator unaryOperators) (right : Expression .unary) : Expression .unary
  | ofCall (e : Expression .call) : Expression .unary
  | callEmpty (callee : Expression .call) (opening : Word .leftParen) (closing : Word .rightParen) :
      Expression .call
  | call (callee : Expression .call) (opening : Word .leftParen) (arguments : Arguments)
      (closing : Word .rightParen) : Expression .call
  | ofPrimary (e : Expression .primary) : Expression .call
  | literal (token : Token) (value : Literal) (h : Denotes token value) : Expression .primary
  | lookup (name : Word .identifier) : Expression .primary
  | grouping (opening : Word .leftParen) (inner : Expression .assignment)
      (closing : Word .rightParen) : Expression .primary

/-- At least one argument, with a comma between any two. -/
inductive Arguments : Type
  | one (e : Expression .assignment)
  | more (e : Expression .assignment) (comma : Word .comma) (others : Arguments)

end

mutual

/-- The tokens that an expression is written with, in order. -/
def Expression.tokens : {layer : Layer} → Expression layer → List Token
  | _, .assign target equals value => target.tokens ++ equals.1 :: value.tokens
  | _, .ofOperand e => e.tokens
  | _, .operation left operator right => left.tokens ++ operator.1 :: right.tokens
  | _, .ofTighter e => e.tokens
  | _, .ofUnary e => e.tokens
  | _, .unary operator right => operator.1 :: right.tokens
  | _, .ofCall e => e.tokens
  | _, .callEmpty callee opening closing => callee.tokens ++ [opening.1, closing.1]
  | _, .call callee opening arguments closing =>
      callee.tokens ++ opening.1 :: (arguments.tokens ++ [closing.1])
  | _, .ofPrimary e => e.tokens
  | _, .literal token _ _ => [token]
  | _, .lookup name => [name.1]
  | _, .grouping opening inner closing => opening.1 :: (inner.tokens ++ [closing.1])

/-- The tokens of arguments and of the commas between them. -/
def Arguments.tokens : Arguments → List Token
  | .one e => e.tokens
  | .more e comma others => e.tokens ++ comma.1 :: others.tokens

end

/-- The name that an expression is, if it is nothing but a name. -/
def Expression.name? : {layer : Layer} → Expression layer → Option Token
  | _, .ofOperand e => e.name?
  | _, .ofTighter e => e.name?
  | _, .ofUnary e => e.name?
  | _, .ofCall e => e.name?
  | _, .ofPrimary e => e.name?
  | _, .lookup name => some name.1
  | _, _ => none

mutual

/-- The expression that is read: an assignment to anything but a name is its right side. -/
def Expression.kept : {layer : Layer} → Expression layer → Expr
  | _, .assign target _ value =>
      match target.name? with
      | some name => .assign name value.kept
      | none => value.kept
  | _, .ofOperand e => e.kept
  | _, @Expression.operation level _ left operator right =>
      level.node left.kept operator.1 right.kept
  | _, .ofTighter e => e.kept
  | _, .ofUnary e => e.kept
  | _, .unary operator right => .unary operator.1 right.kept
  | _, .ofCall e => e.kept
  | _, .callEmpty callee _ closing => .call callee.kept closing.1 []
  | _, .call callee _ arguments closing => .call callee.kept closing.1 arguments.kept
  | _, .ofPrimary e => e.kept
  | _, .literal _ value _ => .literal value
  | _, .lookup name => .lookup name.1
  | _, .grouping _ inner _ => .grouping inner.kept

/-- The arguments that are read: all of them, also those in excess. -/
def Arguments.kept : Arguments → List Expr
  | .one e => [e.kept]
  | .more e _ others => e.kept :: others.kept

end

/-- An expression is written with at least one token. -/
theorem Expression.tokens_ne_nil {layer : Layer} : (e : Expression layer) → e.tokens ≠ []
  | .assign target _ _ => by simp [tokens]
  | .ofOperand e => by simpa [tokens] using e.tokens_ne_nil
  | .operation _ _ _ => by simp [tokens]
  | .ofTighter e => by simpa [tokens] using e.tokens_ne_nil
  | .ofUnary e => by simpa [tokens] using e.tokens_ne_nil
  | .unary _ _ => by simp [tokens]
  | .ofCall e => by simpa [tokens] using e.tokens_ne_nil
  | .callEmpty _ _ _ => by simp [tokens]
  | .call _ _ _ _ => by simp [tokens]
  | .ofPrimary e => by simpa [tokens] using e.tokens_ne_nil
  | .literal _ _ _ => by simp [tokens]
  | .lookup _ => by simp [tokens]
  | .grouping _ _ _ => by simp [tokens]

/-- The first token of an expression. -/
def Expression.first {layer : Layer} (e : Expression layer) : Token := e.tokens.head e.tokens_ne_nil

/-- The arguments one by one. -/
def Arguments.toList : Arguments → List (Expression .assignment)
  | .one e => [e]
  | .more e _ others => e :: others.toList

/-- The arguments after the most that a call may have, each at its first token. -/
def excessArguments (arguments : List (Expression .assignment)) : List SyntaxError :=
  (arguments.drop maxArguments).map fun e => ⟨e.first, .tooManyArguments⟩

mutual

/-- The violations in an expression: assignments to anything but a name, each at its equals sign,
and arguments in excess. -/
def Expression.violations : {layer : Layer} → Expression layer → List SyntaxError
  | _, .assign target equals value =>
      (if target.name? = none then [⟨equals.1, .invalidTarget⟩] else []) ++
        (target.violations ++ value.violations)
  | _, .ofOperand e => e.violations
  | _, .operation left _ right => left.violations ++ right.violations
  | _, .ofTighter e => e.violations
  | _, .ofUnary e => e.violations
  | _, .unary _ right => right.violations
  | _, .ofCall e => e.violations
  | _, .callEmpty callee _ _ => callee.violations
  | _, .call callee _ arguments _ =>
      excessArguments arguments.toList ++ (callee.violations ++ arguments.violations)
  | _, .ofPrimary e => e.violations
  | _, .literal _ _ _ => []
  | _, .lookup _ => []
  | _, .grouping _ inner _ => inner.violations

/-- The violations within arguments. -/
def Arguments.violations : Arguments → List SyntaxError
  | .one e => e.violations
  | .more e _ others => e.violations ++ others.violations

end

/-! ### Simple phrases -/

/-- At least one parameter, with a comma between any two. -/
inductive Parameters : Type
  | one (name : Word .identifier)
  | more (name : Word .identifier) (comma : Word .comma) (others : Parameters)

namespace Parameters

/-- The tokens of parameters and of the commas between them. -/
def tokens : Parameters → List Token
  | .one name => [name.1]
  | .more name comma others => name.1 :: comma.1 :: others.tokens

/-- The names of parameters: all of them, also those in excess. -/
def names : Parameters → List Token
  | .one name => [name.1]
  | .more name _ others => name.1 :: others.names

end Parameters

/-- The parameters of a function, which may have none. -/
abbrev ParameterList : Type := Option Parameters

namespace ParameterList

/-- The tokens between the parentheses of a function. -/
def tokens : ParameterList → List Token
  | none => []
  | some parameters => parameters.tokens

/-- The names that a function binds to its arguments. -/
def names : ParameterList → List Token
  | none => []
  | some parameters => parameters.names

/-- The parameters after the most that a function may have. -/
def violations (parameters : ParameterList) : List SyntaxError :=
  (parameters.names.drop maxArguments).map fun name => ⟨name, .tooManyParameters⟩

end ParameterList

/-- An expression, or nothing. -/
abbrev Optional : Type := Option (Expression .assignment)

namespace Optional

/-- The tokens of an expression that may be missing. -/
def tokens : Optional → List Token
  | none => []
  | some e => e.tokens

/-- The expression that is read, if there is one. -/
def kept : Optional → Option Expr
  | none => none
  | some e => some e.kept

/-- The violations in an expression; where there is none, nothing is violated. -/
def violations : Optional → List SyntaxError
  | none => []
  | some e => e.violations

end Optional

/-- A variable declaration. -/
inductive Variable : Type
  | bare (var : Word .varWord) (name : Word .identifier) (semicolon : Word .semicolon)
  | initialized (var : Word .varWord) (name : Word .identifier) (equals : Word .equal)
      (value : Expression .assignment) (semicolon : Word .semicolon)

namespace Variable

/-- The tokens of a variable declaration, up to its semicolon. -/
def tokens : Variable → List Token
  | .bare var name semicolon => [var.1, name.1, semicolon.1]
  | .initialized var name equals value semicolon =>
      var.1 :: name.1 :: equals.1 :: (value.tokens ++ [semicolon.1])

/-- The declaration that is read, with the value that the variable begins with if it has one. -/
def kept : Variable → Stmt
  | .bare _ name _ => .declare name.1 none
  | .initialized _ name _ value _ => .declare name.1 (some value.kept)

/-- The violations in the value that a variable begins with. -/
def violations : Variable → List SyntaxError
  | .bare _ _ _ => []
  | .initialized _ _ _ value _ => value.violations

end Variable

/-- The first clause of a for statement. -/
inductive Initializer : Type
  | none (semicolon : Word .semicolon)
  | variable (declaration : Variable)
  | expression (value : Expression .assignment) (semicolon : Word .semicolon)

namespace Initializer

/-- The tokens of a first clause, up to its semicolon. -/
def tokens : Initializer → List Token
  | .none semicolon => [semicolon.1]
  | .variable declaration => declaration.tokens
  | .expression value semicolon => value.tokens ++ [semicolon.1]

/-- The statement that is read, to be executed before the loop. -/
def kept : Initializer → Option Stmt
  | .none _ => Option.none
  | .variable declaration => some declaration.kept
  | .expression value _ => some (.expression value.kept)

/-- The violations in a first clause. -/
def violations : Initializer → List SyntaxError
  | .none _ => []
  | .variable declaration => declaration.violations
  | .expression value _ => value.violations

end Initializer

/-! ### Statements and declarations -/

mutual

/-- A derivation of a statement.  The index says whether it ends in an `if` without an `else`. -/
inductive Statement : Bool → Type
  | expression (value : Expression .assignment) (semicolon : Word .semicolon) : Statement false
  | print (word : Word .printWord) (value : Expression .assignment) (semicolon : Word .semicolon) :
      Statement false
  | giveBack (word : Word .returnWord) (value : Optional) (semicolon : Word .semicolon) :
      Statement false
  | block (opening : Word .leftBrace) (body : Declarations) (closing : Word .rightBrace) :
      Statement false
  | branch {dangling : Bool} (word : Word .ifWord) (opening : Word .leftParen)
      (condition : Expression .assignment) (closing : Word .rightParen)
      (thenBranch : Statement dangling) : Statement true
  | branchElse {dangling : Bool} (word : Word .ifWord) (opening : Word .leftParen)
      (condition : Expression .assignment) (closing : Word .rightParen)
      (thenBranch : Statement false) (other : Word .elseWord) (elseBranch : Statement dangling) :
      Statement dangling
  | loop {dangling : Bool} (word : Word .whileWord) (opening : Word .leftParen)
      (condition : Expression .assignment) (closing : Word .rightParen)
      (body : Statement dangling) : Statement dangling
  | forLoop {dangling : Bool} (word : Word .forWord) (opening : Word .leftParen)
      (first : Initializer) (condition : Optional) (semicolon : Word .semicolon)
      (increment : Optional) (closing : Word .rightParen) (body : Statement dangling) :
      Statement dangling

/-- A derivation of a declaration. -/
inductive Declaration : Type
  | function (word : Word .funWord) (name : Word .identifier) (opening : Word .leftParen)
      (parameters : ParameterList) (closing : Word .rightParen) (brace : Word .leftBrace)
      (body : Declarations) (closingBrace : Word .rightBrace)
  | variable (declaration : Variable)
  | statement {dangling : Bool} (s : Statement dangling)

/-- Derivations of declarations in a row. -/
inductive Declarations : Type
  | nil
  | cons (first : Declaration) (others : Declarations)

end

mutual

/-- The tokens that a statement is written with, in order. -/
def Statement.tokens : {dangling : Bool} → Statement dangling → List Token
  | _, .expression value semicolon => value.tokens ++ [semicolon.1]
  | _, .print word value semicolon => word.1 :: (value.tokens ++ [semicolon.1])
  | _, .giveBack word value semicolon => word.1 :: (value.tokens ++ [semicolon.1])
  | _, .block opening body closing => opening.1 :: (body.tokens ++ [closing.1])
  | _, .branch word opening condition closing thenBranch =>
      word.1 :: opening.1 :: (condition.tokens ++ closing.1 :: thenBranch.tokens)
  | _, .branchElse word opening condition closing thenBranch other elseBranch =>
      word.1 :: opening.1 :: (condition.tokens ++
        closing.1 :: (thenBranch.tokens ++ other.1 :: elseBranch.tokens))
  | _, .loop word opening condition closing body =>
      word.1 :: opening.1 :: (condition.tokens ++ closing.1 :: body.tokens)
  | _, .forLoop word opening first condition semicolon increment closing body =>
      word.1 :: opening.1 :: (first.tokens ++ (condition.tokens ++
        semicolon.1 :: (increment.tokens ++ closing.1 :: body.tokens)))

/-- The tokens that a declaration is written with. -/
def Declaration.tokens : Declaration → List Token
  | .function word name opening parameters closing brace body closingBrace =>
      word.1 :: name.1 :: opening.1 :: (parameters.tokens ++
        closing.1 :: brace.1 :: (body.tokens ++ [closingBrace.1]))
  | .variable declaration => declaration.tokens
  | .statement s => s.tokens

/-- The tokens of declarations, one behind the other. -/
def Declarations.tokens : Declarations → List Token
  | .nil => []
  | .cons first others => first.tokens ++ others.tokens

end

mutual

/-- The statement that is read, with the loop that a for statement stands for. -/
def Statement.kept : {dangling : Bool} → Statement dangling → Stmt
  | _, .expression value _ => .expression value.kept
  | _, .print _ value _ => .print value.kept
  | _, .giveBack word value _ => .giveBack word.1 value.kept
  | _, .block _ body _ => .block body.kept
  | _, .branch _ _ condition _ thenBranch => .branch condition.kept thenBranch.kept none
  | _, .branchElse _ _ condition _ thenBranch _ elseBranch =>
      .branch condition.kept thenBranch.kept (some elseBranch.kept)
  | _, .loop _ _ condition _ body => .loop condition.kept body.kept
  | _, .forLoop _ _ first condition _ increment _ body =>
      Grammar.forTree first.kept condition.kept increment.kept body.kept

/-- The statement that a declaration is read as. -/
def Declaration.kept : Declaration → Stmt
  | .function _ name _ parameters _ _ body _ => .function name.1 parameters.names body.kept
  | .variable declaration => declaration.kept
  | .statement s => s.kept

/-- The statements that are read: no declaration is dropped. -/
def Declarations.kept : Declarations → List Stmt
  | .nil => []
  | .cons first others => first.kept :: others.kept

end

mutual

/-- The violations in a statement, which stands inside a function body or not: besides those in its
expressions, each return outside function bodies, at its keyword. -/
def Statement.violations (inside : Bool) : {dangling : Bool} → Statement dangling → List SyntaxError
  | _, .expression value _ => value.violations
  | _, .print _ value _ => value.violations
  | _, .giveBack word value _ =>
      (if inside then [] else [⟨word.1, .topLevelReturn⟩]) ++ value.violations
  | _, .block _ body _ => body.violations inside
  | _, .branch _ _ condition _ thenBranch => condition.violations ++ thenBranch.violations inside
  | _, .branchElse _ _ condition _ thenBranch _ elseBranch =>
      condition.violations ++ (thenBranch.violations inside ++ elseBranch.violations inside)
  | _, .loop _ _ condition _ body => condition.violations ++ body.violations inside
  | _, .forLoop _ _ first condition _ increment _ body =>
      first.violations ++
        (condition.violations ++ (increment.violations ++ body.violations inside))

/-- The violations in a declaration: besides those in its statements and expressions, the parameters
in excess.  A function body is inside one. -/
def Declaration.violations (inside : Bool) : Declaration → List SyntaxError
  | .function _ _ _ parameters _ _ body _ => parameters.violations ++ body.violations true
  | .variable declaration => declaration.violations
  | .statement s => s.violations inside

/-- The violations in declarations, one behind the other. -/
def Declarations.violations (inside : Bool) : Declarations → List SyntaxError
  | .nil => []
  | .cons first others => first.violations inside ++ others.violations inside

end

/-! ### Programs -/

/-- A derivation of a program: declarations outside function bodies, and the token that ends the
source text. -/
structure Program where
  body : Declarations
  ending : Word .endOfSource

namespace Program

/-- The tokens of a program, with the one that ends the source text. -/
def tokens (program : Program) : List Token := program.body.tokens ++ [program.ending.1]

/-- The program that is read. -/
def kept (program : Program) : List Stmt := program.body.kept

/-- The violations in a program, whose declarations stand outside function bodies. -/
def violations (program : Program) : List SyntaxError := program.body.violations false

end Program

end LoxLang.Relaxed
