/-
Expressions and statements.

Tokens are kept where a later error needs a line to point to: the names, the operators, the closing
parenthesis of a call and the keyword of a return.

Main definitions:

* `LoxLang.Expr` — expressions;
* `LoxLang.Stmt` — statements.
-/

import LoxLang.Token.Basic

set_option relaxedAutoImplicit false
set_option autoImplicit false

namespace LoxLang

/-- An expression. -/
inductive Expr where
  | assign (name : Token) (value : Expr)
  | binary (left : Expr) (operator : Token) (right : Expr)
  | call (callee : Expr) (paren : Token) (arguments : List Expr)
  | grouping (inner : Expr)
  | literal (value : Literal)
  /-- A conjunction or a disjunction, of which the right operand may stay unevaluated. -/
  | logical (left : Expr) (operator : Token) (right : Expr)
  | unary (operator : Token) (right : Expr)
  /-- The value that a name is bound to. -/
  | lookup (name : Token)

/-- A statement. -/
inductive Stmt where
  | block (body : List Stmt)
  | expression (value : Expr)
  | function (name : Token) (parameters : List Token) (body : List Stmt)
  | branch (condition : Expr) (thenBranch : Stmt) (elseBranch : Option Stmt)
  | print (value : Expr)
  | giveBack (keyword : Token) (value : Option Expr)
  | declare (name : Token) (initializer : Option Expr)
  | loop (condition : Expr) (body : Stmt)

instance : Inhabited Expr := ⟨.literal .nil⟩

instance : Inhabited Stmt := ⟨.block []⟩

end LoxLang
