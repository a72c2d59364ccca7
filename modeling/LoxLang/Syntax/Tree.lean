/-
Trees before they are checked.

A tree that was put together by hand may hold anything in any field.  Such a tree is read as an
expression or a statement only if its fields have the shapes that the table of kinds asks for.

Main definitions:

* `LoxLang.Tree` — a value of any sort: none, a literal, a token, a sequence or a node;
* `LoxLang.Tree.sort` — the name of the sort of a value, as error texts give it;
* `LoxLang.Expr.toTree`, `LoxLang.Stmt.toTree` — an expression or a statement as a tree;
* `LoxLang.Tree.toExpr?`, `LoxLang.Tree.toStmt?` — the expression or the statement that a tree is.
-/

import LoxLang.Syntax.Basic
import LoxLang.Syntax.Kind

set_option relaxedAutoImplicit false
set_option autoImplicit false

namespace LoxLang

/-- A value of any sort. -/
inductive Tree where
  /-- No value, as in a field that is left out. -/
  | absent
  | leaf (value : Literal)
  | token (token : Token)
  | seq (items : List Tree)
  | node (kind : NodeKind) (fields : List Tree)

instance : Inhabited Tree := ⟨.absent⟩

/-- The name of the sort of a literal in error texts. -/
def Literal.sort : Literal → String
  | .nil => "NilType"
  | .bool _ => "bool"
  | .number (.int _) => "int"
  | .number (.double _) => "float"
  | .text _ => "str"
  | .stub (.function _ _ _) => "LoxFunction"
  | .stub (.native _ _ _) => "NativeFunction"

/-- The name of the sort of a value in error texts. -/
def Tree.sort : Tree → String
  | .absent => "NoneType"
  | .leaf value => value.sort
  | .token _ => "Token"
  | .seq _ => "list"
  | .node kind _ => kind.title

/-! ### From expressions and statements -/

mutual

/-- The tree of an expression. -/
def Expr.toTree : Expr → Tree
  | .assign name value => .node .assign [.token name, value.toTree]
  | .binary left operator right => .node .binary [left.toTree, .token operator, right.toTree]
  | .call callee paren arguments =>
      .node .call [callee.toTree, .token paren, .seq (Expr.toTrees arguments)]
  | .grouping inner => .node .grouping [inner.toTree]
  | .literal value => .node .literal [.leaf value]
  | .logical left operator right => .node .logical [left.toTree, .token operator, right.toTree]
  | .unary operator right => .node .unary [.token operator, right.toTree]
  | .lookup name => .node .lookup [.token name]

/-- The trees of expressions. -/
def Expr.toTrees : List Expr → List Tree
  | [] => []
  | e :: es => e.toTree :: Expr.toTrees es

end

/-- The tree of an expression that may be left out. -/
def Expr.toTreeOrAbsent : Option Expr → Tree
  | none => .absent
  | some e => e.toTree

mutual

/-- The tree of a statement. -/
def Stmt.toTree : Stmt → Tree
  | .block body => .node .block [.seq (Stmt.toTrees body)]
  | .expression value => .node .expression [value.toTree]
  | .function name parameters body =>
      .node .function [.token name, .seq (parameters.map .token), .seq (Stmt.toTrees body)]
  | .branch condition thenBranch elseBranch =>
      .node .branch [condition.toTree, thenBranch.toTree, Stmt.toTreeOrAbsent elseBranch]
  | .print value => .node .print [value.toTree]
  | .giveBack keyword value => .node .giveBack [.token keyword, Expr.toTreeOrAbsent value]
  | .declare name initializer => .node .declare [.token name, Expr.toTreeOrAbsent initializer]
  | .loop condition body => .node .loop [condition.toTree, body.toTree]

/-- The tree of a statement that may be left out. -/
def Stmt.toTreeOrAbsent : Option Stmt → Tree
  | none => .absent
  | some s => s.toTree

/-- The trees of statements. -/
def Stmt.toTrees : List Stmt → List Tree
  | [] => []
  | s :: ss => s.toTree :: Stmt.toTrees ss

end

/-! ### To expressions and statements -/

/-- The token that a tree is. -/
def Tree.toToken? : Tree → Option Token
  | .token found => some found
  | _ => none

mutual

/-- The expression that a tree is. -/
def Tree.toExpr? : Tree → Option Expr
  | .node .assign [.token name, value] => return .assign name (← value.toExpr?)
  | .node .binary [left, .token operator, right] =>
      return .binary (← left.toExpr?) operator (← right.toExpr?)
  | .node .call [callee, .token paren, .seq arguments] =>
      return .call (← callee.toExpr?) paren (← Tree.toExprs? arguments)
  | .node .grouping [inner] => return .grouping (← inner.toExpr?)
  | .node .literal [.leaf value] => some (.literal value)
  | .node .logical [left, .token operator, right] =>
      return .logical (← left.toExpr?) operator (← right.toExpr?)
  | .node .unary [.token operator, right] => return .unary operator (← right.toExpr?)
  | .node .lookup [.token name] => some (.lookup name)
  | _ => none

/-- The expressions that trees are. -/
def Tree.toExprs? : List Tree → Option (List Expr)
  | [] => some []
  | t :: ts => return (← t.toExpr?) :: (← Tree.toExprs? ts)

end

/-- The expression that a tree is, if it is there at all. -/
def Tree.toOptionalExpr? : Tree → Option (Option Expr)
  | .absent => some none
  | tree => tree.toExpr?.map some

mutual

/-- The statement that a tree is. -/
def Tree.toStmt? : Tree → Option Stmt
  | .node .block [.seq body] => return .block (← Tree.toStmts? body)
  | .node .expression [value] => return .expression (← value.toExpr?)
  | .node .function [.token name, .seq parameters, .seq body] =>
      return .function name (← parameters.mapM Tree.toToken?) (← Tree.toStmts? body)
  | .node .branch [condition, thenBranch, .absent] =>
      return .branch (← condition.toExpr?) (← thenBranch.toStmt?) none
  | .node .branch [condition, thenBranch, elseBranch] =>
      return .branch (← condition.toExpr?) (← thenBranch.toStmt?) (some (← elseBranch.toStmt?))
  | .node .print [value] => return .print (← value.toExpr?)
  | .node .giveBack [.token keyword, value] => return .giveBack keyword (← value.toOptionalExpr?)
  | .node .declare [.token name, initializer] =>
      return .declare name (← initializer.toOptionalExpr?)
  | .node .loop [condition, body] => return .loop (← condition.toExpr?) (← body.toStmt?)
  | _ => none

/-- The statements that trees are. -/
def Tree.toStmts? : List Tree → Option (List Stmt)
  | [] => some []
  | t :: ts => return (← t.toStmt?) :: (← Tree.toStmts? ts)

end

/-- The statement that a tree stands for among statements: an expression is evaluated only. -/
def Tree.toExecutable? (tree : Tree) : Option Stmt :=
  tree.toStmt? <|> tree.toExpr?.map .expression

end LoxLang
