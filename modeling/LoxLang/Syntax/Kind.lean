/-
Kinds of tree nodes and what their fields hold.

Each kind of node has a row in a table: its fields in order, each with a name and a shape.  A field
may hold a sequence, and a field may be left out.

Main definitions:

* `LoxLang.NodeKind`, `LoxLang.NodeKind.category` — the kinds, of expressions and of statements;
* `LoxLang.Shape`, `LoxLang.Field` — what a field holds;
* `LoxLang.NodeKind.layout` — the row of a kind;
* `LoxLang.visitorName` — the name under which consumers of trees handle a kind.
-/

import LoxLang.Text.LowerCase

set_option relaxedAutoImplicit false
set_option autoImplicit false

namespace LoxLang

/-- Expressions and statements. -/
inductive NodeCategory where
  | expr
  | stmt
  deriving DecidableEq, Repr

/-- The name of a category. -/
def NodeCategory.name : NodeCategory → String
  | .expr => "expr"
  | .stmt => "stmt"

/-- The kind of a node. -/
inductive NodeKind where
  | assign
  | binary
  | call
  | grouping
  | literal
  | logical
  | unary
  | lookup
  | block
  | expression
  | function
  | branch
  | print
  | giveBack
  | declare
  | loop
  deriving DecidableEq, Repr

/-- What a field may hold. -/
inductive Shape where
  | expr
  | stmt
  | token
  /-- Any value at all. -/
  | object
  deriving DecidableEq, Repr

/-- The name of a shape. -/
def Shape.name : Shape → String
  | .expr => "Expr"
  | .stmt => "Stmt"
  | .token => "Token"
  | .object => "Object"

/-- A field of a node: its name, its shape, whether it holds a sequence of that shape, and whether
it may be left out. -/
structure Field where
  name : String
  shape : Shape
  many : Bool
  optional : Bool
  deriving DecidableEq, Repr

namespace Field

/-- A field that holds one value. -/
def one (name : String) (shape : Shape) : Field := ⟨name, shape, false, false⟩

/-- A field that holds a sequence. -/
def several (name : String) (shape : Shape) : Field := ⟨name, shape, true, false⟩

/-- A field that may be left out. -/
def possible (name : String) (shape : Shape) : Field := ⟨name, shape, false, true⟩

end Field

namespace NodeKind

/-- The kinds of expressions, in the order of the table. -/
def expressions : List NodeKind :=
  [assign, binary, call, grouping, literal, logical, unary, lookup]

/-- The kinds of statements, in the order of the table. -/
def statements : List NodeKind :=
  [block, expression, function, branch, print, giveBack, declare, loop]

/-- All kinds. -/
def all : List NodeKind := expressions ++ statements

/-- The category of a kind. -/
def category : NodeKind → NodeCategory
  | assign | binary | call | grouping | literal | logical | unary | lookup => .expr
  | block | expression | function | branch | print | giveBack | declare | loop => .stmt

/-- The title of a kind. -/
def title : NodeKind → String
  | assign => "Assign"
  | binary => "Binary"
  | call => "Call"
  | grouping => "Grouping"
  | literal => "Literal"
  | logical => "Logical"
  | unary => "Unary"
  | lookup => "Variable"
  | block => "Block"
  | expression => "Expression"
  | function => "Function"
  | branch => "If"
  | print => "Print"
  | giveBack => "Return"
  | declare => "Var"
  | loop => "While"

/-- The kind with a title. -/
def ofTitle? (text : String) : Option NodeKind := all.find? fun kind => kind.title == text

theorem ofTitle?_title (kind : NodeKind) : ofTitle? kind.title = some kind := by
  cases kind <;> decide

/-- The fields of a kind, in order. -/
def layout : NodeKind → List Field
  | assign => [.one "name" .token, .one "value" .expr]
  | binary => [.one "left" .expr, .one "operator" .token, .one "right" .expr]
  | call => [.one "callee" .expr, .one "paren" .token, .several "arguments" .expr]
  | grouping => [.one "expression" .expr]
  | literal => [.one "value" .object]
  | logical => [.one "left" .expr, .one "operator" .token, .one "right" .expr]
  | unary => [.one "operator" .token, .one "right" .expr]
  | lookup => [.one "name" .token]
  | block => [.several "statements" .stmt]
  | expression => [.one "expression" .expr]
  | function => [.one "name" .token, .several "params" .token, .several "body" .stmt]
  | branch => [.one "condition" .expr, .one "then_branch" .stmt, .possible "else_branch" .stmt]
  | print => [.one "expression" .expr]
  | giveBack => [.one "keyword" .token, .possible "value" .expr]
  | declare => [.one "name" .token, .possible "initializer" .expr]
  | loop => [.one "condition" .expr, .one "body" .stmt]

end NodeKind

/-- The name under which consumers of trees handle a kind of the given title and category. -/
def visitorName (title category : String) : String :=
  "visit_" ++ Text.toLower title ++ "_" ++ category

/-- The name under which consumers of trees handle a kind. -/
def NodeKind.visitor (kind : NodeKind) : String := visitorName kind.title kind.category.name

end LoxLang
