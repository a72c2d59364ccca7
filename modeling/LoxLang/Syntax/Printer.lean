/-
Printed trees.

A node is printed as its head and its parts between parentheses.  Numbers are printed as in dumps
and texts between quotes, so that different trees print differently.  A literal that is not a value
of the language, which only a tree put together by hand can hold, is printed as a dump that shows
every field.

Main definitions:

* `LoxLang.PrintFault` — why a value has no printed form;
* `LoxLang.Tree.dump?` — every field of a value;
* `LoxLang.Tree.render` — the printed form of a node;
* `LoxLang.Tree.print` — the printed form of a node, or of statements one on each line;
* `LoxLang.Expr.render`, `LoxLang.Stmt.render`, `LoxLang.Stmt.printAll` — printed programs.
-/

import LoxLang.Syntax.Tree

set_option relaxedAutoImplicit false
set_option autoImplicit false

namespace LoxLang

/-! ### Dumps -/

/-- The text between parentheses for the items of a sequence that a node keeps. -/
def tupleDump : List String → String
  | [item] => "(" ++ item ++ ",)"
  | items => "(" ++ ", ".intercalate items ++ ")"

/-- The number of a kind of token, counted from one. -/
def TokenKind.position (kind : TokenKind) : Nat := TokenKind.all.idxOf kind + 1

/-- A token in dumps. -/
def Token.dump? (token : Token) : Option String := do
  let literal ←
    match token.literal with
    | none => some "None"
    | some value => value.dump?
  return "Token(type=<TokenType." ++ token.kind.name ++ ": " ++ toString token.kind.position ++
    ">, lexeme=" ++ Text.quoted token.lexeme ++ ", literal=" ++ literal ++ ", line=" ++
    toString token.line ++ ")"

mutual

/-- A value with all its fields; none if an integer in it is beyond the digit limit. -/
def Tree.dump? : Tree → Option String
  | .absent => some "None"
  | .leaf value => value.dump?
  | .token found => found.dump?
  | .seq items => return "[" ++ ", ".intercalate (← Tree.dumps? items) ++ "]"
  | .node kind fields =>
      return kind.title ++ "(" ++ ", ".intercalate (← Tree.dumpFields? kind.layout fields) ++ ")"

/-- The dumps of values. -/
def Tree.dumps? : List Tree → Option (List String)
  | [] => some []
  | tree :: trees => return (← tree.dump?) :: (← Tree.dumps? trees)

/-- The dumps of fields, each after its name. -/
def Tree.dumpFields? : List Field → List Tree → Option (List String)
  | field :: fields, .seq items :: trees => do
      let items ← Tree.dumps? items
      let value := if field.many then tupleDump items else "[" ++ ", ".intercalate items ++ "]"
      return (field.name ++ "=" ++ value) :: (← Tree.dumpFields? fields trees)
  | field :: fields, tree :: trees =>
      return (field.name ++ "=" ++ (← tree.dump?)) :: (← Tree.dumpFields? fields trees)
  | _, _ => some []

end

/-! ### Printed forms -/

/-- Why a value has no printed form. -/
inductive PrintFault where
  /-- A value of the given sort is no node. -/
  | notNode (sort : String)
  /-- An integer is beyond the digit limit. -/
  | tooLong
  /-- A value that is neither a node nor a sequence is no program. -/
  | notSequence
  deriving DecidableEq, Repr

/-- The wording of a fault. -/
def PrintFault.message : PrintFault → String
  | .notNode sort => "Cannot print " ++ sort
  | .tooLong => Numeral.writeLimitMessage
  | .notSequence => "Not a sequence"

/-- A head and its parts between parentheses. -/
def parenthesized (head : String) (parts : List String) : String :=
  "(" ++ head ++ String.join (parts.map (" " ++ ·)) ++ ")"

/-- A dump as a printed form. -/
def dumped : Option String → Except PrintFault String
  | some text => .ok text
  | none => .error .tooLong

/-- The printed form of a literal. -/
def Literal.render : Literal → Except PrintFault String
  | .nil => .ok "nil"
  | .bool b => .ok (if b then "true" else "false")
  | .text s => .ok ("\"" ++ s ++ "\"")
  | value => dumped value.dump?

/-- The lexeme of a token in a tree; empty for any other value. -/
def Tree.lexeme : Tree → String
  | .token found => found.lexeme
  | _ => ""

mutual

/-- The printed form of a node. -/
def Tree.render : Tree → Except PrintFault String
  | .node .assign [.token name, value] => do
      return parenthesized "=" [name.lexeme, ← value.render]
  | .node .binary [left, .token operator, right] => do
      return parenthesized operator.lexeme [← left.render, ← right.render]
  | .node .call [callee, .token _, .seq arguments] => do
      return parenthesized "call" ((← callee.render) :: (← Tree.renderAll arguments))
  | .node .grouping [inner] => do
      return parenthesized "group" [← inner.render]
  | .node .literal [.leaf value] => value.render
  | .node .literal [value] => dumped value.dump?
  | .node .logical [left, .token operator, right] => do
      return parenthesized operator.lexeme [← left.render, ← right.render]
  | .node .unary [.token operator, right] => do
      return parenthesized operator.lexeme [← right.render]
  | .node .lookup [.token name] => .ok name.lexeme
  | .node .block [.seq body] => do
      return parenthesized "block" (← Tree.renderAll body)
  | .node .expression [value] => do
      return parenthesized ";" [← value.render]
  | .node .function [.token name, .seq parameters, .seq body] => do
      let signature := "(" ++ " ".intercalate (parameters.map Tree.lexeme) ++ ")"
      return parenthesized "fun" (name.lexeme :: signature :: (← Tree.renderAll body))
  | .node .branch [condition, thenBranch, .absent] => do
      return parenthesized "if" [← condition.render, ← thenBranch.render]
  | .node .branch [condition, thenBranch, elseBranch] => do
      return parenthesized "if-else"
        [← condition.render, ← thenBranch.render, ← elseBranch.render]
  | .node .print [value] => do
      return parenthesized "print" [← value.render]
  | .node .giveBack [.token _, .absent] => .ok "(return)"
  | .node .giveBack [.token _, value] => do
      return parenthesized "return" [← value.render]
  | .node .declare [.token name, .absent] => .ok (parenthesized "var" [name.lexeme])
  | .node .declare [.token name, initializer] => do
      return parenthesized "var" [name.lexeme, "=", ← initializer.render]
  | .node .loop [condition, body] => do
      return parenthesized "while" [← condition.render, ← body.render]
  | tree => .error (.notNode tree.sort)

/-- The printed forms of nodes. -/
def Tree.renderAll : List Tree → Except PrintFault (List String)
  | [] => .ok []
  | tree :: trees => do
      return (← tree.render) :: (← Tree.renderAll trees)

end

/-- The printed form of a node, or of the nodes of a sequence one on each line. -/
def Tree.print : Tree → Except PrintFault String
  | .node kind fields => (Tree.node kind fields).render
  | .seq items => (Tree.renderAll items).map ("\n".intercalate ·)
  | .leaf (.text text) => if text.isEmpty then .ok "" else .error (.notNode (Literal.text text).sort)
  | _ => .error .notSequence

/-! ### Printed programs -/

/-- The printed form of an expression. -/
def Expr.render (e : Expr) : Except PrintFault String := e.toTree.render

/-- The printed form of a statement. -/
def Stmt.render (s : Stmt) : Except PrintFault String := s.toTree.render

/-- The printed form of a program, one statement on each line. -/
def Stmt.printAll (program : List Stmt) : Except PrintFault String :=
  (Tree.seq (Stmt.toTrees program)).print

end LoxLang
