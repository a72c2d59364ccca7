/-
Comparing trees.

Two trees are the same if they have the same shape and the same values in it.  Numbers compare by
value whatever their type, a boolean counts as the number zero or one, and NaN differs from itself.

Main definitions:

* `LoxLang.Literal.toNumber?` — the number that a literal counts as;
* `LoxLang.Literal.same`, `LoxLang.Token.same`, `LoxLang.Tree.same` — sameness.
-/

import LoxLang.Syntax.Tree

set_option relaxedAutoImplicit false
set_option autoImplicit false

namespace LoxLang

/-- The number that a literal counts as in comparisons of trees. -/
def Literal.toNumber? : Literal → Option Number
  | .number n => some n
  | .bool b => some (.int (if b then 1 else 0))
  | _ => none

/-- The literals are the same. -/
def Literal.same (x y : Literal) : Bool :=
  match x.toNumber?, y.toNumber? with
  | some m, some n => m.same n
  | none, none => x = y
  | _, _ => false

/-- The tokens are the same, in their lines too. -/
def Token.same (x y : Token) : Bool :=
  x.kind = y.kind && x.lexeme = y.lexeme && x.line = y.line &&
    match x.literal, y.literal with
    | none, none => true
    | some value, some other => value.same other
    | _, _ => false

mutual

/-- The trees are the same. -/
def Tree.same : Tree → Tree → Bool
  | .absent, .absent => true
  | .leaf x, .leaf y => x.same y
  | .token x, .token y => x.same y
  | .seq xs, .seq ys => Tree.allSame xs ys
  | .node kind xs, .node other ys => kind = other && Tree.allSame xs ys
  | _, _ => false

/-- The trees are the same one by one. -/
def Tree.allSame : List Tree → List Tree → Bool
  | [], [] => true
  | x :: xs, y :: ys => x.same y && Tree.allSame xs ys
  | _, _ => false

end

end LoxLang
