/-
**The grammar of programs.**

`LoxLang/Syntax/Parser.lean` reads tokens from left to right with one token of lookahead.  This module
says what a program *is*, without any reading order: which lists of tokens are the phrases of the
language, and which tree each phrase stands for.

```
program     → declaration* end
declaration → "fun" name "(" parameters? ")" block | variable | statement
variable    → "var" name ("=" expression)? ";"
statement   → expression ";" | "print" expression ";" | "return" expression? ";" | block
            | "if" "(" expression ")" statement ("else" statement)?
            | "while" "(" expression ")" statement
            | "for" "(" (";" | variable | expression ";") expression? ";" expression? ")" statement
expression  → name "=" expression | disjunction
disjunction → (disjunction "or")? conjunction
conjunction → (conjunction "and")? equality
equality    → (equality ("!=" | "=="))? comparison
comparison  → (comparison (">" | ">=" | "<" | "<="))? term
term        → (term ("-" | "+"))? factor
factor      → (factor ("/" | "*"))? unary
unary       → ("!" | "-") unary | call
call        → primary | call "(" arguments? ")"
primary     → "true" | "false" | "nil" | number | string | name | "(" expression ")"
```

The side conditions are indices and premises: a statement is derived for a place inside or outside
function bodies, and a `return` only inside; calls and functions have at most
`LoxLang.maxArguments` arguments and parameters.  An `else` belongs to the nearest `if` that lacks
one: a statement that *dangles*, that is, ends in an `if` without an `else`, is never the branch in
front of an `else`.

* `LoxLang.Grammar.Tier`, `LoxLang.Grammar.Expression` — the expressions of each precedence;
* `LoxLang.Grammar.Statement`, `Declaration`, `Declarations`, `Program` — statements and programs;
* `LoxLang.Grammar.forTree` — the loop that a `for` statement stands for;
* `LoxLang.Grammar.Expression.lookup_inv` — only a bare name stands for the look-up of a name.
-/

import LoxLang.Syntax.Parser

set_option relaxedAutoImplicit false
set_option autoImplicit false

namespace LoxLang.Grammar

/-! ### Expressions -/

/-- The precedences of expressions, from the loosest to the tightest. -/
inductive Tier where
  | assignment
  | disjunction
  | conjunction
  | equality
  | comparison
  | term
  | factor
  | unary
  | call
  | primary

mutual

/-- The tokens are an expression of the given precedence, which stands for the given tree. -/
inductive Expression : Tier → List Token → Expr → Prop
  | assign {name equals : Token} {ts : List Token} {value : Expr}
      (hn : name.kind = .identifier) (he : equals.kind = .equal)
      (hv : Expression .assignment ts value) :
      Expression .assignment (name :: equals :: ts) (.assign name value)
  | ofDisjunction {ts : List Token} {e : Expr} (h : Expression .disjunction ts e) :
      Expression .assignment ts e
  | or {ts us : List Token} {op : Token} {x y : Expr}
      (hx : Expression .disjunction ts x) (ho : op.kind = .orWord)
      (hy : Expression .conjunction us y) :
      Expression .disjunction (ts ++ op :: us) (.logical x op y)
  | ofConjunction {ts : List Token} {e : Expr} (h : Expression .conjunction ts e) :
      Expression .disjunction ts e
  | and {ts us : List Token} {op : Token} {x y : Expr}
      (hx : Expression .conjunction ts x) (ho : op.kind = .andWord)
      (hy : Expression .equality us y) :
      Expression .conjunction (ts ++ op :: us) (.logical x op y)
  | ofEquality {ts : List Token} {e : Expr} (h : Expression .equality ts e) :
      Expression .conjunction ts e
  | equality {ts us : List Token} {op : Token} {x y : Expr}
      (hx : Expression .equality ts x) (ho : op.kind = .bangEqual ∨ op.kind = .equalEqual)
      (hy : Expression .comparison us y) :
      Expression .equality (ts ++ op :: us) (.binary x op y)
  | ofComparison {ts : List Token} {e : Expr} (h : Expression .comparison ts e) :
      Expression .equality ts e
  | comparison {ts us : List Token} {op : Token} {x y : Expr}
      (hx : Expression .comparison ts x)
      (ho : op.kind = .greater ∨ op.kind = .greaterEqual ∨ op.kind = .less ∨ op.kind = .lessEqual)
      (hy : Expression .term us y) :
      Expression .comparison (ts ++ op :: us) (.binary x op y)
  | ofTerm {ts : List Token} {e : Expr} (h : Expression .term ts e) :
      Expression .comparison ts e
  | term {ts us : List Token} {op : Token} {x y : Expr}
      (hx : Expression .term ts x) (ho : op.kind = .minus ∨ op.kind = .plus)
      (hy : Expression .factor us y) :
      Expression .term (ts ++ op :: us) (.binary x op y)
  | ofFactor {ts : List Token} {e : Expr} (h : Expression .factor ts e) :
      Expression .term ts e
  | factor {ts us : List Token} {op : Token} {x y : Expr}
      (hx : Expression .factor ts x) (ho : op.kind = .slash ∨ op.kind = .star)
      (hy : Expression .unary us y) :
      Expression .factor (ts ++ op :: us) (.binary x op y)
  | ofUnary {ts : List Token} {e : Expr} (h : Expression .unary ts e) :
      Expression .factor ts e
  | unary {ts : List Token} {op : Token} {x : Expr}
      (ho : op.kind = .bang ∨ op.kind = .minus) (hx : Expression .unary ts x) :
      Expression .unary (op :: ts) (.unary op x)
  | ofCall {ts : List Token} {e : Expr} (h : Expression .call ts e) :
      Expression .unary ts e
  | callEmpty {ts : List Token} {opening closing : Token} {callee : Expr}
      (hc : Expression .call ts callee)
      (ho : opening.kind = .leftParen) (he : closing.kind = .rightParen) :
      Expression .call (ts ++ [opening, closing]) (.call callee closing [])
  | call {ts us : List Token} {opening closing : Token} {callee : Expr} {args : List Expr}
      (hc : Expression .call ts callee) (ho : opening.kind = .leftParen)
      (ha : Arguments us args) (hl : args.length ≤ maxArguments)
      (he : closing.kind = .rightParen) :
      Expression .call (ts ++ opening :: (us ++ [closing])) (.call callee closing args)
  | ofPrimary {ts : List Token} {e : Expr} (h : Expression .primary ts e) :
      Expression .call ts e
  | true {t : Token} (h : t.kind = .trueWord) : Expression .primary [t] (.literal (.bool true))
  | false {t : Token} (h : t.kind = .falseWord) : Expression .primary [t] (.literal (.bool false))
  | nil {t : Token} (h : t.kind = .nilWord) : Expression .primary [t] (.literal .nil)
  | literal {t : Token} {v : Literal} (h : t.kind = .number ∨ t.kind = .string)
      (hv : t.literal = some v) : Expression .primary [t] (.literal v)
  | lookup {t : Token} (h : t.kind = .identifier) : Expression .primary [t] (.lookup t)
  | grouping {ts : List Token} {opening closing : Token} {e : Expr}
      (ho : opening.kind = .leftParen) (h : Expression .assignment ts e)
      (he : closing.kind = .rightParen) :
      Expression .primary (opening :: (ts ++ [closing])) (.grouping e)

/-- At least one expression, with a comma between any two. -/
inductive Arguments : List Token → List Expr → Prop
  | one {ts : List Token} {e : Expr} (h : Expression .assignment ts e) : Arguments ts [e]
  | more {ts us : List Token} {comma : Token} {e : Expr} {es : List Expr}
      (h : Expression .assignment ts e) (hc : comma.kind = .comma) (hs : Arguments us es) :
      Arguments (ts ++ comma :: us) (e :: es)

end

/-! ### Simple phrases -/

/-- At least one name, with a comma between any two. -/
inductive Parameters : List Token → List Token → Prop
  | one {name : Token} (h : name.kind = .identifier) : Parameters [name] [name]
  | more {name comma : Token} {ts names : List Token} (h : name.kind = .identifier)
      (hc : comma.kind = .comma) (hs : Parameters ts names) :
      Parameters (name :: comma :: ts) (name :: names)

/-- The parameters of a function, which may have none. -/
inductive ParameterList : List Token → List Token → Prop
  | none : ParameterList [] []
  | some {ts names : List Token} (h : Parameters ts names) (hl : names.length ≤ maxArguments) :
      ParameterList ts names

/-- An expression, or nothing. -/
inductive Optional : List Token → Option Expr → Prop
  | none : Optional [] none
  | some {ts : List Token} {e : Expr} (h : Expression .assignment ts e) : Optional ts (some e)

/-- A variable declaration. -/
inductive Variable : List Token → Stmt → Prop
  | bare {var name semicolon : Token} (hv : var.kind = .varWord) (hn : name.kind = .identifier)
      (hs : semicolon.kind = .semicolon) : Variable [var, name, semicolon] (.declare name none)
  | initialized {var name equals semicolon : Token} {ts : List Token} {e : Expr}
      (hv : var.kind = .varWord) (hn : name.kind = .identifier) (he : equals.kind = .equal)
      (h : Expression .assignment ts e) (hs : semicolon.kind = .semicolon) :
      Variable (var :: name :: equals :: (ts ++ [semicolon])) (.declare name (some e))

/-- The first clause of a `for` statement. -/
inductive Initializer : List Token → Option Stmt → Prop
  | none {semicolon : Token} (hs : semicolon.kind = .semicolon) : Initializer [semicolon] none
  | variable {ts : List Token} {s : Stmt} (h : Variable ts s) : Initializer ts (some s)
  | expression {ts : List Token} {semicolon : Token} {e : Expr}
      (h : Expression .assignment ts e) (hs : semicolon.kind = .semicolon) :
      Initializer (ts ++ [semicolon]) (some (.expression e))

/-- The condition of a loop: one that is left out is true. -/
def orTrue : Option Expr → Expr
  | none => .literal (.bool true)
  | some e => e

/-- The tree of a `for` statement: no outer block without an initializer, and no inner block without
an increment. -/
def forTree : Option Stmt → Option Expr → Option Expr → Stmt → Stmt
  | none, condition, none, body => .loop (orTrue condition) body
  | none, condition, some increment, body =>
      .loop (orTrue condition) (.block [body, .expression increment])
  | some first, condition, none, body => .block [first, .loop (orTrue condition) body]
  | some first, condition, some increment, body =>
      .block [first, .loop (orTrue condition) (.block [body, .expression increment])]

/-! ### Statements and declarations -/

mutual

/-- The tokens are a statement that stands for the given tree.  The first index says whether the
place is inside a function body, the second whether the statement ends in an `if` without an
`else`. -/
inductive Statement : Bool → Bool → List Token → Stmt → Prop
  | expression {inside : Bool} {ts : List Token} {semicolon : Token} {e : Expr}
      (h : Expression .assignment ts e) (hs : semicolon.kind = .semicolon) :
      Statement inside false (ts ++ [semicolon]) (.expression e)
  | print {inside : Bool} {ts : List Token} {word semicolon : Token} {e : Expr}
      (hw : word.kind = .printWord) (h : Expression .assignment ts e)
      (hs : semicolon.kind = .semicolon) :
      Statement inside false (word :: (ts ++ [semicolon])) (.print e)
  | giveBack {ts : List Token} {word semicolon : Token} {value : Option Expr}
      (hw : word.kind = .returnWord) (h : Optional ts value) (hs : semicolon.kind = .semicolon) :
      Statement true false (word :: (ts ++ [semicolon])) (.giveBack word value)
  | block {inside : Bool} {ts : List Token} {opening closing : Token} {body : List Stmt}
      (ho : opening.kind = .leftBrace) (h : Declarations inside ts body)
      (he : closing.kind = .rightBrace) :
      Statement inside false (opening :: (ts ++ [closing])) (.block body)
  | branch {inside dangling : Bool} {ts us : List Token} {word opening closing : Token}
      {condition : Expr} {s : Stmt}
      (hw : word.kind = .ifWord) (ho : opening.kind = .leftParen)
      (hc : Expression .assignment ts condition) (he : closing.kind = .rightParen)
      (h : Statement inside dangling us s) :
      Statement inside true (word :: opening :: (ts ++ closing :: us)) (.branch condition s none)
  | branchElse {inside dangling : Bool} {ts us vs : List Token}
      {word opening closing other : Token} {condition : Expr} {s s' : Stmt}
      (hw : word.kind = .ifWord) (ho : opening.kind = .leftParen)
      (hc : Expression .assignment ts condition) (he : closing.kind = .rightParen)
      (h : Statement inside false us s) (hl : other.kind = .elseWord)
      (h' : Statement inside dangling vs s') :
      Statement inside dangling (word :: opening :: (ts ++ closing :: (us ++ other :: vs)))
        (.branch condition s (some s'))
  | loop {inside dangling : Bool} {ts us : List Token} {word opening closing : Token}
      {condition : Expr} {s : Stmt}
      (hw : word.kind = .whileWord) (ho : opening.kind = .leftParen)
      (hc : Expression .assignment ts condition) (he : closing.kind = .rightParen)
      (h : Statement inside dangling us s) :
      Statement inside dangling (word :: opening :: (ts ++ closing :: us)) (.loop condition s)
  | forLoop {inside dangling : Bool} {ts us vs ws : List Token}
      {word opening semicolon closing : Token} {first : Option Stmt}
      {condition increment : Option Expr} {s : Stmt}
      (hw : word.kind = .forWord) (ho : opening.kind = .leftParen)
      (hi : Initializer ts first) (hc : Optional us condition)
      (hs : semicolon.kind = .semicolon) (hn : Optional vs increment)
      (he : closing.kind = .rightParen) (h : Statement inside dangling ws s) :
      Statement inside dangling
        (word :: opening :: (ts ++ (us ++ semicolon :: (vs ++ closing :: ws))))
        (forTree first condition increment s)

/-- The tokens are a declaration. -/
inductive Declaration : Bool → List Token → Stmt → Prop
  | function {inside : Bool} {ts us names : List Token}
      {word name opening closing brace closingBrace : Token} {body : List Stmt}
      (hw : word.kind = .funWord) (hn : name.kind = .identifier)
      (ho : opening.kind = .leftParen) (hp : ParameterList ts names)
      (he : closing.kind = .rightParen) (hb : brace.kind = .leftBrace)
      (h : Declarations true us body) (hc : closingBrace.kind = .rightBrace) :
      Declaration inside
        (word :: name :: opening :: (ts ++ closing :: brace :: (us ++ [closingBrace])))
        (.function name names body)
  | variable {inside : Bool} {ts : List Token} {s : Stmt} (h : Variable ts s) :
      Declaration inside ts s
  | statement {inside dangling : Bool} {ts : List Token} {s : Stmt}
      (h : Statement inside dangling ts s) : Declaration inside ts s

/-- The tokens are declarations in a row. -/
inductive Declarations : Bool → List Token → List Stmt → Prop
  | nil {inside : Bool} : Declarations inside [] []
  | cons {inside : Bool} {ts us : List Token} {s : Stmt} {ss : List Stmt}
      (h : Declaration inside ts s) (hs : Declarations inside us ss) :
      Declarations inside (ts ++ us) (s :: ss)

end

/-- The tokens are a program: declarations outside function bodies, and the token that ends the
source text. -/
inductive Program : List Token → List Stmt → Prop
  | intro {ts : List Token} {ending : Token} {ss : List Stmt} (h : Declarations false ts ss)
      (he : ending.kind = .endOfSource) : Program (ts ++ [ending]) ss

/-! ### Small facts -/

/-- The loop that the parser answers for a `for` statement is the one of the grammar. -/
theorem forLoop_eq_forTree (first : Option Stmt) (condition increment : Option Expr) (body : Stmt) :
    forLoop first condition increment body = forTree first condition increment body := by
  cases first <;> cases condition <;> cases increment <;> rfl

/-- Programs may be joined: nothing that follows changes what declarations mean. -/
theorem Declarations.append {inside : Bool} {ts us : List Token} {ss ss' : List Stmt} :
    Declarations inside ts ss → Declarations inside us ss' →
      Declarations inside (ts ++ us) (ss ++ ss') := by
  intro h h'
  induction ss generalizing ts with
  | nil =>
      cases h
      exact h'
  | cons s ss ih =>
      cases h with
      | cons hd hs =>
          rw [List.append_assoc]
          exact .cons hd (ih hs)

private theorem Expression.lookup_inv_aux : ∀ {tier : Tier} {ts : List Token} {e : Expr},
    Expression tier ts e → ∀ {name : Token}, e = .lookup name →
      ts = [name] ∧ name.kind = .identifier
  | _, _, _, .ofDisjunction h, _, he => h.lookup_inv_aux he
  | _, _, _, .ofConjunction h, _, he => h.lookup_inv_aux he
  | _, _, _, .ofEquality h, _, he => h.lookup_inv_aux he
  | _, _, _, .ofComparison h, _, he => h.lookup_inv_aux he
  | _, _, _, .ofTerm h, _, he => h.lookup_inv_aux he
  | _, _, _, .ofFactor h, _, he => h.lookup_inv_aux he
  | _, _, _, .ofUnary h, _, he => h.lookup_inv_aux he
  | _, _, _, .ofCall h, _, he => h.lookup_inv_aux he
  | _, _, _, .ofPrimary h, _, he => h.lookup_inv_aux he
  | _, _, _, .lookup h, _, he => by cases he; exact ⟨rfl, h⟩
  | _, _, _, .assign .., _, he => by cases he
  | _, _, _, .or .., _, he => by cases he
  | _, _, _, .and .., _, he => by cases he
  | _, _, _, .equality .., _, he => by cases he
  | _, _, _, .comparison .., _, he => by cases he
  | _, _, _, .term .., _, he => by cases he
  | _, _, _, .factor .., _, he => by cases he
  | _, _, _, .unary .., _, he => by cases he
  | _, _, _, .callEmpty .., _, he => by cases he
  | _, _, _, .call .., _, he => by cases he
  | _, _, _, .true .., _, he => by cases he
  | _, _, _, .false .., _, he => by cases he
  | _, _, _, .nil .., _, he => by cases he
  | _, _, _, .literal .., _, he => by cases he
  | _, _, _, .grouping .., _, he => by cases he

/-- Only a bare name stands for the look-up of a name. -/
theorem Expression.lookup_inv {tier : Tier} {ts : List Token} {name : Token}
    (h : Expression tier ts (.lookup name)) : ts = [name] ∧ name.kind = .identifier :=
  h.lookup_inv_aux rfl

end LoxLang.Grammar
