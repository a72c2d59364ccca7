/-
**The rules of the parser are put together from small parsers.**

A rule of `LoxLang/Syntax/Parser.lean` reads tokens with the small parsers of
`LoxLang/Syntax/ParserState.lean` only, and puts them together in three ways: one behind the other,
inside a function body, and with an error taken over.  So a relation between parsers that the small
ones are in with themselves, and that these three ways keep, holds between a rule and the same rule
with other fuel.  The rules are gone through once here; a statement about two runs of the parser is
then one about the small parsers.

The first of them: a rule does not look at the errors recorded before, and with other fuel it
answers the same or runs out.

* `LoxLang.Parser.Rule` — the rules, each with all its amounts of fuel;
* `LoxLang.Parser.Congruence` — what the small parsers and the ways to put parsers together keep;
* `LoxLang.Parser.Congruence.rule` — **a congruence holds of every rule**;
* `LoxLang.Parser.Rule.unaffected` — earlier errors and the fuel do not matter.
-/

import LoxLang.Proofs.Syntax.ParserReplies
import LoxLang.Proofs.Syntax.ParserSteps

set_option relaxedAutoImplicit false
set_option autoImplicit false

namespace LoxLang

namespace Parser

/-! ### Rules -/

/-- The rules of the grammar, each a parser for every amount of fuel. -/
inductive Rule : {α : Type} → (Nat → Parser α) → Prop
  | expression : Rule expression
  | operand (levels : List Level) : Rule fun fuel => operand fuel levels
  | operations (level : Level) (tighter : List Level) (left : Expr) :
      Rule fun fuel => operations fuel level tighter left
  | unary : Rule unary
  | calls (callee : Expr) : Rule fun fuel => calls fuel callee
  | argumentList : Rule argumentList
  | arguments (before : Nat) : Rule fun fuel => arguments fuel before
  | primary : Rule primary
  | parameters (before : Nat) : Rule fun fuel => parameters fuel before
  | parameterList : Rule parameterList
  | optionalExpression (stop : TokenKind) : Rule fun fuel => optionalExpression fuel stop
  | initializer : Rule initializer
  | variableDeclaration : Rule variableDeclaration
  | expressionStatement : Rule expressionStatement
  | printStatement : Rule printStatement
  | returnStatement (keyword : Token) : Rule fun fuel => returnStatement fuel keyword
  | declaration : Rule declaration
  | bareDeclaration : Rule bareDeclaration
  | function : Rule function
  | statement : Rule statement
  | forStatement : Rule forStatement
  | forInitializer : Rule forInitializer
  | ifStatement : Rule ifStatement
  | whileStatement : Rule whileStatement
  | block : Rule block
  | blockItems : Rule blockItems
  | program : Rule program

/-! ### Congruences -/

/-- A relation between parsers that the small parsers are in with themselves and that putting
parsers together keeps.  A parser without fuel is related to all others, and to it are all that only
move forward. -/
structure Congruence (R : (α : Type) → Parser α → Parser α → Prop) : Prop where
  outOfFuel_left : ∀ {α} (q : Parser α), R α outOfFuel q
  outOfFuel_right : ∀ {α} {p : Parser α}, p.Proceeds → R α p outOfFuel
  pure : ∀ {α} (a : α), R α (Pure.pure a) (Pure.pure a)
  peek : R Token peek peek
  advance : R Unit advance advance
  check : ∀ test, R Bool (check test) (check test)
  accept : ∀ test, R (Option Token) (accept test) (accept test)
  note : ∀ token cause, R Unit (note token cause) (note token cause)
  giveUp : ∀ {α} expectation, R α (giveUp expectation) (giveUp expectation)
  literalOf : ∀ token, R Literal (literalOf token) (literalOf token)
  depth : R Nat depth depth
  bind : ∀ {α β} {p q : Parser α} {f g : α → Parser β}, R α p q → (∀ a, R β (f a) (g a)) →
    R β (p >>= f) (q >>= g)
  nested : ∀ {α} {p q : Parser α}, R α p q → R α (nested p) (nested q)
  recovering : ∀ {α} {p q : Parser α}, R α p q → R (Option α) (recovering p) (recovering q)

namespace Congruence

variable {R : (α : Type) → Parser α → Parser α → Prop} (h : Congruence R)

include h

/-- A token that is expected is accepted, or the parser gives up. -/
theorem expect (kind : TokenKind) (expectation : Expectation) :
    R Token (expect kind expectation) (Parser.expect kind expectation) := by
  refine h.bind (h.accept _) fun found => ?_
  cases found with
  | none => exact h.giveUp _
  | some token => exact h.pure _

/-- A limit is reported at the token ahead. -/
theorem noteExcess (before : Nat) (cause : SyntaxCause) :
    R Unit (noteExcess before cause) (Parser.noteExcess before cause) := by
  unfold Parser.noteExcess
  split
  · exact h.bind h.peek fun token => h.note token cause
  · exact h.pure ()

/-- A `return` outside of a function is told by the number of function bodies. -/
theorem noteTopLevel (keyword : Token) :
    R Unit (noteTopLevel keyword) (Parser.noteTopLevel keyword) := by
  refine h.bind h.depth fun n => ?_
  split
  · exact h.note _ _
  · exact h.pure ()

/-! ### Expressions -/

mutual

/-- An expression: the operands of all levels, and behind an equals sign the value. -/
theorem expression : ∀ fuel fuel', R Expr (expression fuel) (Parser.expression fuel')
  | 0, _ => h.outOfFuel_left _
  | _ + 1, 0 => h.outOfFuel_right (proceeds_expression _)
  | fuel + 1, fuel' + 1 => by
      rw [Parser.expression, Parser.expression]
      refine h.bind (operand fuel fuel' _) fun target => h.bind (h.accept _) fun found => ?_
      cases found with
      | none => exact h.pure _
      | some equals =>
          refine h.bind (expression fuel fuel') fun value => ?_
          cases target with
          | lookup name => exact h.pure _
          | _ => exact h.bind (h.note _ _) fun _ => h.pure _

/-- An operand of the levels given: the tighter ones first, then the operators of the loosest. -/
theorem operand : ∀ fuel fuel' levels, R Expr (operand fuel levels) (Parser.operand fuel' levels)
  | 0, _, _ => h.outOfFuel_left _
  | _ + 1, 0, _ => h.outOfFuel_right (proceeds_operand _ _)
  | fuel + 1, fuel' + 1, [] => by
      rw [Parser.operand, Parser.operand]
      exact unary fuel fuel'
  | fuel + 1, fuel' + 1, level :: tighter => by
      rw [Parser.operand, Parser.operand]
      exact h.bind (operand fuel fuel' tighter) fun left => operations fuel fuel' level tighter left

theorem operations : ∀ fuel fuel' level tighter left,
    R Expr (operations fuel level tighter left) (Parser.operations fuel' level tighter left)
  | 0, _, _, _, _ => h.outOfFuel_left _
  | _ + 1, 0, _, _, _ => h.outOfFuel_right (proceeds_operations _ _ _ _)
  | fuel + 1, fuel' + 1, level, tighter, left => by
      rw [Parser.operations, Parser.operations]
      refine h.bind (h.accept _) fun found => ?_
      cases found with
      | none => exact h.pure _
      | some operator =>
          exact h.bind (operand fuel fuel' tighter) fun right =>
            operations fuel fuel' level tighter _

/-- Operators in front, or a primary expression with its calls. -/
theorem unary : ∀ fuel fuel', R Expr (unary fuel) (Parser.unary fuel')
  | 0, _ => h.outOfFuel_left _
  | _ + 1, 0 => h.outOfFuel_right (proceeds_unary _)
  | fuel + 1, fuel' + 1 => by
      rw [Parser.unary, Parser.unary]
      refine h.bind (h.accept _) fun found => ?_
      cases found with
      | none => exact h.bind (primary fuel fuel') fun callee => calls fuel fuel' callee
      | some operator => exact h.bind (unary fuel fuel') fun right => h.pure _

theorem calls : ∀ fuel fuel' callee, R Expr (calls fuel callee) (Parser.calls fuel' callee)
  | 0, _, _ => h.outOfFuel_left _
  | _ + 1, 0, _ => h.outOfFuel_right (proceeds_calls _ _)
  | fuel + 1, fuel' + 1, callee => by
      rw [Parser.calls, Parser.calls]
      refine h.bind (h.accept _) fun found => ?_
      cases found with
      | none => exact h.pure _
      | some opening =>
          exact h.bind (argumentList fuel fuel') fun args => h.bind (h.expect _ _) fun paren =>
            calls fuel fuel' _

theorem argumentList : ∀ fuel fuel', R (List Expr) (argumentList fuel) (Parser.argumentList fuel')
  | 0, _ => h.outOfFuel_left _
  | _ + 1, 0 => h.outOfFuel_right (proceeds_argumentList _)
  | fuel + 1, fuel' + 1 => by
      rw [Parser.argumentList, Parser.argumentList]
      refine h.bind (h.check _) fun stop => ?_
      split
      · exact h.pure _
      · exact arguments fuel fuel' 0

theorem arguments : ∀ fuel fuel' before,
    R (List Expr) (arguments fuel before) (Parser.arguments fuel' before)
  | 0, _, _ => h.outOfFuel_left _
  | _ + 1, 0, _ => h.outOfFuel_right (proceeds_arguments _ _)
  | fuel + 1, fuel' + 1, before => by
      rw [Parser.arguments, Parser.arguments]
      refine h.bind (h.noteExcess _ _) fun _ => h.bind (expression fuel fuel') fun first => ?_
      refine h.bind (h.accept _) fun found => ?_
      cases found with
      | none => exact h.pure _
      | some comma => exact h.bind (arguments fuel fuel' _) fun others => h.pure _

/-- A primary expression, told by the kind of the token ahead. -/
theorem primary : ∀ fuel fuel', R Expr (primary fuel) (Parser.primary fuel')
  | 0, _ => h.outOfFuel_left _
  | _ + 1, 0 => h.outOfFuel_right (proceeds_primary _)
  | fuel + 1, fuel' + 1 => by
      rw [Parser.primary, Parser.primary]
      refine h.bind h.peek fun token => ?_
      split
      · exact h.bind h.advance fun _ => h.pure _
      · exact h.bind h.advance fun _ => h.pure _
      · exact h.bind h.advance fun _ => h.pure _
      · exact h.bind h.advance fun _ => h.bind (h.literalOf token) fun _ => h.pure _
      · exact h.bind h.advance fun _ => h.bind (h.literalOf token) fun _ => h.pure _
      · exact h.bind h.advance fun _ => h.pure _
      · exact h.bind h.advance fun _ => h.bind (expression fuel fuel') fun inner =>
          h.bind (h.expect _ _) fun _ => h.pure _
      · exact h.giveUp _

end

/-! ### Simple phrases -/

theorem parameters : ∀ fuel fuel' before,
    R (List Token) (parameters fuel before) (Parser.parameters fuel' before)
  | 0, _, _ => h.outOfFuel_left _
  | _ + 1, 0, _ => h.outOfFuel_right (proceeds_parameters _ _)
  | fuel + 1, fuel' + 1, before => by
      rw [Parser.parameters, Parser.parameters]
      refine h.bind (h.noteExcess _ _) fun _ => h.bind (h.expect _ _) fun first => ?_
      refine h.bind (h.accept _) fun found => ?_
      cases found with
      | none => exact h.pure _
      | some comma => exact h.bind (parameters fuel fuel' _) fun others => h.pure _

theorem parameterList (fuel fuel' : Nat) :
    R (List Token) (parameterList fuel) (Parser.parameterList fuel') := by
  refine h.bind (h.check _) fun stop => ?_
  split
  · exact h.pure _
  · exact h.parameters fuel fuel' 0

/-- An expression that is left out in front of the given kind. -/
theorem optionalExpression (fuel fuel' : Nat) (stop : TokenKind) :
    R (Option Expr) (optionalExpression fuel stop) (Parser.optionalExpression fuel' stop) := by
  refine h.bind (h.check _) fun found => ?_
  split
  · exact h.pure _
  · exact h.bind (h.expression fuel fuel') fun e => h.pure _

theorem initializer (fuel fuel' : Nat) :
    R (Option Expr) (initializer fuel) (Parser.initializer fuel') := by
  refine h.bind (h.accept _) fun found => ?_
  cases found with
  | none => exact h.pure _
  | some equals => exact h.bind (h.expression fuel fuel') fun e => h.pure _

theorem variableDeclaration (fuel fuel' : Nat) :
    R Stmt (variableDeclaration fuel) (Parser.variableDeclaration fuel') :=
  h.bind (h.expect _ _) fun _ => h.bind (h.initializer fuel fuel') fun _ =>
    h.bind (h.expect _ _) fun _ => h.pure _

theorem expressionStatement (fuel fuel' : Nat) :
    R Stmt (expressionStatement fuel) (Parser.expressionStatement fuel') :=
  h.bind (h.expression fuel fuel') fun _ => h.bind (h.expect _ _) fun _ => h.pure _

theorem printStatement (fuel fuel' : Nat) :
    R Stmt (printStatement fuel) (Parser.printStatement fuel') :=
  h.bind (h.expression fuel fuel') fun _ => h.bind (h.expect _ _) fun _ => h.pure _

theorem returnStatement (fuel fuel' : Nat) (keyword : Token) :
    R Stmt (returnStatement fuel keyword) (Parser.returnStatement fuel' keyword) :=
  h.bind (h.noteTopLevel keyword) fun _ => h.bind (h.optionalExpression fuel fuel' _) fun _ =>
    h.bind (h.expect _ _) fun _ => h.pure _

/-- The initializer of a `for` loop: none, a declaration or an expression. -/
theorem forInitializer : ∀ fuel fuel',
    R (Option Stmt) (forInitializer fuel) (Parser.forInitializer fuel')
  | 0, _ => h.outOfFuel_left _
  | _ + 1, 0 => h.outOfFuel_right (proceeds_forInitializer _)
  | fuel + 1, fuel' + 1 => by
      rw [Parser.forInitializer, Parser.forInitializer]
      refine h.bind (h.accept _) fun found => ?_
      cases found with
      | some semicolon => exact h.pure _
      | none =>
          refine h.bind (h.accept _) fun found => ?_
          cases found with
          | some word => exact h.bind (h.variableDeclaration fuel fuel') fun _ => h.pure _
          | none => exact h.bind (h.expressionStatement fuel fuel') fun _ => h.pure _

/-! ### Statements and declarations -/

mutual

/-- A declaration, of which an error is taken over. -/
theorem declaration : ∀ fuel fuel', R (Option Stmt) (declaration fuel) (Parser.declaration fuel')
  | 0, _ => h.outOfFuel_left _
  | _ + 1, 0 => h.outOfFuel_right (proceeds_declaration _)
  | fuel + 1, fuel' + 1 => by
      rw [Parser.declaration, Parser.declaration]
      exact h.recovering (bareDeclaration fuel fuel')

/-- A declaration by its keyword, or a statement. -/
theorem bareDeclaration : ∀ fuel fuel', R Stmt (bareDeclaration fuel) (Parser.bareDeclaration fuel')
  | 0, _ => h.outOfFuel_left _
  | _ + 1, 0 => h.outOfFuel_right (proceeds_bareDeclaration _)
  | fuel + 1, fuel' + 1 => by
      rw [Parser.bareDeclaration, Parser.bareDeclaration]
      refine h.bind (h.accept _) fun found => ?_
      cases found with
      | some word => exact function fuel fuel'
      | none =>
          refine h.bind (h.accept _) fun found => ?_
          cases found with
          | some word => exact h.variableDeclaration fuel fuel'
          | none => exact statement fuel fuel'

/-- A function, whose body is read inside one function body more. -/
theorem function : ∀ fuel fuel', R Stmt (function fuel) (Parser.function fuel')
  | 0, _ => h.outOfFuel_left _
  | _ + 1, 0 => h.outOfFuel_right (proceeds_function _)
  | fuel + 1, fuel' + 1 => by
      rw [Parser.function, Parser.function]
      refine h.bind (h.expect _ _) fun name => h.bind (h.expect _ _) fun _ => ?_
      refine h.bind (h.parameterList fuel fuel') fun names => ?_
      refine h.bind (h.expect _ _) fun _ => h.bind (h.expect _ _) fun _ => ?_
      exact h.bind (h.nested (block fuel fuel')) fun body => h.pure _

/-- A statement, told by the kind of the token ahead. -/
theorem statement : ∀ fuel fuel', R Stmt (statement fuel) (Parser.statement fuel')
  | 0, _ => h.outOfFuel_left _
  | _ + 1, 0 => h.outOfFuel_right (proceeds_statement _)
  | fuel + 1, fuel' + 1 => by
      rw [Parser.statement, Parser.statement]
      refine h.bind h.peek fun token => ?_
      split
      · exact h.bind h.advance fun _ => forStatement fuel fuel'
      · exact h.bind h.advance fun _ => ifStatement fuel fuel'
      · exact h.bind h.advance fun _ => h.printStatement fuel fuel'
      · exact h.bind h.advance fun _ => h.returnStatement fuel fuel' token
      · exact h.bind h.advance fun _ => whileStatement fuel fuel'
      · exact h.bind h.advance fun _ => h.bind (block fuel fuel') fun _ => h.pure _
      · exact h.expressionStatement fuel fuel'

theorem forStatement : ∀ fuel fuel', R Stmt (forStatement fuel) (Parser.forStatement fuel')
  | 0, _ => h.outOfFuel_left _
  | _ + 1, 0 => h.outOfFuel_right (proceeds_forStatement _)
  | fuel + 1, fuel' + 1 => by
      rw [Parser.forStatement, Parser.forStatement]
      refine h.bind (h.expect _ _) fun _ => h.bind (h.forInitializer fuel fuel') fun _ => ?_
      refine h.bind (h.optionalExpression fuel fuel' _) fun _ => h.bind (h.expect _ _) fun _ => ?_
      refine h.bind (h.optionalExpression fuel fuel' _) fun _ => h.bind (h.expect _ _) fun _ => ?_
      exact h.bind (statement fuel fuel') fun _ => h.pure _

theorem ifStatement : ∀ fuel fuel', R Stmt (ifStatement fuel) (Parser.ifStatement fuel')
  | 0, _ => h.outOfFuel_left _
  | _ + 1, 0 => h.outOfFuel_right (proceeds_ifStatement _)
  | fuel + 1, fuel' + 1 => by
      rw [Parser.ifStatement, Parser.ifStatement]
      refine h.bind (h.expect _ _) fun _ => h.bind (h.expression fuel fuel') fun _ => ?_
      refine h.bind (h.expect _ _) fun _ => h.bind (statement fuel fuel') fun _ => ?_
      refine h.bind (h.accept _) fun found => ?_
      cases found with
      | none => exact h.pure _
      | some word => exact h.bind (statement fuel fuel') fun _ => h.pure _

theorem whileStatement : ∀ fuel fuel', R Stmt (whileStatement fuel) (Parser.whileStatement fuel')
  | 0, _ => h.outOfFuel_left _
  | _ + 1, 0 => h.outOfFuel_right (proceeds_whileStatement _)
  | fuel + 1, fuel' + 1 => by
      rw [Parser.whileStatement, Parser.whileStatement]
      refine h.bind (h.expect _ _) fun _ => h.bind (h.expression fuel fuel') fun _ => ?_
      exact h.bind (h.expect _ _) fun _ => h.bind (statement fuel fuel') fun _ => h.pure _

theorem block : ∀ fuel fuel', R (List Stmt) (block fuel) (Parser.block fuel')
  | 0, _ => h.outOfFuel_left _
  | _ + 1, 0 => h.outOfFuel_right (proceeds_block _)
  | fuel + 1, fuel' + 1 => by
      rw [Parser.block, Parser.block]
      exact h.bind (blockItems fuel fuel') fun _ => h.bind (h.expect _ _) fun _ => h.pure _

theorem blockItems : ∀ fuel fuel', R (List Stmt) (blockItems fuel) (Parser.blockItems fuel')
  | 0, _ => h.outOfFuel_left _
  | _ + 1, 0 => h.outOfFuel_right (proceeds_blockItems _)
  | fuel + 1, fuel' + 1 => by
      rw [Parser.blockItems, Parser.blockItems]
      refine h.bind h.peek fun token => ?_
      split
      · exact h.pure _
      · exact h.bind (declaration fuel fuel') fun _ => h.bind (blockItems fuel fuel') fun _ =>
          h.pure _

end

theorem program : ∀ fuel fuel', R (List Stmt) (program fuel) (Parser.program fuel')
  | 0, _ => h.outOfFuel_left _
  | _ + 1, 0 => h.outOfFuel_right (proceeds_program _)
  | fuel + 1, fuel' + 1 => by
      rw [Parser.program, Parser.program]
      refine h.bind h.peek fun token => ?_
      split
      · exact h.pure _
      · exact h.bind (h.declaration fuel fuel') fun _ => h.bind (program fuel fuel') fun _ =>
          h.pure _

/-- **A congruence holds between a rule and the same rule with other fuel.** -/
theorem rule {α : Type} {p : Nat → Parser α} (hp : Rule p) (fuel fuel' : Nat) :
    R α (p fuel) (p fuel') := by
  cases hp with
  | expression => exact h.expression fuel fuel'
  | operand levels => exact h.operand fuel fuel' levels
  | operations level tighter left => exact h.operations fuel fuel' level tighter left
  | unary => exact h.unary fuel fuel'
  | calls callee => exact h.calls fuel fuel' callee
  | argumentList => exact h.argumentList fuel fuel'
  | arguments before => exact h.arguments fuel fuel' before
  | primary => exact h.primary fuel fuel'
  | parameters before => exact h.parameters fuel fuel' before
  | parameterList => exact h.parameterList fuel fuel'
  | optionalExpression stop => exact h.optionalExpression fuel fuel' stop
  | initializer => exact h.initializer fuel fuel'
  | variableDeclaration => exact h.variableDeclaration fuel fuel'
  | expressionStatement => exact h.expressionStatement fuel fuel'
  | printStatement => exact h.printStatement fuel fuel'
  | returnStatement keyword => exact h.returnStatement fuel fuel' keyword
  | declaration => exact h.declaration fuel fuel'
  | bareDeclaration => exact h.bareDeclaration fuel fuel'
  | function => exact h.function fuel fuel'
  | statement => exact h.statement fuel fuel'
  | forStatement => exact h.forStatement fuel fuel'
  | forInitializer => exact h.forInitializer fuel fuel'
  | ifStatement => exact h.ifStatement fuel fuel'
  | whileStatement => exact h.whileStatement fuel fuel'
  | block => exact h.block fuel fuel'
  | blockItems => exact h.blockItems fuel fuel'
  | program => exact h.program fuel fuel'

end Congruence

end Parser

/-! ### Earlier errors and the fuel -/

/-- The same state, with errors recorded before. -/
def ParserState.after (s : ParserState) (earlier : List SyntaxError) : ParserState :=
  { s with errors := earlier ++ s.errors }

/-- The same reply, with errors recorded before. -/
def Reply.after {α : Type} (r : Reply α) (earlier : List SyntaxError) : Reply α :=
  match r with
  | .ok value s => .ok value (s.after earlier)
  | .gaveUp s => .gaveUp (s.after earlier)
  | .fault why s => .fault why (s.after earlier)
  | .outOfFuel => .outOfFuel

/-- The same reply, with one function body fewer around. -/
def Reply.leave {α : Type} (r : Reply α) : Reply α :=
  match r with
  | .ok value s => .ok value { s with depth := s.depth - 1 }
  | .gaveUp s => .gaveUp { s with depth := s.depth - 1 }
  | .fault why s => .fault why { s with depth := s.depth - 1 }
  | .outOfFuel => .outOfFuel

theorem Reply.after_nil {α : Type} (r : Reply α) : r.after [] = r := by
  cases r <;> rfl

theorem Reply.leave_after {α : Type} (r : Reply α) (earlier : List SyntaxError) :
    (r.after earlier).leave = r.leave.after earlier := by
  cases r <;> rfl

namespace Parser

variable {α β : Type} {earlier : List SyntaxError}

/-- A function body is read one deeper, and one is taken off behind it. -/
theorem nested_apply (p : Parser α) (s : ParserState) :
    nested p s = (p { s with depth := s.depth + 1 }).leave := by
  unfold nested
  cases p { s with depth := s.depth + 1 } <;> rfl

/-- Unless one of them runs out of fuel, the second parser answers behind earlier errors what the
first answers. -/
def Unaffected (earlier : List SyntaxError) (α : Type) (p q : Parser α) : Prop :=
  ∀ s, p s = .outOfFuel ∨ q (s.after earlier) = .outOfFuel ∨
    q (s.after earlier) = (p s).after earlier

/-- A parser that never runs out of fuel has the third case only. -/
theorem unaffected_of_eq {p q : Parser α} (h : ∀ s, q (s.after earlier) = (p s).after earlier) :
    Unaffected earlier α p q := fun s => .inr (.inr (h s))

/-- What goes on starts from the same state, behind the same earlier errors. -/
theorem Unaffected.bind {p q : Parser α} {f g : α → Parser β} (hp : Unaffected earlier α p q)
    (hf : ∀ a, Unaffected earlier β (f a) (g a)) : Unaffected earlier β (p >>= f) (q >>= g) := by
  intro s
  rw [bind_apply, bind_apply]
  rcases hp s with h | h | h
  · left
    rw [h]
  · right
    left
    rw [h]
  · rw [h]
    cases p s with
    | ok a t => exact hf a t
    | _ => exact .inr (.inr rfl)

theorem Unaffected.nested {p q : Parser α} (hp : Unaffected earlier α p q) :
    Unaffected earlier α (nested p) (nested q) := by
  intro s
  have h := hp { s with depth := s.depth + 1 }
  rw [nested_apply, nested_apply]
  rcases h with h | h | h
  · left
    rw [h]
    rfl
  · right
    left
    change (q (ParserState.after { s with depth := s.depth + 1 } earlier)).leave = _
    rw [h]
    rfl
  · right
    right
    change (q (ParserState.after { s with depth := s.depth + 1 } earlier)).leave = _
    rw [h, Reply.leave_after]

/-- Synchronizing looks at the tokens only. -/
theorem unaffected_synchronize : Unaffected earlier Unit synchronize synchronize := by
  refine unaffected_of_eq fun s => ?_
  unfold synchronize ParserState.after
  dsimp only
  cases synchronized? s.rest <;> rfl

theorem Unaffected.recovering {p q : Parser α} (hp : Unaffected earlier α p q) :
    Unaffected earlier (Option α) (recovering p) (recovering q) := by
  have hskip : Unaffected earlier (Option α) (synchronize >>= fun _ => Pure.pure none)
      (synchronize >>= fun _ => Pure.pure none) :=
    unaffected_synchronize.bind fun _ => unaffected_of_eq fun _ => rfl
  intro s
  unfold Parser.recovering
  rcases hp s with h | h | h
  · left
    rw [h]
  · right
    left
    rw [h]
  · rw [h]
    cases p s with
    | gaveUp t => exact hskip t
    | _ => exact .inr (.inr rfl)

/-- The parsers that read a token look at the tokens only. -/
theorem congruence_unaffected (earlier : List SyntaxError) : Congruence (Unaffected earlier) where
  outOfFuel_left _ := fun _ => .inl rfl
  outOfFuel_right _ := fun _ => .inr (.inl rfl)
  pure _ := unaffected_of_eq fun _ => rfl
  peek := by
    refine unaffected_of_eq fun ⟨rest, depth, errors⟩ => ?_
    cases rest <;> rfl
  advance := by
    refine unaffected_of_eq fun ⟨rest, depth, errors⟩ => ?_
    cases rest with
    | nil => rfl
    | cons token rest =>
        unfold Parser.advance ParserState.after
        dsimp only
        split <;> rfl
  check test := by
    refine unaffected_of_eq fun ⟨rest, depth, errors⟩ => ?_
    cases rest <;> rfl
  accept test := by
    refine unaffected_of_eq fun ⟨rest, depth, errors⟩ => ?_
    cases rest with
    | nil => rfl
    | cons token rest =>
        unfold Parser.accept ParserState.after
        dsimp only
        split <;> rfl
  note token cause := by
    refine unaffected_of_eq fun s => ?_
    simp [Parser.note, ParserState.after, Reply.after]
  giveUp expectation := by
    refine unaffected_of_eq fun ⟨rest, depth, errors⟩ => ?_
    cases rest with
    | nil => rfl
    | cons token rest => simp [Parser.giveUp, Reply.after, ParserState.after]
  literalOf token := by
    refine unaffected_of_eq fun s => ?_
    unfold Parser.literalOf
    cases token.literal <;> rfl
  depth := unaffected_of_eq fun _ => rfl
  bind := Unaffected.bind
  nested := Unaffected.nested
  recovering := Unaffected.recovering

/-- **Earlier errors and the fuel do not matter** to what a rule answers, as long as it lasts. -/
theorem Rule.unaffected {p : Nat → Parser α} (hp : Rule p) (fuel fuel' : Nat) (s : ParserState)
    (earlier : List SyntaxError) : p fuel s = .outOfFuel ∨ p fuel' (s.after earlier) = .outOfFuel ∨
      p fuel' (s.after earlier) = (p fuel s).after earlier :=
  (congruence_unaffected earlier).rule hp fuel fuel' s

/-- With other fuel a rule answers the same, unless it runs out. -/
theorem Rule.eq_of_ne_outOfFuel {p : Nat → Parser α} (hp : Rule p) {fuel fuel' : Nat}
    {s : ParserState} (h : p fuel s ≠ .outOfFuel) (h' : p fuel' s ≠ .outOfFuel) :
    p fuel' s = p fuel s := by
  rcases hp.unaffected fuel fuel' s [] with hout | hout | heq
  · exact absurd hout h
  · exact absurd hout h'
  · rwa [Reply.after_nil] at heq

end Parser

end LoxLang
