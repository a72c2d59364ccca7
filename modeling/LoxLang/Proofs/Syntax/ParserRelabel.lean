/-
**The parser does not look at lines.**

A rule of the parser decides by the kinds of the tokens ahead, and passes on what it reads.  So from a
state in which every token stands on another line, by any function from lines to lines, each rule
answers what it answered before with the same change: in the tree, in the tokens left, and in the tokens
of the errors.  That holds for every reply, so for tokens that are no program too: the parser gives up,
skips tokens and goes on at the same places.

* `LoxLang.ParserState.relabel`, `LoxLang.Reply.relabel` — the change of lines;
* `LoxLang.Parser.Follows` — a parser that answers the same, up to the change;
* `LoxLang.Parser.follows_expression`, `LoxLang.Parser.follows_declaration` — the rules;
* `LoxLang.parse_relabel` — **tokens on other lines are parsed to the same program, on those lines**.
-/

import LoxLang.Proofs.Syntax.Relabel
import LoxLang.Proofs.Syntax.ParserReplies

set_option relaxedAutoImplicit false
set_option autoImplicit false

namespace LoxLang

/-! ### States and replies on other lines -/

section

variable (f : Int → Int)

/-- The same error, with the line of its token changed. -/
def SyntaxError.relabel (error : SyntaxError) : SyntaxError := ⟨error.token.relabel f, error.cause⟩

/-- The same state, with the lines of its tokens changed. -/
def ParserState.relabel (s : ParserState) : ParserState :=
  ⟨s.rest.map (Token.relabel f), s.depth, s.errors.map (SyntaxError.relabel f)⟩

/-- The same reply, with the answer changed and the lines of the tokens left. -/
def Reply.relabel {α : Type} (change : α → α) : Reply α → Reply α
  | .ok value s => .ok (change value) (s.relabel f)
  | .gaveUp s => .gaveUp (s.relabel f)
  | .fault why s => .fault why (s.relabel f)
  | .outOfFuel => .outOfFuel

theorem ParserState.relabel_rest (s : ParserState) :
    (s.relabel f).rest = s.rest.map (Token.relabel f) := rfl

end

namespace Parser

variable {α β : Type} {f : Int → Int}

/-- From the state on other lines, `q` answers what `p` answers, with the change. -/
def Follows (f : Int → Int) (change : α → α) (p q : Parser α) : Prop :=
  ∀ s, q (s.relabel f) = (p s).relabel f change

/-! ### The small parsers -/

theorem follows_pure {change : α → α} {a b : α} (h : change a = b) :
    Follows f change (Pure.pure a) (Pure.pure b) := by
  intro s
  subst h
  rfl

/-- A parser and what goes on behind it change together. -/
theorem Follows.bind {change : α → α} {change' : β → β} {p q : Parser α} {k l : α → Parser β}
    (hp : Follows f change p q) (hk : ∀ a, Follows f change' (k a) (l (change a))) :
    Follows f change' (p >>= k) (q >>= l) := by
  intro s
  rw [bind_apply, bind_apply, hp s]
  cases p s with
  | ok a t => exact hk a t
  | _ => rfl

/-- Fuel is counted without a look at the tokens. -/
theorem follows_outOfFuel (change : α → α) : Follows f change (outOfFuel : Parser α) outOfFuel :=
  fun _ => rfl

/-- The token ahead is the same one, on its other line. -/
theorem follows_peek : Follows f (Token.relabel f) peek peek := by
  intro s
  unfold peek
  rw [ParserState.relabel_rest]
  cases s.rest <;> rfl

/-- Whether the token ahead ends the source text does not depend on its line. -/
theorem follows_advance : Follows f id advance advance := by
  intro s
  unfold advance
  rw [ParserState.relabel_rest]
  cases hr : s.rest with
  | nil => rfl
  | cons token rest =>
      rw [List.map_cons]
      dsimp only
      rw [Token.relabel_isEnd]
      split <;> rfl

theorem follows_check (test : TokenKind → Bool) : Follows f id (check test) (check test) := by
  intro s
  unfold check
  rw [ParserState.relabel_rest]
  cases s.rest <;> rfl

/-- A token is accepted for its kind, and handed on with its line. -/
theorem follows_accept (test : TokenKind → Bool) :
    Follows f (Option.map (Token.relabel f)) (accept test) (accept test) := by
  intro s
  unfold accept
  rw [ParserState.relabel_rest]
  cases hr : s.rest with
  | nil => rfl
  | cons token rest =>
      rw [List.map_cons]
      dsimp only
      rw [Token.relabel_isEnd, Token.relabel_kind]
      split <;> rfl

/-- An error is recorded at the token on its other line. -/
theorem follows_note (token : Token) (cause : SyntaxCause) :
    Follows f id (note token cause) (note (token.relabel f) cause) := by
  intro s
  simp [note, Reply.relabel, ParserState.relabel, SyntaxError.relabel]

/-- What is missing is blamed on the token ahead, on its other line. -/
theorem follows_giveUp (change : α → α) (expectation : Expectation) :
    Follows f change (giveUp expectation) (giveUp expectation) := by
  intro s
  unfold giveUp
  rw [ParserState.relabel_rest]
  cases hr : s.rest with
  | nil => rfl
  | cons token rest => simp [Reply.relabel, ParserState.relabel, SyntaxError.relabel]

theorem follows_expect (kind : TokenKind) (expectation : Expectation) :
    Follows f (Token.relabel f) (expect kind expectation) (expect kind expectation) := by
  refine (follows_accept _).bind fun found => ?_
  cases found with
  | none => exact follows_giveUp _ _
  | some token => exact follows_pure rfl

theorem follows_literalOf (token : Token) :
    Follows f id (literalOf token) (literalOf (token.relabel f)) := by
  intro s
  unfold literalOf
  rw [Token.relabel_literal]
  cases token.literal <;> rfl

theorem follows_depth : Follows f id depth depth := fun _ => rfl

/-- The lines do not reach the number of function bodies. -/
theorem Follows.nested {change : α → α} {p q : Parser α} (h : Follows f change p q) :
    Follows f change (nested p) (nested q) := by
  intro s
  have hp := h { s with depth := s.depth + 1 }
  unfold Parser.nested
  change (match q (ParserState.relabel f { s with depth := s.depth + 1 }) with
    | .ok value t => _ | .gaveUp t => _ | .fault fault t => _ | .outOfFuel => _) = _
  rw [hp]
  cases p { s with depth := s.depth + 1 } <;> rfl

/-! ### Recovery -/

/-- The place to resume at is told by the kinds of the tokens around it. -/
theorem boundary?_relabel (before : TokenKind) (tokens : List Token) :
    boundary? before (tokens.map (Token.relabel f)) =
      (boundary? before tokens).map (List.map (Token.relabel f)) := by
  induction tokens generalizing before with
  | nil => rfl
  | cons token rest ih =>
      rw [List.map_cons, boundary?, boundary?, Token.relabel_isEnd, Token.relabel_kind, ih]
      split <;> rfl

/-- The first token is skipped as it was, and the same place is found behind it. -/
theorem synchronized?_relabel (tokens : List Token) :
    synchronized? (tokens.map (Token.relabel f)) =
      (synchronized? tokens).map (List.map (Token.relabel f)) := by
  cases tokens with
  | nil => rfl
  | cons token rest =>
      rw [List.map_cons, synchronized?, synchronized?, Token.relabel_isEnd, Token.relabel_kind,
        boundary?_relabel]
      split <;> rfl

theorem follows_synchronize : Follows f id synchronize synchronize := by
  intro s
  unfold synchronize
  rw [ParserState.relabel_rest, synchronized?_relabel]
  cases synchronized? s.rest <;> rfl

/-- A parser that gives up is taken over at the same place. -/
theorem Follows.recovering {change : α → α} {p q : Parser α} (h : Follows f change p q) :
    Follows f (Option.map change) (recovering p) (recovering q) := by
  have hskip : Follows f (Option.map change) (synchronize >>= fun _ => Pure.pure none)
      (synchronize >>= fun _ => Pure.pure none) :=
    follows_synchronize.bind fun _ => follows_pure rfl
  intro s
  unfold Parser.recovering
  rw [h s]
  cases p s with
  | gaveUp t => exact hskip t
  | _ => rfl

/-! ### Limits -/

theorem follows_noteExcess (before : Nat) (cause : SyntaxCause) :
    Follows f id (noteExcess before cause) (noteExcess before cause) := by
  unfold noteExcess
  split
  · exact follows_peek.bind fun token => follows_note token cause
  · exact follows_pure rfl

/-- A `return` outside of a function is reported at its keyword, on its other line. -/
theorem follows_noteTopLevel (keyword : Token) :
    Follows f id (noteTopLevel keyword) (noteTopLevel (keyword.relabel f)) := by
  refine follows_depth.bind fun n => ?_
  dsimp only [id]
  split
  · exact follows_note _ _
  · exact follows_pure rfl

/-! ### The rules of expressions -/

/-- A level of binary operators makes the same kind of node on any line. -/
theorem node_relabel (level : Level) (left : Expr) (operator : Token) (right : Expr) :
    (level.node left operator right).relabel f =
      level.node (left.relabel f) (operator.relabel f) (right.relabel f) := by
  unfold Level.node
  split <;> rw [Expr.relabel]

mutual

/-- An expression on other lines, with the value assigned if there is one. -/
theorem follows_expression : ∀ fuel,
    Follows f (Expr.relabel f) (expression fuel) (expression fuel)
  | 0 => follows_outOfFuel _
  | fuel + 1 => by
      rw [expression]
      refine (follows_operand fuel _).bind fun target => ?_
      refine (follows_accept _).bind fun found => ?_
      cases found with
      | none => exact follows_pure rfl
      | some equals =>
          refine (follows_expression fuel).bind fun value => ?_
          -- What may be assigned to is seen from the form of the tree, and the change keeps the form.
          cases target with
          | lookup name =>
              rw [Expr.relabel]
              exact follows_pure (by rw [Expr.relabel])
          | _ =>
              rw [Expr.relabel]
              exact (follows_note _ _).bind fun _ => follows_pure rfl

theorem follows_operand : ∀ fuel levels,
    Follows f (Expr.relabel f) (operand fuel levels) (operand fuel levels)
  | 0, _ => follows_outOfFuel _
  | fuel + 1, [] => by
      rw [operand]
      exact follows_unary fuel
  | fuel + 1, level :: tighter => by
      rw [operand]
      exact (follows_operand fuel tighter).bind fun left =>
        follows_operations fuel level tighter left

/-- The operators of a level, behind a left operand that was read on other lines. -/
theorem follows_operations : ∀ fuel level tighter left,
    Follows f (Expr.relabel f) (operations fuel level tighter left)
      (operations fuel level tighter (left.relabel f))
  | 0, _, _, _ => follows_outOfFuel _
  | fuel + 1, level, tighter, left => by
      rw [operations, operations]
      refine (follows_accept _).bind fun found => ?_
      cases found with
      | none => exact follows_pure rfl
      | some operator =>
          refine (follows_operand fuel tighter).bind fun right => ?_
          rw [← node_relabel]
          exact follows_operations fuel level tighter _

theorem follows_unary : ∀ fuel, Follows f (Expr.relabel f) (unary fuel) (unary fuel)
  | 0 => follows_outOfFuel _
  | fuel + 1 => by
      rw [unary]
      refine (follows_accept _).bind fun found => ?_
      cases found with
      | none => exact (follows_primary fuel).bind fun callee => follows_calls fuel callee
      | some operator =>
          exact (follows_unary fuel).bind fun right => follows_pure (by rw [Expr.relabel])

/-- Calls behind a callee that was read on other lines. -/
theorem follows_calls : ∀ fuel callee,
    Follows f (Expr.relabel f) (calls fuel callee) (calls fuel (callee.relabel f))
  | 0, _ => follows_outOfFuel _
  | fuel + 1, callee => by
      rw [calls, calls]
      refine (follows_accept _).bind fun found => ?_
      cases found with
      | none => exact follows_pure rfl
      | some opening =>
          refine (follows_argumentList fuel).bind fun args => ?_
          refine (follows_expect _ _).bind fun paren => ?_
          have hcalls := follows_calls fuel (.call callee paren args)
          rwa [Expr.relabel] at hcalls

theorem follows_argumentList : ∀ fuel,
    Follows f (Expr.relabelAll f) (argumentList fuel) (argumentList fuel)
  | 0 => follows_outOfFuel _
  | fuel + 1 => by
      rw [argumentList]
      refine (follows_check _).bind fun stop => ?_
      dsimp only [id]
      split
      · exact follows_pure (by rw [Expr.relabelAll])
      · exact follows_arguments fuel 0

/-- Arguments: the excess is noticed by their number. -/
theorem follows_arguments : ∀ fuel before,
    Follows f (Expr.relabelAll f) (arguments fuel before) (arguments fuel before)
  | 0, _ => follows_outOfFuel _
  | fuel + 1, before => by
      rw [arguments]
      refine (follows_noteExcess _ _).bind fun _ => ?_
      refine (follows_expression fuel).bind fun first => ?_
      refine (follows_accept _).bind fun found => ?_
      cases found with
      | none => exact follows_pure (by rw [Expr.relabelAll, Expr.relabelAll])
      | some comma =>
          exact (follows_arguments fuel _).bind fun others =>
            follows_pure (by rw [Expr.relabelAll])

theorem follows_primary : ∀ fuel, Follows f (Expr.relabel f) (primary fuel) (primary fuel)
  | 0 => follows_outOfFuel _
  | fuel + 1 => by
      rw [primary]
      refine follows_peek.bind fun token => ?_
      -- The token ahead is told apart by its kind, which is the same on any line.
      rw [Token.relabel_kind]
      split
      · exact follows_advance.bind fun _ => follows_pure (by rw [Expr.relabel])
      · exact follows_advance.bind fun _ => follows_pure (by rw [Expr.relabel])
      · exact follows_advance.bind fun _ => follows_pure (by rw [Expr.relabel])
      · exact follows_advance.bind fun _ => (follows_literalOf token).bind fun value =>
          follows_pure (by rw [Expr.relabel]; rfl)
      · exact follows_advance.bind fun _ => (follows_literalOf token).bind fun value =>
          follows_pure (by rw [Expr.relabel]; rfl)
      · exact follows_advance.bind fun _ => follows_pure (by rw [Expr.relabel])
      · exact follows_advance.bind fun _ => (follows_expression fuel).bind fun inner =>
          (follows_expect _ _).bind fun _ => follows_pure (by rw [Expr.relabel])
      · exact follows_giveUp _ _

end

/-! ### The rules of statements -/

/-- Parameters, which are counted as the arguments are. -/
theorem follows_parameters : ∀ fuel before,
    Follows f (List.map (Token.relabel f)) (parameters fuel before) (parameters fuel before)
  | 0, _ => follows_outOfFuel _
  | fuel + 1, before => by
      rw [parameters]
      refine (follows_noteExcess _ _).bind fun _ => (follows_expect _ _).bind fun first => ?_
      refine (follows_accept _).bind fun found => ?_
      cases found with
      | none => exact follows_pure rfl
      | some comma => exact (follows_parameters fuel _).bind fun others => follows_pure rfl

theorem follows_parameterList (fuel : Nat) :
    Follows f (List.map (Token.relabel f)) (parameterList fuel) (parameterList fuel) := by
  refine (follows_check _).bind fun stop => ?_
  dsimp only [id]
  split
  · exact follows_pure rfl
  · exact follows_parameters fuel 0

theorem follows_optionalExpression (fuel : Nat) (stop : TokenKind) :
    Follows f (Option.map (Expr.relabel f)) (optionalExpression fuel stop)
      (optionalExpression fuel stop) := by
  refine (follows_check _).bind fun found => ?_
  dsimp only [id]
  split
  · exact follows_pure rfl
  · exact (follows_expression fuel).bind fun e => follows_pure rfl

theorem follows_initializer (fuel : Nat) :
    Follows f (Option.map (Expr.relabel f)) (initializer fuel) (initializer fuel) := by
  refine (follows_accept _).bind fun found => ?_
  cases found with
  | none => exact follows_pure rfl
  | some equals => exact (follows_expression fuel).bind fun e => follows_pure rfl

theorem follows_variableDeclaration (fuel : Nat) :
    Follows f (Stmt.relabel f) (variableDeclaration fuel) (variableDeclaration fuel) :=
  (follows_expect _ _).bind fun _ => (follows_initializer fuel).bind fun _ =>
    (follows_expect _ _).bind fun _ => follows_pure (by rw [Stmt.relabel])

theorem follows_expressionStatement (fuel : Nat) :
    Follows f (Stmt.relabel f) (expressionStatement fuel) (expressionStatement fuel) :=
  (follows_expression fuel).bind fun _ => (follows_expect _ _).bind fun _ =>
    follows_pure (by rw [Stmt.relabel])

theorem follows_printStatement (fuel : Nat) :
    Follows f (Stmt.relabel f) (printStatement fuel) (printStatement fuel) :=
  (follows_expression fuel).bind fun _ => (follows_expect _ _).bind fun _ =>
    follows_pure (by rw [Stmt.relabel])

/-- The keyword of a `return` was read before, so it comes with its other line. -/
theorem follows_returnStatement (fuel : Nat) (keyword : Token) :
    Follows f (Stmt.relabel f) (returnStatement fuel keyword)
      (returnStatement fuel (keyword.relabel f)) :=
  (follows_noteTopLevel keyword).bind fun _ => (follows_optionalExpression fuel _).bind fun _ =>
    (follows_expect _ _).bind fun _ => follows_pure (by rw [Stmt.relabel])

theorem follows_forInitializer : ∀ fuel,
    Follows f (Option.map (Stmt.relabel f)) (forInitializer fuel) (forInitializer fuel)
  | 0 => follows_outOfFuel _
  | fuel + 1 => by
      rw [forInitializer]
      refine (follows_accept _).bind fun found => ?_
      cases found with
      | some semicolon => exact follows_pure rfl
      | none =>
          refine (follows_accept _).bind fun found => ?_
          cases found with
          | some word => exact (follows_variableDeclaration fuel).bind fun _ => follows_pure rfl
          | none => exact (follows_expressionStatement fuel).bind fun _ => follows_pure rfl

/-- The loop that a `for` statement stands for has tokens of its parts only. -/
theorem forLoop_relabel (first : Option Stmt) (condition increment : Option Expr) (body : Stmt) :
    (forLoop first condition increment body).relabel f =
      forLoop (first.map (Stmt.relabel f)) (condition.map (Expr.relabel f))
        (increment.map (Expr.relabel f)) (body.relabel f) := by
  rw [Grammar.forLoop_eq_forTree, Grammar.forLoop_eq_forTree]
  exact Grammar.forTree_relabel f first condition increment body

/-- A declaration that was given up leaves nothing to change. -/
theorem relabelAll_toList_append (first : Option Stmt) (others : List Stmt) :
    Stmt.relabelAll f (first.toList ++ others) =
      (first.map (Stmt.relabel f)).toList ++ Stmt.relabelAll f others := by
  cases first with
  | none => rfl
  | some s =>
      rw [Option.toList_some, List.singleton_append, Stmt.relabelAll]
      rfl

mutual

/-- A declaration, read or taken over. -/
theorem follows_declaration : ∀ fuel,
    Follows f (Option.map (Stmt.relabel f)) (declaration fuel) (declaration fuel)
  | 0 => follows_outOfFuel _
  | fuel + 1 => by
      rw [declaration]
      exact (follows_bareDeclaration fuel).recovering

theorem follows_bareDeclaration : ∀ fuel,
    Follows f (Stmt.relabel f) (bareDeclaration fuel) (bareDeclaration fuel)
  | 0 => follows_outOfFuel _
  | fuel + 1 => by
      rw [bareDeclaration]
      refine (follows_accept _).bind fun found => ?_
      cases found with
      | some word => exact follows_function fuel
      | none =>
          refine (follows_accept _).bind fun found => ?_
          cases found with
          | some word => exact follows_variableDeclaration fuel
          | none => exact follows_statement fuel

/-- A function: its name, its parameters and, one function deeper, its body. -/
theorem follows_function : ∀ fuel, Follows f (Stmt.relabel f) (function fuel) (function fuel)
  | 0 => follows_outOfFuel _
  | fuel + 1 => by
      rw [function]
      refine (follows_expect _ _).bind fun name => (follows_expect _ _).bind fun _ => ?_
      refine (follows_parameterList fuel).bind fun names => ?_
      refine (follows_expect _ _).bind fun _ => (follows_expect _ _).bind fun _ => ?_
      exact (follows_block fuel).nested.bind fun body => follows_pure (by rw [Stmt.relabel])

theorem follows_statement : ∀ fuel, Follows f (Stmt.relabel f) (statement fuel) (statement fuel)
  | 0 => follows_outOfFuel _
  | fuel + 1 => by
      rw [statement]
      refine follows_peek.bind fun token => ?_
      rw [Token.relabel_kind]
      split
      · exact follows_advance.bind fun _ => follows_forStatement fuel
      · exact follows_advance.bind fun _ => follows_ifStatement fuel
      · exact follows_advance.bind fun _ => follows_printStatement fuel
      · exact follows_advance.bind fun _ => follows_returnStatement fuel token
      · exact follows_advance.bind fun _ => follows_whileStatement fuel
      · exact follows_advance.bind fun _ => (follows_block fuel).bind fun _ =>
          follows_pure (by rw [Stmt.relabel])
      · exact follows_expressionStatement fuel

/-- A `for` statement, rewritten to the same loop. -/
theorem follows_forStatement : ∀ fuel,
    Follows f (Stmt.relabel f) (forStatement fuel) (forStatement fuel)
  | 0 => follows_outOfFuel _
  | fuel + 1 => by
      rw [forStatement]
      refine (follows_expect _ _).bind fun _ => (follows_forInitializer fuel).bind fun _ => ?_
      refine (follows_optionalExpression fuel _).bind fun _ => (follows_expect _ _).bind fun _ => ?_
      refine (follows_optionalExpression fuel _).bind fun _ => (follows_expect _ _).bind fun _ => ?_
      exact (follows_statement fuel).bind fun _ => follows_pure (forLoop_relabel _ _ _ _)

theorem follows_ifStatement : ∀ fuel,
    Follows f (Stmt.relabel f) (ifStatement fuel) (ifStatement fuel)
  | 0 => follows_outOfFuel _
  | fuel + 1 => by
      rw [ifStatement]
      refine (follows_expect _ _).bind fun _ => (follows_expression fuel).bind fun _ => ?_
      refine (follows_expect _ _).bind fun _ => (follows_statement fuel).bind fun _ => ?_
      refine (follows_accept _).bind fun found => ?_
      cases found with
      | none => exact follows_pure (by rw [Stmt.relabel])
      | some word =>
          exact (follows_statement fuel).bind fun _ => follows_pure (by rw [Stmt.relabel])

theorem follows_whileStatement : ∀ fuel,
    Follows f (Stmt.relabel f) (whileStatement fuel) (whileStatement fuel)
  | 0 => follows_outOfFuel _
  | fuel + 1 => by
      rw [whileStatement]
      refine (follows_expect _ _).bind fun _ => (follows_expression fuel).bind fun _ => ?_
      exact (follows_expect _ _).bind fun _ => (follows_statement fuel).bind fun _ =>
        follows_pure (by rw [Stmt.relabel])

theorem follows_block : ∀ fuel, Follows f (Stmt.relabelAll f) (block fuel) (block fuel)
  | 0 => follows_outOfFuel _
  | fuel + 1 => by
      rw [block]
      exact (follows_blockItems fuel).bind fun _ => (follows_expect _ _).bind fun _ =>
        follows_pure rfl

/-- The declarations up to the closing brace, which is known by its kind. -/
theorem follows_blockItems : ∀ fuel,
    Follows f (Stmt.relabelAll f) (blockItems fuel) (blockItems fuel)
  | 0 => follows_outOfFuel _
  | fuel + 1 => by
      rw [blockItems]
      refine follows_peek.bind fun token => ?_
      rw [Token.relabel_kind, Token.relabel_isEnd]
      split
      · exact follows_pure (by rw [Stmt.relabelAll])
      · exact (follows_declaration fuel).bind fun first => (follows_blockItems fuel).bind
          fun others => follows_pure (relabelAll_toList_append first others)

end

/-- The declarations up to the end of the source text. -/
theorem follows_program : ∀ fuel, Follows f (Stmt.relabelAll f) (program fuel) (program fuel)
  | 0 => follows_outOfFuel _
  | fuel + 1 => by
      rw [program]
      refine follows_peek.bind fun token => ?_
      rw [Token.relabel_isEnd]
      split
      · exact follows_pure (by rw [Stmt.relabelAll])
      · exact (follows_declaration fuel).bind fun first => (follows_program fuel).bind
          fun others => follows_pure (relabelAll_toList_append first others)

end Parser

/-! ### Programs -/

/-- **Tokens on other lines are parsed to the same program, with the same errors, on those lines.** -/
theorem parse_relabel (f : Int → Int) (tokens : List Token) :
    parse (tokens.map (Token.relabel f)) = (parse tokens).relabel f (Stmt.relabelAll f) := by
  unfold parse parserFuel
  rw [List.length_map]
  exact Parser.follows_program _ (ParserState.start tokens)

end LoxLang
