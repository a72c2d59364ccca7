/-
**What the parser builds can be run.**

Whatever the tokens are, and whatever errors are recorded, every expression with an operator that the
parser answers has one that exists, and every tree that it answers passes the checks of its nodes.  And
it always answers a list of statements if the tokens end and no value is missing.

* `LoxLang.Expr.WellFormed`, `LoxLang.Stmt.WellFormed` — every operator is one;
* `LoxLang.Parser.builds_expression`, `LoxLang.Parser.builds_program` — **the trees of the parser are
  well formed**;
* `LoxLang.parse_eq_ok` — **the parser answers**;
* `LoxLang.Stmt.construct_toTree` — a tree passes the checks of its nodes.
-/

import LoxLang.Proofs.Syntax.ParserBuilds
import LoxLang.Proofs.Value.Faults
import LoxLang.Syntax.Construction

set_option relaxedAutoImplicit false
set_option autoImplicit false

namespace LoxLang

/-! ### Operators that exist -/

mutual

/-- Every operator of the expression is one. -/
def Expr.WellFormed : Expr → Prop
  | .assign _ value => value.WellFormed
  | .binary left operator right =>
      left.WellFormed ∧ operator.kind ∈ binaryOperators ∧ right.WellFormed
  | .call callee _ arguments => callee.WellFormed ∧ Expr.AllWellFormed arguments
  | .grouping inner => inner.WellFormed
  | .literal _ => True
  | .logical left _ right => left.WellFormed ∧ right.WellFormed
  | .unary operator right => operator.kind ∈ unaryOperators ∧ right.WellFormed
  | .lookup _ => True

/-- Every operator of the expressions is one. -/
def Expr.AllWellFormed : List Expr → Prop
  | [] => True
  | e :: es => e.WellFormed ∧ Expr.AllWellFormed es

end

/-- Every operator of an expression that may be left out is one. -/
def Expr.WellFormedIfAny (e : Option Expr) : Prop := ∀ e', e = some e' → e'.WellFormed

mutual

/-- Every operator in the statement is one. -/
def Stmt.WellFormed : Stmt → Prop
  | .block body => Stmt.AllWellFormed body
  | .expression value => value.WellFormed
  | .function _ _ body => Stmt.AllWellFormed body
  | .branch condition thenBranch none => condition.WellFormed ∧ thenBranch.WellFormed
  | .branch condition thenBranch (some elseBranch) =>
      condition.WellFormed ∧ thenBranch.WellFormed ∧ elseBranch.WellFormed
  | .print value => value.WellFormed
  | .giveBack _ value => Expr.WellFormedIfAny value
  | .declare _ initializer => Expr.WellFormedIfAny initializer
  | .loop condition body => condition.WellFormed ∧ body.WellFormed

/-- Every operator in the statements is one. -/
def Stmt.AllWellFormed : List Stmt → Prop
  | [] => True
  | s :: ss => s.WellFormed ∧ Stmt.AllWellFormed ss

end

theorem Stmt.allWellFormed_iff {ss : List Stmt} :
    Stmt.AllWellFormed ss ↔ ∀ s ∈ ss, s.WellFormed := by
  induction ss with
  | nil => exact ⟨fun _ => List.forall_mem_nil _, fun _ => trivial⟩
  | cons s ss ih => rw [Stmt.AllWellFormed, ih, List.forall_mem_cons]

/-- A level has only operators that exist, unless it is logical. -/
def Level.WellFormed (level : Level) : Prop :=
  level.logical = true ∨ ∀ kind ∈ level.operators, kind ∈ binaryOperators

theorem Level.wellFormed_of_mem_all {level : Level} (h : level ∈ Level.all) : level.WellFormed := by
  have hall : ∀ level ∈ Level.all, level.logical = true ∨
      ∀ kind ∈ level.operators, kind ∈ binaryOperators := by decide
  exact hall level h

theorem Level.wellFormed_node {level : Level} (hl : level.WellFormed) {left right : Expr}
    {operator : Token} (h : left.WellFormed) (ho : operator.kind ∈ level.operators)
    (h' : right.WellFormed) : (level.node left operator right).WellFormed := by
  unfold node
  split
  · exact ⟨h, h'⟩
  · next hn => exact ⟨h, (hl.resolve_left hn) _ ho, h'⟩

namespace Parser

variable {α β : Type}

/-! ### Expressions -/

theorem builds_primary_of {fuel : Nat} (he : Builds Expr.WellFormed (expression fuel)) :
    Builds Expr.WellFormed (primary (fuel + 1)) := by
  rw [primary]
  refine builds_bind fun token => ?_
  split
  · exact builds_bind fun _ => builds_pure trivial
  · exact builds_bind fun _ => builds_pure trivial
  · exact builds_bind fun _ => builds_pure trivial
  · exact builds_bind fun _ => builds_bind fun _ => builds_pure trivial
  · exact builds_bind fun _ => builds_bind fun _ => builds_pure trivial
  · exact builds_bind fun _ => builds_pure trivial
  · exact builds_bind fun _ => he.bind fun inner hi => builds_bind fun _ => builds_pure hi
  · exact builds_giveUp _

mutual

/-- **An expression that the parser answers is well formed.** -/
theorem builds_expression : ∀ fuel, Builds Expr.WellFormed (expression fuel)
  | 0 => builds_outOfFuel
  | fuel + 1 => by
      rw [expression]
      refine (builds_operand fuel fun level => Level.wellFormed_of_mem_all).bind fun target ht => ?_
      refine builds_bind fun found => ?_
      cases found with
      | none => exact builds_pure ht
      | some equals =>
          refine (builds_expression fuel).bind fun value hv => ?_
          cases target with
          | lookup name => exact builds_pure hv
          | _ => exact builds_bind fun _ => builds_pure hv

theorem builds_operand : ∀ fuel {levels}, (∀ level ∈ levels, level.WellFormed) →
    Builds Expr.WellFormed (operand fuel levels)
  | 0, _, _ => builds_outOfFuel
  | fuel + 1, [], _ => by
      rw [operand]
      exact builds_unary fuel
  | fuel + 1, level :: tighter, h => by
      have htighter : ∀ other ∈ tighter, other.WellFormed :=
        fun other ho => h other (List.mem_cons_of_mem _ ho)
      rw [operand]
      refine (builds_operand fuel htighter).bind fun left hl => ?_
      exact builds_operations fuel (h level List.mem_cons_self) htighter hl

theorem builds_operations : ∀ fuel {level tighter left}, level.WellFormed →
    (∀ other ∈ tighter, other.WellFormed) → left.WellFormed →
      Builds Expr.WellFormed (operations fuel level tighter left)
  | 0, _, _, _, _, _, _ => builds_outOfFuel
  | fuel + 1, level, tighter, left, hlevel, htighter, hl => by
      rw [operations]
      refine (builds_accept _).bind fun found hf => ?_
      cases found with
      | none => exact builds_pure hl
      | some operator =>
          have ho : operator.kind ∈ level.operators := List.contains_iff_mem.1 (hf operator rfl)
          refine (builds_operand fuel htighter).bind fun right hr => ?_
          exact builds_operations fuel hlevel htighter (Level.wellFormed_node hlevel hl ho hr)

theorem builds_unary : ∀ fuel, Builds Expr.WellFormed (unary fuel)
  | 0 => builds_outOfFuel
  | fuel + 1 => by
      rw [unary]
      refine (builds_accept _).bind fun found hf => ?_
      cases found with
      | none => exact (builds_primary fuel).bind fun callee hc => builds_calls fuel hc
      | some operator =>
          have ho : operator.kind ∈ unaryOperators := List.contains_iff_mem.1 (hf operator rfl)
          exact (builds_unary fuel).bind fun right hr => builds_pure ⟨ho, hr⟩

theorem builds_calls : ∀ fuel {callee}, callee.WellFormed →
    Builds Expr.WellFormed (calls fuel callee)
  | 0, _, _ => builds_outOfFuel
  | fuel + 1, callee, hc => by
      rw [calls]
      refine builds_bind fun found => ?_
      cases found with
      | none => exact builds_pure hc
      | some opening =>
          refine (builds_argumentList fuel).bind fun args ha => builds_bind fun paren => ?_
          have hcall : (Expr.call callee paren args).WellFormed := ⟨hc, ha⟩
          exact builds_calls fuel hcall

theorem builds_argumentList : ∀ fuel, Builds Expr.AllWellFormed (argumentList fuel)
  | 0 => builds_outOfFuel
  | fuel + 1 => by
      rw [argumentList]
      refine builds_bind fun stop => ?_
      split
      · exact builds_pure trivial
      · exact builds_arguments fuel 0

theorem builds_arguments : ∀ fuel before, Builds Expr.AllWellFormed (arguments fuel before)
  | 0, _ => builds_outOfFuel
  | fuel + 1, before => by
      rw [arguments]
      refine builds_bind fun _ => (builds_expression fuel).bind fun first hf => ?_
      refine builds_bind fun found => ?_
      cases found with
      | none => exact builds_pure ⟨hf, trivial⟩
      | some comma => exact (builds_arguments fuel _).bind fun others ho => builds_pure ⟨hf, ho⟩

theorem builds_primary : ∀ fuel, Builds Expr.WellFormed (primary fuel)
  | 0 => builds_outOfFuel
  | fuel + 1 => builds_primary_of (builds_expression fuel)

end

/-! ### Statements -/

/-- A statement is well formed if its parts are. -/
theorem inherited_wellFormed :
    Inherited Expr.WellFormed Stmt.WellFormed Stmt.WellFormed where
  weaken := id
  function := Stmt.allWellFormed_iff.2
  declare := id
  block := Stmt.allWellFormed_iff.2
  expression := id
  print := id
  giveBack := id
  branch := by
    intro condition thenBranch elseBranch hc ht he
    cases elseBranch with
    | none => exact ⟨hc, ht⟩
    | some s => exact ⟨hc, ht, he s rfl⟩
  loop := And.intro
  always := trivial

/-- **A program that the parser answers is well formed**, whatever errors are recorded. -/
theorem builds_program (fuel : Nat) : Builds Stmt.AllWellFormed (program fuel) :=
  (inherited_wellFormed.builds_program builds_expression fuel).mono fun _ => Stmt.allWellFormed_iff.2

/-! ### The parser answers -/

/-- The parser does not give up. -/
def Persists (p : Parser α) : Prop := ∀ s t, p s ≠ .gaveUp t

theorem persists_pure (a : α) : Persists (Pure.pure a : Parser α) := nofun

theorem persists_outOfFuel : Persists (outOfFuel : Parser α) := nofun

theorem Persists.bind {p : Parser α} {f : α → Parser β} (hp : Persists p)
    (hf : ∀ a, Persists (f a)) : Persists (p >>= f) := by
  intro s t h
  change Parser.bind p f s = .gaveUp t at h
  unfold Parser.bind at h
  cases ho : p s with
  | ok a u =>
      rw [ho] at h
      exact hf a u t h
  | gaveUp u => exact hp s u ho
  | fault fault u =>
      rw [ho] at h
      cases h
  | outOfFuel =>
      rw [ho] at h
      cases h

theorem persists_peek : Persists peek := by
  intro s t h
  unfold peek at h
  split at h <;> cases h

theorem persists_synchronize : Persists synchronize := by
  intro s t h
  unfold synchronize at h
  split at h <;> cases h

/-- A parser that takes over from an error does not give up. -/
theorem persists_recovering (p : Parser α) : Persists (recovering p) := by
  intro s t h
  unfold Parser.recovering at h
  cases ho : p s with
  | gaveUp u =>
      rw [ho] at h
      exact (persists_synchronize.bind fun _ => persists_pure (none : Option α)) u t h
  | ok a u =>
      rw [ho] at h
      cases h
  | fault fault u =>
      rw [ho] at h
      cases h
  | outOfFuel =>
      rw [ho] at h
      cases h

theorem persists_declaration (fuel : Nat) : Persists (declaration fuel) := by
  cases fuel with
  | zero => exact persists_outOfFuel
  | succ fuel =>
      rw [declaration]
      exact persists_recovering _

theorem persists_program (fuel : Nat) : Persists (program fuel) := by
  induction fuel with
  | zero => exact persists_outOfFuel
  | succ fuel ih =>
      rw [program]
      refine persists_peek.bind fun token => ?_
      split
      · exact persists_pure []
      · exact (persists_declaration fuel).bind fun _ => ih.bind fun _ => persists_pure _

end Parser

/-- **The parser answers** if some token ends the source text and no numeral or string lacks its
value: it neither gives up nor meets a fault nor runs out of fuel. -/
theorem parse_eq_ok {tokens : List Token} (he : ∃ token ∈ tokens, token.isEnd = true)
    (hv : ∀ token ∈ tokens, ¬ token.LacksValue) : ∃ program t, parse tokens = .ok program t := by
  have hfrom : (parse tokens).From (ParserState.start tokens) := Parser.proceeds_program _ _
  cases hp : parse tokens with
  | ok program t => exact ⟨program, t, rfl⟩
  | gaveUp t => exact absurd hp (Parser.persists_program _ _ t)
  | outOfFuel => exact absurd hp (parse_ne_outOfFuel tokens)
  | fault fault t =>
      rw [hp] at hfrom
      cases fault with
      | offEnd =>
          obtain ⟨token, ht, hend⟩ := he
          have hnone : token.isEnd = false := hfrom token ht
          rw [hend] at hnone
          cases hnone
      | missingLiteral =>
          obtain ⟨token, ht, hlacks⟩ := hfrom
          exact absurd hlacks (hv token ht)

/-! ### Nodes -/

section

variable (kind : NodeKind) (name : String)

theorem check_token (token : Token) :
    (Field.one name .token).check kind (.token token) = .ok (.token token) := rfl

theorem check_literal (value : Literal) :
    (Field.one name .object).check kind (.leaf value) = .ok (.leaf value) := rfl

theorem checkOne_expr (many optional : Bool) (e : Expr) :
    Field.checkOne kind ⟨name, .expr, many, optional⟩ e.toTree = .ok () := by
  cases e <;> rw [Expr.toTree] <;> rfl

theorem checkOne_stmt (many optional : Bool) (s : Stmt) :
    Field.checkOne kind ⟨name, .stmt, many, optional⟩ s.toTree = .ok () := by
  cases s <;> rw [Stmt.toTree] <;> rfl

theorem check_expr (e : Expr) : (Field.one name .expr).check kind e.toTree = .ok e.toTree := by
  simp only [Field.check, Field.one, checkOne_expr]
  rfl

theorem check_stmt (s : Stmt) : (Field.one name .stmt).check kind s.toTree = .ok s.toTree := by
  simp only [Field.check, Field.one, checkOne_stmt]
  rfl

theorem check_exprOrAbsent (e : Option Expr) :
    (Field.possible name .expr).check kind (Expr.toTreeOrAbsent e) = .ok (Expr.toTreeOrAbsent e) := by
  cases e with
  | none => rfl
  | some e =>
      simp only [Field.check, Field.possible, Expr.toTreeOrAbsent, checkOne_expr]
      rfl

theorem check_stmtOrAbsent (s : Option Stmt) :
    (Field.possible name .stmt).check kind (Stmt.toTreeOrAbsent s) = .ok (Stmt.toTreeOrAbsent s) := by
  cases s with
  | none => rw [Stmt.toTreeOrAbsent]; rfl
  | some s =>
      simp only [Field.check, Field.possible, Stmt.toTreeOrAbsent, checkOne_stmt]
      rfl

theorem check_exprs (es : List Expr) :
    (Field.several name .expr).check kind (.seq (Expr.toTrees es)) =
      .ok (.seq (Expr.toTrees es)) := by
  have heach : (Field.several name .expr).checkEach kind (Expr.toTrees es) = .ok () := by
    induction es with
    | nil => rfl
    | cons e es ih =>
        rw [Expr.toTrees, Field.checkEach, Field.several, checkOne_expr]
        exact ih
  simp only [Field.check, Tree.items?, heach]
  rfl

theorem check_stmts (ss : List Stmt) :
    (Field.several name .stmt).check kind (.seq (Stmt.toTrees ss)) =
      .ok (.seq (Stmt.toTrees ss)) := by
  have heach : (Field.several name .stmt).checkEach kind (Stmt.toTrees ss) = .ok () := by
    induction ss with
    | nil => rw [Stmt.toTrees]; rfl
    | cons s ss ih =>
        rw [Stmt.toTrees, Field.checkEach, Field.several, checkOne_stmt]
        exact ih
  simp only [Field.check, Tree.items?, heach]
  rfl

theorem check_tokens (tokens : List Token) :
    (Field.several name .token).check kind (.seq (tokens.map .token)) =
      .ok (.seq (tokens.map .token)) := by
  have heach : (Field.several name .token).checkEach kind (tokens.map .token) = .ok () := by
    induction tokens with
    | nil => rfl
    | cons token tokens ih =>
        rw [List.map_cons, Field.checkEach]
        exact ih
  simp only [Field.check, Tree.items?, heach]
  rfl

end

theorem constructAll_tokens (tokens : List Token) :
    Tree.constructAll (tokens.map .token) = .ok (tokens.map .token) := by
  induction tokens with
  | nil => rfl
  | cons token tokens ih =>
      simp only [List.map_cons, Tree.constructAll, Tree.construct, ih, Except.map]

mutual

/-- **The tree of an expression passes the checks of its nodes.** -/
theorem Expr.construct_toTree : ∀ e : Expr, e.toTree.construct = .ok e.toTree
  | .assign name value => by
      simp only [Expr.toTree, Tree.construct, Tree.constructAll, Expr.construct_toTree value,
        Except.map, NodeKind.build, NodeKind.layout, Field.complete?, Option.map_some,
        NodeKind.checkFields, check_token, check_expr]
  | .binary left operator right => by
      simp only [Expr.toTree, Tree.construct, Tree.constructAll, Expr.construct_toTree left,
        Expr.construct_toTree right, Except.map, NodeKind.build, NodeKind.layout, Field.complete?,
        Option.map_some, NodeKind.checkFields, check_token, check_expr]
  | .call callee paren arguments => by
      simp only [Expr.toTree, Tree.construct, Tree.constructAll, Expr.construct_toTree callee,
        Expr.constructAll_toTrees arguments, Except.map, NodeKind.build, NodeKind.layout,
        Field.complete?, Option.map_some, NodeKind.checkFields, check_token, check_expr,
        check_exprs]
  | .grouping inner => by
      simp only [Expr.toTree, Tree.construct, Tree.constructAll, Expr.construct_toTree inner,
        Except.map, NodeKind.build, NodeKind.layout, Field.complete?, Option.map_some,
        NodeKind.checkFields, check_expr]
  | .literal value => by
      simp only [Expr.toTree, Tree.construct, Tree.constructAll, Except.map, NodeKind.build,
        NodeKind.layout, Field.complete?, Option.map_some, NodeKind.checkFields, check_literal]
  | .logical left operator right => by
      simp only [Expr.toTree, Tree.construct, Tree.constructAll, Expr.construct_toTree left,
        Expr.construct_toTree right, Except.map, NodeKind.build, NodeKind.layout, Field.complete?,
        Option.map_some, NodeKind.checkFields, check_token, check_expr]
  | .unary operator right => by
      simp only [Expr.toTree, Tree.construct, Tree.constructAll, Expr.construct_toTree right,
        Except.map, NodeKind.build, NodeKind.layout, Field.complete?, Option.map_some,
        NodeKind.checkFields, check_token, check_expr]
  | .lookup name => by
      simp only [Expr.toTree, Tree.construct, Tree.constructAll, Except.map, NodeKind.build,
        NodeKind.layout, Field.complete?, Option.map_some, NodeKind.checkFields, check_token]

theorem Expr.constructAll_toTrees : ∀ es : List Expr,
    Tree.constructAll (Expr.toTrees es) = .ok (Expr.toTrees es)
  | [] => by simp only [Expr.toTrees, Tree.constructAll]
  | e :: es => by
      simp only [Expr.toTrees, Tree.constructAll, Expr.construct_toTree e,
        Expr.constructAll_toTrees es, Except.map]

end

theorem Expr.construct_toTreeOrAbsent (e : Option Expr) :
    (Expr.toTreeOrAbsent e).construct = .ok (Expr.toTreeOrAbsent e) := by
  cases e with
  | none => rfl
  | some e => exact e.construct_toTree

mutual

/-- **The tree of a statement passes the checks of its nodes.** -/
theorem Stmt.construct_toTree : ∀ s : Stmt, s.toTree.construct = .ok s.toTree
  | .block body => by
      simp only [Stmt.toTree, Tree.construct, Tree.constructAll, Stmt.constructAll_toTrees body,
        Except.map, NodeKind.build, NodeKind.layout, Field.complete?, Option.map_some,
        NodeKind.checkFields, check_stmts]
  | .expression value => by
      simp only [Stmt.toTree, Tree.construct, Tree.constructAll, Expr.construct_toTree,
        Except.map, NodeKind.build, NodeKind.layout, Field.complete?, Option.map_some,
        NodeKind.checkFields, check_expr]
  | .function name parameters body => by
      simp only [Stmt.toTree, Tree.construct, Tree.constructAll, constructAll_tokens,
        Stmt.constructAll_toTrees body, Except.map, NodeKind.build, NodeKind.layout,
        Field.complete?, Option.map_some, NodeKind.checkFields, check_token, check_tokens,
        check_stmts]
  | .branch condition thenBranch none => by
      have habsent := check_stmtOrAbsent .branch "else_branch" none
      rw [Stmt.toTreeOrAbsent] at habsent
      simp only [Stmt.toTree, Stmt.toTreeOrAbsent, Tree.construct, Tree.constructAll,
        Expr.construct_toTree, Stmt.construct_toTree thenBranch, Except.map, NodeKind.build,
        NodeKind.layout, Field.complete?, Option.map_some, NodeKind.checkFields, check_expr,
        check_stmt, habsent]
  | .branch condition thenBranch (some elseBranch) => by
      have habsent := check_stmtOrAbsent .branch "else_branch" (some elseBranch)
      rw [Stmt.toTreeOrAbsent] at habsent
      simp only [Stmt.toTree, Stmt.toTreeOrAbsent, Tree.construct, Tree.constructAll,
        Expr.construct_toTree, Stmt.construct_toTree thenBranch, Stmt.construct_toTree elseBranch,
        Except.map, NodeKind.build, NodeKind.layout, Field.complete?, Option.map_some,
        NodeKind.checkFields, check_expr, check_stmt, habsent]
  | .print value => by
      simp only [Stmt.toTree, Tree.construct, Tree.constructAll, Expr.construct_toTree,
        Except.map, NodeKind.build, NodeKind.layout, Field.complete?, Option.map_some,
        NodeKind.checkFields, check_expr]
  | .giveBack keyword value => by
      simp only [Stmt.toTree, Tree.construct, Tree.constructAll, Expr.construct_toTreeOrAbsent,
        Except.map, NodeKind.build, NodeKind.layout, Field.complete?, Option.map_some,
        NodeKind.checkFields, check_token, check_exprOrAbsent]
  | .declare name initializer => by
      simp only [Stmt.toTree, Tree.construct, Tree.constructAll, Expr.construct_toTreeOrAbsent,
        Except.map, NodeKind.build, NodeKind.layout, Field.complete?, Option.map_some,
        NodeKind.checkFields, check_token, check_exprOrAbsent]
  | .loop condition body => by
      simp only [Stmt.toTree, Tree.construct, Tree.constructAll, Expr.construct_toTree,
        Stmt.construct_toTree body, Except.map, NodeKind.build, NodeKind.layout, Field.complete?,
        Option.map_some, NodeKind.checkFields, check_expr, check_stmt]

theorem Stmt.constructAll_toTrees : ∀ ss : List Stmt,
    Tree.constructAll (Stmt.toTrees ss) = .ok (Stmt.toTrees ss)
  | [] => by simp only [Stmt.toTrees, Tree.constructAll]
  | s :: ss => by
      simp only [Stmt.toTrees, Tree.constructAll, Stmt.construct_toTree s,
        Stmt.constructAll_toTrees ss, Except.map]

end

end LoxLang
