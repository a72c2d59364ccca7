/-
**What the parser builds.**

A parser answers a tree only if it comes to its end, and an error leaves no tree.  So what every rule
keeps while it puts trees together holds of all that the parser answers, whatever the tokens are and
whatever errors are recorded.  For statements the rules are gone through once, for any property that a
statement has if its parts have it.

* `LoxLang.Parser.Builds` — what a parser answers, if it answers;
* `LoxLang.Parser.Inherited` — properties of statements that their parts hand on;
* `LoxLang.Parser.Inherited.builds_program` — **programs have the properties that their parts hand on**.
-/

import LoxLang.Proofs.Syntax.ParserFuel

set_option relaxedAutoImplicit false
set_option autoImplicit false

namespace LoxLang

/-! ### What may be left out -/

section

variable {α : Type} {P : α → Prop}

/-- What may be left out has the property if it is there. -/
def IfAny (P : α → Prop) (found : Option α) : Prop := ∀ a, found = some a → P a

theorem ifAny_none : IfAny P none := nofun

theorem ifAny_some {a : α} (h : P a) : IfAny P (some a) := by
  rintro b hb
  cases hb
  exact h

/-- A first item that may be left out, in front of others. -/
theorem forall_mem_toList_append {found : Option α} {others : List α} (hf : IfAny P found)
    (ho : ∀ a ∈ others, P a) : ∀ a ∈ found.toList ++ others, P a :=
  List.forall_mem_append.2 ⟨fun a ha => hf a (Option.mem_toList.1 ha), ho⟩

end

/-! ### What a parser answers -/

namespace Parser

variable {α β : Type} {P : α → Prop} {Q : β → Prop}

/-- What the parser answers, if it does, has the property. -/
def Builds (P : α → Prop) (p : Parser α) : Prop := ∀ s a t, p s = .ok a t → P a

theorem builds_any (p : Parser α) : Builds (fun _ => True) p := fun _ _ _ _ => trivial

theorem builds_pure {a : α} (h : P a) : Builds P (Pure.pure a : Parser α) := by
  intro s b t hp
  cases hp
  exact h

theorem builds_outOfFuel : Builds P (outOfFuel : Parser α) := nofun

/-- What goes on may use the property of what was answered first. -/
theorem Builds.bind {p : Parser α} {f : α → Parser β} (hp : Builds P p)
    (hf : ∀ a, P a → Builds Q (f a)) : Builds Q (p >>= f) := by
  intro s b u h
  obtain ⟨a, t, ha, h₁⟩ := bind_eq_ok.1 h
  exact hf a (hp s a t ha) t b u h₁

theorem Builds.mono {P' : α → Prop} {p : Parser α} (hp : Builds P p) (h : ∀ a, P a → P' a) :
    Builds P' p := fun s a t ho => h a (hp s a t ho)

/-- Going on without looking at what was answered. -/
theorem builds_bind {p : Parser α} {f : α → Parser β} (hf : ∀ a, Builds Q (f a)) :
    Builds Q (p >>= f) :=
  (builds_any p).bind fun a _ => hf a

theorem builds_giveUp (expectation : Expectation) : Builds P (giveUp expectation : Parser α) := by
  intro s a t h
  unfold giveUp at h
  split at h <;> cases h

/-- What is known of a token that was accepted is its kind. -/
theorem builds_accept (test : TokenKind → Bool) :
    Builds (fun found => ∀ token, found = some token → test token.kind = true) (accept test) := by
  intro s found t h token hf
  unfold accept at h
  split at h
  · cases h
  · split at h
    · next ht =>
        cases h
        cases hf
        exact (Bool.and_eq_true_iff.1 ht).2
    · cases h
      cases hf

theorem Builds.nested {p : Parser α} (hp : Builds P p) : Builds P (nested p) := by
  intro s a t h
  unfold Parser.nested at h
  cases ho : p { s with depth := s.depth + 1 } with
  | ok b u =>
      rw [ho] at h
      cases h
      exact hp _ _ _ ho
  | gaveUp u =>
      rw [ho] at h
      cases h
  | fault fault u =>
      rw [ho] at h
      cases h
  | outOfFuel =>
      rw [ho] at h
      cases h

/-- After an error there is no answer. -/
theorem Builds.recovering {p : Parser α} (hp : Builds P p) :
    Builds (IfAny P) (recovering p) := by
  intro s found t h a hf
  unfold Parser.recovering at h
  cases ho : p s with
  | ok b u =>
      rw [ho] at h
      cases h
      cases hf
      exact hp _ _ _ ho
  | gaveUp u =>
      rw [ho] at h
      dsimp only at h
      unfold Parser.bind at h
      -- Behind an error there is no tree that could lack the property.
      cases hy : synchronize u with
      | ok b v =>
          rw [hy] at h
          cases h
          cases hf
      | gaveUp v =>
          rw [hy] at h
          cases h
      | fault fault v =>
          rw [hy] at h
          cases h
      | outOfFuel =>
          rw [hy] at h
          cases h
  | fault fault u =>
      rw [ho] at h
      cases h
  | outOfFuel =>
      rw [ho] at h
      cases h

/-! ### Statements -/

/-- Properties that trees have if their parts have them: one of expressions, one of statements that are
listed in a program, a block or a body, and one of the statements below a branch or a loop, which are no
declarations. -/
structure Inherited (expr : Expr → Prop) (listed below : Stmt → Prop) : Prop where
  weaken : ∀ {s}, below s → listed s
  function : ∀ {name parameters body}, (∀ s ∈ body, listed s) →
    listed (.function name parameters body)
  declare : ∀ {name initializer}, IfAny expr initializer →
    listed (.declare name initializer)
  block : ∀ {body}, (∀ s ∈ body, listed s) → below (.block body)
  expression : ∀ {value}, expr value → below (.expression value)
  print : ∀ {value}, expr value → below (.print value)
  giveBack : ∀ {keyword value}, IfAny expr value → below (.giveBack keyword value)
  branch : ∀ {condition thenBranch elseBranch}, expr condition → below thenBranch →
    IfAny below elseBranch → below (.branch condition thenBranch elseBranch)
  loop : ∀ {condition body}, expr condition → below body → below (.loop condition body)
  /-- The condition of a loop that has none. -/
  always : expr (.literal (.bool true))

/-- An expression that may be left out has the property if it is there. -/
theorem builds_optionalExpression {expr : Expr → Prop} (he : ∀ fuel, Builds expr (expression fuel))
    (fuel : Nat) (stop : TokenKind) :
    Builds (IfAny expr) (optionalExpression fuel stop) := by
  refine builds_bind fun found => ?_
  split
  · exact builds_pure ifAny_none
  · exact (he fuel).bind fun e hv => builds_pure (ifAny_some hv)

theorem builds_initializer {expr : Expr → Prop} (he : ∀ fuel, Builds expr (expression fuel))
    (fuel : Nat) : Builds (IfAny expr) (initializer fuel) := by
  refine builds_bind fun found => ?_
  cases found with
  | none => exact builds_pure ifAny_none
  | some equals => exact (he fuel).bind fun e hv => builds_pure (ifAny_some hv)

namespace Inherited

variable {expr : Expr → Prop} {listed below : Stmt → Prop} (h : Inherited expr listed below)

include h

/-- A loop stands below others, whatever begins it. -/
theorem below_forLoop {first : Option Stmt} {condition increment : Option Expr} {body : Stmt}
    (hf : IfAny listed first) (hc : IfAny expr condition) (hi : IfAny expr increment)
    (hb : below body) : below (forLoop first condition increment body) := by
  have hcondition : expr (condition.getD (.literal (.bool true))) := by
    cases condition with
    | none => exact h.always
    | some e => exact hc e rfl
  have hloop : ∀ {inner : Stmt}, below inner → below (forLoop first condition none inner) := by
    intro inner hinner
    have hbare := h.loop hcondition hinner
    cases first with
    | none => exact hbare
    | some s =>
        have hs : listed s := hf s rfl
        exact h.block (List.forall_mem_cons.2 ⟨hs, List.forall_mem_singleton.2 (h.weaken hbare)⟩)
  -- A loop with an increment is the loop without one whose body is a block.
  cases increment with
  | none => exact hloop hb
  | some e =>
      have hstep : listed (.expression e) := h.weaken (h.expression (hi e rfl))
      have hbody : below (.block [body, .expression e]) :=
        h.block (List.forall_mem_cons.2 ⟨h.weaken hb, List.forall_mem_singleton.2 hstep⟩)
      exact hloop hbody

variable (he : ∀ fuel, Builds expr (Parser.expression fuel))

include he

-- The rules of a block of mutual ones share the two hypotheses, though not each of them uses both.
set_option linter.unusedSectionVars false

theorem builds_variableDeclaration (fuel : Nat) : Builds listed (variableDeclaration fuel) :=
  builds_bind fun _ => (builds_initializer he fuel).bind fun _ hv => builds_bind fun _ =>
    builds_pure (h.declare hv)

theorem builds_expressionStatement (fuel : Nat) : Builds below (expressionStatement fuel) :=
  (he fuel).bind fun _ hv => builds_bind fun _ => builds_pure (h.expression hv)

theorem builds_printStatement (fuel : Nat) : Builds below (printStatement fuel) :=
  (he fuel).bind fun _ hv => builds_bind fun _ => builds_pure (h.print hv)

theorem builds_returnStatement (fuel : Nat) (keyword : Token) :
    Builds below (returnStatement fuel keyword) :=
  builds_bind fun _ => (builds_optionalExpression he fuel _).bind fun _ hv => builds_bind fun _ =>
    builds_pure (h.giveBack hv)

/-- The initializer of a `for` loop is listed in the block that the loop becomes. -/
theorem builds_forInitializer (fuel : Nat) : Builds (IfAny listed) (forInitializer fuel) := by
  cases fuel with
  | zero => exact builds_outOfFuel
  | succ fuel =>
      rw [forInitializer]
      refine builds_bind fun found => ?_
      cases found with
      | some semicolon => exact builds_pure ifAny_none
      | none =>
          refine builds_bind fun found => ?_
          cases found with
          | some word =>
              exact (h.builds_variableDeclaration he fuel).bind fun s hs =>
                builds_pure (ifAny_some hs)
          | none =>
              exact (h.builds_expressionStatement he fuel).bind fun s hs =>
                builds_pure (ifAny_some (h.weaken hs))

mutual

/-- A declaration that was not given up is one that may be listed. -/
theorem builds_declaration : ∀ fuel, Builds (IfAny listed) (declaration fuel)
  | 0 => builds_outOfFuel
  | fuel + 1 => by
      rw [declaration]
      exact (builds_bareDeclaration fuel).recovering

/-- A declaration by its keyword, or a statement, which may be listed too. -/
theorem builds_bareDeclaration : ∀ fuel, Builds listed (bareDeclaration fuel)
  | 0 => builds_outOfFuel
  | fuel + 1 => by
      rw [bareDeclaration]
      refine builds_bind fun found => ?_
      cases found with
      | some word => exact builds_function fuel
      | none =>
          refine builds_bind fun found => ?_
          cases found with
          | some word => exact h.builds_variableDeclaration he fuel
          | none => exact (builds_statement fuel).mono fun _ => h.weaken

/-- The statements of a body are listed in it. -/
theorem builds_function : ∀ fuel, Builds listed (Parser.function fuel)
  | 0 => builds_outOfFuel
  | fuel + 1 => by
      rw [Parser.function]
      refine builds_bind fun name => builds_bind fun _ => builds_bind fun names => ?_
      refine builds_bind fun _ => builds_bind fun _ => ?_
      exact (builds_block fuel).nested.bind fun body hb => builds_pure (h.function hb)

/-- A statement may stand below a branch or a loop. -/
theorem builds_statement : ∀ fuel, Builds below (statement fuel)
  | 0 => builds_outOfFuel
  | fuel + 1 => by
      rw [statement]
      refine builds_bind fun token => ?_
      split
      · exact builds_bind fun _ => builds_forStatement fuel
      · exact builds_bind fun _ => builds_ifStatement fuel
      · exact builds_bind fun _ => h.builds_printStatement he fuel
      · exact builds_bind fun _ => h.builds_returnStatement he fuel token
      · exact builds_bind fun _ => builds_whileStatement fuel
      · exact builds_bind fun _ => (builds_block fuel).bind fun body hb => builds_pure (h.block hb)
      · exact h.builds_expressionStatement he fuel

/-- A `for` statement stands below others as the loop that it becomes. -/
theorem builds_forStatement : ∀ fuel, Builds below (forStatement fuel)
  | 0 => builds_outOfFuel
  | fuel + 1 => by
      rw [forStatement]
      refine builds_bind fun _ => (h.builds_forInitializer he fuel).bind fun first hf => ?_
      refine (builds_optionalExpression he fuel _).bind fun condition hc => builds_bind fun _ => ?_
      refine (builds_optionalExpression he fuel _).bind fun increment hi => builds_bind fun _ => ?_
      exact (builds_statement fuel).bind fun body hb => builds_pure (h.below_forLoop hf hc hi hb)

theorem builds_ifStatement : ∀ fuel, Builds below (ifStatement fuel)
  | 0 => builds_outOfFuel
  | fuel + 1 => by
      rw [ifStatement]
      refine builds_bind fun _ => (he fuel).bind fun condition hc => ?_
      refine builds_bind fun _ => (builds_statement fuel).bind fun thenBranch ht => ?_
      refine builds_bind fun found => ?_
      cases found with
      | none => exact builds_pure (h.branch hc ht ifAny_none)
      | some word =>
          exact (builds_statement fuel).bind fun elseBranch hs =>
            builds_pure (h.branch hc ht (ifAny_some hs))

theorem builds_whileStatement : ∀ fuel, Builds below (whileStatement fuel)
  | 0 => builds_outOfFuel
  | fuel + 1 => by
      rw [whileStatement]
      refine builds_bind fun _ => (he fuel).bind fun condition hc => ?_
      exact builds_bind fun _ => (builds_statement fuel).bind fun body hb =>
        builds_pure (h.loop hc hb)

theorem builds_block : ∀ fuel, Builds (fun body => ∀ s ∈ body, listed s) (Parser.block fuel)
  | 0 => builds_outOfFuel
  | fuel + 1 => by
      rw [Parser.block]
      exact (builds_blockItems fuel).bind fun body hb => builds_bind fun _ => builds_pure hb

/-- The statements of a block are listed in it. -/
theorem builds_blockItems : ∀ fuel, Builds (fun body => ∀ s ∈ body, listed s) (blockItems fuel)
  | 0 => builds_outOfFuel
  | fuel + 1 => by
      rw [blockItems]
      refine builds_bind fun token => ?_
      split
      · exact builds_pure (List.forall_mem_nil _)
      · refine (builds_declaration fuel).bind fun first hf => ?_
        exact (builds_blockItems fuel).bind fun others ho =>
          builds_pure (forall_mem_toList_append hf ho)

end

/-- **In a program that the parser answers every statement has the property**, whatever errors are
recorded. -/
theorem builds_program : ∀ fuel, Builds (fun program => ∀ s ∈ program, listed s) (program fuel)
  | 0 => builds_outOfFuel
  | fuel + 1 => by
      rw [program]
      refine builds_bind fun token => ?_
      split
      · exact builds_pure (List.forall_mem_nil _)
      · refine (h.builds_declaration he fuel).bind fun first hf => ?_
        exact (builds_program fuel).bind fun others ho =>
          builds_pure (forall_mem_toList_append hf ho)

end Inherited

end Parser

end LoxLang
