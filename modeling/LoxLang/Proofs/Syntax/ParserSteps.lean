/-
**What a parser does to its state.**

Whatever a parser of `LoxLang/Syntax/Parser.lean` answers, it has only moved forward: it has read some
tokens, none of which ends the source text, the number of function bodies around is what it was, and
the errors recorded before are still recorded, in front of the new ones.  When it gives up, the last
error names what is missing, at the token in front of which it gave up.  A fault can be blamed on the
tokens: none of them ends the source text, or a numeral or a string among them lacks its value.

* `LoxLang.ParserState.Reaches`, `LoxLang.ParserState.GivesUp` — moving forward, and giving up;
* `LoxLang.Parser.Proceeds` — what a parser may answer, with its closure under the combinators
  (`Proceeds.bind`, `Proceeds.nested`, `Proceeds.recovering`);
* `LoxLang.Parser.proceeds_declaration`, `LoxLang.Parser.proceeds_program` — **every parser proceeds**.
-/

import LoxLang.Syntax.Parser

set_option relaxedAutoImplicit false
set_option autoImplicit false

namespace LoxLang

/-! ### Moving forward -/

namespace ParserState

/-- A parser may get from the first state to the second: it has read tokens, but not the one that
ends the source text, and has recorded errors. -/
structure Reaches (s t : ParserState) : Prop where
  /-- What was read does not end the source text. -/
  read : ∃ ts, s.rest = ts ++ t.rest ∧ ∀ token ∈ ts, token.isEnd = false
  /-- The number of function bodies around is what it was. -/
  depth : t.depth = s.depth
  /-- The errors before are kept. -/
  errors : s.errors <+: t.errors

theorem Reaches.refl (s : ParserState) : s.Reaches s :=
  ⟨⟨[], rfl, by simp⟩, rfl, List.prefix_refl _⟩

theorem Reaches.trans {s t u : ParserState} (h : s.Reaches t) (h' : t.Reaches u) : s.Reaches u := by
  obtain ⟨ts, hts, hend⟩ := h.read
  obtain ⟨us, hus, hend'⟩ := h'.read
  refine ⟨⟨ts ++ us, by rw [hts, hus, List.append_assoc], ?_⟩, h'.depth.trans h.depth,
    h.errors.trans h'.errors⟩
  intro token ht
  rcases List.mem_append.1 ht with ht | ht
  · exact hend token ht
  · exact hend' token ht

theorem Reaches.length_le {s t : ParserState} (h : s.Reaches t) :
    t.rest.length ≤ s.rest.length := by
  obtain ⟨ts, hts, -⟩ := h.read
  rw [hts, List.length_append]
  exact Nat.le_add_left _ _

/-- The tokens ahead of the second state are ahead of the first. -/
theorem Reaches.mem {s t : ParserState} (h : s.Reaches t) {token : Token} (ht : token ∈ t.rest) :
    token ∈ s.rest := by
  obtain ⟨ts, hts, -⟩ := h.read
  rw [hts]
  exact List.mem_append_right _ ht

/-- A parser gave up on its way: at the state that it had reached it recorded what is missing. -/
def GivesUp (s t : ParserState) : Prop :=
  ∃ u token rest expectation, s.Reaches u ∧ u.rest = token :: rest ∧
    t = { u with errors := u.errors ++ [⟨token, .expected expectation⟩] }

/-- Giving up later on the way is giving up. -/
theorem Reaches.givesUp {s t u : ParserState} (h : s.Reaches t) (h' : t.GivesUp u) : s.GivesUp u := by
  obtain ⟨v, token, rest, expectation, hv, hr, rfl⟩ := h'
  exact ⟨v, token, rest, expectation, h.trans hv, hr, rfl⟩

/-- A parser that gave up has still only moved forward. -/
theorem GivesUp.reaches {s t : ParserState} (h : s.GivesUp t) : s.Reaches t := by
  obtain ⟨u, token, rest, expectation, hu, -, rfl⟩ := h
  exact ⟨hu.read, hu.depth, hu.errors.trans (List.prefix_append _ _)⟩

/-- Giving up records an error. -/
theorem GivesUp.length_lt {s t : ParserState} (h : s.GivesUp t) :
    s.errors.length < t.errors.length := by
  obtain ⟨u, token, rest, expectation, hu, -, rfl⟩ := h
  have := hu.errors.length_le
  simp only [List.length_append, List.length_singleton]
  omega

/-- None of the tokens ahead ends the source text. -/
def Endless (s : ParserState) : Prop := ∀ token ∈ s.rest, token.isEnd = false

/-- If nothing that is left ends the source text, nothing that was ahead before did. -/
theorem Reaches.endless {s t : ParserState} (h : s.Reaches t) (h' : t.Endless) : s.Endless := by
  obtain ⟨ts, hts, hend⟩ := h.read
  intro token ht
  rw [hts] at ht
  rcases List.mem_append.1 ht with ht | ht
  · exact hend token ht
  · exact h' token ht

/-- What is read with one more function body around leaves the number one too high, and going down by
one restores it. -/
theorem Reaches.leave {s t : ParserState} (h : Reaches { s with depth := s.depth + 1 } t) :
    s.Reaches { t with depth := t.depth - 1 } :=
  ⟨h.read, Nat.sub_eq_of_eq_add h.depth, h.errors⟩

end ParserState

/-- A numeral or a string without its value. -/
def Token.LacksValue (token : Token) : Prop :=
  (token.kind = .number ∨ token.kind = .string) ∧ token.literal = none

/-- What a parser may answer that starts in the given state. -/
def Reply.From {α : Type} (s : ParserState) : Reply α → Prop
  | .ok _ t => s.Reaches t
  | .gaveUp t => s.GivesUp t
  | .fault .offEnd _ => s.Endless
  | .fault .missingLiteral _ => ∃ token ∈ s.rest, token.LacksValue
  | .outOfFuel => True

/-- What is answered from a state on the way is answered from the state before. -/
theorem Reply.From.of_reaches {α : Type} {s t : ParserState} {r : Reply α} (h : s.Reaches t)
    (h' : r.From t) : r.From s := by
  cases r with
  | ok _ u => exact h.trans h'
  | gaveUp u => exact h.givesUp h'
  | fault fault u =>
      cases fault with
      | offEnd => exact h.endless h'
      | missingLiteral =>
          obtain ⟨token, ht, hl⟩ := h'
          exact ⟨token, h.mem ht, hl⟩
  | outOfFuel => trivial

namespace Parser

variable {α β : Type}

/-- The parser only moves forward. -/
def Proceeds (p : Parser α) : Prop := ∀ s, (p s).From s

/-- From the given state the parser only moves forward. -/
def ProceedsAt (s : ParserState) (p : Parser α) : Prop := (p s).From s

/-! ### The combinators proceed -/

/-- Two parts that move forward do so one behind the other. -/
theorem Proceeds.bind {p : Parser α} {f : α → Parser β} (hp : p.Proceeds)
    (hf : ∀ a, (f a).Proceeds) : (p >>= f).Proceeds := by
  intro s
  have h := hp s
  change (Parser.bind p f s).From s
  unfold Parser.bind
  cases hr : p s with
  | ok a t =>
      rw [hr] at h
      exact (hf a t).of_reaches h
  | gaveUp t => rw [hr] at h; exact h
  | fault fault t =>
      rw [hr] at h
      cases fault with
      | offEnd => exact h
      | missingLiteral => exact h
  | outOfFuel => trivial

theorem proceeds_pure (a : α) : Proceeds (Pure.pure a : Parser α) := fun s => .refl s

theorem proceeds_outOfFuel : Proceeds (outOfFuel : Parser α) := fun _ => trivial

/-- Without a token ahead there is none that ends the source text. -/
theorem endless_of_nil {s : ParserState} (h : s.rest = []) : s.Endless := by
  intro token ht
  rw [h] at ht
  simp at ht

theorem proceeds_peek : peek.Proceeds := by
  intro s
  unfold peek
  split
  · next h => exact endless_of_nil h
  · exact .refl s

theorem proceeds_check (test : TokenKind → Bool) : (check test).Proceeds := by
  intro s
  unfold check
  split
  · next h => exact endless_of_nil h
  · exact .refl s

/-- Going past a token that does not end the source text. -/
theorem reaches_tail {s : ParserState} {token : Token} {rest : List Token}
    (h : s.rest = token :: rest) (he : token.isEnd = false) : s.Reaches { s with rest } :=
  ⟨⟨[token], h, by simpa using he⟩, rfl, List.prefix_refl _⟩

/-- The token that ends the source text is never read. -/
theorem proceeds_advance : advance.Proceeds := by
  intro s
  unfold advance
  split
  · next h => exact endless_of_nil h
  · next token rest h =>
      split
      · exact .refl s
      · next he => exact reaches_tail h (by simpa using he)

/-- A token is accepted only if it does not end the source text. -/
theorem proceeds_accept (test : TokenKind → Bool) : (accept test).Proceeds := by
  intro s
  unfold accept
  split
  · next h => exact endless_of_nil h
  · next token rest h =>
      split
      · next ht => exact reaches_tail h (by simpa using (Bool.and_eq_true_iff.1 ht).1)
      · exact .refl s

theorem proceeds_note (token : Token) (cause : SyntaxCause) : (note token cause).Proceeds :=
  fun _ => ⟨⟨[], rfl, by simp⟩, rfl, List.prefix_append _ _⟩

/-- Giving up is blamed on the token ahead. -/
theorem proceeds_giveUp (expectation : Expectation) : Proceeds (giveUp expectation : Parser α) := by
  intro s
  unfold giveUp
  split
  · next h => exact endless_of_nil h
  · next token rest h => exact ⟨s, token, rest, expectation, .refl s, h, rfl⟩

theorem proceeds_depth : depth.Proceeds := fun s => .refl s

/-- A token that is expected is read, or the parser gives up in front of another one. -/
theorem proceeds_expect (kind : TokenKind) (expectation : Expectation) :
    (expect kind expectation).Proceeds := by
  refine (proceeds_accept _).bind fun found => ?_
  cases found with
  | none => exact proceeds_giveUp _
  | some token => exact proceeds_pure _

/-- A body that proceeds leaves the number of function bodies as it finds it, so behind the body the
number is again what it was in front, also where the reading is given up. -/
theorem Proceeds.nested {p : Parser α} (hp : p.Proceeds) : (nested p).Proceeds := by
  intro s
  have h := hp { s with depth := s.depth + 1 }
  unfold Parser.nested
  cases hr : p { s with depth := s.depth + 1 } with
  | ok a t =>
      rw [hr] at h
      exact h.leave
  | gaveUp t =>
      rw [hr] at h
      obtain ⟨u, token, rest, expectation, hu, hrest, rfl⟩ := h
      -- The error is recorded inside of the body, so one is taken off behind it.
      exact ⟨{ u with depth := u.depth - 1 }, token, rest, expectation, hu.leave, hrest, rfl⟩
  | fault fault t =>
      rw [hr] at h
      cases fault with
      | offEnd => exact h
      | missingLiteral => exact h
  | outOfFuel => trivial

/-! ### Recovery proceeds -/

/-- Looking for a boundary skips tokens, but not the one that ends the source text. -/
theorem boundary?_eq_some {ts us : List Token} : ∀ {before : TokenKind},
    boundary? before ts = some us →
      ∃ skipped, ts = skipped ++ us ∧ ∀ token ∈ skipped, token.isEnd = false := by
  induction ts with
  | nil => intro before h; simp [boundary?] at h
  | cons token rest ih =>
      intro before h
      rw [boundary?] at h
      split at h
      · obtain rfl : token :: rest = us := by simpa using h
        exact ⟨[], rfl, by simp⟩
      · next hstop =>
          have he : token.isEnd = false := by
            simp only [Bool.or_eq_true, not_or, Bool.not_eq_true] at hstop
            exact hstop.1.1
          obtain ⟨skipped, hs, hend⟩ := ih h
          exact ⟨token :: skipped, by rw [hs, List.cons_append], by simpa [he] using hend⟩

/-- Only at the end of tokens that none ends there is no place to resume. -/
theorem boundary?_eq_none {ts : List Token} : ∀ {before : TokenKind},
    boundary? before ts = none → ∀ token ∈ ts, token.isEnd = false := by
  induction ts with
  | nil => intro before _; simp
  | cons token rest ih =>
      intro before h
      rw [boundary?] at h
      split at h
      · simp at h
      · next hstop =>
          have he : token.isEnd = false := by
            simp only [Bool.or_eq_true, not_or, Bool.not_eq_true] at hstop
            exact hstop.1.1
          simpa [he] using ih h

/-- Synchronizing skips tokens, and at least one unless the first ends the source text. -/
theorem synchronized?_eq_some {ts us : List Token} (h : synchronized? ts = some us) :
    ∃ skipped, ts = skipped ++ us ∧ (∀ token ∈ skipped, token.isEnd = false) ∧
      (skipped = [] → ∃ token rest, ts = token :: rest ∧ token.isEnd = true) := by
  cases ts with
  | nil => simp [synchronized?] at h
  | cons token rest =>
      rw [synchronized?] at h
      split at h
      · next he =>
          obtain rfl : token :: rest = us := by simpa using h
          exact ⟨[], rfl, by simp, fun _ => ⟨token, rest, rfl, he⟩⟩
      · next he =>
          obtain ⟨skipped, hs, hend⟩ := boundary?_eq_some h
          refine ⟨token :: skipped, by rw [hs, List.cons_append], ?_, by simp⟩
          simpa [he] using hend

/-- Synchronizing runs off the tokens only if none of them ends the source text. -/
theorem synchronized?_eq_none {ts : List Token} (h : synchronized? ts = none) :
    ∀ token ∈ ts, token.isEnd = false := by
  cases ts with
  | nil => simp
  | cons token rest =>
      rw [synchronized?] at h
      split at h
      · simp at h
      · next he => simpa [he] using boundary?_eq_none h

/-- Synchronizing goes forward, and records nothing. -/
theorem proceeds_synchronize : synchronize.Proceeds := by
  intro s
  unfold synchronize
  cases hs : synchronized? s.rest with
  | some us =>
      obtain ⟨skipped, hr, hend, -⟩ := synchronized?_eq_some hs
      exact ⟨⟨skipped, hr, hend⟩, rfl, List.prefix_refl _⟩
  | none => exact synchronized?_eq_none hs

/-- Taking an error over goes on from where the parser gave up. -/
theorem Proceeds.recovering {p : Parser α} (hp : p.Proceeds) : (recovering p).Proceeds := by
  intro s
  have h := hp s
  unfold Parser.recovering
  cases hr : p s with
  | ok a t => rw [hr] at h; exact h
  | gaveUp t =>
      rw [hr] at h
      exact (proceeds_synchronize.bind (fun _ => proceeds_pure none) t).of_reaches h.reaches
  | fault fault t =>
      rw [hr] at h
      cases fault with
      | offEnd => exact h
      | missingLiteral => exact h
  | outOfFuel => trivial

/-! ### The rules of expressions proceed -/

theorem proceeds_noteExcess (before : Nat) (cause : SyntaxCause) :
    (noteExcess before cause).Proceeds := by
  unfold noteExcess
  split
  · exact proceeds_peek.bind fun token => proceeds_note token cause
  · exact proceeds_pure ()

theorem proceeds_noteTopLevel (keyword : Token) : (noteTopLevel keyword).Proceeds := by
  refine proceeds_depth.bind fun n => ?_
  split
  · exact proceeds_note _ _
  · exact proceeds_pure ()

/-- Reading the token ahead, and going on with a token in hand: the only rule that looks at a token
and reads it in two steps. -/
theorem proceedsAt_literal {s : ParserState} {token : Token} {rest : List Token}
    (h : s.rest = token :: rest) (hk : token.kind = .number ∨ token.kind = .string) :
    ProceedsAt s (do
      advance
      return Expr.literal (← literalOf token)) := by
  have he : token.isEnd = false := by
    rcases hk with hk | hk <;> simp [Token.isEnd, hk]
  have hadv : advance s = .ok () { s with rest } := by simp [advance, h, he]
  change Reply.From s (Parser.bind advance _ s)
  simp only [Parser.bind, hadv]
  change Reply.From s (Parser.bind (literalOf token) _ _)
  unfold Parser.bind literalOf
  cases hl : token.literal with
  | some v => exact reaches_tail h he
  | none => exact ⟨token, by simp [h], hk, hl⟩

/-- A primary expression moves forward if the expression in its parentheses does. -/
theorem proceeds_primary_of {fuel : Nat} (he : (expression fuel).Proceeds) :
    (primary (fuel + 1)).Proceeds := by
  intro s
  rw [primary]
  change Reply.From s (Parser.bind peek _ s)
  unfold Parser.bind peek
  cases hr : s.rest with
  | nil => exact endless_of_nil hr
  | cons token rest =>
      change ProceedsAt s _
      split
      · exact (proceeds_advance.bind fun _ => proceeds_pure _) s
      · exact (proceeds_advance.bind fun _ => proceeds_pure _) s
      · exact (proceeds_advance.bind fun _ => proceeds_pure _) s
      · next hk => exact proceedsAt_literal hr (.inl hk)
      · next hk => exact proceedsAt_literal hr (.inr hk)
      · exact (proceeds_advance.bind fun _ => proceeds_pure _) s
      · exact (proceeds_advance.bind fun _ => he.bind fun _ =>
          (proceeds_expect _ _).bind fun _ => proceeds_pure _) s
      · exact proceeds_giveUp _ s

mutual

/-- An expression; a target that cannot be assigned to is an error, recorded behind the value. -/
theorem proceeds_expression : ∀ fuel, (expression fuel).Proceeds
  | 0 => proceeds_outOfFuel
  | fuel + 1 => by
      rw [expression]
      refine (proceeds_operand fuel _).bind fun target => ?_
      refine (proceeds_accept _).bind fun found => ?_
      cases found with
      | none => exact proceeds_pure _
      | some equals =>
          refine (proceeds_expression fuel).bind fun value => ?_
          cases target with
          | lookup name => exact proceeds_pure _
          | _ => exact (proceeds_note _ _).bind fun _ => proceeds_pure _

theorem proceeds_operand : ∀ fuel levels, (operand fuel levels).Proceeds
  | 0, _ => proceeds_outOfFuel
  | fuel + 1, [] => by
      rw [operand]
      exact proceeds_unary fuel
  | fuel + 1, level :: tighter => by
      rw [operand]
      exact (proceeds_operand fuel tighter).bind fun left =>
        proceeds_operations fuel level tighter left

theorem proceeds_operations : ∀ fuel level tighter left,
    (operations fuel level tighter left).Proceeds
  | 0, _, _, _ => proceeds_outOfFuel
  | fuel + 1, level, tighter, left => by
      rw [operations]
      refine (proceeds_accept _).bind fun found => ?_
      cases found with
      | none => exact proceeds_pure _
      | some operator =>
          exact (proceeds_operand fuel tighter).bind fun right =>
            proceeds_operations fuel level tighter _

theorem proceeds_unary : ∀ fuel, (unary fuel).Proceeds
  | 0 => proceeds_outOfFuel
  | fuel + 1 => by
      rw [unary]
      refine (proceeds_accept _).bind fun found => ?_
      cases found with
      | none => exact (proceeds_primary fuel).bind fun callee => proceeds_calls fuel callee
      | some operator => exact (proceeds_unary fuel).bind fun right => proceeds_pure _

theorem proceeds_calls : ∀ fuel callee, (calls fuel callee).Proceeds
  | 0, _ => proceeds_outOfFuel
  | fuel + 1, callee => by
      rw [calls]
      refine (proceeds_accept _).bind fun found => ?_
      cases found with
      | none => exact proceeds_pure _
      | some opening =>
          exact (proceeds_argumentList fuel).bind fun args => (proceeds_expect _ _).bind fun paren =>
            proceeds_calls fuel _

theorem proceeds_argumentList : ∀ fuel, (argumentList fuel).Proceeds
  | 0 => proceeds_outOfFuel
  | fuel + 1 => by
      rw [argumentList]
      refine (proceeds_check _).bind fun stop => ?_
      split
      · exact proceeds_pure _
      · exact proceeds_arguments fuel 0

/-- An argument too many is an error, but it is read all the same. -/
theorem proceeds_arguments : ∀ fuel before, (arguments fuel before).Proceeds
  | 0, _ => proceeds_outOfFuel
  | fuel + 1, before => by
      rw [arguments]
      refine (proceeds_noteExcess _ _).bind fun _ => ?_
      refine (proceeds_expression fuel).bind fun first => ?_
      refine (proceeds_accept _).bind fun found => ?_
      cases found with
      | none => exact proceeds_pure _
      | some comma => exact (proceeds_arguments fuel _).bind fun others => proceeds_pure _

theorem proceeds_primary : ∀ fuel, (primary fuel).Proceeds
  | 0 => proceeds_outOfFuel
  | fuel + 1 => proceeds_primary_of (proceeds_expression fuel)

end

/-! ### The rules of statements proceed -/

/-- A parameter too many is an error, but it is read all the same. -/
theorem proceeds_parameters : ∀ fuel before, (parameters fuel before).Proceeds
  | 0, _ => proceeds_outOfFuel
  | fuel + 1, before => by
      rw [parameters]
      refine (proceeds_noteExcess _ _).bind fun _ => ?_
      refine (proceeds_expect _ _).bind fun first => ?_
      refine (proceeds_accept _).bind fun found => ?_
      cases found with
      | none => exact proceeds_pure _
      | some comma => exact (proceeds_parameters fuel _).bind fun others => proceeds_pure _

theorem proceeds_parameterList (fuel : Nat) : (parameterList fuel).Proceeds := by
  refine (proceeds_check _).bind fun stop => ?_
  split
  · exact proceeds_pure _
  · exact proceeds_parameters fuel 0

theorem proceeds_optionalExpression (fuel : Nat) (stop : TokenKind) :
    (optionalExpression fuel stop).Proceeds := by
  refine (proceeds_check _).bind fun found => ?_
  split
  · exact proceeds_pure _
  · exact (proceeds_expression fuel).bind fun e => proceeds_pure _

theorem proceeds_initializer (fuel : Nat) : (initializer fuel).Proceeds := by
  refine (proceeds_accept _).bind fun found => ?_
  cases found with
  | none => exact proceeds_pure _
  | some equals => exact (proceeds_expression fuel).bind fun e => proceeds_pure _

theorem proceeds_variableDeclaration (fuel : Nat) : (variableDeclaration fuel).Proceeds :=
  (proceeds_expect _ _).bind fun _ => (proceeds_initializer fuel).bind fun _ =>
    (proceeds_expect _ _).bind fun _ => proceeds_pure _

theorem proceeds_expressionStatement (fuel : Nat) : (expressionStatement fuel).Proceeds :=
  (proceeds_expression fuel).bind fun _ => (proceeds_expect _ _).bind fun _ => proceeds_pure _

theorem proceeds_printStatement (fuel : Nat) : (printStatement fuel).Proceeds :=
  (proceeds_expression fuel).bind fun _ => (proceeds_expect _ _).bind fun _ => proceeds_pure _

/-- A `return` outside of a function is an error, but it is read all the same. -/
theorem proceeds_returnStatement (fuel : Nat) (keyword : Token) :
    (returnStatement fuel keyword).Proceeds :=
  (proceeds_noteTopLevel keyword).bind fun _ => (proceeds_optionalExpression fuel _).bind fun _ =>
    (proceeds_expect _ _).bind fun _ => proceeds_pure _

theorem proceeds_forInitializer : ∀ fuel, (forInitializer fuel).Proceeds
  | 0 => proceeds_outOfFuel
  | fuel + 1 => by
      rw [forInitializer]
      refine (proceeds_accept _).bind fun found => ?_
      cases found with
      | some semicolon => exact proceeds_pure _
      | none =>
          refine (proceeds_accept _).bind fun found => ?_
          cases found with
          | some word => exact (proceeds_variableDeclaration fuel).bind fun _ => proceeds_pure _
          | none => exact (proceeds_expressionStatement fuel).bind fun _ => proceeds_pure _

mutual

theorem proceeds_declaration : ∀ fuel, (declaration fuel).Proceeds
  | 0 => proceeds_outOfFuel
  | fuel + 1 => by
      rw [declaration]
      exact (proceeds_bareDeclaration fuel).recovering

theorem proceeds_bareDeclaration : ∀ fuel, (bareDeclaration fuel).Proceeds
  | 0 => proceeds_outOfFuel
  | fuel + 1 => by
      rw [bareDeclaration]
      refine (proceeds_accept _).bind fun found => ?_
      cases found with
      | some word => exact proceeds_function fuel
      | none =>
          refine (proceeds_accept _).bind fun found => ?_
          cases found with
          | some word => exact proceeds_variableDeclaration fuel
          | none => exact proceeds_statement fuel

/-- A function, whose body is read one function deeper. -/
theorem proceeds_function : ∀ fuel, (function fuel).Proceeds
  | 0 => proceeds_outOfFuel
  | fuel + 1 => by
      rw [function]
      refine (proceeds_expect _ _).bind fun name => (proceeds_expect _ _).bind fun _ => ?_
      refine (proceeds_parameterList fuel).bind fun names => ?_
      refine (proceeds_expect _ _).bind fun _ => (proceeds_expect _ _).bind fun _ => ?_
      exact (proceeds_block fuel).nested.bind fun body => proceeds_pure _

/-- A statement, told by the token ahead. -/
theorem proceeds_statement : ∀ fuel, (statement fuel).Proceeds
  | 0 => proceeds_outOfFuel
  | fuel + 1 => by
      rw [statement]
      refine proceeds_peek.bind fun token => ?_
      split
      · exact proceeds_advance.bind fun _ => proceeds_forStatement fuel
      · exact proceeds_advance.bind fun _ => proceeds_ifStatement fuel
      · exact proceeds_advance.bind fun _ => proceeds_printStatement fuel
      · exact proceeds_advance.bind fun _ => proceeds_returnStatement fuel token
      · exact proceeds_advance.bind fun _ => proceeds_whileStatement fuel
      · exact proceeds_advance.bind fun _ => (proceeds_block fuel).bind fun _ => proceeds_pure _
      · exact proceeds_expressionStatement fuel

theorem proceeds_forStatement : ∀ fuel, (forStatement fuel).Proceeds
  | 0 => proceeds_outOfFuel
  | fuel + 1 => by
      rw [forStatement]
      refine (proceeds_expect _ _).bind fun _ => (proceeds_forInitializer fuel).bind fun _ => ?_
      refine (proceeds_optionalExpression fuel _).bind fun _ => (proceeds_expect _ _).bind fun _ => ?_
      refine (proceeds_optionalExpression fuel _).bind fun _ => (proceeds_expect _ _).bind fun _ => ?_
      exact (proceeds_statement fuel).bind fun _ => proceeds_pure _

theorem proceeds_ifStatement : ∀ fuel, (ifStatement fuel).Proceeds
  | 0 => proceeds_outOfFuel
  | fuel + 1 => by
      rw [ifStatement]
      refine (proceeds_expect _ _).bind fun _ => (proceeds_expression fuel).bind fun _ => ?_
      refine (proceeds_expect _ _).bind fun _ => (proceeds_statement fuel).bind fun _ => ?_
      refine (proceeds_accept _).bind fun found => ?_
      cases found with
      | none => exact proceeds_pure _
      | some word => exact (proceeds_statement fuel).bind fun _ => proceeds_pure _

theorem proceeds_whileStatement : ∀ fuel, (whileStatement fuel).Proceeds
  | 0 => proceeds_outOfFuel
  | fuel + 1 => by
      rw [whileStatement]
      refine (proceeds_expect _ _).bind fun _ => (proceeds_expression fuel).bind fun _ => ?_
      exact (proceeds_expect _ _).bind fun _ => (proceeds_statement fuel).bind fun _ =>
        proceeds_pure _

theorem proceeds_block : ∀ fuel, (block fuel).Proceeds
  | 0 => proceeds_outOfFuel
  | fuel + 1 => by
      rw [block]
      exact (proceeds_blockItems fuel).bind fun _ => (proceeds_expect _ _).bind fun _ =>
        proceeds_pure _

/-- The declarations of a block, up to its brace or the end. -/
theorem proceeds_blockItems : ∀ fuel, (blockItems fuel).Proceeds
  | 0 => proceeds_outOfFuel
  | fuel + 1 => by
      rw [blockItems]
      refine proceeds_peek.bind fun token => ?_
      split
      · exact proceeds_pure _
      · exact (proceeds_declaration fuel).bind fun _ => (proceeds_blockItems fuel).bind fun _ =>
          proceeds_pure _

end

/-- **A program**: the parser reads on to the end, whatever is wrong on the way. -/
theorem proceeds_program : ∀ fuel, (program fuel).Proceeds
  | 0 => proceeds_outOfFuel
  | fuel + 1 => by
      rw [program]
      refine proceeds_peek.bind fun token => ?_
      split
      · exact proceeds_pure _
      · exact (proceeds_declaration fuel).bind fun _ => (proceeds_program fuel).bind fun _ =>
          proceeds_pure _

end Parser

end LoxLang
