/-
**Every phrase has a token, and so the parser ends.**

A parser of an expression or of a statement that answers has read at least one token, and a declaration
that starts in front of anything but the end leaves fewer tokens ahead, whether it is read or given up.
Between two tokens the rules call each other only from the looser to the tighter, at most fifteen deep.
So a rule needs no more fuel than thirty-two for each token ahead and its depth in that order, and the
fuel of `LoxLang.parse`, thirty-two for each token and thirty-two besides, is enough.

* `LoxLang.Parser.Consumes`, `LoxLang.Parser.consumes_expression`, `LoxLang.Parser.consumes_statement`;
* `LoxLang.Parser.declaration_length_lt` — a declaration goes forward even if it fails;
* `LoxLang.Parser.Lasts`, `LoxLang.Parser.lasts_declaration` — how much fuel is enough;
* `LoxLang.parse_ne_outOfFuel` — **the fuel of the parser suffices**.
-/

import LoxLang.Proofs.Syntax.ParserReplies
import LoxLang.Proofs.Syntax.ParserSteps

set_option relaxedAutoImplicit false
set_option autoImplicit false

namespace LoxLang

namespace Parser

variable {α β : Type}

/-! ### Reading at least one token -/

theorem Proceeds.reaches {p : Parser α} (hp : p.Proceeds) {s t : ParserState} {a : α}
    (h : p s = .ok a t) : s.Reaches t := by
  have hr := hp s
  rwa [h] at hr

theorem Proceeds.length_le {p : Parser α} (hp : p.Proceeds) {s t : ParserState} {a : α}
    (h : p s = .ok a t) : t.rest.length ≤ s.rest.length :=
  (hp.reaches h).length_le

/-- From the given state, answering means to have read a token. -/
def ConsumesAt (s : ParserState) (p : Parser α) : Prop :=
  ∀ t a, p s = .ok a t → t.rest.length < s.rest.length

/-- Answering means to have read a token. -/
def Consumes (p : Parser α) : Prop := ∀ s, p.ConsumesAt s

/-- A first part that reads a token is enough, whatever goes on behind it. -/
theorem Consumes.bind {p : Parser α} {f : α → Parser β} (hp : p.Consumes)
    (hf : ∀ a, (f a).Proceeds) : (p >>= f).Consumes := by
  intro s t b h
  obtain ⟨a, u, hu, hf'⟩ := bind_eq_ok.1 h
  exact Nat.lt_of_le_of_lt ((hf a).length_le hf') (hp s u a hu)

/-- Without fuel there is no answer. -/
theorem consumes_outOfFuel : Consumes (outOfFuel : Parser α) := by
  intro s t a h
  simp [outOfFuel] at h

theorem consumes_giveUp (expectation : Expectation) : Consumes (giveUp expectation : Parser α) := by
  intro s t a h
  unfold giveUp at h
  split at h <;> simp at h

/-- A token that was accepted is no longer ahead. -/
theorem accept_length_lt {s t : ParserState} {test : TokenKind → Bool} {token : Token}
    (h : accept test s = .ok (some token) t) : t.rest.length < s.rest.length := by
  rw [(accept_some h).1, List.length_cons]
  exact Nat.lt_succ_self _

/-- After a token that was accepted it is enough to go forward; without it, what follows has to read
one. -/
theorem accept_bind_consumes {test : TokenKind → Bool} {f : Option Token → Parser β}
    (hn : (f none).Consumes) (hs : ∀ token, (f (some token)).Proceeds) :
    (accept test >>= f).Consumes := by
  intro s t b h
  obtain ⟨found, u, hu, hf⟩ := bind_eq_ok.1 h
  cases found with
  | none =>
      obtain ⟨rfl, -⟩ := accept_none hu
      exact hn u t b hf
  | some token => exact Nat.lt_of_le_of_lt ((hs token).length_le hf) (accept_length_lt hu)

theorem consumes_expect (kind : TokenKind) (expectation : Expectation) :
    (expect kind expectation).Consumes :=
  accept_bind_consumes (consumes_giveUp _) fun _ => proceeds_pure _

/-- Looking ahead reads nothing, so what follows has to read a token from the same state. -/
theorem peek_bind_consumes {f : Token → Parser β}
    (hf : ∀ s token rest, s.rest = token :: rest → (f token).ConsumesAt s) :
    (peek >>= f).Consumes := by
  intro s t b h
  obtain ⟨token, u, hu, hf'⟩ := bind_eq_ok.1 h
  obtain ⟨rfl, rest, hr⟩ := peek_eq_ok.1 hu
  exact hf u token rest hr t b hf'

/-- Going past the token ahead, and on. -/
theorem advance_bind_consumes {f : Unit → Parser β} {s : ParserState} {token : Token}
    {rest : List Token} (hr : s.rest = token :: rest) (he : token.isEnd = false)
    (hf : (f ()).Proceeds) : (advance >>= f).ConsumesAt s := by
  intro t b h
  rw [bind_of_ok (advance_of_cons hr he)] at h
  have hle := hf.length_le h
  rw [hr, List.length_cons]
  exact Nat.lt_succ_of_le hle

/-- Reading the value of the token ahead. -/
theorem literal_consumes {s : ParserState} {token : Token} {rest : List Token}
    (hr : s.rest = token :: rest) (he : token.isEnd = false) :
    ConsumesAt s (do
      advance
      return Expr.literal (← literalOf token)) := by
  intro t e h
  rw [bind_of_ok (advance_of_cons hr he)] at h
  obtain ⟨v, u, hv, h⟩ := bind_eq_ok.1 h
  obtain ⟨-, rfl⟩ := pure_eq_ok.1 h
  unfold literalOf at hv
  split at hv
  · simp only [Reply.ok.injEq] at hv
    rw [← hv.2, hr, List.length_cons]
    exact Nat.lt_succ_self _
  · simp at hv

/-! ### Expressions have a token -/

/-- A primary expression is at least one token. -/
theorem consumes_primary (fuel : Nat) : (primary fuel).Consumes := by
  cases fuel with
  | zero => exact consumes_outOfFuel
  | succ fuel =>
      rw [primary]
      refine peek_bind_consumes fun s token rest hr => ?_
      have he : ∀ {kind : TokenKind}, token.kind = kind → kind ≠ .endOfSource →
          token.isEnd = false := fun hk hne => Token.isEnd_eq_false (by rw [hk]; exact hne)
      split
      · next hk => exact advance_bind_consumes hr (he hk (by decide)) (proceeds_pure _)
      · next hk => exact advance_bind_consumes hr (he hk (by decide)) (proceeds_pure _)
      · next hk => exact advance_bind_consumes hr (he hk (by decide)) (proceeds_pure _)
      · next hk => exact literal_consumes hr (he hk (by decide))
      · next hk => exact literal_consumes hr (he hk (by decide))
      · next hk => exact advance_bind_consumes hr (he hk (by decide)) (proceeds_pure _)
      · next hk =>
          exact advance_bind_consumes hr (he hk (by decide)) ((proceeds_expression fuel).bind
            fun _ => (proceeds_expect _ _).bind fun _ => proceeds_pure _)
      · exact consumes_giveUp _ s

theorem consumes_unary (fuel : Nat) : (unary fuel).Consumes := by
  cases fuel with
  | zero => exact consumes_outOfFuel
  | succ fuel =>
      rw [unary]
      refine accept_bind_consumes ?_ fun operator => ?_
      · exact (consumes_primary fuel).bind fun callee => proceeds_calls fuel callee
      · exact (proceeds_unary fuel).bind fun right => proceeds_pure _

/-- Operands of all levels begin with a unary expression. -/
theorem consumes_operand (fuel : Nat) (levels : List Level) : (operand fuel levels).Consumes := by
  induction fuel generalizing levels with
  | zero => exact consumes_outOfFuel
  | succ fuel ih =>
      cases levels with
      | nil =>
          rw [operand]
          exact consumes_unary fuel
      | cons level tighter =>
          rw [operand]
          exact (ih tighter).bind fun left => proceeds_operations fuel level tighter left

theorem consumes_expression (fuel : Nat) : (expression fuel).Consumes := by
  cases fuel with
  | zero => exact consumes_outOfFuel
  | succ fuel =>
      rw [expression]
      refine (consumes_operand fuel _).bind fun target => (proceeds_accept _).bind fun found => ?_
      cases found with
      | none => exact proceeds_pure _
      | some equals =>
          refine (proceeds_expression fuel).bind fun value => ?_
          cases target with
          | lookup name => exact proceeds_pure _
          | _ => exact (proceeds_note _ _).bind fun _ => proceeds_pure _

/-! ### Statements and declarations have a token -/

theorem consumes_expressionStatement (fuel : Nat) : (expressionStatement fuel).Consumes :=
  (consumes_expression fuel).bind fun _ => (proceeds_expect _ _).bind fun _ => proceeds_pure _

/-- A statement starts with its keyword or its brace, or with an expression. -/
theorem consumes_statement (fuel : Nat) : (statement fuel).Consumes := by
  cases fuel with
  | zero => exact consumes_outOfFuel
  | succ fuel =>
      rw [statement]
      refine peek_bind_consumes fun s token rest hr => ?_
      have he : ∀ {kind : TokenKind}, token.kind = kind → kind ≠ .endOfSource →
          token.isEnd = false := fun hk hne => Token.isEnd_eq_false (by rw [hk]; exact hne)
      split
      · next hk => exact advance_bind_consumes hr (he hk (by decide)) (proceeds_forStatement fuel)
      · next hk => exact advance_bind_consumes hr (he hk (by decide)) (proceeds_ifStatement fuel)
      · next hk => exact advance_bind_consumes hr (he hk (by decide)) (proceeds_printStatement fuel)
      · next hk =>
          exact advance_bind_consumes hr (he hk (by decide)) (proceeds_returnStatement fuel token)
      · next hk => exact advance_bind_consumes hr (he hk (by decide)) (proceeds_whileStatement fuel)
      · next hk =>
          exact advance_bind_consumes hr (he hk (by decide))
            ((proceeds_block fuel).bind fun _ => proceeds_pure _)
      · exact consumes_expressionStatement fuel s

theorem consumes_bareDeclaration (fuel : Nat) : (bareDeclaration fuel).Consumes := by
  cases fuel with
  | zero => exact consumes_outOfFuel
  | succ fuel =>
      rw [bareDeclaration]
      refine accept_bind_consumes ?_ fun word => proceeds_function fuel
      exact accept_bind_consumes (consumes_statement fuel) fun word =>
        proceeds_variableDeclaration fuel

/-- Recovery goes forward, unless it starts at the end. -/
theorem synchronize_length {s t : ParserState} {a : Unit} (h : synchronize s = .ok a t) :
    t.rest.length < s.rest.length ∨
      ∃ token rest, s.rest = token :: rest ∧ token.isEnd = true ∧ t.rest = s.rest := by
  unfold synchronize at h
  cases hs : synchronized? s.rest with
  | none => simp [hs] at h
  | some us =>
      simp only [hs, Reply.ok.injEq] at h
      obtain ⟨-, rfl⟩ := h
      obtain ⟨skipped, hr, -, hnil⟩ := synchronized?_eq_some hs
      cases skipped with
      | nil =>
          obtain ⟨token, rest, hc, he⟩ := hnil rfl
          exact .inr ⟨token, rest, hc, he, by rw [hr]; rfl⟩
      | cons token skipped =>
          rw [hr]
          simp only [List.length_append, List.length_cons]
          omega

/-- **A declaration in front of anything but the end reads a token**, also when it fails. -/
theorem declaration_length_lt {fuel : Nat} {s t : ParserState} {found : Option Stmt} {token : Token}
    {rest : List Token} (hr : s.rest = token :: rest) (he : token.isEnd = false)
    (h : declaration fuel s = .ok found t) : t.rest.length < s.rest.length := by
  cases fuel with
  | zero => simp [declaration, outOfFuel] at h
  | succ fuel =>
      rw [declaration] at h
      unfold recovering at h
      have hp := proceeds_bareDeclaration fuel s
      cases hb : bareDeclaration fuel s with
      | ok value u =>
          simp only [hb, Reply.ok.injEq] at h
          obtain ⟨-, rfl⟩ := h
          exact consumes_bareDeclaration fuel s u value hb
      | gaveUp u =>
          simp only [hb] at h
          rw [hb] at hp
          obtain ⟨a, v, hv, h⟩ := bind_eq_ok.1 h
          obtain ⟨-, rfl⟩ := pure_eq_ok.1 h
          obtain ⟨ts, hts, hend⟩ := hp.reaches.read
          have hle := hp.reaches.length_le
          rcases synchronize_length hv with hlt | ⟨ending, rest', hc, hending, heq⟩
          · omega
          · -- Then the end was not ahead at first, so something was read before giving up.
            cases ts with
            | nil =>
                rw [List.nil_append, hr, hc] at hts
                simp only [List.cons.injEq] at hts
                rw [hts.1] at he
                simp [he] at hending
            | cons first ts =>
                rw [heq, hts]
                simp only [List.length_append, List.length_cons]
                omega
      | fault fault u => simp [hb] at h
      | outOfFuel => simp [hb] at h

/-! ### How much fuel is enough -/

/-- With at most the given number of tokens ahead the parser does not run out of fuel. -/
def Lasts (n : Nat) (p : Parser α) : Prop := ∀ s, s.rest.length ≤ n → p s ≠ .outOfFuel

/-- From the given state the parser does not run out of fuel. -/
def LastsAt (s : ParserState) (p : Parser α) : Prop := p s ≠ .outOfFuel

/-- What goes on has to last only from the states that the first part leaves. -/
theorem LastsAt.bind {s : ParserState} {p : Parser α} {f : α → Parser β} (hp : p.LastsAt s)
    (hf : ∀ a t, p s = .ok a t → (f a).LastsAt t) : (p >>= f).LastsAt s := by
  unfold LastsAt at hp ⊢
  rw [bind_apply]
  cases h : p s with
  | ok a t => exact hf a t h
  | gaveUp t => simp
  | fault fault t => simp
  | outOfFuel => exact absurd h hp

/-- The first part leaves no more tokens ahead, so the same bound does for what goes on. -/
theorem Lasts.bind {n : Nat} {p : Parser α} {f : α → Parser β} (hp : p.Lasts n) (hr : p.Proceeds)
    (hf : ∀ a, (f a).Lasts n) : (p >>= f).Lasts n := fun s hs =>
  LastsAt.bind (hp s hs) fun a t h => hf a t (Nat.le_trans (hr.length_le h) hs)

/-- Behind a token the fuel has to last for fewer of them. -/
theorem Lasts.bind_of_consumes {n : Nat} {p : Parser α} {f : α → Parser β} (hp : p.Lasts n)
    (hc : p.Consumes) (hf : ∀ a m, m < n → (f a).Lasts m) : (p >>= f).Lasts n := fun s hs =>
  LastsAt.bind (hp s hs) fun a t h =>
    hf a t.rest.length (Nat.lt_of_lt_of_le (hc s t a h) hs) t (Nat.le_refl _)

theorem lasts_pure (n : Nat) (a : α) : (Pure.pure a : Parser α).Lasts n := fun _ _ h => by cases h

theorem lasts_peek (n : Nat) : peek.Lasts n := by
  intro s _
  unfold peek
  split <;> simp

theorem lasts_check (n : Nat) (test : TokenKind → Bool) : (check test).Lasts n := by
  intro s _
  unfold check
  split <;> simp

theorem lasts_accept (n : Nat) (test : TokenKind → Bool) : (accept test).Lasts n := by
  intro s _
  unfold accept
  split
  · simp
  · split <;> simp

theorem lasts_note (n : Nat) (token : Token) (cause : SyntaxCause) : (note token cause).Lasts n :=
  fun _ _ h => by cases h

theorem lasts_giveUp (n : Nat) (expectation : Expectation) :
    (giveUp expectation : Parser α).Lasts n := by
  intro s _
  unfold giveUp
  split <;> simp

theorem lasts_literalOf (n : Nat) (token : Token) : (literalOf token).Lasts n := by
  intro s _
  unfold literalOf
  split <;> simp

theorem lasts_synchronize (n : Nat) : synchronize.Lasts n := by
  intro s _
  unfold synchronize
  split <;> simp

theorem lasts_expect (n : Nat) (kind : TokenKind) (expectation : Expectation) :
    (expect kind expectation).Lasts n := by
  refine (lasts_accept n _).bind (proceeds_accept _) fun found => ?_
  cases found with
  | none => exact lasts_giveUp n _
  | some token => exact lasts_pure n _

/-- Either the fuel lasts without the token, or it has to last for fewer of them. -/
theorem accept_bind_lasts {n : Nat} {test : TokenKind → Bool} {f : Option Token → Parser β}
    (hn : (f none).Lasts n) (hs : ∀ token m, m < n → (f (some token)).Lasts m) :
    (accept test >>= f).Lasts n := by
  intro s hl
  refine LastsAt.bind (lasts_accept n _ s hl) fun found t h => ?_
  cases found with
  | none =>
      obtain ⟨rfl, -⟩ := accept_none h
      exact hn t hl
  | some token =>
      exact hs token t.rest.length (Nat.lt_of_lt_of_le (accept_length_lt h) hl) t (Nat.le_refl _)

/-- Behind a token that is expected, what goes on has to last for fewer. -/
theorem expect_bind_lasts {n : Nat} {kind : TokenKind} {expectation : Expectation}
    {f : Token → Parser β} (hf : ∀ token m, m < n → (f token).Lasts m) :
    (expect kind expectation >>= f).Lasts n :=
  (lasts_expect n _ _).bind_of_consumes (consumes_expect _ _) hf

/-- Looking ahead needs no fuel. -/
theorem peek_bind_lasts {n : Nat} {f : Token → Parser β}
    (hf : ∀ s token rest, s.rest.length ≤ n → s.rest = token :: rest → (f token).LastsAt s) :
    (peek >>= f).Lasts n := by
  intro s hs
  refine LastsAt.bind (lasts_peek n s hs) fun token t h => ?_
  obtain ⟨rfl, rest, hr⟩ := peek_eq_ok.1 h
  exact hf t token rest hs hr

/-- Going past the token ahead, and on. -/
theorem advance_bind_lasts {n : Nat} {f : Unit → Parser β} {s : ParserState} {token : Token}
    {rest : List Token} (hs : s.rest.length ≤ n) (hr : s.rest = token :: rest)
    (he : token.kind ≠ .endOfSource) (hf : ∀ m, m < n → (f ()).Lasts m) :
    (advance >>= f).LastsAt s := by
  unfold LastsAt
  rw [bind_of_ok (advance_of_cons hr (Token.isEnd_eq_false he))]
  refine hf rest.length ?_ _ (Nat.le_refl _)
  rw [hr, List.length_cons] at hs
  exact hs

/-- The number of function bodies around does not count for the fuel. -/
theorem Lasts.nested {n : Nat} {p : Parser α} (hp : p.Lasts n) : (nested p).Lasts n := by
  intro s hs
  have h := hp { s with depth := s.depth + 1 } hs
  unfold Parser.nested
  split <;> simp_all

/-- Skipping tokens needs no fuel. -/
theorem Lasts.recovering {n : Nat} {p : Parser α} (hp : p.Lasts n) : (recovering p).Lasts n := by
  intro s hs
  have h := hp s hs
  unfold Parser.recovering
  split
  · simp
  · exact LastsAt.bind (lasts_synchronize _ _ (Nat.le_refl _)) fun _ t _ => lasts_pure _ _ t
      (Nat.le_refl _)
  · simp
  · next hr => exact absurd hr h

theorem lasts_noteExcess (n before : Nat) (cause : SyntaxCause) :
    (noteExcess before cause).Lasts n := by
  unfold noteExcess
  split
  · exact (lasts_peek n).bind proceeds_peek fun token => lasts_note n token cause
  · exact lasts_pure n ()

theorem lasts_noteTopLevel (n : Nat) (keyword : Token) : (noteTopLevel keyword).Lasts n := by
  refine Lasts.bind (fun _ _ h => by cases h) proceeds_depth fun d => ?_
  split
  · exact lasts_note n _ _
  · exact lasts_pure n ()

/-! ### The fuel of expressions -/

theorem lasts_literal {n : Nat} (token : Token) :
    (do return Expr.literal (← literalOf token) : Parser Expr).Lasts n := fun s hs =>
  LastsAt.bind (lasts_literalOf n token s hs) fun _ t _ => lasts_pure _ _ t (Nat.le_refl _)

mutual

/-- An expression goes down the six levels of operators; a value that is assigned stands behind a token. -/
theorem lasts_expression : ∀ {fuel n : Nat}, 32 * n + 10 ≤ fuel → (expression fuel).Lasts n
  | 0, n, h => by omega
  | fuel + 1, n, h => by
      rw [expression]
      refine (lasts_operand (by simp [Level.all]; omega)).bind (proceeds_operand fuel _)
        fun target => ?_
      refine accept_bind_lasts (lasts_pure n _) fun equals m hm => ?_
      refine (lasts_expression (by omega)).bind (proceeds_expression fuel) fun value => ?_
      cases target with
      | lookup name => exact lasts_pure m _
      | _ => exact (lasts_note m _ _).bind (proceeds_note _ _) fun _ => lasts_pure m _

/-- Each level of operators needs one step more than the next tighter one. -/
theorem lasts_operand : ∀ {fuel n : Nat} {levels : List Level},
    32 * n + (3 + levels.length) ≤ fuel → (operand fuel levels).Lasts n
  | 0, n, levels, h => by omega
  | fuel + 1, n, [], h => by
      rw [operand]
      exact lasts_unary (by omega)
  | fuel + 1, n, level :: tighter, h => by
      rw [operand]
      rw [List.length_cons] at h
      refine (lasts_operand (by omega)).bind_of_consumes (consumes_operand fuel tighter)
        fun left m hm => ?_
      exact lasts_operations (by omega)

/-- Every round of a level reads an operator. -/
theorem lasts_operations : ∀ {fuel n : Nat} {level : Level} {tighter : List Level} {left : Expr},
    32 * n + (3 + tighter.length) ≤ fuel → (operations fuel level tighter left).Lasts n
  | 0, n, level, tighter, left, h => by omega
  | fuel + 1, n, level, tighter, left, h => by
      rw [operations]
      refine accept_bind_lasts (lasts_pure n _) fun operator m hm => ?_
      refine (lasts_operand (by omega)).bind (proceeds_operand fuel tighter) fun right => ?_
      exact lasts_operations (by omega)

/-- Operators in front of an operand are read one by one. -/
theorem lasts_unary : ∀ {fuel n : Nat}, 32 * n + 2 ≤ fuel → (unary fuel).Lasts n
  | 0, n, h => by omega
  | fuel + 1, n, h => by
      rw [unary]
      refine accept_bind_lasts ?_ fun operator m hm => ?_
      · refine (lasts_primary (by omega)).bind (proceeds_primary fuel) fun callee => ?_
        exact lasts_calls (by omega)
      · exact (lasts_unary (by omega)).bind (proceeds_unary fuel) fun right => lasts_pure m _

/-- Every call reads its opening parenthesis. -/
theorem lasts_calls : ∀ {fuel n : Nat} {callee : Expr}, 32 * n + 1 ≤ fuel →
    (calls fuel callee).Lasts n
  | 0, n, callee, h => by omega
  | fuel + 1, n, callee, h => by
      rw [calls]
      refine accept_bind_lasts (lasts_pure n _) fun opening m hm => ?_
      refine (lasts_argumentList (by omega)).bind (proceeds_argumentList fuel) fun args => ?_
      refine expect_bind_lasts fun closing k hk => ?_
      exact lasts_calls (by omega)

theorem lasts_argumentList : ∀ {fuel n : Nat}, 32 * n + 12 ≤ fuel → (argumentList fuel).Lasts n
  | 0, n, h => by omega
  | fuel + 1, n, h => by
      rw [argumentList]
      refine (lasts_check n _).bind (proceeds_check _) fun stop => ?_
      split
      · exact lasts_pure n _
      · exact lasts_arguments (by omega)

/-- Every further argument stands behind a comma. -/
theorem lasts_arguments : ∀ {fuel n before : Nat}, 32 * n + 11 ≤ fuel →
    (arguments fuel before).Lasts n
  | 0, n, before, h => by omega
  | fuel + 1, n, before, h => by
      rw [arguments]
      refine (lasts_noteExcess n _ _).bind (proceeds_noteExcess _ _) fun _ => ?_
      refine (lasts_expression (by omega)).bind (proceeds_expression fuel) fun first => ?_
      refine accept_bind_lasts (lasts_pure n _) fun comma m hm => ?_
      exact (lasts_arguments (by omega)).bind (proceeds_arguments fuel _) fun others =>
        lasts_pure m _

/-- A primary expression goes back to the loosest level only behind its opening parenthesis. -/
theorem lasts_primary : ∀ {fuel n : Nat}, 32 * n + 1 ≤ fuel → (primary fuel).Lasts n
  | 0, n, h => by omega
  | fuel + 1, n, h => by
      rw [primary]
      refine peek_bind_lasts fun s token rest hs hr => ?_
      split
      · next hk => exact advance_bind_lasts hs hr (by simp [hk]) fun m _ => lasts_pure m _
      · next hk => exact advance_bind_lasts hs hr (by simp [hk]) fun m _ => lasts_pure m _
      · next hk => exact advance_bind_lasts hs hr (by simp [hk]) fun m _ => lasts_pure m _
      · next hk => exact advance_bind_lasts hs hr (by simp [hk]) fun m _ => lasts_literal token
      · next hk => exact advance_bind_lasts hs hr (by simp [hk]) fun m _ => lasts_literal token
      · next hk => exact advance_bind_lasts hs hr (by simp [hk]) fun m _ => lasts_pure m _
      · next hk =>
          refine advance_bind_lasts hs hr (by simp [hk]) fun m hm => ?_
          refine (lasts_expression (by omega)).bind (proceeds_expression fuel) fun inner => ?_
          exact expect_bind_lasts fun closing k _ => lasts_pure k _
      · exact lasts_giveUp n _ s hs

end

/-! ### The fuel of statements -/

theorem lasts_parameters : ∀ {fuel n before : Nat}, 32 * n + 1 ≤ fuel →
    (parameters fuel before).Lasts n
  | 0, n, before, h => by omega
  | fuel + 1, n, before, h => by
      rw [parameters]
      refine (lasts_noteExcess n _ _).bind (proceeds_noteExcess _ _) fun _ => ?_
      refine expect_bind_lasts fun first m hm => ?_
      refine accept_bind_lasts (lasts_pure m _) fun comma k hk => ?_
      exact (lasts_parameters (by omega)).bind (proceeds_parameters fuel _) fun others =>
        lasts_pure k _

theorem lasts_parameterList {fuel n : Nat} (h : 32 * n + 1 ≤ fuel) :
    (parameterList fuel).Lasts n := by
  refine (lasts_check n _).bind (proceeds_check _) fun stop => ?_
  split
  · exact lasts_pure n _
  · exact lasts_parameters h

theorem lasts_optionalExpression {fuel n : Nat} {stop : TokenKind} (h : 32 * n + 10 ≤ fuel) :
    (optionalExpression fuel stop).Lasts n := by
  refine (lasts_check n _).bind (proceeds_check _) fun found => ?_
  split
  · exact lasts_pure n _
  · exact (lasts_expression h).bind (proceeds_expression fuel) fun e => lasts_pure n _

theorem lasts_initializer {fuel n : Nat} (h : 32 * n + 10 ≤ fuel) : (initializer fuel).Lasts n := by
  refine accept_bind_lasts (lasts_pure n _) fun equals m hm => ?_
  exact (lasts_expression (by omega)).bind (proceeds_expression fuel) fun e => lasts_pure m _

theorem lasts_variableDeclaration {fuel n : Nat} (h : 32 * n + 10 ≤ fuel) :
    (variableDeclaration fuel).Lasts n := by
  refine expect_bind_lasts fun name m hm => ?_
  refine (lasts_initializer (by omega)).bind (proceeds_initializer fuel) fun value => ?_
  exact expect_bind_lasts fun semicolon k _ => lasts_pure k _

theorem lasts_expressionStatement {fuel n : Nat} (h : 32 * n + 10 ≤ fuel) :
    (expressionStatement fuel).Lasts n :=
  (lasts_expression h).bind (proceeds_expression fuel) fun _ =>
    expect_bind_lasts fun _ m _ => lasts_pure m _

theorem lasts_printStatement {fuel n : Nat} (h : 32 * n + 10 ≤ fuel) :
    (printStatement fuel).Lasts n :=
  (lasts_expression h).bind (proceeds_expression fuel) fun _ =>
    expect_bind_lasts fun _ m _ => lasts_pure m _

theorem lasts_returnStatement {fuel n : Nat} {keyword : Token} (h : 32 * n + 10 ≤ fuel) :
    (returnStatement fuel keyword).Lasts n := by
  refine (lasts_noteTopLevel n keyword).bind (proceeds_noteTopLevel keyword) fun _ => ?_
  refine (lasts_optionalExpression h).bind (proceeds_optionalExpression fuel _) fun value => ?_
  exact expect_bind_lasts fun _ m _ => lasts_pure m _

/-- An initializer is a declaration behind its keyword, or an expression statement. -/
theorem lasts_forInitializer : ∀ {fuel n : Nat}, 32 * n + 11 ≤ fuel → (forInitializer fuel).Lasts n
  | 0, n, h => by omega
  | fuel + 1, n, h => by
      rw [forInitializer]
      refine accept_bind_lasts ?_ fun semicolon m _ => lasts_pure m _
      refine accept_bind_lasts ?_ fun word m hm => ?_
      · exact (lasts_expressionStatement (by omega)).bind (proceeds_expressionStatement fuel)
          fun _ => lasts_pure n _
      · exact (lasts_variableDeclaration (by omega)).bind (proceeds_variableDeclaration fuel)
          fun _ => lasts_pure m _

mutual

/-- Taking an error over needs no fuel, so this is one step above the declaration. -/
theorem lasts_declaration : ∀ {fuel n : Nat}, 32 * n + 13 ≤ fuel → (declaration fuel).Lasts n
  | 0, n, h => by omega
  | fuel + 1, n, h => by
      rw [declaration]
      exact (lasts_bareDeclaration (by omega)).recovering

theorem lasts_bareDeclaration : ∀ {fuel n : Nat}, 32 * n + 12 ≤ fuel →
    (bareDeclaration fuel).Lasts n
  | 0, n, h => by omega
  | fuel + 1, n, h => by
      rw [bareDeclaration]
      refine accept_bind_lasts ?_ fun word m hm => lasts_function (by omega)
      refine accept_bind_lasts (lasts_statement (by omega)) fun word m hm => ?_
      exact lasts_variableDeclaration (by omega)

/-- A function needs one step up to its name, and there is fuel for the rest behind it. -/
theorem lasts_function : ∀ {fuel n : Nat}, 32 * n + 1 ≤ fuel → (function fuel).Lasts n
  | 0, n, h => by omega
  | fuel + 1, n, h => by
      rw [function]
      refine expect_bind_lasts fun name m hm => expect_bind_lasts fun opening k hk => ?_
      refine (lasts_parameterList (by omega)).bind (proceeds_parameterList fuel) fun names => ?_
      refine expect_bind_lasts fun closing i hi => expect_bind_lasts fun brace j hj => ?_
      exact (lasts_block (by omega)).nested.bind (proceeds_block fuel).nested fun body =>
        lasts_pure j _

/-- A statement goes on behind its first token, unless it is an expression. -/
theorem lasts_statement : ∀ {fuel n : Nat}, 32 * n + 11 ≤ fuel → (statement fuel).Lasts n
  | 0, n, h => by omega
  | fuel + 1, n, h => by
      rw [statement]
      refine peek_bind_lasts fun s token rest hs hr => ?_
      split
      · next hk =>
          exact advance_bind_lasts hs hr (by simp [hk]) fun m hm => lasts_forStatement (by omega)
      · next hk =>
          exact advance_bind_lasts hs hr (by simp [hk]) fun m hm => lasts_ifStatement (by omega)
      · next hk =>
          exact advance_bind_lasts hs hr (by simp [hk]) fun m hm => lasts_printStatement (by omega)
      · next hk =>
          exact advance_bind_lasts hs hr (by simp [hk]) fun m hm => lasts_returnStatement (by omega)
      · next hk =>
          exact advance_bind_lasts hs hr (by simp [hk]) fun m hm => lasts_whileStatement (by omega)
      · next hk =>
          refine advance_bind_lasts hs hr (by simp [hk]) fun m hm => ?_
          exact (lasts_block (by omega)).bind (proceeds_block fuel) fun body => lasts_pure m _
      · exact lasts_expressionStatement (by omega) s hs

theorem lasts_forStatement : ∀ {fuel n : Nat}, 32 * n + 1 ≤ fuel → (forStatement fuel).Lasts n
  | 0, n, h => by omega
  | fuel + 1, n, h => by
      rw [forStatement]
      refine expect_bind_lasts fun opening m hm => ?_
      refine (lasts_forInitializer (by omega)).bind (proceeds_forInitializer fuel) fun first => ?_
      refine (lasts_optionalExpression (by omega)).bind (proceeds_optionalExpression fuel _)
        fun condition => expect_bind_lasts fun semicolon k hk => ?_
      refine (lasts_optionalExpression (by omega)).bind (proceeds_optionalExpression fuel _)
        fun increment => expect_bind_lasts fun closing i hi => ?_
      exact (lasts_statement (by omega)).bind (proceeds_statement fuel) fun body => lasts_pure i _

/-- Branches are read behind the parentheses of the condition. -/
theorem lasts_ifStatement : ∀ {fuel n : Nat}, 32 * n + 1 ≤ fuel → (ifStatement fuel).Lasts n
  | 0, n, h => by omega
  | fuel + 1, n, h => by
      rw [ifStatement]
      refine expect_bind_lasts fun opening m hm => ?_
      refine (lasts_expression (by omega)).bind (proceeds_expression fuel) fun condition => ?_
      refine expect_bind_lasts fun closing k hk => ?_
      refine (lasts_statement (by omega)).bind (proceeds_statement fuel) fun thenBranch => ?_
      refine accept_bind_lasts (lasts_pure k _) fun word i hi => ?_
      exact (lasts_statement (by omega)).bind (proceeds_statement fuel) fun body => lasts_pure i _

theorem lasts_whileStatement : ∀ {fuel n : Nat}, 32 * n + 1 ≤ fuel →
    (whileStatement fuel).Lasts n
  | 0, n, h => by omega
  | fuel + 1, n, h => by
      rw [whileStatement]
      refine expect_bind_lasts fun opening m hm => ?_
      refine (lasts_expression (by omega)).bind (proceeds_expression fuel) fun condition => ?_
      refine expect_bind_lasts fun closing k hk => ?_
      exact (lasts_statement (by omega)).bind (proceeds_statement fuel) fun body => lasts_pure k _

/-- A block is the loosest rule: it needs one step more than its declarations. -/
theorem lasts_block : ∀ {fuel n : Nat}, 32 * n + 15 ≤ fuel → (block fuel).Lasts n
  | 0, n, h => by omega
  | fuel + 1, n, h => by
      rw [block]
      exact (lasts_blockItems (by omega)).bind (proceeds_blockItems fuel) fun body =>
        expect_bind_lasts fun closing m _ => lasts_pure m _

/-- Every declaration goes forward, so the fuel for the tokens ahead is the fuel for all of them. -/
theorem lasts_blockItems : ∀ {fuel n : Nat}, 32 * n + 14 ≤ fuel → (blockItems fuel).Lasts n
  | 0, n, h => by omega
  | fuel + 1, n, h => by
      rw [blockItems]
      refine peek_bind_lasts fun s token rest hs hr => ?_
      split
      · exact lasts_pure n _ s hs
      · next hstop =>
          have he : token.isEnd = false := by
            simp only [Bool.or_eq_true, not_or, Bool.not_eq_true] at hstop
            exact hstop.2
          refine LastsAt.bind (lasts_declaration (by omega) s hs) fun first t h => ?_
          have hlt := declaration_length_lt hr he h
          have hm : 32 * t.rest.length + 14 ≤ fuel := by omega
          exact LastsAt.bind (lasts_blockItems hm t (Nat.le_refl _)) fun _ u _ =>
            lasts_pure _ _ u (Nat.le_refl _)

end

theorem lasts_program : ∀ {fuel n : Nat}, 32 * n + 14 ≤ fuel → (program fuel).Lasts n
  | 0, n, h => by omega
  | fuel + 1, n, h => by
      rw [program]
      refine peek_bind_lasts fun s token rest hs hr => ?_
      split
      · exact lasts_pure n _ s hs
      · next he =>
          refine LastsAt.bind (lasts_declaration (by omega) s hs) fun first t h => ?_
          have hlt := declaration_length_lt hr (by simpa using he) h
          have hm : 32 * t.rest.length + 14 ≤ fuel := by omega
          exact LastsAt.bind (lasts_program hm t (Nat.le_refl _)) fun _ u _ =>
            lasts_pure _ _ u (Nat.le_refl _)

end Parser

/-- **The parser does not run out of fuel.** -/
theorem parse_ne_outOfFuel (tokens : List Token) : parse tokens ≠ .outOfFuel := by
  refine Parser.lasts_program (n := tokens.length) ?_ _ (Nat.le_refl _)
  simp only [parserFuel]
  omega

end LoxLang
