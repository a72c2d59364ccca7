/-
**What the parser accepts is a program.**

When a rule of `LoxLang/Syntax/Parser.lean` answers a tree and records no error, the tokens that it read
are a phrase of `LoxLang/Proofs/Syntax/Grammar.lean` that stands for this tree.  Errors are never taken
back (`LoxLang.ParserState.Reaches`), so no error at the end means no error on the way, and every limit
that would have been noted was kept.

The six levels of binary operators are one rule of the parser and six of the grammar.
`LoxLang.Grammar.Operands` ties a list of levels to the precedence of the expressions that it reads.

* `LoxLang.ParserState.Spans` — what was read between two states;
* `LoxLang.Parser.expression_sound`, `LoxLang.Parser.statement_sound`,
  `LoxLang.Parser.declaration_sound` — the rules;
* `LoxLang.Parser.program_sound` — **what was read as a program is one**.
-/

import LoxLang.Proofs.Syntax.Grammar
import LoxLang.Proofs.Syntax.ParserFuel

set_option relaxedAutoImplicit false
set_option autoImplicit false

namespace LoxLang

/-! ### No error on the way -/

namespace ParserState

/-- The tokens from the first state up to the second are of the given sort. -/
def Spans (s t : ParserState) (sort : List Token → Prop) : Prop :=
  ∃ ts, s.rest = ts ++ t.rest ∧ sort ts

/-- No error at the end means no error on the way. -/
theorem Reaches.clean {s u t : ParserState} (h : s.Reaches u) (h' : u.Reaches t)
    (hc : t.errors = s.errors) : u.errors = s.errors ∧ t.errors = u.errors := by
  have hle : u.errors.length ≤ s.errors.length := by
    rw [← hc]
    exact h'.errors.length_le
  have heq : s.errors = u.errors := h.errors.eq_of_length_le hle
  exact ⟨heq.symm, hc.trans heq⟩

/-- An error at the end was noted. -/
theorem Reaches.not_clean {s u t : ParserState} {error : SyntaxError} (h : s.Reaches u)
    (ht : t.errors = u.errors ++ [error]) : t.errors ≠ s.errors := by
  intro hc
  have hle := h.errors.length_le
  rw [← hc, ht, List.length_append, List.length_singleton] at hle
  omega

/-- The place is inside a function body. -/
def inside (s : ParserState) : Bool := decide (0 < s.depth)

theorem Reaches.inside {s t : ParserState} (h : s.Reaches t) : t.inside = s.inside := by
  unfold ParserState.inside
  rw [h.depth]

/-- The token ahead is not an `else`. -/
def NoElse (s : ParserState) : Prop :=
  ∃ token rest, s.rest = token :: rest ∧ token.kind ≠ .elseWord

end ParserState

/-! ### Levels and precedences -/

namespace Grammar

/-- The level joins expressions of the looser precedence, to the left, to those of the tighter. -/
structure Joins (level : Level) (loose tight : Tier) : Prop where
  lift : ∀ {ts : List Token} {e : Expr}, Expression tight ts e → Expression loose ts e
  join : ∀ {ts us : List Token} {op : Token} {x y : Expr}, Expression loose ts x →
    level.operators.contains op.kind = true → Expression tight us y →
      Expression loose (ts ++ op :: us) (level.node x op y)

/-- The expressions of the precedence are the operands of the levels above the given ones. -/
inductive Operands : List Level → Tier → Prop
  | nil : Operands [] .unary
  | cons {level : Level} {tighter : List Level} {loose tight : Tier}
      (h : Operands tighter tight) (hj : Joins level loose tight) :
      Operands (level :: tighter) loose

theorem joins_or : Joins ⟨[.orWord], true⟩ .disjunction .conjunction :=
  ⟨.ofConjunction, fun hx ho hy => .or hx (by simpa using ho) hy⟩

theorem joins_and : Joins ⟨[.andWord], true⟩ .conjunction .equality :=
  ⟨.ofEquality, fun hx ho hy => .and hx (by simpa using ho) hy⟩

theorem joins_equality : Joins ⟨[.bangEqual, .equalEqual], false⟩ .equality .comparison :=
  ⟨.ofComparison, fun hx ho hy => .equality hx (by simpa using ho) hy⟩

theorem joins_comparison :
    Joins ⟨[.greater, .greaterEqual, .less, .lessEqual], false⟩ .comparison .term :=
  ⟨.ofTerm, fun hx ho hy => .comparison hx (by simpa using ho) hy⟩

theorem joins_term : Joins ⟨[.minus, .plus], false⟩ .term .factor :=
  ⟨.ofFactor, fun hx ho hy => .term hx (by simpa using ho) hy⟩

theorem joins_factor : Joins ⟨[.slash, .star], false⟩ .factor .unary :=
  ⟨.ofUnary, fun hx ho hy => .factor hx (by simpa using ho) hy⟩

theorem operands_all : Operands Level.all .disjunction :=
  .cons (.cons (.cons (.cons (.cons (.cons .nil joins_factor) joins_term) joins_comparison)
    joins_equality) joins_and) joins_or

end Grammar

namespace Parser

open Grammar

variable {α β : Type}

/-! ### Limits -/

theorem noteExcess_clean {before : Nat} {cause : SyntaxCause} {s t : ParserState} {a : Unit}
    (h : noteExcess before cause s = .ok a t) (hc : t.errors = s.errors) :
    before < maxArguments ∧ t = s := by
  unfold noteExcess at h
  split at h
  · obtain ⟨token, u, hu, h₁⟩ := bind_eq_ok.1 h
    obtain ⟨rfl, -⟩ := peek_eq_ok.1 hu
    obtain rfl := note_eq_ok h₁
    exact absurd hc ((ParserState.Reaches.refl u).not_clean rfl)
  · next hlt =>
      obtain ⟨-, rfl⟩ := pure_eq_ok.1 h
      exact ⟨by omega, rfl⟩

theorem noteTopLevel_clean {keyword : Token} {s t : ParserState} {a : Unit}
    (h : noteTopLevel keyword s = .ok a t) (hc : t.errors = s.errors) :
    s.inside = true ∧ t = s := by
  obtain ⟨d, u, hd, h₁⟩ := bind_eq_ok.1 h
  obtain ⟨rfl, rfl⟩ : d = s.depth ∧ u = s := by
    cases hd
    exact ⟨rfl, rfl⟩
  split at h₁
  · obtain rfl := note_eq_ok h₁
    exact absurd hc ((ParserState.Reaches.refl u).not_clean rfl)
  · next hd =>
      obtain ⟨-, rfl⟩ := pure_eq_ok.1 h₁
      refine ⟨?_, rfl⟩
      simp only [ParserState.inside, decide_eq_true_eq]
      omega

/-! ### Expressions -/

/-- What the parser answers from the given state without an error is a primary expression. -/
def PrimaryAt (s : ParserState) (p : Parser Expr) : Prop :=
  ∀ t e, p s = .ok e t → t.errors = s.errors → s.Spans t (Expression .primary · e)

/-- Reading a token that is an expression by itself. -/
theorem word_sound {s : ParserState} {token : Token} {rest : List Token} {e : Expr}
    (hr : s.rest = token :: rest) (hk : token.kind ≠ .endOfSource)
    (he : Expression .primary [token] e) :
    PrimaryAt s (do
      advance
      return e) := by
  intro t e' h _
  rw [bind_of_ok (advance_of_cons hr (Token.isEnd_eq_false hk))] at h
  obtain ⟨rfl, rfl⟩ := pure_eq_ok.1 h
  exact ⟨[token], hr, he⟩

/-- Reading a numeral or a string. -/
theorem literal_sound {s : ParserState} {token : Token} {rest : List Token}
    (hr : s.rest = token :: rest) (hk : token.kind = .number ∨ token.kind = .string) :
    PrimaryAt s (do
      advance
      return Expr.literal (← literalOf token)) := by
  intro t e h _
  have he : token.isEnd = false := by
    rcases hk with hk | hk <;> simp [Token.isEnd, hk]
  rw [bind_of_ok (advance_of_cons hr he)] at h
  obtain ⟨v, u, hv, h₁⟩ := bind_eq_ok.1 h
  obtain ⟨rfl, rfl⟩ := pure_eq_ok.1 h₁
  unfold literalOf at hv
  cases hl : token.literal with
  | none => simp [hl] at hv
  | some value =>
      simp only [hl, Reply.ok.injEq] at hv
      obtain ⟨rfl, rfl⟩ := hv
      exact ⟨[token], hr, .literal hk hl⟩

/-- Reading an expression between parentheses. -/
theorem grouping_sound {fuel : Nat}
    (ih : ∀ {s t : ParserState} {e : Expr}, expression fuel s = .ok e t → t.errors = s.errors →
      s.Spans t (Expression .assignment · e))
    {s : ParserState} {token : Token} {rest : List Token} (hr : s.rest = token :: rest)
    (hk : token.kind = .leftParen) :
    PrimaryAt s (do
      advance
      let inner ← expression fuel
      let _ ← expect .rightParen .parenAfterExpression
      return .grouping inner) := by
  intro t e h hc
  rw [bind_of_ok (advance_of_cons hr (Token.isEnd_eq_false (by simp [hk])))] at h
  obtain ⟨inner, u, hu, h₁⟩ := bind_eq_ok.1 h
  obtain ⟨closing, v, hv, h₂⟩ := bind_eq_ok.1 h₁
  obtain ⟨rfl, rfl⟩ := pure_eq_ok.1 h₂
  obtain ⟨hr', -, hk', -, he⟩ := expect_eq_ok hv
  obtain ⟨ts, hts, ht⟩ := ih hu (he.symm.trans hc)
  refine ⟨token :: (ts ++ [closing]), ?_, .grouping hk ht hk'⟩
  simp only at hts
  rw [hr, hts, hr']
  simp

mutual

theorem expression_sound : ∀ {fuel : Nat} {s t : ParserState} {e : Expr},
    expression fuel s = .ok e t → t.errors = s.errors → s.Spans t (Expression .assignment · e)
  | 0, s, t, e, h, hc => by simp [expression, outOfFuel] at h
  | fuel + 1, s, t, e, h, hc => by
      rw [expression] at h
      obtain ⟨target, u, hu, h₁⟩ := bind_eq_ok.1 h
      obtain ⟨found, v, hv, h₂⟩ := bind_eq_ok.1 h₁
      have hsu := (proceeds_operand fuel _).reaches hu
      have huv := (proceeds_accept _).reaches hv
      cases found with
      | none =>
          obtain ⟨rfl, -⟩ := accept_none hv
          obtain ⟨rfl, rfl⟩ := pure_eq_ok.1 h₂
          obtain ⟨ts, hts, ht⟩ := operand_sound operands_all hu hc
          exact ⟨ts, hts, .ofDisjunction ht⟩
      | some equals =>
          obtain ⟨hr, -, hk, -, -⟩ := accept_some hv
          obtain ⟨value, w, hw, h₃⟩ := bind_eq_ok.1 h₂
          have hvw := (proceeds_expression fuel).reaches hw
          cases target with
          | lookup name =>
              obtain ⟨rfl, rfl⟩ := pure_eq_ok.1 h₃
              obtain ⟨hcv, hcw⟩ := (hsu.trans huv).clean hvw hc
              obtain ⟨hcu, -⟩ := hsu.clean huv hcv
              obtain ⟨ts, hts, ht⟩ := operand_sound operands_all hu hcu
              obtain ⟨us, hus, hv⟩ := expression_sound hw hcw
              obtain ⟨rfl, hn⟩ := ht.lookup_inv
              refine ⟨name :: equals :: us, ?_, .assign hn (by simpa using hk) hv⟩
              rw [hts, hr, hus]
              rfl
          | _ =>
              -- Any other target is recorded as an error, and there is none.
              obtain ⟨a, x, hx, h₄⟩ := bind_eq_ok.1 h₃
              obtain ⟨-, rfl⟩ := pure_eq_ok.1 h₄
              obtain rfl := note_eq_ok hx
              exact absurd hc (((hsu.trans huv).trans hvw).not_clean rfl)

theorem operand_sound : ∀ {fuel : Nat} {levels : List Level} {tier : Tier} {s t : ParserState}
    {e : Expr}, Operands levels tier → operand fuel levels s = .ok e t → t.errors = s.errors →
      s.Spans t (Expression tier · e)
  | 0, levels, tier, s, t, e, _, h, hc => by cases levels <;> simp [operand, outOfFuel] at h
  | fuel + 1, [], tier, s, t, e, ho, h, hc => by
      cases ho
      rw [operand] at h
      exact unary_sound h hc
  | fuel + 1, level :: tighter, tier, s, t, e, ho, h, hc => by
      cases ho with
      | cons hs hj =>
          rw [operand] at h
          obtain ⟨left, u, hu, h₁⟩ := bind_eq_ok.1 h
          obtain ⟨hcu, hct⟩ := ((proceeds_operand fuel _).reaches hu).clean
            ((proceeds_operations fuel _ _ _).reaches h₁) hc
          obtain ⟨ts, hts, ht⟩ := operand_sound hs hu hcu
          obtain ⟨us, hus, hu⟩ := operations_sound hs hj (hj.lift ht) h₁ hct
          exact ⟨ts ++ us, by rw [hts, hus, List.append_assoc], hu⟩

/-- The operators of a level extend the left operand. -/
theorem operations_sound : ∀ {fuel : Nat} {level : Level} {tighter : List Level}
    {loose tight : Tier} {left : Expr} {ts : List Token} {s t : ParserState} {e : Expr},
    Operands tighter tight → Joins level loose tight → Expression loose ts left →
      operations fuel level tighter left s = .ok e t → t.errors = s.errors →
        s.Spans t fun us => Expression loose (ts ++ us) e
  | 0, _, _, _, _, _, _, s, t, e, _, _, _, h, _ => by simp [operations, outOfFuel] at h
  | fuel + 1, level, tighter, loose, tight, left, ts, s, t, e, ho, hj, hl, h, hc => by
      rw [operations] at h
      obtain ⟨found, u, hu, h₁⟩ := bind_eq_ok.1 h
      cases found with
      | none =>
          obtain ⟨rfl, -⟩ := accept_none hu
          obtain ⟨rfl, rfl⟩ := pure_eq_ok.1 h₁
          exact ⟨[], rfl, by simpa using hl⟩
      | some op =>
          obtain ⟨hr, -, hk, -, heu⟩ := accept_some hu
          obtain ⟨right, v, hv, h₂⟩ := bind_eq_ok.1 h₁
          obtain ⟨hcv, hct⟩ := ((proceeds_operand fuel _).reaches hv).clean
            ((proceeds_operations fuel _ _ _).reaches h₂) (hc.trans heu.symm)
          obtain ⟨us, hus, hy⟩ := operand_sound ho hv hcv
          obtain ⟨vs, hvs, he⟩ := operations_sound ho hj (hj.join hl hk hy) h₂ hct
          refine ⟨op :: (us ++ vs), ?_, ?_⟩
          · rw [hr, hus, hvs, List.cons_append, List.append_assoc]
          · rwa [List.append_assoc, List.cons_append] at he

theorem unary_sound : ∀ {fuel : Nat} {s t : ParserState} {e : Expr},
    unary fuel s = .ok e t → t.errors = s.errors → s.Spans t (Expression .unary · e)
  | 0, s, t, e, h, _ => by simp [unary, outOfFuel] at h
  | fuel + 1, s, t, e, h, hc => by
      rw [unary] at h
      obtain ⟨found, u, hu, h₁⟩ := bind_eq_ok.1 h
      cases found with
      | some op =>
          obtain ⟨hr, -, hk, -, heu⟩ := accept_some hu
          obtain ⟨right, v, hv, h₂⟩ := bind_eq_ok.1 h₁
          obtain ⟨rfl, rfl⟩ := pure_eq_ok.1 h₂
          obtain ⟨ts, hts, ht⟩ := unary_sound hv (hc.trans heu.symm)
          refine ⟨op :: ts, by rw [hr, hts, List.cons_append], .unary ?_ ht⟩
          simpa [unaryOperators] using hk
      | none =>
          obtain ⟨rfl, -⟩ := accept_none hu
          obtain ⟨callee, v, hv, h₂⟩ := bind_eq_ok.1 h₁
          obtain ⟨hcv, hct⟩ := ((proceeds_primary fuel).reaches hv).clean
            ((proceeds_calls fuel _).reaches h₂) hc
          obtain ⟨ts, hts, ht⟩ := primary_sound hv hcv
          obtain ⟨us, hus, hu⟩ := calls_sound (.ofPrimary ht) h₂ hct
          exact ⟨ts ++ us, by rw [hts, hus, List.append_assoc], .ofCall hu⟩

/-- The calls extend the callee. -/
theorem calls_sound : ∀ {fuel : Nat} {callee : Expr} {ts : List Token} {s t : ParserState}
    {e : Expr}, Expression .call ts callee → calls fuel callee s = .ok e t → t.errors = s.errors →
      s.Spans t fun us => Expression .call (ts ++ us) e
  | 0, _, _, s, t, e, _, h, _ => by simp [calls, outOfFuel] at h
  | fuel + 1, callee, ts, s, t, e, hcallee, h, hc => by
      rw [calls] at h
      obtain ⟨found, u, hu, h₁⟩ := bind_eq_ok.1 h
      cases found with
      | none =>
          obtain ⟨rfl, -⟩ := accept_none hu
          obtain ⟨rfl, rfl⟩ := pure_eq_ok.1 h₁
          exact ⟨[], rfl, by simpa using hcallee⟩
      | some opening =>
          obtain ⟨hr, -, hk, -, heu⟩ := accept_some hu
          have ho : opening.kind = .leftParen := by simpa using hk
          obtain ⟨args, v, hv, h₂⟩ := bind_eq_ok.1 h₁
          obtain ⟨closing, w, hw, h₃⟩ := bind_eq_ok.1 h₂
          obtain ⟨hr', -, hk', -, hew⟩ := expect_eq_ok hw
          have hvt := ((proceeds_expect _ _).reaches hw).trans ((proceeds_calls fuel _).reaches h₃)
          obtain ⟨hcv, hct⟩ := ((proceeds_argumentList fuel).reaches hv).clean hvt
            (hc.trans heu.symm)
          obtain ⟨us, hus, hargs⟩ := argumentList_sound hv hcv
          have hcall : Expression .call (ts ++ opening :: (us ++ [closing]))
              (.call callee closing args) := by
            rcases hargs with ⟨rfl, rfl⟩ | ⟨ha, hl⟩
            · exact .callEmpty hcallee ho hk'
            · exact .call hcallee ho ha hl hk'
          obtain ⟨vs, hvs, he⟩ := calls_sound hcall h₃ (hct.trans hew.symm)
          refine ⟨opening :: (us ++ closing :: vs), ?_, ?_⟩
          · rw [hr, hus, hr', hvs]
            simp
          · simpa using he

theorem argumentList_sound : ∀ {fuel : Nat} {s t : ParserState} {args : List Expr},
    argumentList fuel s = .ok args t → t.errors = s.errors →
      s.Spans t fun ts => (ts = [] ∧ args = []) ∨ (Arguments ts args ∧ args.length ≤ maxArguments)
  | 0, s, t, args, h, _ => by simp [argumentList, outOfFuel] at h
  | fuel + 1, s, t, args, h, hc => by
      rw [argumentList] at h
      obtain ⟨stop, u, hu, h₁⟩ := bind_eq_ok.1 h
      obtain ⟨rfl, -⟩ := check_eq_ok hu
      split at h₁
      · obtain ⟨rfl, rfl⟩ := pure_eq_ok.1 h₁
        exact ⟨[], rfl, .inl ⟨rfl, rfl⟩⟩
      · obtain ⟨ts, hts, ha, hl⟩ := arguments_sound h₁ hc
        exact ⟨ts, hts, .inr ⟨ha, by omega⟩⟩

theorem arguments_sound : ∀ {fuel before : Nat} {s t : ParserState} {args : List Expr},
    arguments fuel before s = .ok args t → t.errors = s.errors →
      s.Spans t fun ts => Arguments ts args ∧ before + args.length ≤ maxArguments
  | 0, _, s, t, args, h, _ => by simp [arguments, outOfFuel] at h
  | fuel + 1, before, s, t, args, h, hc => by
      rw [arguments] at h
      obtain ⟨a, u, hu, h₁⟩ := bind_eq_ok.1 h
      obtain ⟨first, v, hv, h₂⟩ := bind_eq_ok.1 h₁
      obtain ⟨found, w, hw, h₃⟩ := bind_eq_ok.1 h₂
      have hsu := (proceeds_noteExcess _ _).reaches hu
      have huv := (proceeds_expression fuel).reaches hv
      have hvw := (proceeds_accept _).reaches hw
      cases found with
      | none =>
          obtain ⟨rfl, rfl⟩ := pure_eq_ok.1 h₃
          obtain ⟨rfl, -⟩ := accept_none hw
          obtain ⟨hcu, hcw⟩ := hsu.clean huv hc
          -- No excess was recorded, so there was room for this argument.
          obtain ⟨hlt, rfl⟩ := noteExcess_clean hu hcu
          obtain ⟨ts, hts, he⟩ := expression_sound hv hcw
          exact ⟨ts, hts, .one he, hlt⟩
      | some comma =>
          obtain ⟨hr, -, hk, -, -⟩ := accept_some hw
          obtain ⟨others, x, hx, h₄⟩ := bind_eq_ok.1 h₃
          obtain ⟨rfl, rfl⟩ := pure_eq_ok.1 h₄
          have hwx := (proceeds_arguments fuel _).reaches hx
          obtain ⟨hcv, hcx⟩ := (hsu.trans huv).clean (hvw.trans hwx) hc
          obtain ⟨hcu, hcv⟩ := hsu.clean huv hcv
          obtain ⟨-, hcx⟩ := hvw.clean hwx hcx
          obtain ⟨hlt, rfl⟩ := noteExcess_clean hu hcu
          obtain ⟨ts, hts, he⟩ := expression_sound hv hcv
          obtain ⟨us, hus, hes, hl⟩ := arguments_sound hx hcx
          refine ⟨ts ++ comma :: us, ?_, .more he (by simpa using hk) hes, ?_⟩
          · rw [hts, hr, hus, List.append_assoc, List.cons_append]
          · rw [List.length_cons]
            omega

theorem primary_sound : ∀ {fuel : Nat} {s t : ParserState} {e : Expr},
    primary fuel s = .ok e t → t.errors = s.errors → s.Spans t (Expression .primary · e)
  | 0, s, t, e, h, _ => by simp [primary, outOfFuel] at h
  | fuel + 1, s, t, e, h, hc => by
      rw [primary] at h
      obtain ⟨token, u, hu, h₁⟩ := bind_eq_ok.1 h
      obtain ⟨rfl, rest, hr⟩ := peek_eq_ok.1 hu
      revert h₁ hc
      refine (?_ : PrimaryAt u _) t e
      split
      · next hk => exact word_sound hr (by simp [hk]) (.false hk)
      · next hk => exact word_sound hr (by simp [hk]) (.true hk)
      · next hk => exact word_sound hr (by simp [hk]) (.nil hk)
      · next hk => exact literal_sound hr (.inl hk)
      · next hk => exact literal_sound hr (.inr hk)
      · next hk => exact word_sound hr (by simp [hk]) (.lookup hk)
      · next hk => exact grouping_sound expression_sound hr hk
      · intro t e h _
        simp [giveUp, hr] at h

end

/-! ### Simple phrases -/

theorem parameters_sound : ∀ {fuel before : Nat} {s t : ParserState} {names : List Token},
    parameters fuel before s = .ok names t → t.errors = s.errors →
      s.Spans t fun ts => Parameters ts names ∧ before + names.length ≤ maxArguments
  | 0, _, s, t, names, h, _ => by simp [parameters, outOfFuel] at h
  | fuel + 1, before, s, t, names, h, hc => by
      rw [parameters] at h
      obtain ⟨a, u, hu, h₁⟩ := bind_eq_ok.1 h
      obtain ⟨first, v, hv, h₂⟩ := bind_eq_ok.1 h₁
      obtain ⟨found, w, hw, h₃⟩ := bind_eq_ok.1 h₂
      obtain ⟨hr, -, hk, -, hev⟩ := expect_eq_ok hv
      have hsu := (proceeds_noteExcess _ _).reaches hu
      have huv := (proceeds_expect _ _).reaches hv
      have hvw := (proceeds_accept _).reaches hw
      cases found with
      | none =>
          obtain ⟨rfl, rfl⟩ := pure_eq_ok.1 h₃
          obtain ⟨rfl, -⟩ := accept_none hw
          obtain ⟨hcu, -⟩ := hsu.clean huv hc
          obtain ⟨hlt, rfl⟩ := noteExcess_clean hu hcu
          exact ⟨[first], hr, .one hk, hlt⟩
      | some comma =>
          obtain ⟨hr', -, hk', -, hew⟩ := accept_some hw
          obtain ⟨others, x, hx, h₄⟩ := bind_eq_ok.1 h₃
          obtain ⟨rfl, rfl⟩ := pure_eq_ok.1 h₄
          have hwx := (proceeds_parameters fuel _).reaches hx
          obtain ⟨hcu, hcx⟩ := hsu.clean ((huv.trans hvw).trans hwx) hc
          obtain ⟨hlt, rfl⟩ := noteExcess_clean hu hcu
          obtain ⟨ts, hts, hn, hl⟩ := parameters_sound hx (hcx.trans (hew.trans hev).symm)
          refine ⟨first :: comma :: ts, ?_, .more hk (by simpa using hk') hn, ?_⟩
          · rw [hr, hr', hts]
            rfl
          · rw [List.length_cons]
            omega

theorem parameterList_sound {fuel : Nat} {s t : ParserState} {names : List Token}
    (h : parameterList fuel s = .ok names t) (hc : t.errors = s.errors) :
    s.Spans t (ParameterList · names) := by
  obtain ⟨stop, u, hu, h₁⟩ := bind_eq_ok.1 h
  obtain ⟨rfl, -⟩ := check_eq_ok hu
  split at h₁
  · obtain ⟨rfl, rfl⟩ := pure_eq_ok.1 h₁
    exact ⟨[], rfl, .none⟩
  · obtain ⟨ts, hts, hn, hl⟩ := parameters_sound h₁ hc
    exact ⟨ts, hts, .some hn (by omega)⟩

theorem optionalExpression_sound {fuel : Nat} {stop : TokenKind} {s t : ParserState}
    {value : Option Expr} (h : optionalExpression fuel stop s = .ok value t)
    (hc : t.errors = s.errors) : s.Spans t (Optional · value) := by
  obtain ⟨found, u, hu, h₁⟩ := bind_eq_ok.1 h
  obtain ⟨rfl, -⟩ := check_eq_ok hu
  split at h₁
  · obtain ⟨rfl, rfl⟩ := pure_eq_ok.1 h₁
    exact ⟨[], rfl, .none⟩
  · obtain ⟨e, v, hv, h₂⟩ := bind_eq_ok.1 h₁
    obtain ⟨rfl, rfl⟩ := pure_eq_ok.1 h₂
    obtain ⟨ts, hts, he⟩ := expression_sound hv hc
    exact ⟨ts, hts, .some he⟩

theorem variableDeclaration_sound {fuel : Nat} {var : Token} {s t : ParserState} {st : Stmt}
    (hvar : var.kind = .varWord) (h : variableDeclaration fuel s = .ok st t)
    (hc : t.errors = s.errors) : s.Spans t fun ts => Variable (var :: ts) st := by
  obtain ⟨name, u, hu, h₁⟩ := bind_eq_ok.1 h
  obtain ⟨value, v, hv, h₂⟩ := bind_eq_ok.1 h₁
  obtain ⟨semicolon, w, hw, h₃⟩ := bind_eq_ok.1 h₂
  obtain ⟨rfl, rfl⟩ := pure_eq_ok.1 h₃
  obtain ⟨hr, -, hk, -, heu⟩ := expect_eq_ok hu
  obtain ⟨hr', -, hk', -, hew⟩ := expect_eq_ok hw
  obtain ⟨found, x, hx, h₄⟩ := bind_eq_ok.1 hv
  cases found with
  | none =>
      obtain ⟨rfl, -⟩ := accept_none hx
      obtain ⟨rfl, rfl⟩ := pure_eq_ok.1 h₄
      exact ⟨[name, semicolon], by rw [hr, hr']; rfl, .bare hvar hk hk'⟩
  | some equals =>
      obtain ⟨hr'', -, hk'', -, hex⟩ := accept_some hx
      obtain ⟨e, y, hy, h₅⟩ := bind_eq_ok.1 h₄
      obtain ⟨rfl, rfl⟩ := pure_eq_ok.1 h₅
      have hcy : y.errors = x.errors := by rw [← hew, hc, hex, heu]
      obtain ⟨ts, hts, he⟩ := expression_sound hy hcy
      refine ⟨name :: equals :: (ts ++ [semicolon]), ?_,
        .initialized hvar hk (by simpa using hk'') he hk'⟩
      rw [hr, hr'', hts, hr']
      simp

theorem expressionStatement_sound {fuel : Nat} {s t : ParserState} {st : Stmt}
    (h : expressionStatement fuel s = .ok st t) (hc : t.errors = s.errors) :
    s.Spans t fun ts => ∃ us semicolon e, ts = us ++ [semicolon] ∧ st = .expression e ∧
      semicolon.kind = .semicolon ∧ Expression .assignment us e := by
  obtain ⟨e, u, hu, h₁⟩ := bind_eq_ok.1 h
  obtain ⟨semicolon, v, hv, h₂⟩ := bind_eq_ok.1 h₁
  obtain ⟨rfl, rfl⟩ := pure_eq_ok.1 h₂
  obtain ⟨hr, -, hk, -, hev⟩ := expect_eq_ok hv
  obtain ⟨ts, hts, he⟩ := expression_sound hu (hev.symm.trans hc)
  exact ⟨ts ++ [semicolon], by rw [hts, hr]; simp, ts, semicolon, e, rfl, rfl, hk, he⟩

theorem forInitializer_sound {fuel : Nat} {s t : ParserState} {first : Option Stmt}
    (h : forInitializer fuel s = .ok first t) (hc : t.errors = s.errors) :
    s.Spans t (Initializer · first) := by
  cases fuel with
  | zero => simp [forInitializer, outOfFuel] at h
  | succ fuel =>
      rw [forInitializer] at h
      obtain ⟨found, u, hu, h₁⟩ := bind_eq_ok.1 h
      cases found with
      | some semicolon =>
          obtain ⟨hr, -, hk, -, -⟩ := accept_some hu
          obtain ⟨rfl, rfl⟩ := pure_eq_ok.1 h₁
          exact ⟨[semicolon], hr, .none (by simpa using hk)⟩
      | none =>
          obtain ⟨rfl, -⟩ := accept_none hu
          obtain ⟨found, v, hv, h₂⟩ := bind_eq_ok.1 h₁
          cases found with
          | some var =>
              obtain ⟨hr, -, hk, -, hev⟩ := accept_some hv
              obtain ⟨st, w, hw, h₃⟩ := bind_eq_ok.1 h₂
              obtain ⟨rfl, rfl⟩ := pure_eq_ok.1 h₃
              obtain ⟨ts, hts, hs⟩ := variableDeclaration_sound (by simpa using hk) hw
                (hc.trans hev.symm)
              exact ⟨var :: ts, by rw [hr, hts, List.cons_append], .variable hs⟩
          | none =>
              obtain ⟨rfl, -⟩ := accept_none hv
              obtain ⟨st, w, hw, h₃⟩ := bind_eq_ok.1 h₂
              obtain ⟨rfl, rfl⟩ := pure_eq_ok.1 h₃
              obtain ⟨ts, hts, us, semicolon, e, rfl, rfl, hk, he⟩ :=
                expressionStatement_sound hw hc
              exact ⟨_, hts, .expression he hk⟩

/-! ### Statements and declarations -/

/-- The tokens between the two states complete the given ones to a statement, and an `else` does not
follow one that lacks it. -/
def Completes (before : List Token) (s t : ParserState) (st : Stmt) : Prop :=
  ∃ dangling, s.Spans t (fun ts => Statement s.inside dangling (before ++ ts) st) ∧
    (dangling = true → t.NoElse)

/-- What the parser answers from the given state without an error is a statement. -/
def StatementAt (s : ParserState) (p : Parser Stmt) : Prop :=
  ∀ t st, p s = .ok st t → t.errors = s.errors → Completes [] s t st

/-- Going past the keyword of a statement. -/
theorem keyword_sound {s : ParserState} {word : Token} {rest : List Token} {f : Unit → Parser Stmt}
    (hr : s.rest = word :: rest) (hk : word.kind ≠ .endOfSource)
    (hf : ∀ t st, f () { s with rest } = .ok st t → t.errors = s.errors →
      Completes [word] { s with rest } t st) :
    StatementAt s (advance >>= f) := by
  intro t st h hc
  rw [bind_of_ok (advance_of_cons hr (Token.isEnd_eq_false hk))] at h
  obtain ⟨dangling, ⟨ts, hts, hs⟩, hd⟩ := hf t st h hc
  simp only at hts
  exact ⟨dangling, ⟨word :: ts, by rw [hr, hts, List.cons_append], hs⟩, hd⟩

theorem printStatement_sound {fuel : Nat} {word : Token} {s t : ParserState} {st : Stmt}
    (hw : word.kind = .printWord) (h : printStatement fuel s = .ok st t)
    (hc : t.errors = s.errors) {inside : Bool} :
    s.Spans t fun ts => Statement inside false (word :: ts) st := by
  obtain ⟨e, u, hu, h₁⟩ := bind_eq_ok.1 h
  obtain ⟨semicolon, v, hv, h₂⟩ := bind_eq_ok.1 h₁
  obtain ⟨rfl, rfl⟩ := pure_eq_ok.1 h₂
  obtain ⟨hr, -, hk, -, hev⟩ := expect_eq_ok hv
  obtain ⟨ts, hts, he⟩ := expression_sound hu (hev.symm.trans hc)
  exact ⟨ts ++ [semicolon], by rw [hts, hr]; simp, .print hw he hk⟩

theorem returnStatement_sound {fuel : Nat} {word : Token} {s t : ParserState} {st : Stmt}
    (hw : word.kind = .returnWord) (h : returnStatement fuel word s = .ok st t)
    (hc : t.errors = s.errors) : s.Spans t fun ts => Statement s.inside false (word :: ts) st := by
  obtain ⟨a, u, hu, h₁⟩ := bind_eq_ok.1 h
  obtain ⟨value, v, hv, h₂⟩ := bind_eq_ok.1 h₁
  obtain ⟨semicolon, w, hw', h₃⟩ := bind_eq_ok.1 h₂
  obtain ⟨rfl, rfl⟩ := pure_eq_ok.1 h₃
  obtain ⟨hr, -, hk, -, hew⟩ := expect_eq_ok hw'
  have hcv : v.errors = s.errors := hew.symm.trans hc
  obtain ⟨hcu, hcv⟩ := ((proceeds_noteTopLevel word).reaches hu).clean
    ((proceeds_optionalExpression fuel _).reaches hv) hcv
  obtain ⟨hin, rfl⟩ := noteTopLevel_clean hu hcu
  obtain ⟨ts, hts, he⟩ := optionalExpression_sound hv hcv
  refine ⟨ts ++ [semicolon], by rw [hts, hr]; simp, ?_⟩
  rw [hin]
  exact .giveBack hw he hk

mutual

theorem declaration_sound : ∀ {fuel : Nat} {s t : ParserState} {found : Option Stmt},
    declaration fuel s = .ok found t → t.errors = s.errors →
      ∃ st, found = some st ∧ s.Spans t (Declaration s.inside · st)
  | 0, s, t, found, h, _ => by simp [declaration, outOfFuel] at h
  | fuel + 1, s, t, found, h, hc => by
      rw [declaration] at h
      unfold recovering at h
      have hp := proceeds_bareDeclaration fuel s
      cases hb : bareDeclaration fuel s with
      | ok st u =>
          simp only [hb, Reply.ok.injEq] at h
          obtain ⟨rfl, rfl⟩ := h
          exact ⟨st, rfl, bareDeclaration_sound hb hc⟩
      | gaveUp u =>
          -- The error that the parser gave up at stays recorded.
          simp only [hb] at h
          rw [hb] at hp
          have hle := ((proceeds_synchronize.bind fun _ => proceeds_pure none).reaches h).errors
          have hlt := hp.length_lt
          have := hle.length_le
          rw [hc] at this
          omega
      | fault fault u => simp [hb] at h
      | outOfFuel => simp [hb] at h

theorem bareDeclaration_sound : ∀ {fuel : Nat} {s t : ParserState} {st : Stmt},
    bareDeclaration fuel s = .ok st t → t.errors = s.errors →
      s.Spans t (Declaration s.inside · st)
  | 0, s, t, st, h, _ => by simp [bareDeclaration, outOfFuel] at h
  | fuel + 1, s, t, st, h, hc => by
      rw [bareDeclaration] at h
      obtain ⟨found, u, hu, h₁⟩ := bind_eq_ok.1 h
      cases found with
      | some word =>
          obtain ⟨hr, -, hk, -, heu⟩ := accept_some hu
          obtain ⟨ts, hts, hs⟩ := function_sound (by simpa using hk) h₁ (hc.trans heu.symm)
          exact ⟨word :: ts, by rw [hr, hts, List.cons_append], hs⟩
      | none =>
          obtain ⟨rfl, -⟩ := accept_none hu
          obtain ⟨found, v, hv, h₂⟩ := bind_eq_ok.1 h₁
          cases found with
          | some word =>
              obtain ⟨hr, -, hk, -, hev⟩ := accept_some hv
              obtain ⟨ts, hts, hs⟩ := variableDeclaration_sound (by simpa using hk) h₂
                (hc.trans hev.symm)
              exact ⟨word :: ts, by rw [hr, hts, List.cons_append], .variable hs⟩
          | none =>
              obtain ⟨rfl, -⟩ := accept_none hv
              obtain ⟨dangling, ⟨ts, hts, hs⟩, -⟩ := statement_sound h₂ hc
              exact ⟨ts, hts, .statement hs⟩

theorem function_sound : ∀ {fuel : Nat} {word : Token} {inside : Bool} {s t : ParserState}
    {st : Stmt}, word.kind = .funWord → function fuel s = .ok st t → t.errors = s.errors →
      s.Spans t fun ts => Declaration inside (word :: ts) st
  | 0, _, _, s, t, st, _, h, _ => by simp [function, outOfFuel] at h
  | fuel + 1, word, inside, s, t, st, hw, h, hc => by
      rw [function] at h
      obtain ⟨name, s₁, hs₁, h₁⟩ := bind_eq_ok.1 h
      obtain ⟨opening, s₂, hs₂, h₂⟩ := bind_eq_ok.1 h₁
      obtain ⟨names, s₃, hs₃, h₃⟩ := bind_eq_ok.1 h₂
      obtain ⟨closing, s₄, hs₄, h₄⟩ := bind_eq_ok.1 h₃
      obtain ⟨brace, s₅, hs₅, h₅⟩ := bind_eq_ok.1 h₄
      obtain ⟨body, s₆, hs₆, h₆⟩ := bind_eq_ok.1 h₅
      obtain ⟨rfl, rfl⟩ := pure_eq_ok.1 h₆
      obtain ⟨hr₁, -, hk₁, -, he₁⟩ := expect_eq_ok hs₁
      obtain ⟨hr₂, -, hk₂, -, he₂⟩ := expect_eq_ok hs₂
      obtain ⟨hr₄, -, hk₄, -, he₄⟩ := expect_eq_ok hs₄
      obtain ⟨hr₅, -, hk₅, -, he₅⟩ := expect_eq_ok hs₅
      have hr₃₅ := ((proceeds_expect _ _).reaches hs₄).trans ((proceeds_expect _ _).reaches hs₅)
      obtain ⟨hc₃, hc₆⟩ := ((proceeds_parameterList fuel).reaches hs₃).clean
        (hr₃₅.trans ((proceeds_block fuel).nested.reaches hs₆)) (by rw [hc, he₂, he₁])
      obtain ⟨ts, hts, hp⟩ := parameterList_sound hs₃ hc₃
      obtain ⟨s₇, hs₇, rfl⟩ := nested_eq_ok hs₆
      have hc₇ : s₇.errors = s₅.errors := hc₆.trans (he₅.trans he₄).symm
      obtain ⟨us, closingBrace, hus, hb, hd⟩ := block_sound hs₇ hc₇
      have hin : ParserState.inside { s₅ with depth := s₅.depth + 1 } = true := by
        simp [ParserState.inside]
      rw [hin] at hd
      simp only at hus
      refine ⟨name :: opening :: (ts ++ closing :: brace :: (us ++ [closingBrace])), ?_,
        .function hw hk₁ hk₂ hp hk₄ hk₅ hd hb⟩
      rw [hr₁, hr₂, hts, hr₄, hr₅, hus]
      simp

theorem block_sound : ∀ {fuel : Nat} {s t : ParserState} {body : List Stmt},
    block fuel s = .ok body t → t.errors = s.errors →
      ∃ ts closing, s.rest = ts ++ closing :: t.rest ∧ closing.kind = .rightBrace ∧
        Declarations s.inside ts body
  | 0, s, t, body, h, _ => by simp [block, outOfFuel] at h
  | fuel + 1, s, t, body, h, hc => by
      rw [block] at h
      obtain ⟨body, u, hu, h₁⟩ := bind_eq_ok.1 h
      obtain ⟨closing, v, hv, h₂⟩ := bind_eq_ok.1 h₁
      obtain ⟨rfl, rfl⟩ := pure_eq_ok.1 h₂
      obtain ⟨hr, -, hk, -, hev⟩ := expect_eq_ok hv
      obtain ⟨ts, hts, hd⟩ := blockItems_sound hu (hev.symm.trans hc)
      exact ⟨ts, closing, by rw [hts, hr], hk, hd⟩

theorem blockItems_sound : ∀ {fuel : Nat} {s t : ParserState} {body : List Stmt},
    blockItems fuel s = .ok body t → t.errors = s.errors →
      s.Spans t (Declarations s.inside · body)
  | 0, s, t, body, h, _ => by simp [blockItems, outOfFuel] at h
  | fuel + 1, s, t, body, h, hc => by
      rw [blockItems] at h
      obtain ⟨token, u, hu, h₁⟩ := bind_eq_ok.1 h
      obtain ⟨rfl, rest, hr⟩ := peek_eq_ok.1 hu
      split at h₁
      · obtain ⟨rfl, rfl⟩ := pure_eq_ok.1 h₁
        exact ⟨[], rfl, .nil⟩
      · obtain ⟨first, v, hv, h₂⟩ := bind_eq_ok.1 h₁
        obtain ⟨others, w, hw, h₃⟩ := bind_eq_ok.1 h₂
        obtain ⟨rfl, rfl⟩ := pure_eq_ok.1 h₃
        have huv := (proceeds_declaration fuel).reaches hv
        obtain ⟨hcv, hcw⟩ := huv.clean ((proceeds_blockItems fuel).reaches hw) hc
        obtain ⟨st, rfl, ts, hts, hd⟩ := declaration_sound hv hcv
        obtain ⟨us, hus, hds⟩ := blockItems_sound hw hcw
        rw [huv.inside] at hds
        exact ⟨ts ++ us, by rw [hts, hus, List.append_assoc], .cons hd hds⟩

theorem statement_sound : ∀ {fuel : Nat} {s t : ParserState} {st : Stmt},
    statement fuel s = .ok st t → t.errors = s.errors → Completes [] s t st
  | 0, s, t, st, h, _ => by simp [statement, outOfFuel] at h
  | fuel + 1, s, t, st, h, hc => by
      rw [statement] at h
      obtain ⟨token, u, hu, h₁⟩ := bind_eq_ok.1 h
      obtain ⟨rfl, rest, hr⟩ := peek_eq_ok.1 hu
      revert h₁ hc
      refine (?_ : StatementAt u _) t st
      -- The alternatives in the order of the rule, each behind its first token.
      split
      · next hk =>
          refine keyword_sound hr (by simp [hk]) fun t st h hc => ?_
          exact forStatement_sound hk h hc
      · next hk =>
          refine keyword_sound hr (by simp [hk]) fun t st h hc => ?_
          exact ifStatement_sound hk h hc
      · next hk =>
          refine keyword_sound hr (by simp [hk]) fun t st h hc => ?_
          obtain ⟨ts, hts, hs⟩ := printStatement_sound hk h hc
          exact ⟨false, ⟨ts, hts, hs⟩, by simp⟩
      · next hk =>
          refine keyword_sound hr (by simp [hk]) fun t st h hc => ?_
          obtain ⟨ts, hts, hs⟩ := returnStatement_sound hk h hc
          exact ⟨false, ⟨ts, hts, hs⟩, by simp⟩
      · next hk =>
          refine keyword_sound hr (by simp [hk]) fun t st h hc => ?_
          exact whileStatement_sound hk h hc
      · next hk =>
          refine keyword_sound hr (by simp [hk]) fun t st h hc => ?_
          obtain ⟨body, v, hv, h₂⟩ := bind_eq_ok.1 h
          obtain ⟨rfl, rfl⟩ := pure_eq_ok.1 h₂
          obtain ⟨ts, closing, hts, hk', hd⟩ := block_sound hv hc
          exact ⟨false, ⟨ts ++ [closing], by simpa using hts, .block hk hd hk'⟩, by simp⟩
      · intro t st h hc
        obtain ⟨_, hts, us, semicolon, e, rfl, rfl, hk, he⟩ := expressionStatement_sound h hc
        exact ⟨false, ⟨_, hts, .expression he hk⟩, by simp⟩

theorem ifStatement_sound : ∀ {fuel : Nat} {word : Token} {s t : ParserState} {st : Stmt},
    word.kind = .ifWord → ifStatement fuel s = .ok st t → t.errors = s.errors →
      Completes [word] s t st
  | 0, _, s, t, st, _, h, _ => by simp [ifStatement, outOfFuel] at h
  | fuel + 1, word, s, t, st, hw, h, hc => by
      rw [ifStatement] at h
      obtain ⟨opening, s₁, hs₁, h₁⟩ := bind_eq_ok.1 h
      obtain ⟨condition, s₂, hs₂, h₂⟩ := bind_eq_ok.1 h₁
      obtain ⟨closing, s₃, hs₃, h₃⟩ := bind_eq_ok.1 h₂
      obtain ⟨thenBranch, s₄, hs₄, h₄⟩ := bind_eq_ok.1 h₃
      obtain ⟨found, s₅, hs₅, h₅⟩ := bind_eq_ok.1 h₄
      obtain ⟨hr₁, -, hk₁, -, he₁⟩ := expect_eq_ok hs₁
      obtain ⟨hr₃, -, hk₃, -, he₃⟩ := expect_eq_ok hs₃
      have hr₀₁ := (proceeds_expect _ _).reaches hs₁
      have hr₁₂ := (proceeds_expression fuel).reaches hs₂
      have hr₂₃ := (proceeds_expect _ _).reaches hs₃
      have hr₃₄ := (proceeds_statement fuel).reaches hs₄
      have hr₄₅ := (proceeds_accept _).reaches hs₅
      have hin : s₃.inside = s.inside := ((hr₀₁.trans hr₁₂).trans hr₂₃).inside
      cases found with
      | none =>
          obtain ⟨rfl, token, rest, hr, hne⟩ := accept_none hs₅
          obtain ⟨rfl, rfl⟩ := pure_eq_ok.1 h₅
          obtain ⟨hc₂, hc₅⟩ := hr₁₂.clean (hr₂₃.trans hr₃₄) (hc.trans he₁.symm)
          obtain ⟨-, hc₅⟩ := hr₂₃.clean hr₃₄ hc₅
          obtain ⟨ts, hts, hcond⟩ := expression_sound hs₂ hc₂
          obtain ⟨dangling, ⟨us, hus, hs⟩, -⟩ := statement_sound hs₄ hc₅
          rw [hin] at hs
          refine ⟨true, ⟨opening :: (ts ++ closing :: us), ?_, .branch hw hk₁ hcond hk₃ hs⟩,
            fun _ => ⟨token, rest, hr, ?_⟩⟩
          · rw [hr₁, hts, hr₃, hus]
            simp
          · intro hk
            simp [hk, Token.isEnd] at hne
      | some other =>
          obtain ⟨hr₅, -, hk₅, -, he₅⟩ := accept_some hs₅
          obtain ⟨elseBranch, s₆, hs₆, h₆⟩ := bind_eq_ok.1 h₅
          obtain ⟨rfl, rfl⟩ := pure_eq_ok.1 h₆
          have hr₅₆ := (proceeds_statement fuel).reaches hs₆
          obtain ⟨hc₂, hc₆⟩ := hr₁₂.clean (hr₂₃.trans (hr₃₄.trans (hr₄₅.trans hr₅₆)))
            (hc.trans he₁.symm)
          obtain ⟨hc₄, hc₆⟩ := hr₃₄.clean (hr₄₅.trans hr₅₆) (hc₆.trans he₃.symm)
          obtain ⟨ts, hts, hcond⟩ := expression_sound hs₂ hc₂
          obtain ⟨dangling, ⟨us, hus, hs⟩, hd⟩ := statement_sound hs₄ hc₄
          obtain ⟨dangling', ⟨vs, hvs, hs'⟩, hd'⟩ := statement_sound hs₆ (hc₆.trans he₅.symm)
          rw [hin] at hs
          rw [((hr₃₄.trans hr₄₅)).inside, hin] at hs'
          -- The token behind the first branch is the `else`, so the branch does not lack one.
          obtain rfl : dangling = false := by
            cases dangling with
            | false => rfl
            | true =>
                obtain ⟨token, rest, hr, hne⟩ := hd rfl
                rw [hr₅] at hr
                simp only [List.cons.injEq] at hr
                rw [← hr.1] at hne
                exact absurd (by simpa using hk₅) hne
          refine ⟨dangling', ⟨opening :: (ts ++ closing :: (us ++ other :: vs)), ?_,
            .branchElse hw hk₁ hcond hk₃ hs (by simpa using hk₅) hs'⟩, hd'⟩
          rw [hr₁, hts, hr₃, hus, hr₅, hvs]
          simp

theorem whileStatement_sound : ∀ {fuel : Nat} {word : Token} {s t : ParserState} {st : Stmt},
    word.kind = .whileWord → whileStatement fuel s = .ok st t → t.errors = s.errors →
      Completes [word] s t st
  | 0, _, s, t, st, _, h, _ => by simp [whileStatement, outOfFuel] at h
  | fuel + 1, word, s, t, st, hw, h, hc => by
      rw [whileStatement] at h
      obtain ⟨opening, s₁, hs₁, h₁⟩ := bind_eq_ok.1 h
      obtain ⟨condition, s₂, hs₂, h₂⟩ := bind_eq_ok.1 h₁
      obtain ⟨closing, s₃, hs₃, h₃⟩ := bind_eq_ok.1 h₂
      obtain ⟨body, s₄, hs₄, h₄⟩ := bind_eq_ok.1 h₃
      obtain ⟨rfl, rfl⟩ := pure_eq_ok.1 h₄
      obtain ⟨hr₁, -, hk₁, -, he₁⟩ := expect_eq_ok hs₁
      obtain ⟨hr₃, -, hk₃, -, he₃⟩ := expect_eq_ok hs₃
      have hr₀₁ := (proceeds_expect _ _).reaches hs₁
      have hr₁₂ := (proceeds_expression fuel).reaches hs₂
      have hr₂₃ := (proceeds_expect _ _).reaches hs₃
      have hin : s₃.inside = s.inside := ((hr₀₁.trans hr₁₂).trans hr₂₃).inside
      obtain ⟨hc₂, hc₄⟩ := hr₁₂.clean (hr₂₃.trans ((proceeds_statement fuel).reaches hs₄))
        (hc.trans he₁.symm)
      obtain ⟨ts, hts, hcond⟩ := expression_sound hs₂ hc₂
      obtain ⟨dangling, ⟨us, hus, hs⟩, hd⟩ := statement_sound hs₄ (hc₄.trans he₃.symm)
      rw [hin] at hs
      refine ⟨dangling, ⟨opening :: (ts ++ closing :: us), ?_, .loop hw hk₁ hcond hk₃ hs⟩, hd⟩
      rw [hr₁, hts, hr₃, hus]
      simp

theorem forStatement_sound : ∀ {fuel : Nat} {word : Token} {s t : ParserState} {st : Stmt},
    word.kind = .forWord → forStatement fuel s = .ok st t → t.errors = s.errors →
      Completes [word] s t st
  | 0, _, s, t, st, _, h, _ => by simp [forStatement, outOfFuel] at h
  | fuel + 1, word, s, t, st, hw, h, hc => by
      rw [forStatement] at h
      obtain ⟨opening, s₁, hs₁, h₁⟩ := bind_eq_ok.1 h
      obtain ⟨first, s₂, hs₂, h₂⟩ := bind_eq_ok.1 h₁
      obtain ⟨condition, s₃, hs₃, h₃⟩ := bind_eq_ok.1 h₂
      obtain ⟨semicolon, s₄, hs₄, h₄⟩ := bind_eq_ok.1 h₃
      obtain ⟨increment, s₅, hs₅, h₅⟩ := bind_eq_ok.1 h₄
      obtain ⟨closing, s₆, hs₆, h₆⟩ := bind_eq_ok.1 h₅
      obtain ⟨body, s₇, hs₇, h₇⟩ := bind_eq_ok.1 h₆
      obtain ⟨rfl, rfl⟩ := pure_eq_ok.1 h₇
      obtain ⟨hr₁, -, hk₁, -, he₁⟩ := expect_eq_ok hs₁
      obtain ⟨hr₄, -, hk₄, -, he₄⟩ := expect_eq_ok hs₄
      obtain ⟨hr₆, -, hk₆, -, he₆⟩ := expect_eq_ok hs₆
      have hr₀₁ := (proceeds_expect _ _).reaches hs₁
      have hr₁₂ := (proceeds_forInitializer fuel).reaches hs₂
      have hr₂₃ := (proceeds_optionalExpression fuel _).reaches hs₃
      have hr₃₄ := (proceeds_expect _ _).reaches hs₄
      have hr₄₅ := (proceeds_optionalExpression fuel _).reaches hs₅
      have hr₅₆ := (proceeds_expect _ _).reaches hs₆
      have hr₆₇ := (proceeds_statement fuel).reaches hs₇
      have hr₄₇ := hr₄₅.trans (hr₅₆.trans hr₆₇)
      have hin : s₆.inside = s.inside :=
        ((((hr₀₁.trans hr₁₂).trans hr₂₃).trans hr₃₄).trans (hr₄₅.trans hr₅₆)).inside
      -- No error was recorded over all, so none was recorded in a part.
      obtain ⟨hc₂, hc₇⟩ := hr₁₂.clean (hr₂₃.trans (hr₃₄.trans hr₄₇)) (hc.trans he₁.symm)
      obtain ⟨hc₃, hc₇⟩ := hr₂₃.clean (hr₃₄.trans hr₄₇) hc₇
      obtain ⟨hc₅, hc₇⟩ := hr₄₅.clean (hr₅₆.trans hr₆₇) (hc₇.trans he₄.symm)
      -- So every part is a phrase, and what was read is one after the other.
      obtain ⟨ts, hts, hi⟩ := forInitializer_sound hs₂ hc₂
      obtain ⟨us, hus, hcond⟩ := optionalExpression_sound hs₃ hc₃
      obtain ⟨vs, hvs, hn⟩ := optionalExpression_sound hs₅ hc₅
      obtain ⟨dangling, ⟨ws, hws, hs⟩, hd⟩ := statement_sound hs₇ (hc₇.trans he₆.symm)
      rw [hin] at hs
      rw [forLoop_eq_forTree]
      refine ⟨dangling, ⟨opening :: (ts ++ (us ++ semicolon :: (vs ++ closing :: ws))), ?_,
        .forLoop hw hk₁ hi hcond hk₄ hn hk₆ hs⟩, hd⟩
      rw [hr₁, hts, hus, hr₄, hvs, hr₆, hws]
      simp

end

/-! ### Programs -/

/-- **What was read as a program, without an error, are declarations in front of the end.** -/
theorem program_sound : ∀ {fuel : Nat} {s t : ParserState} {ss : List Stmt},
    program fuel s = .ok ss t → t.errors = s.errors →
      s.Spans t (Declarations s.inside · ss) ∧
        ∃ ending rest, t.rest = ending :: rest ∧ ending.isEnd = true
  | 0, s, t, ss, h, _ => by simp [program, outOfFuel] at h
  | fuel + 1, s, t, ss, h, hc => by
      rw [program] at h
      obtain ⟨token, u, hu, h₁⟩ := bind_eq_ok.1 h
      obtain ⟨rfl, rest, hr⟩ := peek_eq_ok.1 hu
      split at h₁
      · next hend =>
          obtain ⟨rfl, rfl⟩ := pure_eq_ok.1 h₁
          exact ⟨⟨[], rfl, .nil⟩, token, rest, hr, hend⟩
      · obtain ⟨first, v, hv, h₂⟩ := bind_eq_ok.1 h₁
        obtain ⟨others, w, hw, h₃⟩ := bind_eq_ok.1 h₂
        obtain ⟨rfl, rfl⟩ := pure_eq_ok.1 h₃
        have huv := (proceeds_declaration fuel).reaches hv
        obtain ⟨hcv, hcw⟩ := huv.clean ((proceeds_program fuel).reaches hw) hc
        obtain ⟨st, rfl, ts, hts, hd⟩ := declaration_sound hv hcv
        obtain ⟨⟨us, hus, hds⟩, hend⟩ := program_sound hw hcw
        rw [huv.inside] at hds
        exact ⟨⟨ts ++ us, by rw [hts, hus, List.append_assoc], .cons hd hds⟩, hend⟩

end Parser

end LoxLang
