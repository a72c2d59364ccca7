/-
**Every program is accepted.**

The converse of `LoxLang/Proofs/Syntax/ParserSound.lean`, for the lenient grammar: in front of a phrase a
rule of the parser answers the tree of the phrase, reads it to its end and no further, and notes exactly
the errors of the phrase.  What follows the phrase must not continue it: behind an expression no operator
and no parenthesis opens, behind an `if` without an `else` there is none.

The operators of a level and the calls are left recursive in the grammar and loops in the parser.  So
the induction is about a phrase together with what the loop makes of the tokens behind it
(`LoxLang.Parser.Complete`): if the loop goes on to read some tokens from there, then the rule reads the
phrase and these.

* `LoxLang.Parser.Reads` — what a parser reads, and its closure under the combinators;
* `LoxLang.Parser.expression_complete`, `LoxLang.Parser.statement_complete`,
  `LoxLang.Parser.declaration_complete` — the rules;
* `LoxLang.parse_of_lenient` — **the tree and the errors of a program are what the parser answers**.
-/

import LoxLang.Proofs.Syntax.LenientGrammar
import LoxLang.Proofs.Syntax.ParserFuel

set_option relaxedAutoImplicit false
set_option autoImplicit false

namespace LoxLang

namespace Parser

open Lenient
open Grammar (forLoop_eq_forTree)

variable {α β : Type} {ts us rest : List Token} {d : Nat} {es fs : List SyntaxError}

/-! ### Reading tokens -/

/-- Unless the fuel runs out, the parser reads the first tokens in front of the others, answers the
value and notes the errors. -/
def Reads (p : Parser α) (ts rest : List Token) (d : Nat) (a : α) (es : List SyntaxError) : Prop :=
  ∀ errors, p ⟨ts ++ rest, d, errors⟩ = .outOfFuel ∨
    p ⟨ts ++ rest, d, errors⟩ = .ok a ⟨rest, d, errors ++ es⟩

theorem reads_of_ok {p : Parser α} {a : α}
    (h : ∀ errors, p ⟨ts ++ rest, d, errors⟩ = .ok a ⟨rest, d, errors ++ es⟩) :
    p.Reads ts rest d a es := fun errors => .inr (h errors)

theorem reads_outOfFuel (a : α) : Reads outOfFuel ts rest d a es := fun _ => .inl rfl

/-- A rule without fuel reads nothing wrong. -/
theorem reads_of_succ {p : Nat → Parser α} {a : α} (hz : p 0 = outOfFuel)
    (hs : ∀ fuel, (p (fuel + 1)).Reads ts rest d a es) (fuel : Nat) :
    (p fuel).Reads ts rest d a es := by
  cases fuel with
  | zero =>
      rw [hz]
      exact reads_outOfFuel a
  | succ fuel => exact hs fuel

theorem reads_pure (a : α) : (Pure.pure a : Parser α).Reads [] rest d a [] :=
  reads_of_ok fun errors => by simp [pure_eq_ok]

/-- One parser after the other. -/
theorem Reads.bind {p : Parser α} {f : α → Parser β} {a : α} {b : β}
    (hp : p.Reads ts (us ++ rest) d a es) (hf : (f a).Reads us rest d b fs) :
    (p >>= f).Reads (ts ++ us) rest d b (es ++ fs) := by
  intro errors
  rw [List.append_assoc]
  rcases hp errors with h | h
  · left
    rw [bind_apply, h]
  · rw [bind_of_ok h, ← List.append_assoc]
    exact hf _

/-- The second parser reads nothing. -/
theorem Reads.bind_nil {p : Parser α} {f : α → Parser β} {a : α} {b : β}
    (hp : p.Reads ts rest d a es) (hf : (f a).Reads [] rest d b []) :
    (p >>= f).Reads ts rest d b es := by
  have h := Reads.bind (f := f) hp hf
  rwa [List.append_nil, List.append_nil] at h

/-- The second parser notes nothing. -/
theorem Reads.bind_last {p : Parser α} {f : α → Parser β} {a : α} {b : β}
    (hp : p.Reads ts (us ++ rest) d a es) (hf : (f a).Reads us rest d b []) :
    (p >>= f).Reads (ts ++ us) rest d b es := by
  have h := Reads.bind hp hf
  rwa [List.append_nil] at h

theorem Reads.bind_pure {p : Parser α} {g : α → β} {a : α} (hp : p.Reads ts rest d a es) :
    (p >>= fun x => Pure.pure (g x)).Reads ts rest d (g a) es :=
  hp.bind_nil (reads_pure (g a))

/-- The second parser notes an error more. -/
theorem Reads.bind_note {p : Parser α} {g : α → β} {a : α} {token : Token} {cause : SyntaxCause}
    (hp : p.Reads ts rest d a es) :
    (p >>= fun x => note token cause >>= fun _ => Pure.pure (g x)).Reads ts rest d (g a)
      (es ++ [⟨token, cause⟩]) := by
  intro errors
  rcases hp errors with h | h
  · left
    rw [bind_apply, h]
  · right
    rw [bind_of_ok h, ← List.append_assoc]
    rfl

/-! ### Reading a token -/

theorem head_append {token : Token} (h : ts.head? = some token) :
    ∃ us, ts ++ rest = token :: us := by
  obtain ⟨us, rfl⟩ := List.head?_eq_some_iff.1 h
  exact ⟨us ++ rest, rfl⟩

/-- The token ahead does not pass the test. -/
theorem accept_bind_reads_none {test : TokenKind → Bool} {f : Option Token → Parser β} {b : β}
    (ha : Ahead (ts ++ rest) (test · = false)) (hf : (f none).Reads ts rest d b es) :
    (accept test >>= f).Reads ts rest d b es := by
  intro errors
  obtain ⟨token, us, hr, ht⟩ := ha
  rw [bind_of_ok (accept_of_not_test hr ht)]
  exact hf errors

/-- The token ahead passes the test. -/
theorem accept_bind_reads_some {test : TokenKind → Bool} {f : Option Token → Parser β} {b : β}
    {token : Token} (he : token.kind ≠ .endOfSource) (ht : test token.kind = true)
    (hf : (f (some token)).Reads ts rest d b es) :
    (accept test >>= f).Reads (token :: ts) rest d b es := by
  intro errors
  rw [bind_of_ok (accept_of_test rfl (Token.isEnd_eq_false he) ht)]
  exact hf errors

theorem expect_bind_reads {kind : TokenKind} {expectation : Expectation} {f : Token → Parser β}
    {b : β} {token : Token} (hk : token.kind = kind) (he : kind ≠ .endOfSource)
    (hf : (f token).Reads ts rest d b es) :
    (expect kind expectation >>= f).Reads (token :: ts) rest d b es := by
  intro errors
  rw [bind_of_ok (expect_of_kind rfl hk he)]
  exact hf errors

theorem peek_bind_reads {f : Token → Parser β} {b : β} {token : Token} {us : List Token}
    (hr : ts ++ rest = token :: us) (hf : (f token).Reads ts rest d b es) :
    (peek >>= f).Reads ts rest d b es := by
  intro errors
  rw [bind_of_ok (peek_of_cons hr)]
  exact hf errors

theorem peek_bind_reads_ahead {f : Token → Parser β} {b : β} {test : TokenKind → Prop}
    (ha : Ahead (ts ++ rest) test)
    (hf : ∀ token, test token.kind → (f token).Reads ts rest d b es) :
    (peek >>= f).Reads ts rest d b es := by
  obtain ⟨token, us, hr, ht⟩ := ha
  exact peek_bind_reads hr (hf token ht)

theorem advance_bind_reads {f : Unit → Parser β} {b : β} {token : Token}
    (he : token.kind ≠ .endOfSource) (hf : (f ()).Reads ts rest d b es) :
    (advance >>= f).Reads (token :: ts) rest d b es := by
  intro errors
  rw [bind_of_ok (advance_of_cons rfl (Token.isEnd_eq_false he))]
  exact hf errors

/-- The token ahead is not of the kind that stops. -/
theorem check_bind_reads_false {test : TokenKind → Bool} {f : Bool → Parser β} {b : β}
    (ha : Ahead (ts ++ rest) (test · = false)) (hf : (f false).Reads ts rest d b es) :
    (check test >>= f).Reads ts rest d b es := by
  intro errors
  obtain ⟨token, us, hr, ht⟩ := ha
  rw [bind_of_ok (check_of_cons hr), ht, Bool.and_false]
  exact hf errors

theorem check_bind_reads_true {test : TokenKind → Bool} {f : Bool → Parser β} {b : β}
    (ha : Ahead (ts ++ rest) fun kind => test kind = true ∧ kind ≠ .endOfSource)
    (hf : (f true).Reads ts rest d b es) : (check test >>= f).Reads ts rest d b es := by
  intro errors
  obtain ⟨token, us, hr, ht, he⟩ := ha
  rw [bind_of_ok (check_of_cons hr), ht, Token.isEnd_eq_false he]
  exact hf errors

theorem noteExcess_bind_reads {before : Nat} {cause : SyntaxCause} {f : Unit → Parser β} {b : β}
    {token : Token} (ha : ∃ us, ts ++ rest = token :: us) (hf : (f ()).Reads ts rest d b es) :
    (noteExcess before cause >>= f).Reads ts rest d b (excess before token cause ++ es) := by
  obtain ⟨us, hr⟩ := ha
  unfold noteExcess excess
  split
  · intro errors
    have hpeek : peek ⟨ts ++ rest, d, errors⟩ = .ok token ⟨ts ++ rest, d, errors⟩ := peek_of_cons hr
    have hnote : (peek >>= fun token => note token cause) ⟨ts ++ rest, d, errors⟩ =
        .ok () ⟨ts ++ rest, d, errors ++ [⟨token, cause⟩]⟩ := bind_of_ok hpeek
    rw [bind_of_ok hnote]
    have h := hf (errors ++ [⟨token, cause⟩])
    rwa [List.append_assoc] at h
  · exact hf

theorem noteTopLevel_bind_reads {word : Token} {f : Unit → Parser β} {b : β}
    (hf : (f ()).Reads ts rest d b es) :
    (noteTopLevel word >>= f).Reads ts rest d b (misplaced (decide (0 < d)) word ++ es) := by
  intro errors
  cases d with
  | zero =>
      have h := hf (errors ++ [⟨word, .topLevelReturn⟩])
      rwa [List.append_assoc] at h
  | succ d => exact hf errors

theorem Reads.nested {p : Parser α} {a : α} (hp : p.Reads ts rest (d + 1) a es) :
    (nested p).Reads ts rest d a es := by
  intro errors
  unfold Parser.nested
  rcases hp errors with h | h
  · left
    simp only [h]
  · right
    simp only [h, Nat.add_sub_cancel]

theorem Reads.recovering {p : Parser α} {a : α} (hp : p.Reads ts rest d a es) :
    (recovering p).Reads ts rest d (some a) es := by
  intro errors
  unfold Parser.recovering
  rcases hp errors with h | h
  · left
    simp only [h]
  · right
    simp only [h]

/-! ### What may follow an expression -/

/-- The tokens do not continue an operand of the levels above the given ones. -/
def Stops (levels : List Level) (rest : List Token) : Prop :=
  Ahead rest fun kind => kind ≠ .leftParen ∧ ∀ level ∈ levels, level.operators.contains kind = false

/-- The tokens close an expression. -/
def Closes (rest : List Token) : Prop :=
  Ahead rest fun kind => kind = .semicolon ∨ kind = .rightParen ∨ kind = .comma

theorem Closes.stops (h : Closes rest) : Stops Level.all rest :=
  h.mono fun kind hk => by rcases hk with rfl | rfl | rfl <;> decide

theorem Closes.not_equal (h : Closes rest) : Ahead rest ((· == .equal) · = false) :=
  h.mono fun kind hk => by rcases hk with rfl | rfl | rfl <;> decide

theorem closes_cons {token : Token} (ts : List Token)
    (h : token.kind = .semicolon ∨ token.kind = .rightParen ∨ token.kind = .comma) :
    Closes (token :: ts) := ahead_cons h

/-- The operators of a level continue no operand of it. -/
theorem stops_operator {level : Level} {tighter : List Level} {op : Token}
    (hl : level :: tighter <:+ Level.all) (ho : level.operators.contains op.kind = true)
    (ts : List Token) : Stops tighter (op :: ts) := by
  have hm : op.kind ∈ level.operators := by simpa using ho
  refine ahead_cons ?_
  revert hm
  generalize op.kind = kind
  revert kind
  simp only [Level.all, List.suffix_cons_iff, List.cons.injEq, reduceCtorEq, List.suffix_nil,
    or_false] at hl
  rcases hl with ⟨rfl, rfl⟩ | ⟨rfl, rfl⟩ | ⟨rfl, rfl⟩ | ⟨rfl, rfl⟩ | ⟨rfl, rfl⟩ | ⟨rfl, rfl⟩ <;>
    decide

theorem operator_ne_end {level : Level} {tighter : List Level} {op : Token}
    (hl : level :: tighter <:+ Level.all) (ho : level.operators.contains op.kind = true) :
    op.kind ≠ .endOfSource := by
  have hall : ∀ level ∈ Level.all, ∀ kind ∈ level.operators, kind ≠ .endOfSource := by decide
  exact hall level (hl.subset List.mem_cons_self) op.kind (by simpa using ho)

theorem stops_equal {equals : Token} (h : equals.kind = .equal) (ts : List Token) :
    Stops Level.all (equals :: ts) := by
  refine ahead_cons ?_
  rw [h]
  decide

/-! ### Expressions -/

/-- What the parser makes of an expression at the given place.  At an operand of a level, and at a
callee, this is said together with the tokens that the loop reads behind it. -/
def Complete : Layer → List Token → Expr → List SyntaxError → Prop
  | .assignment, ts, e, es =>
      ∀ rest d, Closes rest → ∀ fuel, (expression fuel).Reads ts rest d e es
  | .operand [], ts, e, es =>
      ∀ rest d, Stops [] rest → ∀ fuel, (operand fuel []).Reads ts rest d e es
  | .operand (level :: tighter), ts, e, es =>
      ∀ us rest d b fs, Stops tighter (us ++ rest) →
        (∀ fuel, (operations fuel level tighter e).Reads us rest d b fs) →
          ∀ fuel, (operand fuel (level :: tighter)).Reads (ts ++ us) rest d b (es ++ fs)
  | .unary, ts, e, es => ∀ rest d, Stops [] rest → ∀ fuel, (unary fuel).Reads ts rest d e es
  | .call, ts, e, es =>
      ∀ us rest d b fs, (∀ fuel, (calls fuel e).Reads us rest d b fs) →
        ∀ fuel, (primary fuel >>= calls fuel).Reads (ts ++ us) rest d b (es ++ fs)
  | .primary, ts, e, es => ∀ rest d fuel, (primary fuel).Reads ts rest d e es

/-- Without an operator of the level behind it an operand is read to its end. -/
theorem Complete.reads {levels : List Level} {e : Expr} (h : Complete (.operand levels) ts e es)
    (hr : Stops levels rest) (fuel : Nat) : (operand fuel levels).Reads ts rest d e es := by
  cases levels with
  | nil => exact h rest d hr fuel
  | cons level tighter =>
      have hs : Stops tighter ([] ++ rest) :=
        hr.mono fun kind hk => ⟨hk.1, fun l hl => hk.2 l (List.mem_cons_of_mem _ hl)⟩
      have hloop : ∀ fuel, (operations fuel level tighter e).Reads [] rest d e [] := by
        refine reads_of_succ rfl fun fuel => ?_
        rw [operations]
        refine accept_bind_reads_none ?_ (reads_pure e)
        exact hr.mono fun kind hk => hk.2 level List.mem_cons_self
      have hc := h [] rest d e [] hs hloop fuel
      rwa [List.append_nil, List.append_nil] at hc

/-- The levels at a place are the last ones of all. -/
def Proper : Layer → Prop
  | .operand levels => levels <:+ Level.all
  | _ => True

theorem proper_tail {level : Level} {tighter : List Level}
    (h : Proper (.operand (level :: tighter))) : Proper (.operand tighter) :=
  (List.suffix_cons level tighter).trans h

theorem proper_all : Proper (.operand Level.all) := List.suffix_refl _

/-- Reading a token that is an expression by itself. -/
theorem primary_word {token : Token} {e : Expr}
    (h : ∀ {fuel : Nat} (errors : List SyntaxError),
      primary (fuel + 1) ⟨token :: rest, d, errors⟩ = .ok e ⟨rest, d, errors⟩) (fuel : Nat) :
    (primary fuel).Reads [token] rest d e [] := by
  cases fuel with
  | zero => exact reads_outOfFuel e
  | succ fuel =>
      refine reads_of_ok fun errors => ?_
      rw [List.append_nil]
      exact h errors

mutual

theorem expression_complete : ∀ {layer : Layer} {ts : List Token} {e : Expr}
    {es : List SyntaxError}, Expression layer ts e es → Proper layer → Complete layer ts e es
  | _, _, _, _, .assign ht he hv, _ => by
      intro rest d hr
      have htarget := expression_complete ht proper_all
      have hvalue := expression_complete hv trivial rest d hr
      refine reads_of_succ rfl fun fuel => ?_
      rw [expression]
      -- The equals sign stops the operators of the target.
      refine (htarget.reads (stops_equal he _) fuel).bind ?_
      refine accept_bind_reads_some (by simp [he]) (by simp [he]) ?_
      exact (hvalue fuel).bind_pure
  | _, _, _, _, @Expression.invalidAssign _ _ _ target _ _ _ ht hn he hv, _ => by
      intro rest d hr
      have htarget := expression_complete ht proper_all
      have hvalue := expression_complete hv trivial rest d hr
      refine reads_of_succ rfl fun fuel => ?_
      rw [expression]
      refine (htarget.reads (stops_equal he _) fuel).bind ?_
      refine accept_bind_reads_some (by simp [he]) (by simp [he]) ?_
      cases target with
      | lookup name => exact absurd rfl (hn name)
      | _ => exact (hvalue fuel).bind_note
  | _, _, _, _, .ofOperand h, _ => by
      intro rest d hr
      have hoperand := expression_complete h proper_all
      refine reads_of_succ rfl fun fuel => ?_
      rw [expression]
      refine (hoperand.reads hr.stops fuel).bind_nil ?_
      exact accept_bind_reads_none hr.not_equal (reads_pure _)
  | _, _, _, _, .operation hx ho hy, hl => by
      intro us rest d b fs hs hloop fuel
      have hleft := expression_complete hx hl
      have hright := expression_complete hy (proper_tail hl)
      rw [List.append_assoc, List.append_assoc]
      -- The left operand is read up to the operator, and the loop of the level goes on from there.
      refine hleft _ rest d b _ (stops_operator hl ho _) ?_ fuel
      refine reads_of_succ rfl fun fuel => ?_
      rw [operations]
      refine accept_bind_reads_some (operator_ne_end hl ho) ho ?_
      exact (hright.reads hs fuel).bind (hloop fuel)
  | _, _, _, _, .ofTighter h, hl => by
      intro us rest d b fs hs hloop
      have hoperand := expression_complete h (proper_tail hl)
      refine reads_of_succ rfl fun fuel => ?_
      rw [operand]
      exact (hoperand.reads hs fuel).bind (hloop fuel)
  | _, _, _, _, .ofUnary h, _ => by
      intro rest d hr
      have hunary := expression_complete h trivial
      refine reads_of_succ rfl fun fuel => ?_
      rw [operand]
      exact hunary rest d hr fuel
  | _, _, _, _, .unary ho hx, _ => by
      intro rest d hr
      have hright := expression_complete hx trivial rest d hr
      refine reads_of_succ rfl fun fuel => ?_
      rw [unary]
      refine accept_bind_reads_some (fun hk => ?_) ho ((hright fuel).bind_pure)
      rw [hk] at ho
      simp [unaryOperators] at ho
  | _, _, e, _, .ofCall h, _ => by
      intro rest d hr fuel
      have hahead := h.ahead
      have hcall := expression_complete h trivial
      -- No parenthesis follows, so the loop of calls ends at once.
      have hloop : ∀ fuel, (calls fuel e).Reads [] rest d e [] := by
        refine reads_of_succ rfl fun fuel => ?_
        rw [calls]
        exact accept_bind_reads_none (hr.mono fun kind hk => by simpa using hk.1) (reads_pure e)
      revert fuel
      refine reads_of_succ rfl fun fuel => ?_
      rw [unary]
      have hc := hcall [] rest d e [] hloop fuel
      rw [List.append_nil, List.append_nil] at hc
      refine accept_bind_reads_none ?_ hc
      refine hahead.append.mono ?_
      decide
  | _, _, _, _, .call hc ho ha he, _ => by
      intro us rest d b fs hloop fuel
      have hcallee := expression_complete hc trivial
      have hargs := argumentList_complete ha
      rw [List.append_assoc, List.append_assoc]
      refine hcallee _ rest d b _ ?_ fuel
      refine reads_of_succ rfl fun fuel => ?_
      rw [calls, List.cons_append, List.append_assoc]
      refine accept_bind_reads_some (by simp [ho]) (by simp [ho]) ?_
      refine (hargs _ d (ahead_cons he) fuel).bind ?_
      exact expect_bind_reads he (by decide) (hloop fuel)
  | _, _, _, _, .ofPrimary h, _ => by
      intro us rest d b fs hloop fuel
      have hprimary := expression_complete h trivial
      exact (hprimary _ d fuel).bind (hloop fuel)
  | _, _, _, _, .true h, _ => fun _ _ => primary_word fun _ => by
      simp [primary, bind_apply, pure_apply, peek, advance, Token.isEnd, h]
  | _, _, _, _, .false h, _ => fun _ _ => primary_word fun _ => by
      simp [primary, bind_apply, pure_apply, peek, advance, Token.isEnd, h]
  | _, _, _, _, .nil h, _ => fun _ _ => primary_word fun _ => by
      simp [primary, bind_apply, pure_apply, peek, advance, Token.isEnd, h]
  | _, _, _, _, .literal h hv, _ => fun _ _ => primary_word fun _ => by
      rcases h with h | h <;>
        simp [primary, bind_apply, pure_apply, peek, advance, literalOf, Token.isEnd, h, hv]
  | _, _, _, _, .lookup h, _ => fun _ _ => primary_word fun _ => by
      simp [primary, bind_apply, pure_apply, peek, advance, Token.isEnd, h]
  | _, _, _, _, .grouping ho h he, _ => by
      intro rest d fuel
      have hinner := expression_complete h trivial
      cases fuel with
      | zero => exact reads_outOfFuel _
      | succ fuel =>
          rw [primary]
          refine peek_bind_reads rfl ?_
          simp only [ho]
          refine advance_bind_reads (by simp [ho]) ?_
          refine (hinner _ d (closes_cons _ (.inr (.inl he))) fuel).bind_last ?_
          exact expect_bind_reads he (by decide) (reads_pure _)

theorem argumentList_complete : ∀ {ts : List Token} {args : List Expr} {es : List SyntaxError},
    ArgumentList ts args es → ∀ (rest : List Token) (d : Nat), Ahead rest (· = .rightParen) →
      ∀ fuel, (argumentList fuel).Reads ts rest d args es
  | _, _, _, .none, rest, d, hr => by
      refine reads_of_succ rfl fun fuel => ?_
      rw [argumentList]
      refine check_bind_reads_true (hr.mono ?_) (reads_pure _)
      rintro kind rfl
      decide
  | _, _, _, .some h, rest, d, hr => by
      have hahead := h.ahead
      have hargs := arguments_complete h rest d hr
      refine reads_of_succ rfl fun fuel => ?_
      rw [argumentList]
      refine check_bind_reads_false (hahead.append.mono ?_) (hargs fuel)
      decide

theorem arguments_complete : ∀ {before : Nat} {ts : List Token} {args : List Expr}
    {es : List SyntaxError}, Arguments before ts args es →
      ∀ (rest : List Token) (d : Nat), Ahead rest (· = .rightParen) →
        ∀ fuel, (arguments fuel before).Reads ts rest d args es
  | _, _, _, _, .one hf h, rest, d, hr => by
      have hcloses : Closes rest := hr.mono fun kind hk => .inr (.inl hk)
      have hfirst := expression_complete h trivial rest d hcloses
      refine reads_of_succ rfl fun fuel => ?_
      rw [arguments]
      refine noteExcess_bind_reads (head_append hf) ?_
      refine (hfirst fuel).bind_nil ?_
      refine accept_bind_reads_none (hr.mono ?_) (reads_pure _)
      rintro kind rfl
      decide
  | _, _, _, _, .more hf h hc hs, rest, d, hr => by
      have hfirst := expression_complete h trivial
      have hothers := arguments_complete hs rest d hr
      refine reads_of_succ rfl fun fuel => ?_
      rw [arguments]
      refine noteExcess_bind_reads (by rw [List.append_assoc]; exact head_append hf) ?_
      refine (hfirst _ d (closes_cons _ (.inr (.inr hc))) fuel).bind ?_
      refine accept_bind_reads_some (by simp [hc]) (by simp [hc]) ?_
      exact (hothers fuel).bind_pure

end

/-! ### Simple phrases -/

theorem parameters_complete {before : Nat} {names : List Token}
    (h : Parameters before ts names es) (hr : Ahead rest (· = .rightParen)) :
    ∀ fuel, (parameters fuel before).Reads ts rest d names es := by
  induction h with
  | one hn =>
      refine reads_of_succ rfl fun fuel => ?_
      rw [parameters, ← List.append_nil (excess _ _ _)]
      refine noteExcess_bind_reads ⟨_, rfl⟩ ?_
      refine expect_bind_reads hn (by decide) ?_
      refine accept_bind_reads_none (hr.mono ?_) (reads_pure _)
      rintro kind rfl
      decide
  | more hn hc _ ih =>
      refine reads_of_succ rfl fun fuel => ?_
      rw [parameters]
      refine noteExcess_bind_reads ⟨_, rfl⟩ ?_
      refine expect_bind_reads hn (by decide) ?_
      refine accept_bind_reads_some (by simp [hc]) (by simp [hc]) ?_
      exact (ih fuel).bind_pure

theorem parameterList_complete {names : List Token} (h : ParameterList ts names es)
    (hr : Ahead rest (· = .rightParen)) (fuel : Nat) :
    (parameterList fuel).Reads ts rest d names es := by
  cases h with
  | none =>
      refine check_bind_reads_true (hr.mono ?_) (reads_pure _)
      rintro kind rfl
      decide
  | some h =>
      have hahead : Ahead ts (· = .identifier) := by
        cases h with
        | one hn => exact ahead_cons hn
        | more hn _ _ => exact ahead_cons hn
      refine check_bind_reads_false (hahead.append.mono ?_) (parameters_complete h hr fuel)
      rintro kind rfl
      decide

theorem optionalExpression_complete {e : Option Expr} {stop : TokenKind} (h : Optional ts e es)
    (hs : stop = .semicolon ∨ stop = .rightParen) (hr : Ahead rest (· = stop)) (fuel : Nat) :
    (optionalExpression fuel stop).Reads ts rest d e es := by
  cases h with
  | none =>
      refine check_bind_reads_true (hr.mono ?_) (reads_pure _)
      rintro kind rfl
      rcases hs with rfl | rfl <;> decide
  | some h =>
      have hcloses : Closes rest := hr.mono fun kind hk => by
        rcases hs with rfl | rfl
        · exact .inl hk
        · exact .inr (.inl hk)
      refine check_bind_reads_false (h.ahead.append.mono ?_)
        (expression_complete h trivial rest d hcloses fuel).bind_pure
      rcases hs with rfl | rfl <;> decide

theorem variableDeclaration_complete {s : Stmt} (h : Variable ts s es) (fuel : Nat) :
    ∃ var us, ts = var :: us ∧ var.kind = .varWord ∧
      (variableDeclaration fuel).Reads us rest d s es := by
  cases h with
  | @bare var name semicolon hv hn hs =>
      refine ⟨var, [name, semicolon], rfl, hv, expect_bind_reads hn (by decide) ?_⟩
      have hinit : (initializer fuel).Reads [] ([semicolon] ++ rest) d none [] :=
        accept_bind_reads_none (ahead_cons (by simp [hs])) (reads_pure none)
      refine hinit.bind ?_
      exact expect_bind_reads hs (by decide) (reads_pure _)
  | @initialized var name equals semicolon us e _ hv hn he h hs =>
      refine ⟨var, name :: equals :: (us ++ [semicolon]), rfl, hv,
        expect_bind_reads hn (by decide) ?_⟩
      have hvalue := expression_complete h trivial _ d (closes_cons rest (.inl hs)) fuel
      have hinit : (initializer fuel).Reads (equals :: us) ([semicolon] ++ rest) d (some e) es :=
        accept_bind_reads_some (by simp [he]) (by simp [he]) hvalue.bind_pure
      refine hinit.bind_last ?_
      exact expect_bind_reads hs (by decide) (reads_pure _)

theorem expressionStatement_complete {e : Expr} {semicolon : Token}
    (h : Expression .assignment ts e es) (hs : semicolon.kind = .semicolon) (fuel : Nat) :
    (expressionStatement fuel).Reads (ts ++ [semicolon]) rest d (.expression e) es := by
  have hvalue := expression_complete h trivial _ d (closes_cons rest (.inl hs)) fuel
  exact hvalue.bind_last (expect_bind_reads hs (by decide) (reads_pure _))

theorem forInitializer_complete {first : Option Stmt} (h : Initializer ts first es) :
    ∀ fuel, (forInitializer fuel).Reads ts rest d first es := by
  refine reads_of_succ rfl fun fuel => ?_
  rw [forInitializer]
  rcases h with hs | h | ⟨h, hs⟩
  · exact accept_bind_reads_some (by simp [hs]) (by simp [hs]) (reads_pure _)
  · obtain ⟨var, us, rfl, hv, hreads⟩ := @variableDeclaration_complete _ rest d _ _ h fuel
    refine accept_bind_reads_none (ahead_cons (by simp [hv])) ?_
    exact accept_bind_reads_some (by simp [hv]) (by simp [hv]) hreads.bind_pure
  · refine accept_bind_reads_none (h.ahead.append.append.mono (by decide)) ?_
    refine accept_bind_reads_none (h.ahead.append.append.mono (by decide)) ?_
    exact (expressionStatement_complete h hs fuel).bind_pure

/-! ### Statements and declarations -/

/-- A declaration without the recovery around it. -/
theorem declaration_reads {s : Stmt}
    (h : ∀ fuel, (bareDeclaration (fuel + 1)).Reads ts rest d s es) :
    ∀ fuel, (declaration fuel).Reads ts rest d (some s) es := by
  refine reads_of_succ rfl fun fuel => ?_
  rw [declaration]
  exact (reads_of_succ rfl h fuel).recovering

/-- The declarations of a block, and its closing brace. -/
theorem block_complete {body : List Stmt} {closing : Token}
    (h : ∀ rest, Ahead rest (· = .rightBrace) → ∀ fuel, (blockItems fuel).Reads ts rest d body es)
    (hk : closing.kind = .rightBrace) (rest : List Token) :
    ∀ fuel, (block fuel).Reads (ts ++ [closing]) rest d body es := by
  refine reads_of_succ rfl fun fuel => ?_
  rw [block]
  refine (h ([closing] ++ rest) (ahead_cons hk) fuel).bind_last ?_
  exact expect_bind_reads hk (by decide) (reads_pure body)

mutual

theorem statement_complete : ∀ {inside dangling : Bool} {ts : List Token} {s : Stmt}
    {es : List SyntaxError}, Statement inside dangling ts s es →
      ∀ (rest : List Token) (d : Nat), inside = decide (0 < d) →
        (dangling = true → Ahead rest (· ≠ .elseWord)) →
          ∀ fuel, (statement fuel).Reads ts rest d s es
  | _, _, _, _, _, .expression h hs, rest, d, _, _ => by
      have hahead := h.ahead
      refine reads_of_succ rfl fun fuel => ?_
      rw [statement]
      -- No keyword begins an expression, so only the last alternative is left.
      refine peek_bind_reads_ahead hahead.append.append fun token hk => ?_
      split
      · next hw => exact absurd (hw ▸ hk) (by decide)
      · next hw => exact absurd (hw ▸ hk) (by decide)
      · next hw => exact absurd (hw ▸ hk) (by decide)
      · next hw => exact absurd (hw ▸ hk) (by decide)
      · next hw => exact absurd (hw ▸ hk) (by decide)
      · next hw => exact absurd (hw ▸ hk) (by decide)
      · exact expressionStatement_complete h hs fuel
  | _, _, _, _, _, .print hw h hs, rest, d, _, _ => by
      refine reads_of_succ rfl fun fuel => ?_
      rw [statement]
      refine peek_bind_reads rfl ?_
      simp only [hw]
      refine advance_bind_reads (by simp [hw]) ?_
      have hvalue := expression_complete h trivial _ d (closes_cons rest (.inl hs)) fuel
      exact hvalue.bind_last (expect_bind_reads hs (by decide) (reads_pure _))
  | _, _, _, _, _, .giveBack hw h hs, rest, d, hd, _ => by
      refine reads_of_succ rfl fun fuel => ?_
      rw [statement, hd]
      refine peek_bind_reads rfl ?_
      simp only [hw]
      refine advance_bind_reads (by simp [hw]) ?_
      refine noteTopLevel_bind_reads ?_
      have hvalue := optionalExpression_complete (d := d) h (.inl rfl)
        (ahead_cons hs : Ahead (_ :: rest) _) fuel
      exact hvalue.bind_last (expect_bind_reads hs (by decide) (reads_pure _))
  | _, _, _, _, _, .block ho h he, rest, d, hd, _ => by
      have hbody := block_complete (fun rest => blockItems_complete h rest d hd) he rest
      refine reads_of_succ rfl fun fuel => ?_
      rw [statement]
      refine peek_bind_reads rfl ?_
      simp only [ho]
      exact advance_bind_reads (by simp [ho]) (hbody fuel).bind_pure
  | _, _, _, _, _, .branch hw ho hc he h, rest, d, hd, hn => by
      have hbranch := statement_complete h rest d hd fun _ => hn rfl
      refine reads_of_succ rfl fun fuel => ?_
      rw [statement]
      refine peek_bind_reads rfl ?_
      simp only [hw]
      refine advance_bind_reads (by simp [hw]) ?_
      revert fuel
      refine reads_of_succ rfl fun fuel => ?_
      rw [ifStatement]
      refine expect_bind_reads ho (by decide) ?_
      refine (expression_complete hc trivial _ d (closes_cons _ (.inr (.inl he))) fuel).bind ?_
      refine expect_bind_reads he (by decide) ((hbranch fuel).bind_nil ?_)
      -- A branch without `else` is dangling, so none follows it.
      exact accept_bind_reads_none ((hn rfl).mono fun kind hk => by simpa using hk) (reads_pure _)
  | _, _, _, _, _, .branchElse hw ho hc he h hl h', rest, d, hd, hn => by
      -- The first branch is not dangling, so it leaves the `else` behind it.
      have hbranch := fun rest => statement_complete h rest d hd fun h => by cases h
      have hother := statement_complete h' rest d hd hn
      refine reads_of_succ rfl fun fuel => ?_
      rw [statement]
      refine peek_bind_reads rfl ?_
      simp only [hw]
      refine advance_bind_reads (by simp [hw]) ?_
      revert fuel
      refine reads_of_succ rfl fun fuel => ?_
      rw [ifStatement]
      refine expect_bind_reads ho (by decide) ?_
      refine (expression_complete hc trivial _ d (closes_cons _ (.inr (.inl he))) fuel).bind ?_
      refine expect_bind_reads he (by decide) ((hbranch _ fuel).bind ?_)
      exact accept_bind_reads_some (by simp [hl]) (by simp [hl]) (hother fuel).bind_pure
  | _, _, _, _, _, .loop hw ho hc he h, rest, d, hd, hn => by
      have hbody := statement_complete h rest d hd hn
      refine reads_of_succ rfl fun fuel => ?_
      rw [statement]
      refine peek_bind_reads rfl ?_
      simp only [hw]
      refine advance_bind_reads (by simp [hw]) ?_
      revert fuel
      refine reads_of_succ rfl fun fuel => ?_
      rw [whileStatement]
      refine expect_bind_reads ho (by decide) ?_
      refine (expression_complete hc trivial _ d (closes_cons _ (.inr (.inl he))) fuel).bind ?_
      exact expect_bind_reads he (by decide) (hbody fuel).bind_pure
  | _, _, _, _, _, .forLoop hw ho hi hc hs hn he h, rest, d, hd, hnd => by
      have hbody := statement_complete h rest d hd hnd
      refine reads_of_succ rfl fun fuel => ?_
      rw [statement]
      refine peek_bind_reads rfl ?_
      simp only [hw]
      refine advance_bind_reads (by simp [hw]) ?_
      revert fuel
      refine reads_of_succ rfl fun fuel => ?_
      -- The tree of the grammar is the loop that the parser builds.
      rw [forStatement, ← forLoop_eq_forTree]
      refine expect_bind_reads ho (by decide) ?_
      refine (forInitializer_complete hi fuel).bind ?_
      refine (optionalExpression_complete hc (.inl rfl) (ahead_cons hs) fuel).bind ?_
      refine expect_bind_reads hs (by decide) ?_
      refine (optionalExpression_complete hn (.inr rfl) (ahead_cons he) fuel).bind ?_
      exact expect_bind_reads he (by decide) (hbody fuel).bind_pure

theorem blockItems_complete : ∀ {inside : Bool} {ts : List Token} {body : List Stmt}
    {es : List SyntaxError}, Declarations inside ts body es →
      ∀ (rest : List Token) (d : Nat), inside = decide (0 < d) → Ahead rest (· = .rightBrace) →
        ∀ fuel, (blockItems fuel).Reads ts rest d body es
  | _, _, _, _, .nil, rest, d, _, hr => by
      refine reads_of_succ rfl fun fuel => ?_
      rw [blockItems]
      refine peek_bind_reads_ahead hr fun token hk => ?_
      rw [if_pos (by simp [hk])]
      exact reads_pure []
  | _, _, _, _, .cons h hs, rest, d, hd, hr => by
      have hnext := hs.ahead (hr.mono fun kind hk => by simp [hk])
      have hfirst := declaration_complete h _ d hd hnext
      have hothers := blockItems_complete hs rest d hd hr
      have hahead := h.ahead
      refine reads_of_succ rfl fun fuel => ?_
      rw [blockItems]
      refine peek_bind_reads_ahead hahead.append.append fun token hk => ?_
      rw [if_neg (by simp [hk, Token.isEnd])]
      exact (hfirst fuel).bind (hothers fuel).bind_pure

theorem declaration_complete : ∀ {inside : Bool} {ts : List Token} {s : Stmt}
    {es : List SyntaxError}, Declaration inside ts s es →
      ∀ (rest : List Token) (d : Nat), inside = decide (0 < d) → Ahead rest (· ≠ .elseWord) →
        ∀ fuel, (declaration fuel).Reads ts rest d (some s) es
  | _, _, _, _, .function hw hn ho hp he hb h hc, rest, d, _, _ => by
      have hbody := block_complete (fun rest => blockItems_complete h rest (d + 1) (by simp)) hc rest
      refine declaration_reads fun fuel => ?_
      refine accept_bind_reads_some (by simp [hw]) (by simp [hw]) ?_
      revert fuel
      refine reads_of_succ rfl fun fuel => ?_
      rw [function]
      refine expect_bind_reads hn (by decide) (expect_bind_reads ho (by decide) ?_)
      refine (parameterList_complete hp (ahead_cons he) fuel).bind ?_
      refine expect_bind_reads he (by decide) (expect_bind_reads hb (by decide) ?_)
      exact (hbody fuel).nested.bind_pure
  | _, _, _, _, .variable h, rest, d, _, _ => by
      refine declaration_reads fun fuel => ?_
      obtain ⟨var, us, rfl, hv, hreads⟩ := @variableDeclaration_complete _ rest d _ _ h fuel
      refine accept_bind_reads_none (ahead_cons (by simp [hv])) ?_
      exact accept_bind_reads_some (by simp [hv]) (by simp [hv]) hreads
  | _, _, _, _, .statement h, rest, d, hd, hr => by
      have hahead := h.ahead
      have hstatement := statement_complete h rest d hd fun _ => hr
      refine declaration_reads fun fuel => ?_
      refine accept_bind_reads_none (hahead.append.mono (by decide)) ?_
      exact accept_bind_reads_none (hahead.append.mono (by decide)) (hstatement fuel)

end

/-! ### Programs -/

theorem program_complete {inside : Bool} {ss : List Stmt} (h : Declarations inside ts ss es)
    (hd : inside = decide (0 < d)) (hr : Ahead rest (· = .endOfSource)) :
    ∀ fuel, (program fuel).Reads ts rest d ss es := by
  induction ss generalizing ts es with
  | nil =>
      cases h with
      | nil =>
          refine reads_of_succ rfl fun fuel => ?_
          rw [program]
          refine peek_bind_reads_ahead hr fun token hk => ?_
          rw [if_pos (by simp [hk, Token.isEnd])]
          exact reads_pure []
  | cons s ss ih =>
      cases h with
      | cons h hs =>
          have hnext := hs.ahead (hr.mono fun kind hk => by simp [hk])
          have hfirst := declaration_complete h _ d hd hnext
          refine reads_of_succ rfl fun fuel => ?_
          rw [program]
          refine peek_bind_reads_ahead h.ahead.append.append fun token hk => ?_
          rw [if_neg (by simp [hk, Token.isEnd])]
          exact (hfirst fuel).bind (ih hs fuel).bind_pure

end Parser

/-- **The parser answers the tree of a program and notes its errors**, and nothing else. -/
theorem parse_of_lenient {tokens : List Token} {ss : List Stmt} {es : List SyntaxError}
    (h : Lenient.Program tokens ss es) :
    ∃ ending, ending.kind = .endOfSource ∧ parse tokens = .ok ss ⟨[ending], 0, es⟩ := by
  cases h with
  | @intro ts ending _ _ h he =>
      have hending : Lenient.Ahead [ending] (· = .endOfSource) := Lenient.ahead_cons he
      have hreads := Parser.program_complete (d := 0) h rfl hending (parserFuel (ts ++ [ending])) []
      rcases hreads with hout | hok
      · exact absurd hout (parse_ne_outOfFuel _)
      · exact ⟨ending, he, hok⟩

end LoxLang
