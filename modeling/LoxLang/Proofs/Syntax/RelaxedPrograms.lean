/-
**Programs are what the relaxed grammar derives without a violation.**

The relaxed grammar has the phrases of `LoxLang/Proofs/Syntax/Grammar.lean`, and more: for each
derivation there it has one of the same tokens, which is read as the same tree and violates
nothing.  Conversely tokens that it derives without a violation are parsed without an error, and
what the parser accepts is a program.

* `LoxLang.Relaxed.Flawless` — expressions that are derived without a violation;
* `LoxLang.Grammar.Expression.flawless`, `LoxLang.Grammar.Declarations.relaxed` — those of the
  grammar;
* `LoxLang.Relaxed.program_iff` — **the programs among the relaxed ones**.
-/

import LoxLang.Proofs.Syntax.Acceptance
import LoxLang.Proofs.Syntax.NonfatalErrors

set_option relaxedAutoImplicit false
set_option autoImplicit false

namespace LoxLang.Relaxed

open Lenient (Layer)

/-! ### Expressions without a violation -/

/-- The tokens are derived as an expression that is read as the given one, without a violation. -/
def Flawless (layer : Layer) (ts : List Token) (e : Expr) : Prop :=
  ∃ r : Expression layer, r.tokens = ts ∧ r.kept = e ∧ r.violations = []

/-- The same for arguments. -/
def FlawlessArguments (ts : List Token) (args : List Expr) : Prop :=
  ∃ r : Arguments, r.tokens = ts ∧ r.kept = args ∧ r.violations = []

namespace Flawless

variable {ts us : List Token} {x y : Expr}

theorem ofOperand (h : Flawless (.operand Level.all) ts x) : Flawless .assignment ts x :=
  have ⟨r, ht, hk, hv⟩ := h
  ⟨.ofOperand r, ht, hk, hv⟩

theorem operation {level : Level} {tighter : List Level} {op : Token}
    (hx : Flawless (.operand (level :: tighter)) ts x)
    (ho : level.operators.contains op.kind = true) (hy : Flawless (.operand tighter) us y) :
    Flawless (.operand (level :: tighter)) (ts ++ op :: us) (level.node x op y) := by
  obtain ⟨r, rfl, rfl, hr⟩ := hx
  obtain ⟨q, rfl, rfl, hq⟩ := hy
  exact ⟨.operation r ⟨op, ho⟩ q, rfl, rfl, List.append_eq_nil_iff.2 ⟨hr, hq⟩⟩

theorem ofTighter {level : Level} {tighter : List Level} (h : Flawless (.operand tighter) ts x) :
    Flawless (.operand (level :: tighter)) ts x :=
  have ⟨r, ht, hk, hv⟩ := h
  ⟨.ofTighter r, ht, hk, hv⟩

theorem ofUnary (h : Flawless .unary ts x) : Flawless (.operand []) ts x :=
  have ⟨r, ht, hk, hv⟩ := h
  ⟨.ofUnary r, ht, hk, hv⟩

theorem unary {op : Token} (ho : unaryOperators.contains op.kind = true)
    (hx : Flawless .unary ts x) : Flawless .unary (op :: ts) (.unary op x) := by
  obtain ⟨r, rfl, rfl, hr⟩ := hx
  exact ⟨.unary ⟨op, ho⟩ r, rfl, rfl, hr⟩

theorem ofCall (h : Flawless .call ts x) : Flawless .unary ts x :=
  have ⟨r, ht, hk, hv⟩ := h
  ⟨.ofCall r, ht, hk, hv⟩

theorem callEmpty {opening closing : Token} (hc : Flawless .call ts x)
    (ho : opening.kind = .leftParen) (he : closing.kind = .rightParen) :
    Flawless .call (ts ++ [opening, closing]) (.call x closing []) := by
  obtain ⟨r, rfl, rfl, hr⟩ := hc
  exact ⟨.callEmpty r ⟨opening, ho⟩ ⟨closing, he⟩, rfl, rfl, hr⟩

theorem length_toList : ∀ arguments : Arguments, arguments.toList.length = arguments.kept.length
  | .one _ => rfl
  | .more _ _ others => congrArg (· + 1) (length_toList others)

theorem call {opening closing : Token} {args : List Expr} (hc : Flawless .call ts x)
    (ho : opening.kind = .leftParen) (ha : FlawlessArguments us args)
    (hl : args.length ≤ maxArguments) (he : closing.kind = .rightParen) :
    Flawless .call (ts ++ opening :: (us ++ [closing])) (.call x closing args) := by
  obtain ⟨r, rfl, rfl, hr⟩ := hc
  obtain ⟨q, rfl, rfl, hq⟩ := ha
  have hexcess : excessArguments q.toList = [] :=
    List.map_eq_nil_iff.2 (List.drop_eq_nil_of_le (by rwa [length_toList]))
  exact ⟨.call r ⟨opening, ho⟩ q ⟨closing, he⟩, rfl, rfl,
    List.append_eq_nil_iff.2 ⟨hexcess, List.append_eq_nil_iff.2 ⟨hr, hq⟩⟩⟩

theorem ofPrimary (h : Flawless .primary ts x) : Flawless .call ts x :=
  have ⟨r, ht, hk, hv⟩ := h
  ⟨.ofPrimary r, ht, hk, hv⟩

theorem literal {t : Token} {v : Literal} (h : Denotes t v) : Flawless .primary [t] (.literal v) :=
  ⟨.literal t v h, rfl, rfl, rfl⟩

theorem grouping {opening closing : Token} (ho : opening.kind = .leftParen)
    (h : Flawless .assignment ts x) (he : closing.kind = .rightParen) :
    Flawless .primary (opening :: (ts ++ [closing])) (.grouping x) := by
  obtain ⟨r, rfl, rfl, hr⟩ := h
  exact ⟨.grouping ⟨opening, ho⟩ r ⟨closing, he⟩, rfl, rfl, hr⟩

theorem assign {name equals : Token} (hn : name.kind = .identifier) (he : equals.kind = .equal)
    (hv : Flawless .assignment ts x) :
    Flawless .assignment (name :: equals :: ts) (.assign name x) := by
  obtain ⟨r, rfl, rfl, hr⟩ := hv
  -- A name is an operand of all levels.
  exact ⟨.assign (.ofTighter (.ofTighter (.ofTighter (.ofTighter (.ofTighter (.ofTighter (.ofUnary
    (.ofCall (.ofPrimary (.lookup ⟨name, hn⟩)))))))))) ⟨equals, he⟩ r, rfl, rfl, hr⟩

end Flawless

end LoxLang.Relaxed

namespace LoxLang.Grammar

open Relaxed (Flawless FlawlessArguments)

mutual

/-- An expression is derived without a violation. -/
theorem Expression.flawless : ∀ {tier : Tier} {ts : List Token} {e : Expr}, Expression tier ts e →
    Flawless tier.layer ts e
  | _, _, _, .assign hn he hv => .assign hn he hv.flawless
  | _, _, _, .ofDisjunction h => .ofOperand h.flawless
  | _, _, _, .or hx ho hy => .operation hx.flawless (by simp [ho]) hy.flawless
  | _, _, _, .ofConjunction h => .ofTighter h.flawless
  | _, _, _, .and hx ho hy => .operation hx.flawless (by simp [ho]) hy.flawless
  | _, _, _, .ofEquality h => .ofTighter h.flawless
  | _, _, _, .equality hx ho hy =>
      .operation hx.flawless (by rcases ho with ho | ho <;> simp [ho]) hy.flawless
  | _, _, _, .ofComparison h => .ofTighter h.flawless
  | _, _, _, .comparison hx ho hy =>
      .operation hx.flawless (by rcases ho with ho | ho | ho | ho <;> simp [ho]) hy.flawless
  | _, _, _, .ofTerm h => .ofTighter h.flawless
  | _, _, _, .term hx ho hy =>
      .operation hx.flawless (by rcases ho with ho | ho <;> simp [ho]) hy.flawless
  | _, _, _, .ofFactor h => .ofTighter h.flawless
  | _, _, _, .factor hx ho hy =>
      .operation hx.flawless (by rcases ho with ho | ho <;> simp [ho]) (.ofUnary hy.flawless)
  | _, _, _, .ofUnary h => .ofTighter (.ofUnary h.flawless)
  | _, _, _, .unary ho hx =>
      .unary (by rcases ho with ho | ho <;> simp [ho, unaryOperators]) hx.flawless
  | _, _, _, .ofCall h => .ofCall h.flawless
  | _, _, _, .callEmpty hc ho he => .callEmpty hc.flawless ho he
  | _, _, _, .call hc ho ha hl he => .call hc.flawless ho ha.flawless hl he
  | _, _, _, .ofPrimary h => .ofPrimary h.flawless
  | _, _, _, .true h => .literal (.true h)
  | _, _, _, .false h => .literal (.false h)
  | _, _, _, .nil h => .literal (.nil h)
  | _, _, _, .literal h hv => .literal (.literal h hv)
  | _, _, _, .lookup h => ⟨.lookup ⟨_, h⟩, rfl, rfl, rfl⟩
  | _, _, _, .grouping ho h he => .grouping ho h.flawless he

theorem Arguments.flawless : ∀ {ts : List Token} {args : List Expr}, Arguments ts args →
    FlawlessArguments ts args
  | _, _, .one h =>
      have ⟨r, ht, hk, hv⟩ := h.flawless
      ⟨.one r, ht, congrArg ([·]) hk, hv⟩
  | _, _, @Arguments.more _ _ comma _ _ h hc hs => by
      obtain ⟨r, rfl, rfl, hr⟩ := h.flawless
      obtain ⟨q, rfl, rfl, hq⟩ := hs.flawless
      exact ⟨.more r ⟨comma, hc⟩ q, rfl, rfl, List.append_eq_nil_iff.2 ⟨hr, hq⟩⟩

end

/-! ### Simple phrases -/

theorem Parameters.relaxed : ∀ {ts names : List Token}, Parameters ts names →
    ∃ r : Relaxed.Parameters, r.tokens = ts ∧ r.names = names
  | _, _, @Parameters.one name h => ⟨.one ⟨name, h⟩, rfl, rfl⟩
  | _, _, @Parameters.more name comma _ _ h hc hs => by
      obtain ⟨r, rfl, rfl⟩ := hs.relaxed
      exact ⟨.more ⟨name, h⟩ ⟨comma, hc⟩ r, rfl, rfl⟩

theorem ParameterList.relaxed {ts names : List Token} (h : ParameterList ts names) :
    ∃ r : Relaxed.ParameterList, r.tokens = ts ∧ r.names = names ∧ r.violations = [] := by
  cases h with
  | none => exact ⟨Option.none, rfl, rfl, rfl⟩
  | some h hl =>
      obtain ⟨r, rfl, rfl⟩ := h.relaxed
      exact ⟨Option.some r, rfl, rfl, List.map_eq_nil_iff.2 (List.drop_eq_nil_of_le hl)⟩

theorem Optional.relaxed {ts : List Token} {value : Option Expr} (h : Optional ts value) :
    ∃ r : Relaxed.Optional, r.tokens = ts ∧ r.kept = value ∧ r.violations = [] := by
  cases h with
  | none => exact ⟨Option.none, rfl, rfl, rfl⟩
  | some h =>
      obtain ⟨r, ht, hk, hv⟩ := h.flawless
      exact ⟨Option.some r, ht, congrArg Option.some hk, hv⟩

theorem Variable.relaxed {ts : List Token} {s : Stmt} (h : Variable ts s) :
    ∃ r : Relaxed.Variable, r.tokens = ts ∧ r.kept = s ∧ r.violations = [] := by
  cases h with
  | bare hv hn hs => exact ⟨.bare ⟨_, hv⟩ ⟨_, hn⟩ ⟨_, hs⟩, rfl, rfl, rfl⟩
  | initialized hv hn he h hs =>
      obtain ⟨r, rfl, rfl, hr⟩ := h.flawless
      exact ⟨.initialized ⟨_, hv⟩ ⟨_, hn⟩ ⟨_, he⟩ r ⟨_, hs⟩, rfl, rfl, hr⟩

theorem Initializer.relaxed {ts : List Token} {first : Option Stmt} (h : Initializer ts first) :
    ∃ r : Relaxed.Initializer, r.tokens = ts ∧ r.kept = first ∧ r.violations = [] := by
  rcases h with hs | h | ⟨h, hs⟩
  · exact ⟨.none ⟨_, hs⟩, rfl, rfl, rfl⟩
  · obtain ⟨r, ht, hk, hv⟩ := h.relaxed
    exact ⟨.variable r, ht, congrArg some hk, hv⟩
  · obtain ⟨r, rfl, rfl, hr⟩ := h.flawless
    exact ⟨.expression r ⟨_, hs⟩, rfl, rfl, hr⟩

/-! ### Statements and declarations -/

mutual

/-- A statement is derived without a violation. -/
theorem Statement.relaxed : ∀ {inside dangling : Bool} {ts : List Token} {s : Stmt},
    Statement inside dangling ts s →
      ∃ r : Relaxed.Statement dangling, r.tokens = ts ∧ r.kept = s ∧ r.violations inside = []
  | _, _, _, _, .expression h hs => by
      obtain ⟨r, rfl, rfl, hr⟩ := h.flawless
      exact ⟨.expression r ⟨_, hs⟩, rfl, rfl, hr⟩
  | _, _, _, _, .print hw h hs => by
      obtain ⟨r, rfl, rfl, hr⟩ := h.flawless
      exact ⟨.print ⟨_, hw⟩ r ⟨_, hs⟩, rfl, rfl, hr⟩
  | _, _, _, _, .giveBack hw h hs => by
      obtain ⟨r, rfl, rfl, hr⟩ := h.relaxed
      exact ⟨.giveBack ⟨_, hw⟩ r ⟨_, hs⟩, rfl, rfl, hr⟩
  | _, _, _, _, .block ho h he => by
      obtain ⟨r, rfl, rfl, hr⟩ := h.relaxed
      exact ⟨.block ⟨_, ho⟩ r ⟨_, he⟩, rfl, rfl, hr⟩
  | _, _, _, _, .branch hw ho hc he h => by
      obtain ⟨c, rfl, rfl, hcv⟩ := hc.flawless
      obtain ⟨r, rfl, rfl, hr⟩ := h.relaxed
      exact ⟨.branch ⟨_, hw⟩ ⟨_, ho⟩ c ⟨_, he⟩ r, rfl, rfl, List.append_eq_nil_iff.2 ⟨hcv, hr⟩⟩
  | _, _, _, _, .branchElse hw ho hc he h hl h' => by
      obtain ⟨c, rfl, rfl, hcv⟩ := hc.flawless
      obtain ⟨r, rfl, rfl, hr⟩ := h.relaxed
      obtain ⟨q, rfl, rfl, hq⟩ := h'.relaxed
      exact ⟨.branchElse ⟨_, hw⟩ ⟨_, ho⟩ c ⟨_, he⟩ r ⟨_, hl⟩ q, rfl, rfl,
        List.append_eq_nil_iff.2 ⟨hcv, List.append_eq_nil_iff.2 ⟨hr, hq⟩⟩⟩
  | _, _, _, _, .loop hw ho hc he h => by
      obtain ⟨c, rfl, rfl, hcv⟩ := hc.flawless
      obtain ⟨r, rfl, rfl, hr⟩ := h.relaxed
      exact ⟨.loop ⟨_, hw⟩ ⟨_, ho⟩ c ⟨_, he⟩ r, rfl, rfl, List.append_eq_nil_iff.2 ⟨hcv, hr⟩⟩
  | _, _, _, _, .forLoop hw ho hi hc hs hn he h => by
      obtain ⟨i, rfl, rfl, hiv⟩ := hi.relaxed
      obtain ⟨c, rfl, rfl, hcv⟩ := hc.relaxed
      obtain ⟨n, rfl, rfl, hnv⟩ := hn.relaxed
      obtain ⟨r, rfl, rfl, hr⟩ := h.relaxed
      exact ⟨.forLoop ⟨_, hw⟩ ⟨_, ho⟩ i c ⟨_, hs⟩ n ⟨_, he⟩ r, rfl, rfl,
        List.append_eq_nil_iff.2 ⟨hiv, List.append_eq_nil_iff.2 ⟨hcv,
          List.append_eq_nil_iff.2 ⟨hnv, hr⟩⟩⟩⟩

theorem Declaration.relaxed : ∀ {inside : Bool} {ts : List Token} {s : Stmt},
    Declaration inside ts s →
      ∃ r : Relaxed.Declaration, r.tokens = ts ∧ r.kept = s ∧ r.violations inside = []
  | _, _, _, .function hw hn ho hp he hb h hc => by
      obtain ⟨p, rfl, rfl, hpv⟩ := hp.relaxed
      obtain ⟨r, rfl, rfl, hr⟩ := h.relaxed
      exact ⟨.function ⟨_, hw⟩ ⟨_, hn⟩ ⟨_, ho⟩ p ⟨_, he⟩ ⟨_, hb⟩ r ⟨_, hc⟩, rfl, rfl,
        List.append_eq_nil_iff.2 ⟨hpv, hr⟩⟩
  | _, _, _, .variable h => by
      obtain ⟨r, rfl, rfl, hr⟩ := h.relaxed
      exact ⟨.variable r, rfl, rfl, hr⟩
  | _, _, _, .statement h => by
      obtain ⟨r, rfl, rfl, hr⟩ := h.relaxed
      exact ⟨.statement r, rfl, rfl, hr⟩

/-- **Declarations are derived without a violation.** -/
theorem Declarations.relaxed : ∀ {inside : Bool} {ts : List Token} {ss : List Stmt},
    Declarations inside ts ss →
      ∃ r : Relaxed.Declarations, r.tokens = ts ∧ r.kept = ss ∧ r.violations inside = []
  | _, _, _, .nil => ⟨.nil, rfl, rfl, rfl⟩
  | _, _, _, .cons h hs => by
      obtain ⟨r, rfl, rfl, hr⟩ := h.relaxed
      obtain ⟨q, rfl, rfl, hq⟩ := hs.relaxed
      exact ⟨.cons r q, rfl, rfl, List.append_eq_nil_iff.2 ⟨hr, hq⟩⟩

end

end LoxLang.Grammar

namespace LoxLang.Relaxed

/-- **The programs are the programs of the relaxed grammar without a violation.** -/
theorem program_iff {tokens : List Token} (h : EndsOnce tokens) {ss : List Stmt} :
    Grammar.Program tokens ss ↔
      ∃ program : Program,
        program.tokens = tokens ∧ program.kept = ss ∧ program.violations = [] := by
  constructor
  · intro hg
    cases hg with
    | intro hd he =>
        obtain ⟨r, rfl, rfl, hr⟩ := hd.relaxed
        exact ⟨⟨r, _, he⟩, rfl, rfl, hr⟩
  · rintro ⟨program, rfl, rfl, hv⟩
    obtain ⟨es, hlenient, hp⟩ := program.lenient
    obtain ⟨ending, -, hparse⟩ := parse_of_lenient hlenient
    rw [hv] at hp
    exact program_of_parse h hparse hp.eq_nil

end LoxLang.Relaxed
