/-
**The grammar with the errors that reading goes on after.**

Four rules of the language are not about where tokens may stand: only a name is assigned to, a call has
at most `LoxLang.maxArguments` arguments, a function has at most as many parameters, and `return` stands
inside function bodies.  The parser notes when one of them is broken and goes on as if it were not.
This module repeats `LoxLang/Proofs/Syntax/Grammar.lean` without these rules, and gives each phrase the
list of errors that are noted in it, in order.  An assignment to anything but a name stands for its
right side.

The levels of binary operators are those of `LoxLang.Level.all`, not one rule each.

* `LoxLang.Lenient.Layer`, `LoxLang.Lenient.Expression` — the expressions and their errors;
* `LoxLang.Lenient.Statement`, `Declaration`, `Declarations`, `Program` — statements and programs;
* `LoxLang.Lenient.Expression.ahead`, `LoxLang.Lenient.Declarations.ahead` — how phrases start;
* `LoxLang.Grammar.Program.lenient` — **a program of the strict grammar has no errors**.
-/

import LoxLang.Proofs.Syntax.Grammar

set_option relaxedAutoImplicit false
set_option autoImplicit false

namespace LoxLang.Lenient

open Grammar (forTree)

/-! ### Expressions -/

/-- Where an expression may stand: as an operand of the levels above the given ones, for example. -/
inductive Layer where
  | assignment
  | operand (levels : List Level)
  | unary
  | call
  | primary

/-- The error at a token with too many before it. -/
def excess (before : Nat) (token : Token) (cause : SyntaxCause) : List SyntaxError :=
  if maxArguments ≤ before then [⟨token, cause⟩] else []

mutual

/-- The tokens are an expression that stands for the given tree, with the given errors. -/
inductive Expression : Layer → List Token → Expr → List SyntaxError → Prop
  | assign {ts us : List Token} {name equals : Token} {value : Expr} {es fs : List SyntaxError}
      (ht : Expression (.operand Level.all) ts (.lookup name) es) (he : equals.kind = .equal)
      (hv : Expression .assignment us value fs) :
      Expression .assignment (ts ++ equals :: us) (.assign name value) (es ++ fs)
  | invalidAssign {ts us : List Token} {equals : Token} {target value : Expr}
      {es fs : List SyntaxError} (ht : Expression (.operand Level.all) ts target es)
      (hn : ∀ name, target ≠ .lookup name) (he : equals.kind = .equal)
      (hv : Expression .assignment us value fs) :
      Expression .assignment (ts ++ equals :: us) value (es ++ (fs ++ [⟨equals, .invalidTarget⟩]))
  | ofOperand {ts : List Token} {e : Expr} {es : List SyntaxError}
      (h : Expression (.operand Level.all) ts e es) : Expression .assignment ts e es
  | operation {level : Level} {tighter : List Level} {ts us : List Token} {op : Token} {x y : Expr}
      {es fs : List SyntaxError} (hx : Expression (.operand (level :: tighter)) ts x es)
      (ho : level.operators.contains op.kind = true) (hy : Expression (.operand tighter) us y fs) :
      Expression (.operand (level :: tighter)) (ts ++ op :: us) (level.node x op y) (es ++ fs)
  | ofTighter {level : Level} {tighter : List Level} {ts : List Token} {e : Expr}
      {es : List SyntaxError} (h : Expression (.operand tighter) ts e es) :
      Expression (.operand (level :: tighter)) ts e es
  | ofUnary {ts : List Token} {e : Expr} {es : List SyntaxError} (h : Expression .unary ts e es) :
      Expression (.operand []) ts e es
  | unary {ts : List Token} {op : Token} {x : Expr} {es : List SyntaxError}
      (ho : unaryOperators.contains op.kind = true) (hx : Expression .unary ts x es) :
      Expression .unary (op :: ts) (.unary op x) es
  | ofCall {ts : List Token} {e : Expr} {es : List SyntaxError} (h : Expression .call ts e es) :
      Expression .unary ts e es
  | call {ts us : List Token} {opening closing : Token} {callee : Expr} {args : List Expr}
      {es fs : List SyntaxError} (hc : Expression .call ts callee es)
      (ho : opening.kind = .leftParen) (ha : ArgumentList us args fs)
      (he : closing.kind = .rightParen) :
      Expression .call (ts ++ opening :: (us ++ [closing])) (.call callee closing args) (es ++ fs)
  | ofPrimary {ts : List Token} {e : Expr} {es : List SyntaxError}
      (h : Expression .primary ts e es) : Expression .call ts e es
  | true {t : Token} (h : t.kind = .trueWord) : Expression .primary [t] (.literal (.bool true)) []
  | false {t : Token} (h : t.kind = .falseWord) :
      Expression .primary [t] (.literal (.bool false)) []
  | nil {t : Token} (h : t.kind = .nilWord) : Expression .primary [t] (.literal .nil) []
  | literal {t : Token} {v : Literal} (h : t.kind = .number ∨ t.kind = .string)
      (hv : t.literal = some v) : Expression .primary [t] (.literal v) []
  | lookup {t : Token} (h : t.kind = .identifier) : Expression .primary [t] (.lookup t) []
  | grouping {ts : List Token} {opening closing : Token} {e : Expr} {es : List SyntaxError}
      (ho : opening.kind = .leftParen) (h : Expression .assignment ts e es)
      (he : closing.kind = .rightParen) :
      Expression .primary (opening :: (ts ++ [closing])) (.grouping e) es

/-- The arguments of a call, which may have none. -/
inductive ArgumentList : List Token → List Expr → List SyntaxError → Prop
  | none : ArgumentList [] [] []
  | some {ts : List Token} {args : List Expr} {es : List SyntaxError} (h : Arguments 0 ts args es) :
      ArgumentList ts args es

/-- At least one argument, after the given number of them. -/
inductive Arguments : Nat → List Token → List Expr → List SyntaxError → Prop
  | one {before : Nat} {ts : List Token} {first : Token} {e : Expr} {es : List SyntaxError}
      (hf : ts.head? = some first) (h : Expression .assignment ts e es) :
      Arguments before ts [e] (excess before first .tooManyArguments ++ es)
  | more {before : Nat} {ts us : List Token} {first comma : Token} {e : Expr} {args : List Expr}
      {es fs : List SyntaxError} (hf : ts.head? = some first) (h : Expression .assignment ts e es)
      (hc : comma.kind = .comma) (hs : Arguments (before + 1) us args fs) :
      Arguments before (ts ++ comma :: us) (e :: args)
        (excess before first .tooManyArguments ++ (es ++ fs))

end

/-! ### Simple phrases -/

/-- At least one parameter, after the given number of them. -/
inductive Parameters : Nat → List Token → List Token → List SyntaxError → Prop
  | one {before : Nat} {name : Token} (h : name.kind = .identifier) :
      Parameters before [name] [name] (excess before name .tooManyParameters)
  | more {before : Nat} {name comma : Token} {ts names : List Token} {es : List SyntaxError}
      (h : name.kind = .identifier) (hc : comma.kind = .comma)
      (hs : Parameters (before + 1) ts names es) :
      Parameters before (name :: comma :: ts) (name :: names)
        (excess before name .tooManyParameters ++ es)

/-- The parameters of a function, which may have none. -/
inductive ParameterList : List Token → List Token → List SyntaxError → Prop
  | none : ParameterList [] [] []
  | some {ts names : List Token} {es : List SyntaxError} (h : Parameters 0 ts names es) :
      ParameterList ts names es

/-- An expression, or nothing. -/
inductive Optional : List Token → Option Expr → List SyntaxError → Prop
  | none : Optional [] none []
  | some {ts : List Token} {e : Expr} {es : List SyntaxError}
      (h : Expression .assignment ts e es) : Optional ts (some e) es

/-- A variable declaration. -/
inductive Variable : List Token → Stmt → List SyntaxError → Prop
  | bare {var name semicolon : Token} (hv : var.kind = .varWord) (hn : name.kind = .identifier)
      (hs : semicolon.kind = .semicolon) : Variable [var, name, semicolon] (.declare name none) []
  | initialized {var name equals semicolon : Token} {ts : List Token} {e : Expr}
      {es : List SyntaxError} (hv : var.kind = .varWord) (hn : name.kind = .identifier)
      (he : equals.kind = .equal) (h : Expression .assignment ts e es)
      (hs : semicolon.kind = .semicolon) :
      Variable (var :: name :: equals :: (ts ++ [semicolon])) (.declare name (some e)) es

/-- The first clause of a `for` statement. -/
inductive Initializer : List Token → Option Stmt → List SyntaxError → Prop
  | none {semicolon : Token} (hs : semicolon.kind = .semicolon) : Initializer [semicolon] none []
  | variable {ts : List Token} {s : Stmt} {es : List SyntaxError} (h : Variable ts s es) :
      Initializer ts (some s) es
  | expression {ts : List Token} {semicolon : Token} {e : Expr} {es : List SyntaxError}
      (h : Expression .assignment ts e es) (hs : semicolon.kind = .semicolon) :
      Initializer (ts ++ [semicolon]) (some (.expression e)) es

/-! ### Statements and declarations -/

/-- The error at a return outside function bodies. -/
def misplaced (inside : Bool) (word : Token) : List SyntaxError :=
  if inside then [] else [⟨word, .topLevelReturn⟩]

mutual

/-- The tokens are a statement.  The indices in front are those of `LoxLang.Grammar.Statement`. -/
inductive Statement : Bool → Bool → List Token → Stmt → List SyntaxError → Prop
  | expression {inside : Bool} {ts : List Token} {semicolon : Token} {e : Expr}
      {es : List SyntaxError} (h : Expression .assignment ts e es)
      (hs : semicolon.kind = .semicolon) :
      Statement inside false (ts ++ [semicolon]) (.expression e) es
  | print {inside : Bool} {ts : List Token} {word semicolon : Token} {e : Expr}
      {es : List SyntaxError} (hw : word.kind = .printWord) (h : Expression .assignment ts e es)
      (hs : semicolon.kind = .semicolon) :
      Statement inside false (word :: (ts ++ [semicolon])) (.print e) es
  | giveBack {inside : Bool} {ts : List Token} {word semicolon : Token} {value : Option Expr}
      {es : List SyntaxError} (hw : word.kind = .returnWord) (h : Optional ts value es)
      (hs : semicolon.kind = .semicolon) :
      Statement inside false (word :: (ts ++ [semicolon])) (.giveBack word value)
        (misplaced inside word ++ es)
  | block {inside : Bool} {ts : List Token} {opening closing : Token} {body : List Stmt}
      {es : List SyntaxError} (ho : opening.kind = .leftBrace) (h : Declarations inside ts body es)
      (he : closing.kind = .rightBrace) :
      Statement inside false (opening :: (ts ++ [closing])) (.block body) es
  | branch {inside dangling : Bool} {ts us : List Token} {word opening closing : Token}
      {condition : Expr} {s : Stmt} {es fs : List SyntaxError}
      (hw : word.kind = .ifWord) (ho : opening.kind = .leftParen)
      (hc : Expression .assignment ts condition es) (he : closing.kind = .rightParen)
      (h : Statement inside dangling us s fs) :
      Statement inside true (word :: opening :: (ts ++ closing :: us)) (.branch condition s none)
        (es ++ fs)
  | branchElse {inside dangling : Bool} {ts us vs : List Token}
      {word opening closing other : Token} {condition : Expr} {s s' : Stmt}
      {es fs gs : List SyntaxError} (hw : word.kind = .ifWord) (ho : opening.kind = .leftParen)
      (hc : Expression .assignment ts condition es) (he : closing.kind = .rightParen)
      (h : Statement inside false us s fs) (hl : other.kind = .elseWord)
      (h' : Statement inside dangling vs s' gs) :
      Statement inside dangling (word :: opening :: (ts ++ closing :: (us ++ other :: vs)))
        (.branch condition s (some s')) (es ++ (fs ++ gs))
  | loop {inside dangling : Bool} {ts us : List Token} {word opening closing : Token}
      {condition : Expr} {s : Stmt} {es fs : List SyntaxError}
      (hw : word.kind = .whileWord) (ho : opening.kind = .leftParen)
      (hc : Expression .assignment ts condition es) (he : closing.kind = .rightParen)
      (h : Statement inside dangling us s fs) :
      Statement inside dangling (word :: opening :: (ts ++ closing :: us)) (.loop condition s)
        (es ++ fs)
  | forLoop {inside dangling : Bool} {ts us vs ws : List Token}
      {word opening semicolon closing : Token} {first : Option Stmt}
      {condition increment : Option Expr} {s : Stmt} {es fs gs ks : List SyntaxError}
      (hw : word.kind = .forWord) (ho : opening.kind = .leftParen)
      (hi : Initializer ts first es) (hc : Optional us condition fs)
      (hs : semicolon.kind = .semicolon) (hn : Optional vs increment gs)
      (he : closing.kind = .rightParen) (h : Statement inside dangling ws s ks) :
      Statement inside dangling
        (word :: opening :: (ts ++ (us ++ semicolon :: (vs ++ closing :: ws))))
        (forTree first condition increment s) (es ++ (fs ++ (gs ++ ks)))

/-- The tokens are a declaration. -/
inductive Declaration : Bool → List Token → Stmt → List SyntaxError → Prop
  | function {inside : Bool} {ts us names : List Token}
      {word name opening closing brace closingBrace : Token} {body : List Stmt}
      {es fs : List SyntaxError} (hw : word.kind = .funWord) (hn : name.kind = .identifier)
      (ho : opening.kind = .leftParen) (hp : ParameterList ts names es)
      (he : closing.kind = .rightParen) (hb : brace.kind = .leftBrace)
      (h : Declarations true us body fs) (hc : closingBrace.kind = .rightBrace) :
      Declaration inside
        (word :: name :: opening :: (ts ++ closing :: brace :: (us ++ [closingBrace])))
        (.function name names body) (es ++ fs)
  | variable {inside : Bool} {ts : List Token} {s : Stmt} {es : List SyntaxError}
      (h : Variable ts s es) : Declaration inside ts s es
  | statement {inside dangling : Bool} {ts : List Token} {s : Stmt} {es : List SyntaxError}
      (h : Statement inside dangling ts s es) : Declaration inside ts s es

/-- The tokens are declarations in a row. -/
inductive Declarations : Bool → List Token → List Stmt → List SyntaxError → Prop
  | nil {inside : Bool} : Declarations inside [] [] []
  | cons {inside : Bool} {ts us : List Token} {s : Stmt} {ss : List Stmt} {es fs : List SyntaxError}
      (h : Declaration inside ts s es) (hs : Declarations inside us ss fs) :
      Declarations inside (ts ++ us) (s :: ss) (es ++ fs)

end

/-- The tokens are a program. -/
inductive Program : List Token → List Stmt → List SyntaxError → Prop
  | intro {ts : List Token} {ending : Token} {ss : List Stmt} {es : List SyntaxError}
      (h : Declarations false ts ss es) (he : ending.kind = .endOfSource) :
      Program (ts ++ [ending]) ss es

/-! ### How phrases start -/

/-- There is a token ahead, of a kind that passes the test. -/
def Ahead (ts : List Token) (test : TokenKind → Prop) : Prop :=
  ∃ token us, ts = token :: us ∧ test token.kind

theorem Ahead.append {ts us : List Token} {test : TokenKind → Prop} (h : Ahead ts test) :
    Ahead (ts ++ us) test := by
  obtain ⟨token, vs, rfl, ht⟩ := h
  exact ⟨token, vs ++ us, rfl, ht⟩

theorem Ahead.mono {ts : List Token} {test test' : TokenKind → Prop} (h : Ahead ts test)
    (ht : ∀ kind, test kind → test' kind) : Ahead ts test' := by
  obtain ⟨token, us, rfl, hk⟩ := h
  exact ⟨token, us, rfl, ht _ hk⟩

theorem ahead_cons {token : Token} {ts : List Token} {test : TokenKind → Prop}
    (h : test token.kind) : Ahead (token :: ts) test :=
  ⟨token, ts, rfl, h⟩

/-- The kinds of token that an expression without an operator in front starts with. -/
def primaryStarters : List TokenKind :=
  [.trueWord, .falseWord, .nilWord, .number, .string, .identifier, .leftParen]

/-- The kinds of token that an expression starts with. -/
def starters : Layer → List TokenKind
  | .call => primaryStarters
  | .primary => primaryStarters
  | _ => unaryOperators ++ primaryStarters

theorem Expression.ahead : ∀ {layer : Layer} {ts : List Token} {e : Expr} {es : List SyntaxError},
    Expression layer ts e es → Ahead ts (· ∈ starters layer)
  | _, _, _, _, .assign ht _ _ => ht.ahead.append
  | _, _, _, _, .invalidAssign ht _ _ _ => ht.ahead.append
  | _, _, _, _, .ofOperand h => h.ahead
  | _, _, _, _, .operation hx _ _ => hx.ahead.append
  | _, _, _, _, .ofTighter h => h.ahead
  | _, _, _, _, .ofUnary h => h.ahead
  | _, _, _, _, .unary ho _ =>
      ahead_cons (List.mem_append_left _ (by simpa using ho))
  | _, _, _, _, .ofCall h => h.ahead.mono fun _ hk => List.mem_append_right _ hk
  | _, _, _, _, .call hc _ _ _ => hc.ahead.append
  | _, _, _, _, .ofPrimary h => h.ahead
  | _, _, _, _, .true h => ahead_cons (by simp [h, starters, primaryStarters])
  | _, _, _, _, .false h => ahead_cons (by simp [h, starters, primaryStarters])
  | _, _, _, _, .nil h => ahead_cons (by simp [h, starters, primaryStarters])
  | _, _, _, _, .literal h _ => ahead_cons (by
      rcases h with h | h <;> simp [h, starters, primaryStarters])
  | _, _, _, _, .lookup h => ahead_cons (by simp [h, starters, primaryStarters])
  | _, _, _, _, .grouping ho _ _ => ahead_cons (by simp [ho, starters, primaryStarters])

theorem Arguments.ahead {before : Nat} {ts : List Token} {args : List Expr} {es : List SyntaxError}
    (h : Arguments before ts args es) : Ahead ts (· ∈ starters .assignment) := by
  cases h with
  | one _ h => exact h.ahead
  | more _ h _ _ => exact h.ahead.append

/-- The kinds of token that a statement starts with. -/
def statementStarters : List TokenKind :=
  [.printWord, .returnWord, .leftBrace, .ifWord, .whileWord, .forWord] ++ starters .assignment

theorem Statement.ahead {inside dangling : Bool} {ts : List Token} {s : Stmt}
    {es : List SyntaxError} (h : Statement inside dangling ts s es) :
    Ahead ts (· ∈ statementStarters) := by
  cases h with
  | expression h _ => exact h.ahead.append.mono fun _ hk => List.mem_append_right _ hk
  | print hw _ _ => exact ahead_cons (by simp [hw, statementStarters])
  | giveBack hw _ _ => exact ahead_cons (by simp [hw, statementStarters])
  | block ho _ _ => exact ahead_cons (by simp [ho, statementStarters])
  | branch hw _ _ _ _ => exact ahead_cons (by simp [hw, statementStarters])
  | branchElse hw _ _ _ _ _ _ => exact ahead_cons (by simp [hw, statementStarters])
  | loop hw _ _ _ _ => exact ahead_cons (by simp [hw, statementStarters])
  | forLoop hw _ _ _ _ _ _ _ => exact ahead_cons (by simp [hw, statementStarters])

theorem Variable.ahead {ts : List Token} {s : Stmt} {es : List SyntaxError} (h : Variable ts s es) :
    Ahead ts (· = .varWord) := by
  cases h with
  | bare hv _ _ => exact ahead_cons hv
  | initialized hv _ _ _ _ => exact ahead_cons hv

/-- A declaration starts with a token that can stand behind any declaration or statement and ends no
block. -/
theorem Declaration.ahead {inside : Bool} {ts : List Token} {s : Stmt} {es : List SyntaxError}
    (h : Declaration inside ts s es) :
    Ahead ts fun kind => kind ≠ .elseWord ∧ kind ≠ .rightBrace ∧ kind ≠ .endOfSource := by
  rcases h with hw | h | h
  · exact ahead_cons (by simp [hw])
  · exact h.ahead.mono fun kind hk => by simp [hk]
  · refine h.ahead.mono fun kind hk => ?_
    refine ⟨?_, ?_, ?_⟩ <;> rintro rfl <;> revert hk <;> decide

/-- What follows declarations in a row follows each of them, unless another comes between. -/
theorem Declarations.ahead {inside : Bool} {ts us : List Token} {ss : List Stmt}
    {es : List SyntaxError} (h : Declarations inside ts ss es) (hu : Ahead us (· ≠ .elseWord)) :
    Ahead (ts ++ us) (· ≠ .elseWord) := by
  cases h with
  | nil => exact hu
  | cons h _ => exact (h.ahead.append.append).mono fun _ hk => hk.1

end LoxLang.Lenient

/-! ### Programs without errors -/

namespace LoxLang.Grammar

/-- The place of the expressions of a precedence. -/
def Tier.layer : Tier → Lenient.Layer
  | .assignment => .assignment
  | .disjunction => .operand Level.all
  | .conjunction => .operand (Level.all.drop 1)
  | .equality => .operand (Level.all.drop 2)
  | .comparison => .operand (Level.all.drop 3)
  | .term => .operand (Level.all.drop 4)
  | .factor => .operand (Level.all.drop 5)
  | .unary => .unary
  | .call => .call
  | .primary => .primary

/-- A name is an operand of all levels. -/
theorem lenient_lookup {name : Token} (h : name.kind = .identifier) :
    Lenient.Expression (.operand Level.all) [name] (.lookup name) [] :=
  .ofTighter (.ofTighter (.ofTighter (.ofTighter (.ofTighter (.ofTighter (.ofUnary (.ofCall
    (.ofPrimary (.lookup h)))))))))

theorem excess_of_lt {before : Nat} {token : Token} {cause : SyntaxCause}
    (h : before < maxArguments) : Lenient.excess before token cause = [] :=
  if_neg (by omega)

mutual

theorem Expression.lenient : ∀ {tier : Tier} {ts : List Token} {e : Expr},
    Expression tier ts e → Lenient.Expression tier.layer ts e []
  | _, _, _, .assign hn he hv => .assign (lenient_lookup hn) he hv.lenient
  | _, _, _, .ofDisjunction h => .ofOperand h.lenient
  | _, _, _, .or hx ho hy => .operation hx.lenient (by simp [ho]) hy.lenient
  | _, _, _, .ofConjunction h => .ofTighter h.lenient
  | _, _, _, .and hx ho hy => .operation hx.lenient (by simp [ho]) hy.lenient
  | _, _, _, .ofEquality h => .ofTighter h.lenient
  | _, _, _, .equality hx ho hy =>
      .operation hx.lenient (by rcases ho with ho | ho <;> simp [ho]) hy.lenient
  | _, _, _, .ofComparison h => .ofTighter h.lenient
  | _, _, _, .comparison hx ho hy =>
      .operation hx.lenient (by rcases ho with ho | ho | ho | ho <;> simp [ho]) hy.lenient
  | _, _, _, .ofTerm h => .ofTighter h.lenient
  | _, _, _, .term hx ho hy =>
      .operation hx.lenient (by rcases ho with ho | ho <;> simp [ho]) hy.lenient
  | _, _, _, .ofFactor h => .ofTighter h.lenient
  | _, _, _, .factor hx ho hy =>
      .operation hx.lenient (by rcases ho with ho | ho <;> simp [ho]) (.ofUnary hy.lenient)
  | _, _, _, .ofUnary h => .ofTighter (.ofUnary h.lenient)
  | _, _, _, .unary ho hx =>
      .unary (by rcases ho with ho | ho <;> simp [ho, unaryOperators]) hx.lenient
  | _, _, _, .ofCall h => .ofCall h.lenient
  | _, _, _, .callEmpty hc ho he => .call hc.lenient ho .none he
  | _, _, _, .call hc ho ha hl he => .call hc.lenient ho (.some (ha.lenient (by omega))) he
  | _, _, _, .ofPrimary h => .ofPrimary h.lenient
  | _, _, _, .true h => .true h
  | _, _, _, .false h => .false h
  | _, _, _, .nil h => .nil h
  | _, _, _, .literal h hv => .literal h hv
  | _, _, _, .lookup h => .lookup h
  | _, _, _, .grouping ho h he => .grouping ho h.lenient he

theorem Arguments.lenient : ∀ {ts : List Token} {args : List Expr}, Arguments ts args →
    ∀ {before : Nat}, before + args.length ≤ maxArguments → Lenient.Arguments before ts args []
  | _, _, .one h, before, hl => by
      have he := h.lenient
      obtain ⟨first, us, hu, -⟩ := he.ahead
      have hone := @Lenient.Arguments.one before _ first _ _ (by rw [hu, List.head?_cons]) he
      rwa [excess_of_lt hl] at hone
  | _, _, .more h hc hs, before, hl => by
      rw [List.length_cons] at hl
      have he := h.lenient
      have hes := @Arguments.lenient _ _ hs (before + 1) (by omega)
      obtain ⟨first, us, hu, -⟩ := he.ahead
      have hmore := Lenient.Arguments.more (by rw [hu, List.head?_cons]) he hc hes
      rwa [excess_of_lt (by omega)] at hmore

end

theorem Parameters.lenient {ts names : List Token} (h : Parameters ts names) :
    ∀ {before : Nat}, before + names.length ≤ maxArguments →
      Lenient.Parameters before ts names [] := by
  induction h with
  | one hn =>
      intro before hl
      have hone := @Lenient.Parameters.one before _ hn
      rwa [excess_of_lt hl] at hone
  | more hn hc _ ih =>
      intro before hl
      rw [List.length_cons] at hl
      have hmore := @Lenient.Parameters.more before _ _ _ _ _ hn hc (ih (by omega))
      rwa [excess_of_lt (by omega)] at hmore

theorem ParameterList.lenient {ts names : List Token} (h : ParameterList ts names) :
    Lenient.ParameterList ts names [] := by
  cases h with
  | none => exact .none
  | some h hl => exact .some (h.lenient (by omega))

theorem Optional.lenient {ts : List Token} {e : Option Expr} (h : Optional ts e) :
    Lenient.Optional ts e [] := by
  cases h with
  | none => exact .none
  | some h => exact .some h.lenient

theorem Variable.lenient {ts : List Token} {s : Stmt} (h : Variable ts s) :
    Lenient.Variable ts s [] := by
  cases h with
  | bare hv hn hs => exact .bare hv hn hs
  | initialized hv hn he h hs => exact .initialized hv hn he h.lenient hs

theorem Initializer.lenient {ts : List Token} {first : Option Stmt} (h : Initializer ts first) :
    Lenient.Initializer ts first [] := by
  rcases h with hs | h | ⟨h, hs⟩
  · exact .none hs
  · exact .variable h.lenient
  · exact .expression h.lenient hs

mutual

theorem Statement.lenient : ∀ {inside dangling : Bool} {ts : List Token} {s : Stmt},
    Statement inside dangling ts s → Lenient.Statement inside dangling ts s []
  | _, _, _, _, .expression h hs => .expression h.lenient hs
  | _, _, _, _, .print hw h hs => .print hw h.lenient hs
  | _, _, _, _, .giveBack hw h hs => .giveBack hw h.lenient hs
  | _, _, _, _, .block ho h he => .block ho h.lenient he
  | _, _, _, _, .branch hw ho hc he h => .branch hw ho hc.lenient he h.lenient
  | _, _, _, _, .branchElse hw ho hc he h hl h' =>
      .branchElse hw ho hc.lenient he h.lenient hl h'.lenient
  | _, _, _, _, .loop hw ho hc he h => .loop hw ho hc.lenient he h.lenient
  | _, _, _, _, .forLoop hw ho hi hc hs hn he h =>
      .forLoop hw ho hi.lenient hc.lenient hs hn.lenient he h.lenient

theorem Declaration.lenient : ∀ {inside : Bool} {ts : List Token} {s : Stmt},
    Declaration inside ts s → Lenient.Declaration inside ts s []
  | _, _, _, .function hw hn ho hp he hb h hc =>
      .function hw hn ho hp.lenient he hb h.lenient hc
  | _, _, _, .variable h => .variable h.lenient
  | _, _, _, .statement h => .statement h.lenient

theorem Declarations.lenient : ∀ {inside : Bool} {ts : List Token} {ss : List Stmt},
    Declarations inside ts ss → Lenient.Declarations inside ts ss []
  | _, _, _, .nil => .nil
  | _, _, _, .cons h hs => .cons h.lenient hs.lenient

end

/-- **A program has no errors.** -/
theorem Program.lenient {ts : List Token} {ss : List Stmt} (h : Program ts ss) :
    Lenient.Program ts ss [] := by
  cases h with
  | intro h he => exact .intro h.lenient he

end LoxLang.Grammar
