/-
**What can stand in a program that is read.**

A token of a text is a mark, a word, a numeral or a string.  Marks and words are told by their lexeme, a
numeral denotes a number that is not negative, and a string has no quote in it.  So of the trees that the
grammar derives from such tokens, every name and every operator is told by its lexeme, and every literal
is one that can be written down.

* `LoxLang.Token.Scanned`, `LoxLang.scanned_of_mem_tokens` — the tokens of a text;
* `LoxLang.Token.ofText`, `LoxLang.Token.Scanned.plain` — **marks and words are told by their lexeme**;
* `LoxLang.Expr.Written`, `LoxLang.Stmt.Written` — trees that can be written down;
* `LoxLang.written_of_read` — **programs that are read without a report can be**.
-/

import LoxLang.Proofs.Number.ReadBack
import LoxLang.Proofs.Syntax.Relexing

set_option relaxedAutoImplicit false
set_option autoImplicit false

namespace LoxLang

/-! ### Tokens told by their lexeme -/

/-- The kind of a mark or a word. -/
def TokenKind.ofText (text : String) : TokenKind :=
  (marks.lookup text.toList).getD (.ofWord text)

/-- A mark or a word, on no line. -/
def Token.ofText (text : String) : Token := ⟨.ofText text, text, none, 0⟩

theorem ofText_of_mem_marks {slice : List Char} {kind : TokenKind} (h : (slice, kind) ∈ marks) :
    TokenKind.ofText (String.ofList slice) = kind := by
  have hmarks : ∀ entry ∈ marks, marks.lookup entry.1 = some entry.2 := by decide
  have hlookup : marks.lookup slice = some kind := hmarks (slice, kind) h
  unfold TokenKind.ofText
  rw [String.toList_ofList, hlookup]
  rfl

/-- No mark begins with a letter. -/
theorem lookup_marks_of_isLetter {first : Char} (hf : isLetter first = true) (others : List Char) :
    marks.lookup (first :: others) = none := by
  have hmarks : ∀ entry ∈ marks, entry.1.head?.any isLetter = false := by decide
  refine List.lookup_eq_none_iff.2 fun entry he => ?_
  refine bne_iff_ne.2 fun heq => ?_
  have hnot := hmarks entry he
  rw [← heq, List.head?_cons, Option.any_some, hf] at hnot
  cases hnot

theorem ofText_of_isLetter {first : Char} (hf : isLetter first = true) (others : List Char) :
    TokenKind.ofText (String.ofList (first :: others)) =
      .ofWord (String.ofList (first :: others)) := by
  unfold TokenKind.ofText
  rw [String.toList_ofList, lookup_marks_of_isLetter hf]
  rfl

/-! ### The tokens of a text -/

/-- A mark, a word, a numeral, a string, or the end. -/
inductive Token.Scanned : Token → Prop where
  | mark {slice : List Char} {kind : TokenKind} {line : Int} (h : (slice, kind) ∈ marks) :
      Scanned ⟨kind, String.ofList slice, none, line⟩
  | word {first : Char} {others : List Char} {line : Int} (hf : isLetter first = true)
      (ho : ∀ c ∈ others, isWordChar c = true) :
      Scanned ⟨.ofWord (String.ofList (first :: others)), String.ofList (first :: others), none, line⟩
  | number {lexeme : String} {n : Number} {line : Int} (h : n.Written) :
      Scanned ⟨.number, lexeme, some (.number n), line⟩
  | string {lexeme text : String} {line : Int} (h : '"' ∉ text.toList) :
      Scanned ⟨.string, lexeme, some (.text text), line⟩
  | ending (line : Int) : Scanned (Token.endOfSource line)

theorem Numeral.value_lt {digits : List Char} (h : ∀ c ∈ digits, isDigit c = true) :
    value digits < 10 ^ digits.length := by
  induction digits with
  | nil => exact Nat.one_pos
  | cons c digits ih =>
      have hothers := ih fun other ho => h other (List.mem_cons_of_mem _ ho)
      have hfirst := digitValue_lt (h c List.mem_cons_self)
      rw [value_cons, List.length_cons, Nat.pow_succ]
      have hmul := Nat.mul_le_mul_right (10 ^ digits.length) (Nat.le_of_lt_succ hfirst)
      omega

/-- A numeral denotes a number that is not negative. -/
theorem written_round (num den : Nat) : (Number.double (Binary64.round false num den)).Written := by
  unfold Binary64.round
  cases Magnitude.ofRatio? num den with
  | some m => exact .finite m
  | none => exact .infinite

theorem written_ofDecimal (digits : Nat) (exponent : Int) :
    (Number.double (Binary64.ofDecimal false digits exponent)).Written := written_round _ _

theorem Numeral.lt_limitBound {n length : Nat} (h : n < 10 ^ length) (hl : length ≤ digitLimit) :
    n < limitBound := by
  unfold limitBound
  generalize digitLimit = limit at hl
  exact Nat.lt_of_lt_of_le h (Nat.pow_le_pow_right (by decide) hl)

theorem Token.FromClass.scanned {token : Token} (h : token.FromClass) : token.Scanned := by
  obtain ⟨lexeme, first, others, hc, -, -, he⟩ := h
  obtain ⟨kind, text, literal, line⟩ := token
  generalize hs : first :: others = slice at hc he
  -- Comments and blanks yield no token.
  cases hc with
  | mark hm =>
      cases he
      exact .mark hm
  | hashed _ => cases he
  | slashed _ => cases he
  | blank _ => cases he
  | lineEnd => cases he
  | quoted hq =>
      cases he
      exact .string (by rwa [String.toList_ofList])
  | whole hne hd =>
      simp only [Lexeme.emission] at he
      split at he
      · next hlength =>
          cases he
          exact .number (.int (Numeral.lt_limitBound (Numeral.value_lt hd) hlength))
      · cases he
  | fraction hb ha hbefore hafter =>
      cases he
      exact .number (written_ofDecimal _ _)
  | word hf ho =>
      cases he
      cases hs
      exact .word hf ho

/-- **The tokens of a text.** -/
theorem scanned_of_mem_tokens {source : String} {token : Token} (h : token ∈ (scan source).tokens) :
    token.Scanned := by
  rw [scan_tokens_eq] at h
  rcases List.mem_append.1 h with h | h
  · exact (fromClass_of_mem_scanSteps h).scanned
  · rw [List.mem_singleton.1 h]
    exact .ending _

namespace Token

/-- The token is the mark or the word of its lexeme, but for its line. -/
def Plain (token : Token) : Prop := token.relabel (fun _ => 0) = Token.ofText token.lexeme

variable {token : Token}

/-- **Marks and words are told by their lexeme.** -/
theorem Scanned.plain (h : token.Scanned) (hk : token.kind.IsBare) : token.Plain := by
  cases h with
  | mark h =>
      unfold Plain Token.ofText
      rw [ofText_of_mem_marks h]
      rfl
  | word hf ho =>
      unfold Plain Token.ofText
      rw [ofText_of_isLetter hf]
      rfl
  | number _ => exact absurd rfl hk.2.2
  | string _ => exact absurd rfl hk.2.1
  | ending _ => exact absurd rfl hk.1

theorem Plain.kind_eq (h : token.Plain) : TokenKind.ofText token.lexeme = token.kind :=
  (congrArg Token.kind h).symm

/-- A mark and a reserved word have the lexeme of their kind. -/
theorem Plain.mem_tables (h : token.Plain) (hi : token.kind ≠ .identifier) :
    (token.lexeme.toList, token.kind) ∈ marks ∨
      (token.lexeme, token.kind) ∈ TokenKind.reserved := by
  have hmem : ∀ {α : Type} [BEq α] [LawfulBEq α] {table : List (α × TokenKind)} {entry : α}
      {kind : TokenKind}, table.lookup entry = some kind → (entry, kind) ∈ table := by
    intro α _ _ table entry kind hl
    obtain ⟨before, after, rfl, -⟩ := List.lookup_eq_some_iff.1 hl
    exact List.mem_append_right _ List.mem_cons_self
  rw [← h.kind_eq] at hi ⊢
  -- The kind is looked up among the marks first, and a text in neither table is a name.
  unfold TokenKind.ofText TokenKind.ofWord at hi ⊢
  cases hm : marks.lookup token.lexeme.toList with
  | some kind => exact .inl (hmem hm)
  | none =>
      rw [hm] at hi
      cases hr : TokenKind.reserved.lookup token.lexeme with
      | some kind => exact .inr (hmem hr)
      | none =>
          rw [hr] at hi
          exact absurd rfl hi

/-- The tables have one entry of the kind, which is the text. -/
structure Spells (kind : TokenKind) (text : String) : Prop where
  bare : kind.IsBare
  ne_identifier : kind ≠ .identifier
  marks : ∀ entry ∈ marks, entry.2 = kind → entry.1 = text.toList
  words : ∀ entry ∈ TokenKind.reserved, entry.2 = kind → entry.1 = text

theorem spells_closing : Spells .rightParen ")" :=
  ⟨⟨by decide, by decide, by decide⟩, by decide, by decide, by decide⟩

theorem spells_return : Spells .returnWord "return" :=
  ⟨⟨by decide, by decide, by decide⟩, by decide, by decide, by decide⟩

/-- **A kind with one entry tells the token**, but for its line. -/
theorem Scanned.eq_ofText (h : token.Scanned) {text : String} (ht : Spells token.kind text) :
    token.relabel (fun _ => 0) = Token.ofText text := by
  have hplain : token.Plain := h.plain ht.bare
  have hlexeme : token.lexeme = text := by
    rcases hplain.mem_tables ht.ne_identifier with hmark | hword
    · exact String.toList_inj.1 (ht.marks _ hmark rfl)
    · exact ht.words _ hword rfl
  rw [← hlexeme]
  exact hplain

/-- A name: a letter, and letters and digits behind it, that are no reserved word. -/
structure IsName (token : Token) : Prop where
  plain : token.Plain
  kind : token.kind = .identifier
  word : ∃ first others, token.lexeme.toList = first :: others ∧ isLetter first = true ∧
    ∀ c ∈ others, isWordChar c = true

theorem Scanned.isName (h : token.Scanned) (hk : token.kind = .identifier) : token.IsName := by
  refine ⟨h.plain (by rw [hk]; exact ⟨by decide, by decide, by decide⟩), hk, ?_⟩
  cases h with
  | mark h =>
      have hmarks : ∀ entry ∈ marks, entry.2 ≠ .identifier := by decide
      exact absurd hk (hmarks _ h)
  | word hf ho => exact ⟨_, _, String.toList_ofList, hf, ho⟩
  | number _ => cases hk
  | string _ => cases hk
  | ending _ => cases hk

/-- An operator of one of the kinds. -/
structure IsOperator (kinds : List TokenKind) (token : Token) : Prop where
  plain : token.Plain
  kind : token.kind ∈ kinds

end Token

/-! ### Trees -/

/-- A literal that can be written down. -/
inductive Literal.Written : Literal → Prop where
  | nil : Written .nil
  | bool (b : Bool) : Written (.bool b)
  | number {n : Number} (h : n.Written) : Written (.number n)
  | text {text : String} (h : '"' ∉ text.toList) : Written (.text text)

/-- The kinds of logical operators. -/
def logicalKinds : List TokenKind := [.orWord, .andWord]

/-- The kinds of operators with two operands that are both evaluated. -/
def binaryKinds : List TokenKind :=
  [.bangEqual, .equalEqual, .greater, .greaterEqual, .less, .lessEqual, .minus, .plus, .slash, .star]

/-- The kinds of operators with one operand. -/
def unaryKinds : List TokenKind := [.bang, .minus]

mutual

/-- Names, operators and literals of the expression can be written down. -/
def Expr.Written : Expr → Prop
  | .assign name value => name.IsName ∧ value.Written
  | .binary left operator right => left.Written ∧ operator.IsOperator binaryKinds ∧ right.Written
  | .call callee paren arguments =>
      callee.Written ∧ paren.relabel (fun _ => 0) = Token.ofText ")" ∧ Expr.AllWritten arguments
  | .grouping inner => inner.Written
  | .literal value => value.Written
  | .logical left operator right => left.Written ∧ operator.IsOperator logicalKinds ∧ right.Written
  | .unary operator right => operator.IsOperator unaryKinds ∧ right.Written
  | .lookup name => name.IsName

/-- Names, operators and literals of the expressions can be written down. -/
def Expr.AllWritten : List Expr → Prop
  | [] => True
  | e :: es => e.Written ∧ Expr.AllWritten es

end

mutual

/-- Names, operators and literals in the statement can be written down. -/
def Stmt.Written : Stmt → Prop
  | .block body => Stmt.AllWritten body
  | .expression value => value.Written
  | .function name parameters body =>
      name.IsName ∧ (∀ parameter ∈ parameters, parameter.IsName) ∧ Stmt.AllWritten body
  | .branch condition thenBranch none => condition.Written ∧ thenBranch.Written
  | .branch condition thenBranch (some elseBranch) =>
      condition.Written ∧ thenBranch.Written ∧ elseBranch.Written
  | .print value => value.Written
  | .giveBack keyword value =>
      keyword.relabel (fun _ => 0) = Token.ofText "return" ∧ IfAny Expr.Written value
  | .declare name initializer => name.IsName ∧ IfAny Expr.Written initializer
  | .loop condition body => condition.Written ∧ body.Written

/-- Names, operators and literals in the statements can be written down. -/
def Stmt.AllWritten : List Stmt → Prop
  | [] => True
  | s :: ss => s.Written ∧ Stmt.AllWritten ss

end

/-! ### What the grammar derives -/

namespace Grammar

/-- All the tokens come from a text. -/
def AllScanned (ts : List Token) : Prop := ∀ token ∈ ts, token.Scanned

theorem AllScanned.append {ts us : List Token} (h : AllScanned (ts ++ us)) :
    AllScanned ts ∧ AllScanned us := List.forall_mem_append.1 h

theorem AllScanned.cons {token : Token} {ts : List Token} (h : AllScanned (token :: ts)) :
    token.Scanned ∧ AllScanned ts := List.forall_mem_cons.1 h

/-- An operator between its operands. -/
theorem AllScanned.between {ts us : List Token} {op : Token} (h : AllScanned (ts ++ op :: us)) :
    AllScanned ts ∧ op.Scanned ∧ AllScanned us :=
  ⟨h.append.1, h.append.2.cons.1, h.append.2.cons.2⟩

theorem isOperator {op : Token} {kinds : List TokenKind} (h : op.Scanned)
    (hbare : ∀ kind ∈ kinds, kind ≠ .endOfSource ∧ kind ≠ .string ∧ kind ≠ .number)
    (hk : op.kind ∈ kinds) : op.IsOperator kinds := ⟨h.plain (hbare _ hk), hk⟩

theorem binaryOperator {op : Token} (h : op.Scanned) (hk : op.kind ∈ binaryKinds) :
    op.IsOperator binaryKinds := isOperator h (by decide) hk

theorem logicalOperator {op : Token} (h : op.Scanned) (hk : op.kind ∈ logicalKinds) :
    op.IsOperator logicalKinds := isOperator h (by decide) hk

theorem unaryOperator {op : Token} (h : op.Scanned) (hk : op.kind ∈ unaryKinds) :
    op.IsOperator unaryKinds := isOperator h (by decide) hk

/-- A numeral and a string carry a literal that can be written down. -/
theorem written_literal {token : Token} {v : Literal} (h : token.Scanned)
    (hk : token.kind = .number ∨ token.kind = .string) (hv : token.literal = some v) :
    v.Written := by
  cases h with
  | number hn =>
      cases hv
      exact .number hn
  | string ht =>
      cases hv
      exact .text ht
  | _ => cases hv

mutual

/-- **An expression of tokens from a text can be written down.** -/
theorem Expression.written : ∀ {tier : Tier} {ts : List Token} {e : Expr}, Expression tier ts e →
    AllScanned ts → e.Written
  | _, _, _, .assign hn _ hv, hs => ⟨hs.cons.1.isName hn, hv.written hs.cons.2.cons.2⟩
  | _, _, _, .ofDisjunction h, hs => h.written hs
  | _, _, _, .or hx ho hy, hs =>
      ⟨hx.written hs.between.1, logicalOperator hs.between.2.1 (by rw [ho]; decide),
        hy.written hs.between.2.2⟩
  | _, _, _, .ofConjunction h, hs => h.written hs
  | _, _, _, .and hx ho hy, hs =>
      ⟨hx.written hs.between.1, logicalOperator hs.between.2.1 (by rw [ho]; decide),
        hy.written hs.between.2.2⟩
  | _, _, _, .ofEquality h, hs => h.written hs
  | _, _, _, .equality hx ho hy, hs =>
      ⟨hx.written hs.between.1,
        binaryOperator hs.between.2.1 (by rcases ho with ho | ho <;> rw [ho] <;> decide),
        hy.written hs.between.2.2⟩
  | _, _, _, .ofComparison h, hs => h.written hs
  | _, _, _, .comparison hx ho hy, hs =>
      ⟨hx.written hs.between.1,
        binaryOperator hs.between.2.1
          (by rcases ho with ho | ho | ho | ho <;> rw [ho] <;> decide),
        hy.written hs.between.2.2⟩
  | _, _, _, .ofTerm h, hs => h.written hs
  | _, _, _, .term hx ho hy, hs =>
      ⟨hx.written hs.between.1,
        binaryOperator hs.between.2.1 (by rcases ho with ho | ho <;> rw [ho] <;> decide),
        hy.written hs.between.2.2⟩
  | _, _, _, .ofFactor h, hs => h.written hs
  | _, _, _, .factor hx ho hy, hs =>
      ⟨hx.written hs.between.1,
        binaryOperator hs.between.2.1 (by rcases ho with ho | ho <;> rw [ho] <;> decide),
        hy.written hs.between.2.2⟩
  | _, _, _, .ofUnary h, hs => h.written hs
  | _, _, _, .unary ho hx, hs =>
      ⟨unaryOperator hs.cons.1 (by rcases ho with ho | ho <;> rw [ho] <;> decide),
        hx.written hs.cons.2⟩
  | _, _, _, .ofCall h, hs => h.written hs
  | _, _, _, .callEmpty hc _ he, hs =>
      ⟨hc.written hs.append.1, hs.between.2.2.cons.1.eq_ofText (he ▸ Token.spells_closing), trivial⟩
  | _, _, _, .call hc _ ha _ he, hs =>
      ⟨hc.written hs.between.1, hs.between.2.2.between.2.1.eq_ofText (he ▸ Token.spells_closing),
        ha.written hs.between.2.2.append.1⟩
  | _, _, _, .ofPrimary h, hs => h.written hs
  | _, _, _, .true _, _ => Literal.Written.bool true
  | _, _, _, .false _, _ => Literal.Written.bool false
  | _, _, _, .nil _, _ => Literal.Written.nil
  | _, _, _, .literal h hv, hs => written_literal hs.cons.1 h hv
  | _, _, _, .lookup h, hs => hs.cons.1.isName h
  | _, _, _, .grouping _ h _, hs => h.written hs.cons.2.append.1

theorem Arguments.written : ∀ {ts : List Token} {args : List Expr}, Arguments ts args →
    AllScanned ts → Expr.AllWritten args
  | _, _, .one h, hs => ⟨h.written hs, trivial⟩
  | _, _, .more h _ hmore, hs => ⟨h.written hs.between.1, hmore.written hs.between.2.2⟩

end

theorem Parameters.isName {ts names : List Token} (h : Parameters ts names) (hs : AllScanned ts) :
    ∀ name ∈ names, name.IsName := by
  induction h with
  | one hn => exact List.forall_mem_singleton.2 (hs.cons.1.isName hn)
  | more hn _ _ ih => exact List.forall_mem_cons.2 ⟨hs.cons.1.isName hn, ih hs.cons.2.cons.2⟩

theorem ParameterList.isName {ts names : List Token} (h : ParameterList ts names)
    (hs : AllScanned ts) : ∀ name ∈ names, name.IsName := by
  cases h with
  | none => exact List.forall_mem_nil _
  | some h _ => exact h.isName hs

theorem Optional.written {ts : List Token} {e : Option Expr} (h : Optional ts e)
    (hs : AllScanned ts) : IfAny Expr.Written e := by
  cases h with
  | none => exact ifAny_none
  | some h => exact ifAny_some (h.written hs)

theorem Variable.written {ts : List Token} {s : Stmt} (h : Variable ts s) (hs : AllScanned ts) :
    s.Written := by
  cases h with
  | bare _ hn _ => exact ⟨hs.cons.2.cons.1.isName hn, ifAny_none⟩
  | initialized _ hn _ h _ =>
      exact ⟨hs.cons.2.cons.1.isName hn,
        ifAny_some (h.written hs.cons.2.cons.2.cons.2.append.1)⟩

theorem Initializer.written {ts : List Token} {s : Stmt} (h : Initializer ts (some s))
    (hs : AllScanned ts) : s.Written := by
  rcases h with _ | h | ⟨h, -⟩
  · exact h.written hs
  · exact h.written hs.append.1

theorem written_forTree {first : Option Stmt} {condition increment : Option Expr} {body : Stmt}
    (hf : IfAny Stmt.Written first) (hc : IfAny Expr.Written condition)
    (hi : IfAny Expr.Written increment) (hb : body.Written) :
    (forTree first condition increment body).Written := by
  have hcondition : (orTrue condition).Written := by
    cases condition with
    | none => exact Literal.Written.bool true
    | some e => exact hc e rfl
  cases first with
  | none =>
      cases increment with
      | none => exact ⟨hcondition, hb⟩
      | some e => exact ⟨hcondition, hb, hi e rfl, trivial⟩
  | some s =>
      cases increment with
      | none => exact ⟨hf s rfl, ⟨hcondition, hb⟩, trivial⟩
      | some e => exact ⟨hf s rfl, ⟨hcondition, hb, hi e rfl, trivial⟩, trivial⟩

mutual

/-- **A statement of tokens from a text can be written down.** -/
theorem Statement.written : ∀ {inside dangling : Bool} {ts : List Token} {s : Stmt},
    Statement inside dangling ts s → AllScanned ts → s.Written
  | _, _, _, _, .expression h _, hs => h.written hs.append.1
  | _, _, _, _, .print _ h _, hs => h.written hs.cons.2.append.1
  | _, _, _, _, .giveBack hw h _, hs =>
      ⟨hs.cons.1.eq_ofText (hw ▸ Token.spells_return), h.written hs.cons.2.append.1⟩
  | _, _, _, _, .block _ h _, hs => h.written hs.cons.2.append.1
  | _, _, _, _, .branch _ _ hc _ h, hs =>
      ⟨hc.written hs.cons.2.cons.2.between.1, h.written hs.cons.2.cons.2.between.2.2⟩
  | _, _, _, _, .branchElse _ _ hc _ h _ h', hs =>
      ⟨hc.written hs.cons.2.cons.2.between.1,
        h.written hs.cons.2.cons.2.between.2.2.between.1,
        h'.written hs.cons.2.cons.2.between.2.2.between.2.2⟩
  | _, _, _, _, .loop _ _ hc _ h, hs =>
      ⟨hc.written hs.cons.2.cons.2.between.1, h.written hs.cons.2.cons.2.between.2.2⟩
  | _, _, _, _, .forLoop _ _ hfirst hc _ hn _ h, hs =>
      have hclauses := hs.cons.2.cons.2.append
      have hothers := hclauses.2.between
      written_forTree (fun _ hi => Initializer.written (hi ▸ hfirst) hclauses.1)
        (hc.written hothers.1) (hn.written hothers.2.2.between.1)
        (h.written hothers.2.2.between.2.2)

theorem Declaration.written : ∀ {inside : Bool} {ts : List Token} {s : Stmt},
    Declaration inside ts s → AllScanned ts → s.Written
  | _, _, _, .function _ hn _ hp _ _ h _, hs =>
      have hsignature := hs.cons.2.cons.2.cons.2.between
      ⟨hs.cons.2.cons.1.isName hn, hp.isName hsignature.1,
        h.written hsignature.2.2.cons.2.append.1⟩
  | _, _, _, .variable h, hs => h.written hs
  | _, _, _, .statement h, hs => h.written hs

/-- **Declarations of tokens from a text can be written down.** -/
theorem Declarations.written : ∀ {inside : Bool} {ts : List Token} {ss : List Stmt},
    Declarations inside ts ss → AllScanned ts → Stmt.AllWritten ss
  | _, _, _, .nil, _ => trivial
  | _, _, _, .cons h hmore, hs => ⟨h.written hs.append.1, hmore.written hs.append.2⟩

end

end Grammar

/-- **A program that is read without a report can be written down.** -/
theorem written_of_read {source : String} {program : List Stmt}
    (h : read source = ⟨[], .ok program⟩) : Stmt.AllWritten program := by
  obtain ⟨-, -, hp⟩ := read_eq_ok_iff.1 h
  have hscanned : Grammar.AllScanned (scan source).tokens := fun _ => scanned_of_mem_tokens
  generalize (scan source).tokens = tokens at hp hscanned
  obtain ⟨hd, -⟩ := hp
  exact hd.written hscanned.append.1

end LoxLang
