/-
**Programs that are printed alike.**

Each constructor of trees has a head of its own in print, but for the operators, which the number of their
operands and their kind tell apart.  Names begin with a letter and numerals with a digit.  So the trees
are read back from their forms, on no line.  There is one exception: an infinite literal is printed as the
name that it looks like.  So programs that are printed alike are the same up to their lines and the
spelling of infinite literals, and there are such programs that differ in the latter.

* `LoxLang.Expr.spelled`, `LoxLang.Stmt.spelled` — infinite literals spelled as names;
* `LoxLang.Form.expr`, `LoxLang.Form.stmt` — reading forms back;
* `LoxLang.Expr.expr_form`, `LoxLang.Stmt.stmt_form` — **trees are read back from their forms**;
* `LoxLang.Expr.isFinite`, `LoxLang.Stmt.isFinite` — trees without infinite literals;
* `LoxLang.printed_alike` — **programs that are printed alike**;
* `LoxLang.printed_alike_infinite` — a name and a numeral that are printed alike.
-/

import Mathlib.Data.List.Basic
import LoxLang.Proofs.Syntax.Printed

set_option relaxedAutoImplicit false
set_option autoImplicit false

namespace LoxLang

/-! ### The spelling of infinite literals -/

/-- The name that an infinite literal is printed as, and any other literal as it is. -/
def Literal.spelled : Literal → Expr
  | .number (.double (.infinite false)) => .lookup (Token.ofText Number.infiniteText)
  | value => .literal value

mutual

/-- The expression, with infinite literals spelled as names. -/
def Expr.spelled : Expr → Expr
  | .assign name value => .assign name value.spelled
  | .binary left operator right => .binary left.spelled operator right.spelled
  | .call callee paren arguments => .call callee.spelled paren (Expr.spelledAll arguments)
  | .grouping inner => .grouping inner.spelled
  | .literal value => value.spelled
  | .logical left operator right => .logical left.spelled operator right.spelled
  | .unary operator right => .unary operator right.spelled
  | .lookup name => .lookup name

/-- The expressions, with infinite literals spelled as names. -/
def Expr.spelledAll : List Expr → List Expr
  | [] => []
  | e :: es => e.spelled :: Expr.spelledAll es

end

mutual

/-- The statement, with infinite literals spelled as names. -/
def Stmt.spelled : Stmt → Stmt
  | .block body => .block (Stmt.spelledAll body)
  | .expression value => .expression value.spelled
  | .function name parameters body => .function name parameters (Stmt.spelledAll body)
  | .branch condition thenBranch none => .branch condition.spelled thenBranch.spelled none
  | .branch condition thenBranch (some elseBranch) =>
      .branch condition.spelled thenBranch.spelled (some elseBranch.spelled)
  | .print value => .print value.spelled
  | .giveBack keyword value => .giveBack keyword (value.map Expr.spelled)
  | .declare name initializer => .declare name (initializer.map Expr.spelled)
  | .loop condition body => .loop condition.spelled body.spelled

/-- The statements, with infinite literals spelled as names. -/
def Stmt.spelledAll : List Stmt → List Stmt
  | [] => []
  | s :: ss => s.spelled :: Stmt.spelledAll ss

end

/-! ### The spelling does not change what is printed -/

theorem Literal.form_spelled (value : Literal) : value.spelled.form = value.form := by
  unfold Literal.spelled
  split
  · rfl
  · rw [Expr.form]

section

variable (f : Int → Int)

mutual

/-- Neither lines nor the spelling of infinite literals are seen in print. -/
theorem Expr.form_spelled : ∀ e : Expr, (e.relabel f).spelled.form = e.form
  | .assign name value => by
      rw [Expr.relabel, Expr.spelled, Expr.form, Expr.form_spelled value, Expr.form,
        Token.relabel_lexeme]
  | .binary left operator right => by
      rw [Expr.relabel, Expr.spelled, Expr.form, Expr.form_spelled left, Expr.form_spelled right,
        Expr.form, Token.relabel_lexeme]
  | .call callee paren arguments => by
      rw [Expr.relabel, Expr.spelled, Expr.form, Expr.form_spelled callee,
        Expr.forms_spelledAll arguments, Expr.form]
  | .grouping inner => by
      rw [Expr.relabel, Expr.spelled, Expr.form, Expr.form_spelled inner, Expr.form]
  | .literal value => by rw [Expr.relabel, Expr.spelled, Literal.form_spelled, Expr.form]
  | .logical left operator right => by
      rw [Expr.relabel, Expr.spelled, Expr.form, Expr.form_spelled left, Expr.form_spelled right,
        Expr.form, Token.relabel_lexeme]
  | .unary operator right => by
      rw [Expr.relabel, Expr.spelled, Expr.form, Expr.form_spelled right, Expr.form,
        Token.relabel_lexeme]
  | .lookup name => by rw [Expr.relabel, Expr.spelled, Expr.form, Expr.form, Token.relabel_lexeme]

theorem Expr.forms_spelledAll : ∀ es : List Expr,
    Expr.forms (Expr.spelledAll (Expr.relabelAll f es)) = Expr.forms es
  | [] => by rw [Expr.relabelAll, Expr.spelledAll]
  | e :: es => by
      rw [Expr.relabelAll, Expr.spelledAll, Expr.forms, Expr.form_spelled e,
        Expr.forms_spelledAll es, Expr.forms]

end

theorem parameterForm_relabel (parameters : List Token) :
    parameterForm (parameters.map (Token.relabel f)) = parameterForm parameters := by
  unfold parameterForm
  rw [List.map_map]
  rfl

mutual

/-- Neither lines nor the spelling of infinite literals are seen in print. -/
theorem Stmt.form_spelled : ∀ s : Stmt, (s.relabel f).spelled.form = s.form
  | .block body => by
      rw [Stmt.relabel, Stmt.spelled, Stmt.form, Stmt.forms_spelledAll body, Stmt.form]
  | .expression value => by
      rw [Stmt.relabel, Stmt.spelled, Stmt.form, Expr.form_spelled, Stmt.form]
  | .function name parameters body => by
      rw [Stmt.relabel, Stmt.spelled, Stmt.form, Stmt.forms_spelledAll body, parameterForm_relabel,
        Stmt.form, Token.relabel_lexeme]
  | .branch condition thenBranch none => by
      rw [Stmt.relabel, Stmt.spelled, Stmt.form, Expr.form_spelled, Stmt.form_spelled thenBranch,
        Stmt.form]
  | .branch condition thenBranch (some elseBranch) => by
      rw [Stmt.relabel, Stmt.spelled, Stmt.form, Expr.form_spelled, Stmt.form_spelled thenBranch,
        Stmt.form_spelled elseBranch, Stmt.form]
  | .print value => by
      rw [Stmt.relabel, Stmt.spelled, Stmt.form, Expr.form_spelled, Stmt.form]
  | .giveBack keyword none => rfl
  | .giveBack keyword (some value) => by
      rw [Stmt.relabel, Option.map_some, Stmt.spelled, Option.map_some, Stmt.form,
        Expr.form_spelled, Stmt.form]
  | .declare name none => rfl
  | .declare name (some value) => by
      rw [Stmt.relabel, Option.map_some, Stmt.spelled, Option.map_some, Stmt.form,
        Expr.form_spelled, Stmt.form, Token.relabel_lexeme]
  | .loop condition body => by
      rw [Stmt.relabel, Stmt.spelled, Stmt.form, Expr.form_spelled, Stmt.form_spelled body,
        Stmt.form]

theorem Stmt.forms_spelledAll : ∀ ss : List Stmt,
    Stmt.forms (Stmt.spelledAll (Stmt.relabelAll f ss)) = Stmt.forms ss
  | [] => by rw [Stmt.relabelAll, Stmt.spelledAll]
  | s :: ss => by
      rw [Stmt.relabelAll, Stmt.spelledAll, Stmt.forms, Stmt.form_spelled s,
        Stmt.forms_spelledAll ss, Stmt.forms]

end

end

/-! ### Reading expressions back -/

/-- The expression that is printed as a word. -/
def Expr.ofWord (text : String) : Expr :=
  if text = "nil" then .literal .nil
  else if text = "true" then .literal (.bool true)
  else if text = "false" then .literal (.bool false)
  else if text.toList.head?.any isDigit then .literal (.number (Number.ofText text.toList))
  else .lookup (Token.ofText text)

/-- The expression that is printed under a head, with the parts behind it; any expression if there is
none. -/
def Expr.assemble (head : String) (parts : List Expr) : Expr :=
  if head = "=" then
    match parts with
    | [.lookup name, value] => .assign name value
    | _ => default
  else if head = "call" then
    match parts with
    | callee :: arguments => .call callee (Token.ofText ")") arguments
    | [] => default
  else if head = "group" then .grouping (parts.headD default)
  else
    -- Any other head is an operator.
    match parts with
    | [right] => .unary (Token.ofText head) right
    | [left, right] =>
        if TokenKind.ofText head ∈ logicalKinds then .logical left (Token.ofText head) right
        else .binary left (Token.ofText head) right
    | _ => default

mutual

/-- The expression that is printed as a form; any expression if there is none. -/
def Form.expr : Form → Expr
  | .word text => Expr.ofWord text
  | .quoted text => .literal (.text text)
  | .list (.word head :: parts) => Expr.assemble head (Form.exprs parts)
  | .list _ => default

/-- The expressions that are printed as forms. -/
def Form.exprs : List Form → List Expr
  | [] => []
  | f :: fs => f.expr :: Form.exprs fs

end

/-- A head that is no operator is told from operators by its kind. -/
theorem Token.IsOperator.ne_of_not_mem {token : Token} {kinds : List TokenKind}
    (h : token.IsOperator kinds) {text : String} (ht : TokenKind.ofText text ∉ kinds) :
    token.lexeme ≠ text := by
  rintro rfl
  rw [h.plain.kind_eq] at ht
  exact ht h.kind

theorem Expr.ofWord_name {token : Token} (h : token.IsName) :
    Expr.ofWord token.lexeme = .lookup (token.relabel fun _ => 0) := by
  have hne : ∀ {text : String}, TokenKind.ofText text ≠ .identifier → token.lexeme ≠ text := by
    rintro text ht rfl
    rw [h.plain.kind_eq] at ht
    exact ht h.kind
  have hdigit : token.lexeme.toList.head?.any isDigit = false := by
    obtain ⟨first, others, hlexeme, hfirst, -⟩ := h.word
    rw [hlexeme]
    exact isDigit_of_isLetter hfirst
  unfold Expr.ofWord
  rw [if_neg (hne (by decide)), if_neg (hne (by decide)), if_neg (hne (by decide)), hdigit,
    if_neg Bool.false_ne_true, h.plain]

theorem Expr.ofWord_number {n : Number} {text : String} (h : n.ReadsBack text) :
    Expr.ofWord text = .literal (.number n) := by
  obtain ⟨first, others, htext, hfirst⟩ := h.first
  have hdigit : text.toList.head?.any isDigit = true := by
    rw [htext]
    exact hfirst
  have hne : ∀ {word : String}, word.toList.head?.any isDigit = false → text ≠ word := by
    rintro word hword rfl
    rw [hdigit] at hword
    cases hword
  unfold Expr.ofWord
  rw [if_neg (hne (by decide)), if_neg (hne (by decide)), if_neg (hne (by decide)), if_pos hdigit,
    h.ofText]

theorem Literal.Written.expr_form {value : Literal} (h : value.Written) :
    value.form.expr = value.spelled := by
  have hnumber : ∀ {n : Number} {text : String}, n.ReadsBack text →
      (Literal.number n).form.expr = .literal (.number n) := by
    intro n text hback
    rw [Literal.form, Form.expr, hback.dump, Option.getD_some, Expr.ofWord_number hback]
  cases h with
  | nil => rfl
  | bool b => cases b <;> rfl
  | number hn =>
      cases hn with
      | int hlimit => exact hnumber (Number.readsBack_int hlimit)
      | infinite => rfl
      | finite m => exact hnumber (Number.readsBack_finite m)
  | text ht => rfl

theorem Expr.assemble_unary {operator : Token} (h : operator.IsOperator unaryKinds) (right : Expr) :
    Expr.assemble operator.lexeme [right] = .unary (operator.relabel fun _ => 0) right := by
  unfold Expr.assemble
  rw [if_neg (h.ne_of_not_mem (by decide)), if_neg (h.ne_of_not_mem (by decide)),
    if_neg (h.ne_of_not_mem (by decide)), h.plain]

/-- Two operands stand under a logical operator or under another one. -/
theorem Expr.assemble_logical {operator : Token} (h : operator.IsOperator logicalKinds)
    (left right : Expr) :
    Expr.assemble operator.lexeme [left, right] =
      .logical left (operator.relabel fun _ => 0) right := by
  have hkind : TokenKind.ofText operator.lexeme ∈ logicalKinds := by
    rw [h.plain.kind_eq]
    exact h.kind
  unfold Expr.assemble
  rw [if_neg (h.ne_of_not_mem (by decide)), if_neg (h.ne_of_not_mem (by decide)),
    if_neg (h.ne_of_not_mem (by decide)), h.plain]
  exact if_pos hkind

theorem Expr.assemble_binary {operator : Token} (h : operator.IsOperator binaryKinds)
    (left right : Expr) :
    Expr.assemble operator.lexeme [left, right] =
      .binary left (operator.relabel fun _ => 0) right := by
  have hdisjoint : ∀ kind ∈ binaryKinds, kind ∉ logicalKinds := by decide
  have hkind : TokenKind.ofText operator.lexeme ∉ logicalKinds := by
    rw [h.plain.kind_eq]
    exact hdisjoint _ h.kind
  unfold Expr.assemble
  rw [if_neg (h.ne_of_not_mem (by decide)), if_neg (h.ne_of_not_mem (by decide)),
    if_neg (h.ne_of_not_mem (by decide)), h.plain]
  exact if_neg hkind

mutual

/-- **Expressions are read back from their forms.** -/
theorem Expr.expr_form : ∀ {e : Expr}, e.Written → e.form.expr = (e.relabel fun _ => 0).spelled
  | .assign name value, h => by
      rw [Expr.form, Form.expr, Form.exprs, Form.exprs, Form.exprs, Form.expr, Expr.ofWord_name h.1,
        Expr.expr_form h.2]
      rfl
  | .binary left operator right, h => by
      rw [Expr.form, Form.expr, Form.exprs, Form.exprs, Form.exprs, Expr.expr_form h.1,
        Expr.expr_form h.2.2, Expr.assemble_binary h.2.1]
      rfl
  | .call callee paren arguments, h => by
      rw [Expr.form, Form.expr, Form.exprs, Expr.expr_form h.1, Expr.exprs_forms h.2.2, Expr.relabel,
        h.2.1]
      rfl
  | .grouping inner, h => by
      rw [Expr.form, Form.expr, Form.exprs, Form.exprs, Expr.expr_form (e := inner) h]
      rfl
  | .literal value, h => by
      rw [Expr.form, h.expr_form]
      rfl
  | .logical left operator right, h => by
      rw [Expr.form, Form.expr, Form.exprs, Form.exprs, Form.exprs, Expr.expr_form h.1,
        Expr.expr_form h.2.2, Expr.assemble_logical h.2.1]
      rfl
  | .unary operator right, h => by
      rw [Expr.form, Form.expr, Form.exprs, Form.exprs, Expr.expr_form h.2, Expr.assemble_unary h.1]
      rfl
  | .lookup name, h => by
      rw [Expr.form, Form.expr, Expr.ofWord_name h]
      rfl

theorem Expr.exprs_forms : ∀ {es : List Expr}, Expr.AllWritten es →
    Form.exprs (Expr.forms es) = Expr.spelledAll (Expr.relabelAll (fun _ => 0) es)
  | [], _ => rfl
  | e :: es, h => by
      rw [Expr.forms, Form.exprs, Expr.expr_form h.1, Expr.exprs_forms h.2]
      rfl

end

/-! ### Reading statements back -/

/-- The token that is printed as a word. -/
def Form.token : Form → Token
  | .word text => Token.ofText text
  | _ => Token.ofText ""

/-- The statement that is printed under a head, with the forms behind it and the statements that these
are printed from; any statement if there is none. -/
def Stmt.assemble (head : String) (parts : List Form) (below : List Stmt) : Stmt :=
  match head, parts, below with
  | "block", _, _ => .block below
  | ";", [value], _ => .expression value.expr
  | "fun", name :: .list parameters :: _, _ :: _ :: body =>
      .function name.token (parameters.map Form.token) body
  | "if", [condition, _], [_, thenBranch] => .branch condition.expr thenBranch none
  | "if-else", [condition, _, _], [_, thenBranch, elseBranch] =>
      .branch condition.expr thenBranch (some elseBranch)
  | "print", [value], _ => .print value.expr
  | "return", [], _ => .giveBack (Token.ofText "return") none
  | "return", [value], _ => .giveBack (Token.ofText "return") (some value.expr)
  | "var", [name], _ => .declare name.token none
  | "var", [name, _, value], _ => .declare name.token (some value.expr)
  | "while", [condition, _], [_, body] => .loop condition.expr body
  | _, _, _ => default

mutual

/-- The statement that is printed as a form; any statement if there is none. -/
def Form.stmt : Form → Stmt
  | .list (.word head :: parts) => Stmt.assemble head parts (Form.stmts parts)
  | _ => default

/-- The statements that are printed as forms. -/
def Form.stmts : List Form → List Stmt
  | [] => []
  | f :: fs => f.stmt :: Form.stmts fs

end

theorem map_token_forms {parameters : List Token} (h : ∀ parameter ∈ parameters, parameter.IsName) :
    (parameters.map fun parameter => Form.word parameter.lexeme).map Form.token =
      parameters.map (Token.relabel fun _ => 0) := by
  rw [List.map_map]
  exact List.map_congr_left fun parameter hp => (h parameter hp).plain.symm

mutual

/-- **Statements are read back from their forms.** -/
theorem Stmt.stmt_form : ∀ {s : Stmt}, s.Written → s.form.stmt = (s.relabel fun _ => 0).spelled
  | .block body, h => by
      have hbody : Stmt.AllWritten body := h
      rw [Stmt.form, Form.stmt, Stmt.stmts_forms hbody]
      rfl
  | .expression value, h => by
      rw [Stmt.form, Form.stmt, Stmt.relabel, Stmt.spelled, ← Expr.expr_form (e := value) h]
      rfl
  | .function name parameters body, h => by
      rw [Stmt.form, Form.stmt, Form.stmts, Form.stmts, Stmt.stmts_forms h.2.2, Stmt.relabel,
        Stmt.spelled, h.1.plain, ← map_token_forms h.2.1]
      rfl
  | .branch condition thenBranch none, h => by
      rw [Stmt.form, Form.stmt, Form.stmts, Form.stmts, Form.stmts, Stmt.stmt_form h.2, Stmt.relabel,
        Stmt.spelled, ← Expr.expr_form h.1]
      rfl
  | .branch condition thenBranch (some elseBranch), h => by
      rw [Stmt.form, Form.stmt, Form.stmts, Form.stmts, Form.stmts, Form.stmts, Stmt.stmt_form h.2.1,
        Stmt.stmt_form h.2.2, Stmt.relabel, Stmt.spelled, ← Expr.expr_form h.1]
      rfl
  | .print value, h => by
      rw [Stmt.form, Form.stmt, Stmt.relabel, Stmt.spelled, ← Expr.expr_form (e := value) h]
      rfl
  | .giveBack keyword none, h => by
      rw [Stmt.form, Form.stmt, Stmt.relabel, Stmt.spelled, h.1]
      rfl
  | .giveBack keyword (some value), h => by
      rw [Stmt.form, Form.stmt, Stmt.relabel, Option.map_some, Stmt.spelled, Option.map_some, h.1,
        ← Expr.expr_form (h.2 value rfl)]
      rfl
  | .declare name none, h => by
      rw [Stmt.form, Form.stmt, Stmt.relabel, Stmt.spelled, h.1.plain]
      rfl
  | .declare name (some value), h => by
      rw [Stmt.form, Form.stmt, Stmt.relabel, Option.map_some, Stmt.spelled, Option.map_some,
        h.1.plain, ← Expr.expr_form (h.2 value rfl)]
      rfl
  | .loop condition body, h => by
      rw [Stmt.form, Form.stmt, Form.stmts, Form.stmts, Form.stmts, Stmt.stmt_form h.2, Stmt.relabel,
        Stmt.spelled, ← Expr.expr_form h.1]
      rfl

theorem Stmt.stmts_forms : ∀ {ss : List Stmt}, Stmt.AllWritten ss →
    Form.stmts (Stmt.forms ss) = Stmt.spelledAll (Stmt.relabelAll (fun _ => 0) ss)
  | [], _ => rfl
  | s :: ss, h => by
      rw [Stmt.forms, Form.stmts, Stmt.stmt_form h.1, Stmt.stmts_forms h.2]
      rfl

end

/-! ### Trees without infinite literals -/

/-- The literal is not infinite. -/
def Literal.isFinite (value : Literal) : Bool := value != .number (.double (.infinite false))

mutual

/-- No literal of the expression is infinite. -/
def Expr.isFinite : Expr → Bool
  | .assign _ value => value.isFinite
  | .binary left _ right => left.isFinite && right.isFinite
  | .call callee _ arguments => callee.isFinite && Expr.allFinite arguments
  | .grouping inner => inner.isFinite
  | .literal value => value.isFinite
  | .logical left _ right => left.isFinite && right.isFinite
  | .unary _ right => right.isFinite
  | .lookup _ => true

/-- No literal of the expressions is infinite. -/
def Expr.allFinite : List Expr → Bool
  | [] => true
  | e :: es => e.isFinite && Expr.allFinite es

end

mutual

/-- No literal in the statement is infinite. -/
def Stmt.isFinite : Stmt → Bool
  | .block body => Stmt.allFinite body
  | .expression value => value.isFinite
  | .function _ _ body => Stmt.allFinite body
  | .branch condition thenBranch none => condition.isFinite && thenBranch.isFinite
  | .branch condition thenBranch (some elseBranch) =>
      condition.isFinite && (thenBranch.isFinite && elseBranch.isFinite)
  | .print value => value.isFinite
  | .giveBack _ value => value.all Expr.isFinite
  | .declare _ initializer => initializer.all Expr.isFinite
  | .loop condition body => condition.isFinite && body.isFinite

/-- No literal in the statements is infinite. -/
def Stmt.allFinite : List Stmt → Bool
  | [] => true
  | s :: ss => s.isFinite && Stmt.allFinite ss

end

theorem Literal.spelled_eq {value : Literal} (h : value.isFinite = true) :
    value.spelled = .literal value := by
  unfold Literal.spelled
  split
  · exact absurd rfl (bne_iff_ne.1 h)
  · rfl

section

variable (f : Int → Int)

mutual

/-- Finite literals are spelled as they are. -/
theorem Expr.spelled_eq : ∀ {e : Expr}, e.isFinite = true → (e.relabel f).spelled = e.relabel f
  | .assign name value, h => by
      rw [Expr.relabel, Expr.spelled, Expr.spelled_eq (e := value) h]
  | .binary left operator right, h => by
      obtain ⟨hleft, hright⟩ := Bool.and_eq_true_iff.1 h
      rw [Expr.relabel, Expr.spelled, Expr.spelled_eq hleft, Expr.spelled_eq hright]
  | .call callee paren arguments, h => by
      obtain ⟨hcallee, harguments⟩ := Bool.and_eq_true_iff.1 h
      rw [Expr.relabel, Expr.spelled, Expr.spelled_eq hcallee, Expr.spelledAll_eq harguments]
  | .grouping inner, h => by
      rw [Expr.relabel, Expr.spelled, Expr.spelled_eq (e := inner) h]
  | .literal value, h => Literal.spelled_eq h
  | .logical left operator right, h => by
      obtain ⟨hleft, hright⟩ := Bool.and_eq_true_iff.1 h
      rw [Expr.relabel, Expr.spelled, Expr.spelled_eq hleft, Expr.spelled_eq hright]
  | .unary operator right, h => by
      rw [Expr.relabel, Expr.spelled, Expr.spelled_eq (e := right) h]
  | .lookup name, _ => rfl

theorem Expr.spelledAll_eq : ∀ {es : List Expr}, Expr.allFinite es = true →
    Expr.spelledAll (Expr.relabelAll f es) = Expr.relabelAll f es
  | [], _ => rfl
  | e :: es, h => by
      obtain ⟨hfirst, hothers⟩ := Bool.and_eq_true_iff.1 h
      rw [Expr.relabelAll, Expr.spelledAll, Expr.spelled_eq hfirst, Expr.spelledAll_eq hothers]

end

mutual

/-- Finite literals are spelled as they are. -/
theorem Stmt.spelled_eq : ∀ {s : Stmt}, s.isFinite = true → (s.relabel f).spelled = s.relabel f
  | .block body, h => by
      have hbody : Stmt.allFinite body = true := h
      rw [Stmt.relabel, Stmt.spelled, Stmt.spelledAll_eq hbody]
  | .expression value, h => by
      rw [Stmt.relabel, Stmt.spelled, Expr.spelled_eq f (e := value) h]
  | .function name parameters body, h => by
      have hbody : Stmt.allFinite body = true := h
      rw [Stmt.relabel, Stmt.spelled, Stmt.spelledAll_eq hbody]
  | .branch condition thenBranch none, h => by
      obtain ⟨hcondition, hthen⟩ := Bool.and_eq_true_iff.1 h
      rw [Stmt.relabel, Stmt.spelled, Expr.spelled_eq f hcondition, Stmt.spelled_eq hthen]
  | .branch condition thenBranch (some elseBranch), h => by
      obtain ⟨hcondition, hbranches⟩ := Bool.and_eq_true_iff.1 h
      obtain ⟨hthen, helse⟩ := Bool.and_eq_true_iff.1 hbranches
      rw [Stmt.relabel, Stmt.spelled, Expr.spelled_eq f hcondition, Stmt.spelled_eq hthen,
        Stmt.spelled_eq helse]
  | .print value, h => by
      rw [Stmt.relabel, Stmt.spelled, Expr.spelled_eq f (e := value) h]
  | .giveBack keyword none, _ => rfl
  | .giveBack keyword (some value), h => by
      rw [Stmt.relabel, Option.map_some, Stmt.spelled, Option.map_some, Expr.spelled_eq f (e := value) h]
  | .declare name none, _ => rfl
  | .declare name (some value), h => by
      rw [Stmt.relabel, Option.map_some, Stmt.spelled, Option.map_some, Expr.spelled_eq f (e := value) h]
  | .loop condition body, h => by
      obtain ⟨hcondition, hbody⟩ := Bool.and_eq_true_iff.1 h
      rw [Stmt.relabel, Stmt.spelled, Expr.spelled_eq f hcondition, Stmt.spelled_eq hbody]

theorem Stmt.spelledAll_eq : ∀ {ss : List Stmt}, Stmt.allFinite ss = true →
    Stmt.spelledAll (Stmt.relabelAll f ss) = Stmt.relabelAll f ss
  | [], _ => rfl
  | s :: ss, h => by
      obtain ⟨hfirst, hothers⟩ := Bool.and_eq_true_iff.1 h
      rw [Stmt.relabelAll, Stmt.spelledAll, Stmt.spelled_eq hfirst, Stmt.spelledAll_eq hothers]

end

end

/-! ### Programs that are printed alike -/

/-- Programs that can be written down are printed alike if their forms are the same. -/
theorem Stmt.printAll_eq_iff {p q : List Stmt} (hp : Stmt.AllWritten p) (hq : Stmt.AllWritten q) :
    Stmt.printAll p = Stmt.printAll q ↔ Stmt.forms p = Stmt.forms q := by
  rw [Stmt.printAll_eq hp, Stmt.printAll_eq hq]
  constructor
  · intro h
    have hlines : Form.lines (Stmt.forms p) = Form.lines (Stmt.forms q) :=
      String.ofList_injective (Except.ok.inj h)
    exact Form.lines_inj (Stmt.allReadable hp) (Stmt.allReadable hq) hlines
  · intro h
    rw [h]

/-- **Programs that are printed alike.**  A program that is read without a report has a printed form.  Two
such programs are printed alike exactly if they are the same up to their lines and the spelling of infinite
literals.  So if no literal in them is infinite, they are the same up to their lines. -/
theorem printed_alike {source other : String} {p q : List Stmt} (hread : read source = ⟨[], .ok p⟩)
    (hread' : read other = ⟨[], .ok q⟩) :
    (∃ text, Stmt.printAll p = .ok text) ∧
      (Stmt.printAll p = Stmt.printAll q ↔
        Stmt.spelledAll (Stmt.relabelAll (fun _ => 0) p) =
          Stmt.spelledAll (Stmt.relabelAll (fun _ => 0) q)) ∧
      (Stmt.allFinite p = true → Stmt.allFinite q = true → Stmt.printAll p = Stmt.printAll q →
        Stmt.relabelAll (fun _ => 0) p = Stmt.relabelAll (fun _ => 0) q) := by
  have hp := written_of_read hread
  have hq := written_of_read hread'
  have halike : Stmt.printAll p = Stmt.printAll q ↔
      Stmt.spelledAll (Stmt.relabelAll (fun _ => 0) p) =
        Stmt.spelledAll (Stmt.relabelAll (fun _ => 0) q) := by
    rw [Stmt.printAll_eq_iff hp hq]
    -- The forms are read back as the spelled trees, and the spelled trees have the same forms.
    constructor
    · intro h
      rw [← Stmt.stmts_forms hp, h, Stmt.stmts_forms hq]
    · intro h
      rw [← Stmt.forms_spelledAll (fun _ => 0) p, h, Stmt.forms_spelledAll]
  refine ⟨⟨_, Stmt.printAll_eq hp⟩, halike, fun hfinite hfinite' h => ?_⟩
  rw [← Stmt.spelledAll_eq _ hfinite, halike.1 h, Stmt.spelledAll_eq _ hfinite']

/-- A program on one line, with blanks in a string and a zero at the end of a numeral. -/
def alikeSource : String := "print f(1.50, \"(a) b\");"

/-- The same program on three lines. -/
def alikeOther : String := "print\nf(1.5,\n\"(a) b\" );"

/-- They are printed alike, and are the same up to their lines. -/
theorem printed_alike_alikeSource :
    ∃ p q text, read alikeSource = ⟨[], .ok p⟩ ∧ read alikeOther = ⟨[], .ok q⟩ ∧
      Stmt.printAll p = .ok text ∧
        Stmt.relabelAll (fun _ => 0) p = Stmt.relabelAll (fun _ => 0) q := by
  have hread : read alikeSource = ⟨[], .ok ((read alikeSource).program.toOption.getD [])⟩ :=
    read_eq_of_isOk (by decide +kernel) (by decide +kernel)
  have hread' : read alikeOther = ⟨[], .ok ((read alikeOther).program.toOption.getD [])⟩ :=
    read_eq_of_isOk (by decide +kernel) (by decide +kernel)
  obtain ⟨⟨text, htext⟩, -, hsame⟩ := printed_alike hread hread'
  exact ⟨_, _, text, hread, hread', htext,
    hsame (by decide +kernel) (by decide +kernel) (by decide +kernel)⟩

/-- A numeral beyond all finite doubles. -/
def endlessSource : String := String.ofList ('1' :: (List.replicate 309 '0' ++ ['.', '0', ';']))

/-- It is read as an infinite literal. -/
theorem read_endlessSource :
    read endlessSource = ⟨[], .ok [.expression (.literal (.number (.double (.infinite false))))]⟩ := by
  generalize hvalue : Literal.number (.double (.infinite false)) = value
  have hscan : (scan endlessSource).tooLong = none ∧ (scan endlessSource).errors = [] ∧
      (scan endlessSource).tokens.map Token.kind = [.number, .semicolon, .endOfSource] ∧
      (scan endlessSource).tokens.map Token.literal = [some value, none, none] := by
    rw [← hvalue]
    -- On a list of characters the lexer is evaluated quickly, on a text it is not.
    unfold scan endlessSource
    rw [String.toList_ofList]
    decide +kernel
  obtain ⟨hlong, herrors, hkinds, hliterals⟩ := hscan
  refine read_eq_ok_iff.2 ⟨hlong, herrors, ?_⟩
  have hlength := congrArg List.length hkinds
  rw [List.length_map] at hlength
  obtain ⟨numeral, mark, ending, htokens⟩ := List.length_eq_three.1 hlength
  rw [htokens] at hkinds hliterals ⊢
  simp only [List.map_cons, List.map_nil, List.cons.injEq, and_true] at hkinds hliterals
  obtain ⟨hnumeral, hmark, hending⟩ := hkinds
  have hliteral : Grammar.Expression .primary [numeral] (.literal value) :=
    .literal (.inl hnumeral) hliterals.1
  have hexpression : Grammar.Expression .assignment [numeral] (.literal value) :=
    .ofDisjunction (.ofConjunction (.ofEquality (.ofComparison (.ofTerm (.ofFactor
      (.ofUnary (.ofCall (.ofPrimary hliteral))))))))
  exact .intro (.cons (.statement (.expression hexpression hmark)) .nil) hending

/-- **A name and a numeral that are printed alike.** -/
theorem printed_alike_infinite :
    ∃ p q, read "inf;" = ⟨[], .ok p⟩ ∧ read endlessSource = ⟨[], .ok q⟩ ∧
      Stmt.printAll p = Stmt.printAll q ∧
        Stmt.relabelAll (fun _ => 0) p ≠ Stmt.relabelAll (fun _ => 0) q := by
  have hread : read "inf;" = ⟨[], .ok ((read "inf;").program.toOption.getD [])⟩ :=
    read_eq_of_isOk (by decide +kernel) (by decide +kernel)
  refine ⟨_, _, hread, read_endlessSource, by decide +kernel, fun hsame => ?_⟩
  have hfinite : Stmt.allFinite (Stmt.relabelAll (fun _ => 0)
      ((read "inf;").program.toOption.getD [])) = true := by decide +kernel
  rw [hsame] at hfinite
  cases hfinite

end LoxLang
