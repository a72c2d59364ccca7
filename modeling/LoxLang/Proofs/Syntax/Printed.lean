/-
**Printed trees are forms.**

A node is printed as a list of forms, the first of which is its head, and a literal or a name as a form
that is no list.  What is printed of a tree that can be written down is the text of its form, and of a
program the texts of its forms on lines of their own.  All these forms can be read back.

* `LoxLang.Expr.form`, `LoxLang.Stmt.form` — the forms of trees;
* `LoxLang.Expr.render_eq`, `LoxLang.Stmt.render_eq`, `LoxLang.Stmt.printAll_eq` — **what is printed**;
* `LoxLang.Expr.readable`, `LoxLang.Stmt.readable` — **what is printed can be read back**.
-/

import LoxLang.Proofs.Syntax.Form
import LoxLang.Proofs.Syntax.Written

set_option relaxedAutoImplicit false
set_option autoImplicit false

namespace LoxLang

/-! ### The forms of trees -/

/-- The form of a literal; a number without a text, and a stub, which no program has, are empty words. -/
def Literal.form : Literal → Form
  | .nil => .word "nil"
  | .bool b => .word (if b then "true" else "false")
  | .number n => .word (n.dump?.getD "")
  | .text s => .quoted s
  | .stub _ => .word ""

mutual

/-- The form of an expression. -/
def Expr.form : Expr → Form
  | .assign name value => .list [.word "=", .word name.lexeme, value.form]
  | .binary left operator right => .list [.word operator.lexeme, left.form, right.form]
  | .call callee _ arguments => .list (.word "call" :: callee.form :: Expr.forms arguments)
  | .grouping inner => .list [.word "group", inner.form]
  | .literal value => value.form
  | .logical left operator right => .list [.word operator.lexeme, left.form, right.form]
  | .unary operator right => .list [.word operator.lexeme, right.form]
  | .lookup name => .word name.lexeme

/-- The forms of expressions. -/
def Expr.forms : List Expr → List Form
  | [] => []
  | e :: es => e.form :: Expr.forms es

end

/-- The parameters of a function as a form. -/
def parameterForm (parameters : List Token) : Form :=
  .list (parameters.map fun parameter => .word parameter.lexeme)

mutual

/-- The form of a statement. -/
def Stmt.form : Stmt → Form
  | .block body => .list (.word "block" :: Stmt.forms body)
  | .expression value => .list [.word ";", value.form]
  | .function name parameters body =>
      .list (.word "fun" :: .word name.lexeme :: parameterForm parameters :: Stmt.forms body)
  | .branch condition thenBranch none => .list [.word "if", condition.form, thenBranch.form]
  | .branch condition thenBranch (some elseBranch) =>
      .list [.word "if-else", condition.form, thenBranch.form, elseBranch.form]
  | .print value => .list [.word "print", value.form]
  | .giveBack _ none => .list [.word "return"]
  | .giveBack _ (some value) => .list [.word "return", value.form]
  | .declare name none => .list [.word "var", .word name.lexeme]
  | .declare name (some value) =>
      .list [.word "var", .word name.lexeme, .word "=", value.form]
  | .loop condition body => .list [.word "while", condition.form, body.form]

/-- The forms of statements. -/
def Stmt.forms : List Stmt → List Form
  | [] => []
  | s :: ss => s.form :: Stmt.forms ss

end

/-! ### What is printed -/

/-- The text of a form. -/
def Form.text (f : Form) : String := String.ofList f.chars

@[simp] theorem Form.text_word (w : String) : (Form.word w).text = w := String.ofList_toList

theorem Form.text_toList (f : Form) : f.text.toList = f.chars := String.toList_ofList

/-- Forms on lines of their own. -/
theorem Form.lines_toList (fs : List Form) :
    ("\n".intercalate (fs.map Form.text)).toList = Form.lines fs := by
  have hfurther : ∀ (f : Form) (fs : List Form),
      ['\n'].intercalate (f.chars :: fs.map Form.chars) = f.chars ++ Form.further fs := by
    intro f fs
    induction fs generalizing f with
    | nil => rw [List.map_nil, Form.further, List.append_nil, List.intercalate_singleton]
    | cons next fs ih =>
        rw [List.map_cons, List.intercalate_cons_cons, ih, Form.further, List.append_assoc]
        rfl
  have htexts : (fs.map Form.text).map String.toList = fs.map Form.chars := by
    rw [List.map_map]
    exact List.map_congr_left fun f _ => f.text_toList
  rw [String.toList_intercalate, htexts]
  cases fs with
  | nil => rfl
  | cons f fs => exact hfurther f fs

/-- What stands behind the head. -/
theorem Form.behind_toList (fs : List Form) :
    (String.join ((fs.map Form.text).map (" " ++ ·)) ++ ")").toList = Form.behind fs := by
  rw [String.toList_append, String.toList_join, List.map_map]
  induction fs with
  | nil => rfl
  | cons f fs ih =>
      rw [List.map_cons, List.flatMap_cons, List.append_assoc, ih, Form.behind]
      simp [Form.text_toList]

theorem parenthesized_eq (head : String) (fs : List Form) :
    parenthesized head (fs.map Form.text) = (Form.list (.word head :: fs)).text := by
  refine String.toList_inj.1 ?_
  unfold parenthesized
  rw [String.append_assoc, String.toList_append, String.toList_append, Form.behind_toList,
    Form.text_toList]
  rw [Form.chars, Form.inside, Form.chars]
  simp

theorem Literal.render_eq {value : Literal} (h : value.Written) :
    value.render = .ok value.form.text := by
  cases h with
  | nil => rw [Literal.form, Form.text_word]; rfl
  | bool b => rw [Literal.form, Form.text_word]; rfl
  | @number n hn =>
      have hdump : ∃ text, n.dump? = some text := by
        rcases Number.readsBack_of_written hn with ⟨text, hback⟩ | ⟨-, hinfinite⟩
        · exact ⟨text, hback.dump⟩
        · exact ⟨_, hinfinite⟩
      obtain ⟨text, hdump⟩ := hdump
      have hrender : (Literal.number n).render = dumped n.dump? := rfl
      rw [hrender, Literal.form, Form.text_word, hdump]
      rfl
  | text ht =>
      refine congrArg Except.ok (String.toList_inj.1 ?_)
      rw [Literal.form, Form.text_toList, Form.chars]
      simp

mutual

/-- What is printed of an expression is the text of its form. -/
theorem Expr.render_eq : ∀ {e : Expr}, e.Written → e.toTree.render = .ok e.form.text
  | .assign name value, h => by
      rw [Expr.toTree, Tree.render, Expr.render_eq h.2, Expr.form, ← parenthesized_eq]
      simp only [List.map_cons, List.map_nil, Form.text_word]
      rfl
  | .binary left operator right, h => by
      rw [Expr.toTree, Tree.render, Expr.render_eq h.1, Expr.render_eq h.2.2, Expr.form,
        ← parenthesized_eq]
      rfl
  | .call callee paren arguments, h => by
      rw [Expr.toTree, Tree.render, Expr.render_eq h.1, Expr.renderAll_eq h.2.2, Expr.form,
        ← parenthesized_eq]
      rfl
  | .grouping inner, h => by
      rw [Expr.toTree, Tree.render, Expr.render_eq (e := inner) h, Expr.form, ← parenthesized_eq]
      rfl
  | .literal value, h => by
      rw [Expr.toTree, Tree.render, Literal.render_eq h, Expr.form]
  | .logical left operator right, h => by
      rw [Expr.toTree, Tree.render, Expr.render_eq h.1, Expr.render_eq h.2.2, Expr.form,
        ← parenthesized_eq]
      rfl
  | .unary operator right, h => by
      rw [Expr.toTree, Tree.render, Expr.render_eq h.2, Expr.form, ← parenthesized_eq]
      rfl
  | .lookup name, h => by
      rw [Expr.toTree, Tree.render, Expr.form, Form.text_word]

theorem Expr.renderAll_eq : ∀ {es : List Expr}, Expr.AllWritten es →
    Tree.renderAll (Expr.toTrees es) = .ok ((Expr.forms es).map Form.text)
  | [], _ => rfl
  | e :: es, h => by
      rw [Expr.toTrees, Tree.renderAll, Expr.render_eq h.1, Expr.renderAll_eq h.2]
      rfl

end

theorem Form.inside_words (first : String) (others : List String) :
    [' '].intercalate ((first :: others).map String.toList) ++ [')'] =
      Form.inside ((first :: others).map Form.word) := by
  induction others generalizing first with
  | nil => simp [Form.inside, Form.behind, Form.chars]
  | cons next others ih =>
      rw [List.map_cons, List.map_cons, List.intercalate_cons_cons, ← List.map_cons, List.append_assoc,
        List.append_assoc, ih]
      simp [Form.inside, Form.behind, Form.chars]

/-- The parameters of a function between their parentheses. -/
theorem parameters_eq (parameters : List Token) :
    "(" ++ " ".intercalate ((parameters.map Tree.token).map Tree.lexeme) ++ ")" =
      (parameterForm parameters).text := by
  have hforms : (parameters.map fun parameter => Form.word parameter.lexeme) =
      (parameters.map Token.lexeme).map Form.word := by rw [List.map_map]; rfl
  have hlexemes : (parameters.map Tree.token).map Tree.lexeme = parameters.map Token.lexeme := by
    rw [List.map_map]
    rfl
  refine String.toList_inj.1 ?_
  rw [hlexemes, String.append_assoc, String.toList_append, String.toList_append,
    String.toList_intercalate, Form.text_toList, parameterForm, Form.chars, hforms]
  refine congrArg ('(' :: ·) ?_
  cases parameters.map Token.lexeme with
  | nil => rfl
  | cons first others => exact Form.inside_words first others

mutual

/-- What is printed of a statement is the text of its form. -/
theorem Stmt.render_eq : ∀ {s : Stmt}, s.Written → s.toTree.render = .ok s.form.text
  | .block body, h => by
      have hbody : Stmt.AllWritten body := h
      rw [Stmt.toTree, Tree.render, Stmt.renderAll_eq hbody, Stmt.form,
        ← parenthesized_eq]
      rfl
  | .expression value, h => by
      rw [Stmt.toTree, Tree.render, Expr.render_eq (e := value) h, Stmt.form, ← parenthesized_eq]
      rfl
  | .function name parameters body, h => by
      rw [Stmt.toTree, Tree.render, Stmt.renderAll_eq h.2.2, Stmt.form, ← parenthesized_eq,
        parameters_eq, List.map_cons, List.map_cons, Form.text_word]
      rfl
  | .branch condition thenBranch none, h => by
      rw [Stmt.toTree, Stmt.toTreeOrAbsent, Tree.render, Expr.render_eq h.1, Stmt.render_eq h.2,
        Stmt.form, ← parenthesized_eq]
      rfl
  | .branch condition thenBranch (some elseBranch), h => by
      rw [Stmt.toTree, Stmt.toTreeOrAbsent, Tree.render, Expr.render_eq h.1, Stmt.render_eq h.2.1,
        Stmt.render_eq h.2.2, Stmt.form, ← parenthesized_eq]
      · rfl
      · exact fun he => (Stmt.toTree_ne_absent elseBranch).mp he
  | .print value, h => by
      rw [Stmt.toTree, Tree.render, Expr.render_eq (e := value) h, Stmt.form, ← parenthesized_eq]
      rfl
  | .giveBack keyword none, h => by
      rw [Stmt.toTree, Expr.toTreeOrAbsent, Tree.render, Stmt.form]
      rfl
  | .giveBack keyword (some value), h => by
      rw [Stmt.toTree, Expr.toTreeOrAbsent, Tree.render, Expr.render_eq (h.2 value rfl), Stmt.form,
        ← parenthesized_eq]
      · rfl
      · exact fun he => (Expr.toTree_ne_absent value).mp he
  | .declare name none, h => by
      rw [Stmt.toTree, Expr.toTreeOrAbsent, Tree.render, Stmt.form, ← parenthesized_eq,
        List.map_cons, List.map_nil, Form.text_word]
  | .declare name (some value), h => by
      rw [Stmt.toTree, Expr.toTreeOrAbsent, Tree.render, Expr.render_eq (h.2 value rfl), Stmt.form,
        ← parenthesized_eq, List.map_cons, List.map_cons, Form.text_word, Form.text_word]
      · rfl
      · exact fun he => (Expr.toTree_ne_absent value).mp he
  | .loop condition body, h => by
      rw [Stmt.toTree, Tree.render, Expr.render_eq h.1, Stmt.render_eq h.2, Stmt.form,
        ← parenthesized_eq]
      rfl

theorem Stmt.renderAll_eq : ∀ {ss : List Stmt}, Stmt.AllWritten ss →
    Tree.renderAll (Stmt.toTrees ss) = .ok ((Stmt.forms ss).map Form.text)
  | [], _ => rfl
  | s :: ss, h => by
      rw [Stmt.toTrees, Tree.renderAll, Stmt.render_eq h.1, Stmt.renderAll_eq h.2]
      rfl

end

/-- **What is printed of a program.** -/
theorem Stmt.printAll_eq {program : List Stmt} (h : Stmt.AllWritten program) :
    Stmt.printAll program = .ok (String.ofList (Form.lines (Stmt.forms program))) := by
  unfold Stmt.printAll
  rw [Tree.print, Stmt.renderAll_eq h, ← Form.lines_toList, String.ofList_toList]
  rfl

/-! ### Reading back -/

namespace Form

/-- A class without the characters that end a word has characters of words only. -/
theorem isInWord_of_not {p : Char → Prop}
    (hp : ¬ p ' ' ∧ ¬ p '\n' ∧ ¬ p '(' ∧ ¬ p ')' ∧ ¬ p '"') {c : Char} (hc : p c) :
    isInWord c = true := by
  have hne : ∀ {other : Char}, ¬ p other → (c != other) = true := by
    intro other ho
    refine bne_iff_ne.2 ?_
    rintro rfl
    exact ho hc
  obtain ⟨hspace, hline, hopening, hclosing, hquote⟩ := hp
  unfold isInWord
  simp only [hne hspace, hne hline, hne hopening, hne hclosing, hne hquote, Bool.and_self]

theorem isInWord_of_isWordChar {c : Char} (h : isWordChar c = true) : isInWord c = true :=
  isInWord_of_not (p := fun c => isWordChar c = true) (by decide) h

theorem isInWord_of_isNumberChar {c : Char} (h : Decimal.IsNumberChar c) : isInWord c = true := by
  refine isInWord_of_not (p := Decimal.IsNumberChar) ?_ h
  unfold Decimal.IsNumberChar
  decide

/-- The text can stand as a word. -/
def isWord (text : String) : Bool := !text.toList.isEmpty && text.toList.all isInWord

theorem readable_word {text : String} (h : isWord text = true) : (word text).Readable := by
  unfold isWord at h
  simp only [Bool.and_eq_true, Bool.not_eq_true', List.isEmpty_eq_false_iff, List.all_eq_true] at h
  exact h

end Form

/-- A name can be read back. -/
theorem Token.IsName.readable {token : Token} (h : token.IsName) :
    (Form.word token.lexeme).Readable := by
  obtain ⟨first, others, hlexeme, hfirst, hothers⟩ := h.word
  refine ⟨by rw [hlexeme]; exact List.cons_ne_nil _ _, fun c hc => ?_⟩
  refine Form.isInWord_of_isWordChar ?_
  rw [hlexeme] at hc
  rcases List.mem_cons.1 hc with rfl | hc
  · unfold isWordChar
    rw [hfirst, Bool.true_or]
  · exact hothers c hc

/-- An operator can be read back. -/
theorem Token.IsOperator.readable {token : Token} {kinds : List TokenKind}
    (h : token.IsOperator kinds)
    (hk : ∀ kind ∈ kinds, kind ≠ .identifier ∧ kind ≠ .leftParen ∧ kind ≠ .rightParen) :
    (Form.word token.lexeme).Readable := by
  obtain ⟨hname, hleft, hright⟩ := hk _ h.kind
  refine Form.readable_word ?_
  rcases h.plain.mem_tables hname with hmark | hword
  · have hmarks : ∀ entry ∈ marks, entry.2 ≠ .leftParen → entry.2 ≠ .rightParen →
        Form.isWord (String.ofList entry.1) = true := by decide
    have hreadable := hmarks _ hmark hleft hright
    rwa [String.ofList_toList] at hreadable
  · have hreserved : ∀ entry ∈ TokenKind.reserved, Form.isWord entry.1 = true := by decide
    exact hreserved _ hword

theorem Literal.Written.readable {value : Literal} (h : value.Written) : value.form.Readable := by
  cases h with
  | nil => exact Form.readable_word (by decide)
  | bool b => cases b <;> exact Form.readable_word (by decide)
  | @number n hn =>
      rw [Literal.form]
      rcases Number.readsBack_of_written hn with ⟨text, hback⟩ | ⟨-, hinfinite⟩
      · obtain ⟨first, others, htext, -⟩ := hback.first
        rw [hback.dump]
        exact ⟨by rw [Option.getD_some, htext]; exact List.cons_ne_nil _ _,
          fun c hc => Form.isInWord_of_isNumberChar (hback.chars c hc)⟩
      · rw [hinfinite]
        exact Form.readable_word (by decide)
  | text ht => exact ht

mutual

/-- **The form of an expression can be read back.** -/
theorem Expr.readable : ∀ {e : Expr}, e.Written → e.form.Readable
  | .assign _ _, h => ⟨Form.readable_word (by decide), h.1.readable, Expr.readable h.2, trivial⟩
  | .binary _ _ _, h =>
      ⟨h.2.1.readable (by decide), Expr.readable h.1, Expr.readable h.2.2, trivial⟩
  | .call _ _ _, h =>
      ⟨Form.readable_word (by decide), Expr.readable h.1, Expr.allReadable h.2.2⟩
  | .grouping inner, h =>
      ⟨Form.readable_word (by decide), Expr.readable (e := inner) h, trivial⟩
  | .literal _, h => h.readable
  | .logical _ _ _, h =>
      ⟨h.2.1.readable (by decide), Expr.readable h.1, Expr.readable h.2.2, trivial⟩
  | .unary _ _, h => ⟨h.1.readable (by decide), Expr.readable h.2, trivial⟩
  | .lookup _, h => h.readable

theorem Expr.allReadable : ∀ {es : List Expr}, Expr.AllWritten es →
    Form.AllReadable (Expr.forms es)
  | [], _ => trivial
  | _ :: _, h => ⟨Expr.readable h.1, Expr.allReadable h.2⟩

end

theorem readable_parameterForm {parameters : List Token}
    (h : ∀ parameter ∈ parameters, parameter.IsName) : (parameterForm parameters).Readable := by
  refine Form.allReadable_iff.2 fun f hf => ?_
  obtain ⟨parameter, hp, rfl⟩ := List.mem_map.1 hf
  exact (h parameter hp).readable

mutual

/-- **The form of a statement can be read back.** -/
theorem Stmt.readable : ∀ {s : Stmt}, s.Written → s.form.Readable
  | .block body, h =>
      have hbody : Stmt.AllWritten body := h
      ⟨Form.readable_word (by decide), Stmt.allReadable hbody⟩
  | .expression _, h => ⟨Form.readable_word (by decide), Expr.readable h, trivial⟩
  | .function _ _ _, h =>
      ⟨Form.readable_word (by decide), h.1.readable, readable_parameterForm h.2.1,
        Stmt.allReadable h.2.2⟩
  | .branch _ _ none, h =>
      ⟨Form.readable_word (by decide), Expr.readable h.1, Stmt.readable h.2, trivial⟩
  | .branch _ _ (some _), h =>
      ⟨Form.readable_word (by decide), Expr.readable h.1, Stmt.readable h.2.1,
        Stmt.readable h.2.2, trivial⟩
  | .print _, h => ⟨Form.readable_word (by decide), Expr.readable h, trivial⟩
  | .giveBack _ none, _ => ⟨Form.readable_word (by decide), trivial⟩
  | .giveBack _ (some value), h =>
      ⟨Form.readable_word (by decide), Expr.readable (h.2 value rfl), trivial⟩
  | .declare _ none, h => ⟨Form.readable_word (by decide), h.1.readable, trivial⟩
  | .declare _ (some value), h =>
      ⟨Form.readable_word (by decide), h.1.readable, Form.readable_word (by decide),
        Expr.readable (h.2 value rfl), trivial⟩
  | .loop _ _, h =>
      ⟨Form.readable_word (by decide), Expr.readable h.1, Stmt.readable h.2, trivial⟩

theorem Stmt.allReadable : ∀ {ss : List Stmt}, Stmt.AllWritten ss →
    Form.AllReadable (Stmt.forms ss)
  | [], _ => trivial
  | _ :: _, h => ⟨Stmt.readable h.1, Stmt.allReadable h.2⟩

end

end LoxLang
