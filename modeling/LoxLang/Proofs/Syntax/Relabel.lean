/-
**Lines do not matter to the grammar.**

The lines of tokens only tell where errors are.  Putting every token on another line, by any function
from lines to lines, turns phrases of the grammar into phrases, which stand for the trees with the same
change.

* `LoxLang.Token.relabel`, `LoxLang.Expr.relabel`, `LoxLang.Stmt.relabel` — the change of lines;
* `LoxLang.Stmt.relabel_relabel` — two changes in a row;
* `LoxLang.Grammar.Expression.relabel`, `LoxLang.Grammar.Declarations.relabel` — **phrases stay
  phrases**.
-/

import LoxLang.Proofs.Syntax.Grammar

set_option relaxedAutoImplicit false
set_option autoImplicit false

namespace LoxLang

/-! ### Tokens on other lines -/

/-- The same token, with its line changed. -/
def Token.relabel (f : Int → Int) (token : Token) : Token := token.onLine (f token.line)

section

variable (f g : Int → Int)

@[simp] theorem Token.relabel_kind (token : Token) : (token.relabel f).kind = token.kind := rfl

@[simp] theorem Token.relabel_lexeme (token : Token) : (token.relabel f).lexeme = token.lexeme := rfl

@[simp] theorem Token.relabel_literal (token : Token) :
    (token.relabel f).literal = token.literal := rfl

@[simp] theorem Token.relabel_isEnd (token : Token) : (token.relabel f).isEnd = token.isEnd := rfl

@[simp] theorem Token.relabel_relabel (token : Token) :
    (token.relabel f).relabel g = token.relabel (g ∘ f) := rfl

/-! ### Trees on other lines -/

mutual

/-- The same expression, with the lines of its tokens changed. -/
def Expr.relabel : Expr → Expr
  | .assign name value => .assign (name.relabel f) value.relabel
  | .binary left operator right => .binary left.relabel (operator.relabel f) right.relabel
  | .call callee paren arguments =>
      .call callee.relabel (paren.relabel f) (Expr.relabelAll arguments)
  | .grouping inner => .grouping inner.relabel
  | .literal value => .literal value
  | .logical left operator right => .logical left.relabel (operator.relabel f) right.relabel
  | .unary operator right => .unary (operator.relabel f) right.relabel
  | .lookup name => .lookup (name.relabel f)

/-- The same expressions, with the lines of their tokens changed. -/
def Expr.relabelAll : List Expr → List Expr
  | [] => []
  | e :: es => e.relabel :: Expr.relabelAll es

end

mutual

/-- The same statement, with the lines of its tokens changed. -/
def Stmt.relabel : Stmt → Stmt
  | .block body => .block (Stmt.relabelAll body)
  | .expression value => .expression (value.relabel f)
  | .function name parameters body =>
      .function (name.relabel f) (parameters.map (Token.relabel f)) (Stmt.relabelAll body)
  | .branch condition thenBranch none =>
      .branch (condition.relabel f) thenBranch.relabel none
  | .branch condition thenBranch (some elseBranch) =>
      .branch (condition.relabel f) thenBranch.relabel (some elseBranch.relabel)
  | .print value => .print (value.relabel f)
  | .giveBack keyword value => .giveBack (keyword.relabel f) (value.map (Expr.relabel f))
  | .declare name initializer => .declare (name.relabel f) (initializer.map (Expr.relabel f))
  | .loop condition body => .loop (condition.relabel f) body.relabel

/-- The same statements, with the lines of their tokens changed. -/
def Stmt.relabelAll : List Stmt → List Stmt
  | [] => []
  | s :: ss => s.relabel :: Stmt.relabelAll ss

end

/-- The mutual recursion over lists is the map, for lemmas on lists. -/
theorem Expr.relabelAll_eq_map (es : List Expr) :
    Expr.relabelAll f es = es.map (Expr.relabel f) := by
  induction es with
  | nil => rw [Expr.relabelAll, List.map_nil]
  | cons e es ih => rw [Expr.relabelAll, List.map_cons, ih]

/-- The mutual recursion over lists is the map, for lemmas on lists. -/
theorem Stmt.relabelAll_eq_map (ss : List Stmt) :
    Stmt.relabelAll f ss = ss.map (Stmt.relabel f) := by
  induction ss with
  | nil => rw [Stmt.relabelAll, List.map_nil]
  | cons s ss ih => rw [Stmt.relabelAll, List.map_cons, ih]

mutual

/-- Two changes of lines, one after the other, are one. -/
@[simp] theorem Expr.relabel_relabel : ∀ e : Expr, (e.relabel f).relabel g = e.relabel (g ∘ f)
  | .assign name value => by
      simp only [Expr.relabel, Token.relabel_relabel, Expr.relabel_relabel value]
  | .binary left operator right => by
      simp only [Expr.relabel, Token.relabel_relabel, Expr.relabel_relabel left,
        Expr.relabel_relabel right]
  | .call callee paren arguments => by
      simp only [Expr.relabel, Token.relabel_relabel, Expr.relabel_relabel callee,
        Expr.relabelAll_relabelAll arguments]
  | .grouping inner => by simp only [Expr.relabel, Expr.relabel_relabel inner]
  | .literal value => by simp only [Expr.relabel]
  | .logical left operator right => by
      simp only [Expr.relabel, Token.relabel_relabel, Expr.relabel_relabel left,
        Expr.relabel_relabel right]
  | .unary operator right => by
      simp only [Expr.relabel, Token.relabel_relabel, Expr.relabel_relabel right]
  | .lookup name => by simp only [Expr.relabel, Token.relabel_relabel]

theorem Expr.relabelAll_relabelAll : ∀ es : List Expr,
    Expr.relabelAll g (Expr.relabelAll f es) = Expr.relabelAll (g ∘ f) es
  | [] => by simp only [Expr.relabelAll]
  | e :: es => by
      simp only [Expr.relabelAll, Expr.relabel_relabel e, Expr.relabelAll_relabelAll es]

end

theorem Expr.map_relabel_relabel (e : Option Expr) :
    (e.map (Expr.relabel f)).map (Expr.relabel g) = e.map (Expr.relabel (g ∘ f)) := by
  cases e with
  | none => rfl
  | some e => simp

mutual

@[simp] theorem Stmt.relabel_relabel : ∀ s : Stmt, (s.relabel f).relabel g = s.relabel (g ∘ f)
  | .block body => by simp only [Stmt.relabel, Stmt.relabelAll_relabelAll body]
  | .expression value => by simp only [Stmt.relabel, Expr.relabel_relabel]
  | .function name parameters body => by
      simp only [Stmt.relabel, Token.relabel_relabel, List.map_map,
        Stmt.relabelAll_relabelAll body]
      rfl
  | .branch condition thenBranch none => by
      simp only [Stmt.relabel, Expr.relabel_relabel, Stmt.relabel_relabel thenBranch]
  | .branch condition thenBranch (some elseBranch) => by
      simp only [Stmt.relabel, Expr.relabel_relabel, Stmt.relabel_relabel thenBranch,
        Stmt.relabel_relabel elseBranch]
  | .print value => by simp only [Stmt.relabel, Expr.relabel_relabel]
  | .giveBack keyword value => by
      simp only [Stmt.relabel, Token.relabel_relabel, Expr.map_relabel_relabel]
  | .declare name initializer => by
      simp only [Stmt.relabel, Token.relabel_relabel, Expr.map_relabel_relabel]
  | .loop condition body => by
      simp only [Stmt.relabel, Expr.relabel_relabel, Stmt.relabel_relabel body]

theorem Stmt.relabelAll_relabelAll : ∀ ss : List Stmt,
    Stmt.relabelAll g (Stmt.relabelAll f ss) = Stmt.relabelAll (g ∘ f) ss
  | [] => by simp only [Stmt.relabelAll]
  | s :: ss => by
      simp only [Stmt.relabelAll, Stmt.relabel_relabel s, Stmt.relabelAll_relabelAll ss]

end

end

/-! ### Phrases on other lines -/

namespace Grammar

variable (f : Int → Int)

mutual

/-- **An expression stays one on other lines.** -/
theorem Expression.relabel : ∀ {tier : Tier} {ts : List Token} {e : Expr}, Expression tier ts e →
    Expression tier (ts.map (Token.relabel f)) (e.relabel f)
  | _, _, _, .assign hn he hv => .assign hn he hv.relabel
  | _, _, _, .ofDisjunction h => .ofDisjunction h.relabel
  | _, _, _, .or hx ho hy => by
      rw [List.map_append, List.map_cons]
      exact .or hx.relabel ho hy.relabel
  | _, _, _, .ofConjunction h => .ofConjunction h.relabel
  | _, _, _, .and hx ho hy => by
      rw [List.map_append, List.map_cons]
      exact .and hx.relabel ho hy.relabel
  | _, _, _, .ofEquality h => .ofEquality h.relabel
  | _, _, _, .equality hx ho hy => by
      rw [List.map_append, List.map_cons]
      exact .equality hx.relabel ho hy.relabel
  | _, _, _, .ofComparison h => .ofComparison h.relabel
  | _, _, _, .comparison hx ho hy => by
      rw [List.map_append, List.map_cons]
      exact .comparison hx.relabel ho hy.relabel
  | _, _, _, .ofTerm h => .ofTerm h.relabel
  | _, _, _, .term hx ho hy => by
      rw [List.map_append, List.map_cons]
      exact .term hx.relabel ho hy.relabel
  | _, _, _, .ofFactor h => .ofFactor h.relabel
  | _, _, _, .factor hx ho hy => by
      rw [List.map_append, List.map_cons]
      exact .factor hx.relabel ho hy.relabel
  | _, _, _, .ofUnary h => .ofUnary h.relabel
  | _, _, _, .unary ho hx => .unary ho hx.relabel
  | _, _, _, .ofCall h => .ofCall h.relabel
  | _, _, _, .callEmpty hc ho he => by
      rw [List.map_append]
      exact .callEmpty hc.relabel ho he
  | _, _, _, .call hc ho ha hl he => by
      rw [List.map_append, List.map_cons, List.map_append]
      refine .call hc.relabel ho ha.relabel ?_ he
      rw [Expr.relabelAll_eq_map, List.length_map]
      exact hl
  | _, _, _, .ofPrimary h => .ofPrimary h.relabel
  | _, _, _, .true h => .true h
  | _, _, _, .false h => .false h
  | _, _, _, .nil h => .nil h
  | _, _, _, .literal h hv => .literal h hv
  | _, _, _, .lookup h => .lookup h
  | _, _, _, .grouping ho h he => by
      rw [List.map_cons, List.map_append]
      exact .grouping ho h.relabel he

/-- Arguments stay such, since the commas between them are known by their kind. -/
theorem Arguments.relabel : ∀ {ts : List Token} {args : List Expr}, Arguments ts args →
    Arguments (ts.map (Token.relabel f)) (Expr.relabelAll f args)
  | _, _, .one h => .one h.relabel
  | _, _, .more h hc hs => by
      rw [List.map_append, List.map_cons]
      exact .more h.relabel hc hs.relabel

end

theorem Parameters.relabel {ts names : List Token} (h : Parameters ts names) :
    Parameters (ts.map (Token.relabel f)) (names.map (Token.relabel f)) := by
  induction h with
  | one hn => exact .one hn
  | more hn hc _ ih => exact .more hn hc ih

/-- A parameter list stays one: its length does not change. -/
theorem ParameterList.relabel {ts names : List Token} (h : ParameterList ts names) :
    ParameterList (ts.map (Token.relabel f)) (names.map (Token.relabel f)) := by
  cases h with
  | none => exact .none
  | some h hl => exact .some (h.relabel f) (by rwa [List.length_map])

theorem Optional.relabel {ts : List Token} {e : Option Expr} (h : Optional ts e) :
    Optional (ts.map (Token.relabel f)) (e.map (Expr.relabel f)) := by
  cases h with
  | none => exact .none
  | some h => exact .some (h.relabel f)

theorem Variable.relabel {ts : List Token} {s : Stmt} (h : Variable ts s) :
    Variable (ts.map (Token.relabel f)) (s.relabel f) := by
  cases h with
  | bare hv hn hs => exact .bare hv hn hs
  | initialized hv hn he h hs =>
      rw [List.map_cons, List.map_cons, List.map_cons, List.map_append]
      exact .initialized hv hn he (h.relabel f) hs

theorem Initializer.relabel {ts : List Token} {first : Option Stmt} (h : Initializer ts first) :
    Initializer (ts.map (Token.relabel f)) (first.map (Stmt.relabel f)) := by
  rcases h with hs | h | ⟨h, hs⟩
  · exact .none hs
  · exact .variable (h.relabel f)
  · rw [List.map_append]
    exact .expression (h.relabel f) hs

/-- The tree of a `for` loop is made of its parts, and its own condition has no token. -/
theorem forTree_relabel (first : Option Stmt) (condition increment : Option Expr) (body : Stmt) :
    (forTree first condition increment body).relabel f =
      forTree (first.map (Stmt.relabel f)) (condition.map (Expr.relabel f))
        (increment.map (Expr.relabel f)) (body.relabel f) := by
  cases first <;> cases condition <;> cases increment <;>
    simp only [forTree, orTrue, Stmt.relabel, Stmt.relabelAll, Expr.relabel, Option.map_none,
      Option.map_some]

mutual

/-- A statement stays one, also in what it leaves dangling. -/
theorem Statement.relabel : ∀ {inside dangling : Bool} {ts : List Token} {s : Stmt},
    Statement inside dangling ts s →
      Statement inside dangling (ts.map (Token.relabel f)) (s.relabel f)
  | _, _, _, _, .expression h hs => by
      rw [List.map_append]
      exact .expression (h.relabel f) hs
  | _, _, _, _, .print hw h hs => by
      rw [List.map_cons, List.map_append]
      exact .print hw (h.relabel f) hs
  | _, _, _, _, .giveBack hw h hs => by
      rw [List.map_cons, List.map_append]
      exact .giveBack hw (h.relabel f) hs
  | _, _, _, _, .block ho h he => by
      rw [List.map_cons, List.map_append]
      exact .block ho h.relabel he
  | _, _, _, _, .branch hw ho hc he h => by
      rw [List.map_cons, List.map_cons, List.map_append, List.map_cons]
      exact .branch hw ho (hc.relabel f) he h.relabel
  | _, _, _, _, .branchElse hw ho hc he h hl h' => by
      rw [List.map_cons, List.map_cons, List.map_append, List.map_cons, List.map_append,
        List.map_cons]
      exact .branchElse hw ho (hc.relabel f) he h.relabel hl h'.relabel
  | _, _, _, _, .loop hw ho hc he h => by
      rw [List.map_cons, List.map_cons, List.map_append, List.map_cons]
      exact .loop hw ho (hc.relabel f) he h.relabel
  | _, _, _, _, .forLoop hw ho hi hc hs hn he h => by
      rw [List.map_cons, List.map_cons, List.map_append, List.map_append, List.map_cons,
        List.map_append, List.map_cons, forTree_relabel]
      exact .forLoop hw ho (hi.relabel f) (hc.relabel f) hs (hn.relabel f) he h.relabel

/-- A declaration stays one, inside a function or not. -/
theorem Declaration.relabel : ∀ {inside : Bool} {ts : List Token} {s : Stmt},
    Declaration inside ts s → Declaration inside (ts.map (Token.relabel f)) (s.relabel f)
  | _, _, _, .function hw hn ho hp he hb h hc => by
      rw [List.map_cons, List.map_cons, List.map_cons, List.map_append, List.map_cons,
        List.map_cons, List.map_append]
      exact .function hw hn ho (hp.relabel f) he hb h.relabel hc
  | _, _, _, .variable h => .variable (h.relabel f)
  | _, _, _, .statement h => .statement h.relabel

/-- **Declarations in a row stay such on other lines.** -/
theorem Declarations.relabel : ∀ {inside : Bool} {ts : List Token} {ss : List Stmt},
    Declarations inside ts ss →
      Declarations inside (ts.map (Token.relabel f)) (Stmt.relabelAll f ss)
  | _, _, _, .nil => .nil
  | _, _, _, .cons h hs => by
      rw [List.map_append]
      exact .cons h.relabel hs.relabel

end

end Grammar

end LoxLang
