/-
**The lexemes of a text, in a row, are read as the text is.**

A token comes from a slice of a class, and such a slice is read as what it is wherever a space follows it
or nothing.  So the lexemes of a text's tokens with a space between any two scan to the same tokens, on
other lines, whatever stood between them in the text.  As neither the parser nor the printer looks at
lines, what the parser makes of them is the same too, errors included.

* `LoxLang.Token.FromClass`, `LoxLang.fromClass_of_mem_scanSteps` — where tokens come from;
* `LoxLang.scanSteps_row` — **tokens in a row are read back**;
* `LoxLang.Stmt.printAll_relabel` — printing does not look at lines;
* `LoxLang.scan_relexed` — **a text and the lexemes of its tokens**.
-/

import LoxLang.Proofs.Syntax.ParserRelabel
import LoxLang.Proofs.Syntax.Reading
import LoxLang.Proofs.Token.LexicalClass
import LoxLang.Syntax.Printer

set_option relaxedAutoImplicit false
set_option autoImplicit false

namespace LoxLang

/-! ### Where tokens come from -/

/-- The lexeme of the token is a slice of a class that yields the token. -/
def Token.FromClass (token : Token) : Prop :=
  ∃ (lexeme : Lexeme) (first : Char) (others : List Char),
    lexeme.Covers (first :: others) ∧ lexeme ≠ .comment ∧ token.lexeme.toList = first :: others ∧
      lexeme.emission (first :: others) token.line = .token token

/-- **The tokens of a text come from slices of classes.** -/
theorem fromClass_of_mem_scanSteps {source : String} {token : Token}
    (h : token ∈ (scanSteps 1 source.toList).filterMap (·.emission.token?)) : token.FromClass := by
  obtain ⟨step, hs, he⟩ := List.mem_filterMap.1 h
  obtain ⟨line, first, rest, rfl⟩ := mem_scanSteps hs
  have htoken : (scanStep line first (munch first rest)).emission = .token token := by
    generalize (scanStep line first (munch first rest)).emission = emission at he
    cases emission with
    | token found =>
        cases he
        rfl
    | _ => cases he
  obtain ⟨hlexeme, hline⟩ := Lexeme.emission_eq_token htoken
  rcases munch_covers first rest with hc | ⟨-, hm⟩ | ⟨-, hm⟩
  · refine ⟨_, first, _, hc, ?_, by rw [hlexeme, String.toList_ofList], ?_⟩
    · intro hcomment
      unfold scanStep at htoken
      rw [hcomment] at htoken
      cases htoken
    · rw [hline]
      exact htoken
  · rw [hm] at htoken
    cases htoken
  · rw [hm] at htoken
    cases htoken

/-! ### Tokens in a row -/

/-- The lexemes of tokens with a space between any two. -/
def row (tokens : List Token) : List Char := [' '].intercalate (tokens.map (·.lexeme.toList))

/-- A token in front of a space or of the end is read back, on the line where it stands now. -/
theorem scanSteps_fromClass {token : Token} (h : token.FromClass) {rest : List Char}
    (hr : rest = [] ∨ ∃ more, rest = ' ' :: more) (line : Int) :
    ∃ step, scanSteps line (token.lexeme.toList ++ rest) = step :: scanSteps step.line rest ∧
      step.emission = .token (token.onLine step.line) := by
  obtain ⟨lexeme, first, others, hc, hne, hlexeme, he⟩ := h
  have hm := hc.munch_eq (hr.imp id fun hspace => ⟨hne, hspace⟩)
  have hemission : (scanStep line first (munch first (others ++ rest))).emission =
      .token (token.onLine (scanStep line first (munch first (others ++ rest))).line) := by
    rw [hm]
    have hmoved := emission_relabel (fun _ => lexeme.endLine line others) (first :: others)
      token.line lexeme
    rw [he] at hmoved
    exact hmoved
  refine ⟨_, ?_, hemission⟩
  have hlast : (scanStep line first (munch first (others ++ rest))).isLast = false := by
    unfold ScanStep.isLast
    rw [hemission]
  rw [hlexeme, List.cons_append, scanSteps_cons_of_not_isLast hlast, hm]

/-- A space yields nothing. -/
theorem scanSteps_space (line : Int) (text : List Char) :
    scanSteps line (' ' :: text) = ⟨[' '], line, .nothing⟩ :: scanSteps line text := by
  have hm : munch ' ' text = ⟨.blank, [], text⟩ := rfl
  rw [scanSteps_cons, hm]
  simp [scanStep, ScanStep.isLast, Lexeme.emission, Lexeme.endLine]

/-- The row of a token and others has a space behind the token. -/
theorem row_cons_cons (token next : Token) (others : List Token) :
    row (token :: next :: others) = token.lexeme.toList ++ ' ' :: row (next :: others) := by
  simp [row, List.intercalate_cons_cons]

/-- **Tokens in a row are read back, on other lines, and nothing else is.** -/
theorem scanSteps_row (tokens : List Token) (h : ∀ token ∈ tokens, token.FromClass) (line : Int) :
    ((scanSteps line (row tokens)).filterMap (·.emission.token?)).map (Token.relabel fun _ => 0) =
        tokens.map (Token.relabel fun _ => 0) ∧
      (scanSteps line (row tokens)).filterMap (·.emission.error?) = [] ∧
      (scanSteps line (row tokens)).findSome? ScanStep.tooLong? = none := by
  induction tokens generalizing line with
  | nil =>
      have hempty : row [] = [] := rfl
      rw [hempty, scanSteps_nil]
      exact ⟨rfl, rfl, rfl⟩
  | cons token others ih =>
      have htoken := h token List.mem_cons_self
      have hothers := ih fun other ho => h other (List.mem_cons_of_mem _ ho)
      -- Only behind the last token there is no space.
      cases others with
      | nil =>
          obtain ⟨step, hsteps, he⟩ := scanSteps_fromClass htoken (.inl rfl) line
          have hrow : row [token] = token.lexeme.toList ++ [] := by simp [row]
          rw [hrow, hsteps, scanSteps_nil]
          simp [Emission.token?, Emission.error?, ScanStep.tooLong?, he, Token.relabel, Token.onLine]
      | cons next others =>
          obtain ⟨step, hsteps, he⟩ := scanSteps_fromClass htoken (.inr ⟨_, rfl⟩) line
          obtain ⟨htokens, herrors, hlong⟩ := hothers step.line
          have hlong? : step.tooLong? = none := by rw [ScanStep.tooLong?, he]
          rw [row_cons_cons, hsteps, scanSteps_space, List.filterMap_cons, List.filterMap_cons,
            List.filterMap_cons, List.filterMap_cons, List.findSome?_cons, List.findSome?_cons, he,
            hlong?]
          refine ⟨?_, herrors, hlong⟩
          rw [List.map_cons, ← htokens]
          rfl

/-! ### Printing -/

section

variable (f : Int → Int)

mutual

/-- An expression is printed without its lines. -/
theorem Expr.render_relabel : ∀ e : Expr, (e.relabel f).toTree.render = e.toTree.render
  | .assign name value => by
      simp only [Expr.relabel, Expr.toTree, Tree.render, Expr.render_relabel value,
        Token.relabel_lexeme]
  | .binary left operator right => by
      simp only [Expr.relabel, Expr.toTree, Tree.render, Expr.render_relabel left,
        Expr.render_relabel right, Token.relabel_lexeme]
  | .call callee paren arguments => by
      simp only [Expr.relabel, Expr.toTree, Tree.render, Expr.render_relabel callee,
        Expr.renderAll_relabel arguments]
  | .grouping inner => by
      simp only [Expr.relabel, Expr.toTree, Tree.render, Expr.render_relabel inner]
  | .literal value => by simp only [Expr.relabel]
  | .logical left operator right => by
      simp only [Expr.relabel, Expr.toTree, Tree.render, Expr.render_relabel left,
        Expr.render_relabel right, Token.relabel_lexeme]
  | .unary operator right => by
      simp only [Expr.relabel, Expr.toTree, Tree.render, Expr.render_relabel right,
        Token.relabel_lexeme]
  | .lookup name => by
      simp only [Expr.relabel, Expr.toTree, Tree.render, Token.relabel_lexeme]

theorem Expr.renderAll_relabel : ∀ es : List Expr,
    Tree.renderAll (Expr.toTrees (Expr.relabelAll f es)) = Tree.renderAll (Expr.toTrees es)
  | [] => by simp only [Expr.relabelAll]
  | e :: es => by
      simp only [Expr.relabelAll, Expr.toTrees, Tree.renderAll, Expr.render_relabel e,
        Expr.renderAll_relabel es]

end

/-- The tree of an expression is there. -/
theorem Expr.toTree_ne_absent (e : Expr) : (e.toTree = .absent) = False := by
  cases e <;> simp [Expr.toTree]

/-- The tree of a statement is there. -/
theorem Stmt.toTree_ne_absent (s : Stmt) : (s.toTree = .absent) = False := by
  cases s <;> simp [Stmt.toTree]

theorem map_lexeme_relabel (tokens : List Token) :
    ((tokens.map (Token.relabel f)).map Tree.token).map Tree.lexeme =
      (tokens.map Tree.token).map Tree.lexeme := by
  simp [Tree.lexeme]

mutual

/-- A statement is printed without its lines. -/
theorem Stmt.render_relabel : ∀ s : Stmt, (s.relabel f).toTree.render = s.toTree.render
  | .block body => by
      simp only [Stmt.relabel, Stmt.toTree, Tree.render, Stmt.renderAll_relabel body]
  | .expression value => by
      simp only [Stmt.relabel, Stmt.toTree, Tree.render, Expr.render_relabel]
  | .function name parameters body => by
      simp only [Stmt.relabel, Stmt.toTree, Tree.render, Stmt.renderAll_relabel body,
        Token.relabel_lexeme, map_lexeme_relabel]
  | .branch condition thenBranch none => by
      simp only [Stmt.relabel, Stmt.toTree, Stmt.toTreeOrAbsent, Tree.render, Expr.render_relabel,
        Stmt.render_relabel thenBranch]
  | .branch condition thenBranch (some elseBranch) => by
      simp only [Stmt.relabel, Stmt.toTree, Stmt.toTreeOrAbsent, Tree.render, Expr.render_relabel,
        Stmt.toTree_ne_absent, false_implies, Stmt.render_relabel thenBranch,
        Stmt.render_relabel elseBranch]
  | .print value => by simp only [Stmt.relabel, Stmt.toTree, Tree.render, Expr.render_relabel]
  | .giveBack keyword none => by
      simp only [Stmt.relabel, Stmt.toTree, Option.map_none, Expr.toTreeOrAbsent, Tree.render]
  | .giveBack keyword (some value) => by
      simp only [Stmt.relabel, Stmt.toTree, Option.map_some, Expr.toTreeOrAbsent, Tree.render,
        Expr.toTree_ne_absent, false_implies, Expr.render_relabel]
  | .declare name none => by
      simp only [Stmt.relabel, Stmt.toTree, Option.map_none, Expr.toTreeOrAbsent, Tree.render,
        Token.relabel_lexeme]
  | .declare name (some value) => by
      simp only [Stmt.relabel, Stmt.toTree, Option.map_some, Expr.toTreeOrAbsent, Tree.render,
        Expr.toTree_ne_absent, false_implies, Expr.render_relabel, Token.relabel_lexeme]
  | .loop condition body => by
      simp only [Stmt.relabel, Stmt.toTree, Tree.render, Expr.render_relabel,
        Stmt.render_relabel body]

theorem Stmt.renderAll_relabel : ∀ ss : List Stmt,
    Tree.renderAll (Stmt.toTrees (Stmt.relabelAll f ss)) = Tree.renderAll (Stmt.toTrees ss)
  | [] => by simp only [Stmt.relabelAll]
  | s :: ss => by
      simp only [Stmt.relabelAll, Stmt.toTrees, Tree.renderAll, Stmt.render_relabel s,
        Stmt.renderAll_relabel ss]

end

/-- **A program is printed without its lines.** -/
theorem Stmt.printAll_relabel (program : List Stmt) :
    Stmt.printAll (Stmt.relabelAll f program) = Stmt.printAll program := by
  simp only [Stmt.printAll, Tree.print, Stmt.renderAll_relabel]

end

/-! ### A text and the lexemes of its tokens -/

/-- The lexemes of tokens do not depend on their lines. -/
theorem relexed_map_relabel (f : Int → Int) (tokens : List Token) :
    relexed (tokens.map (Token.relabel f)) = relexed tokens := by
  unfold relexed
  rw [List.filter_map, List.map_map]
  rfl

theorem relexed_toList {tokens : List Token} {ending : Token}
    (h : ∀ token ∈ tokens, token.isEnd = false) (he : ending.isEnd = true) :
    (relexed (tokens ++ [ending])).toList = row tokens := by
  have hfilter : (tokens ++ [ending]).filter (fun token => !token.isEnd) = tokens := by
    rw [List.filter_append, List.filter_eq_self.2 fun token ht => by rw [h token ht]; rfl]
    simp [he]
  rw [relexed, hfilter, String.toList_intercalate, List.map_map]
  rfl

/-- **The lexemes of a text in a row scan to its tokens, on other lines, without an error.** -/
theorem scan_relexed_tokens (source : String) :
    (scan (relexed (scan source).tokens)).tokens.map (Token.relabel fun _ => 0) =
        (scan source).tokens.map (Token.relabel fun _ => 0) ∧
      (scan (relexed (scan source).tokens)).errors = [] ∧
      (scan (relexed (scan source).tokens)).tooLong = none := by
  have hends : ∀ token ∈ (scanSteps 1 source.toList).filterMap (·.emission.token?),
      token.isEnd = false := fun token ht =>
    Token.isEnd_eq_false (wellMade_of_mem_scanSteps ht).notEnd
  have hrow := relexed_toList hends
    (show (Token.endOfSource (lastLine 1 (scanSteps 1 source.toList))).isEnd = true from rfl)
  obtain ⟨htokens, herrors, hlong⟩ :=
    scanSteps_row _ (fun token ht => fromClass_of_mem_scanSteps ht) 1
  rw [← scan_tokens_eq source] at hrow
  rw [← hrow] at htokens herrors hlong
  refine ⟨?_, herrors, hlong⟩
  rw [scan_tokens_eq (relexed (scan source).tokens), List.map_append, htokens, scan_tokens_eq source,
    List.map_append]
  rfl

/-- **A text and the lexemes of its tokens, with one space between any two.**  The lexemes scan without
an error to the same kinds, lexemes and literals, and so to the same lexemes once more; and they are
parsed to the same program up to lines, which is printed alike, as far, and with the same messages. -/
theorem scan_relexed (source : String) :
    ∃ again, scan (relexed (scan source).tokens) = again ∧ again.errors = [] ∧
      again.tooLong = none ∧
      again.tokens.map (fun token => (token.kind, token.lexeme, token.literal)) =
        (scan source).tokens.map (fun token => (token.kind, token.lexeme, token.literal)) ∧
      relexed again.tokens = relexed (scan source).tokens ∧
      ∃ program t program' t', parse (scan source).tokens = .ok program t ∧
        parse again.tokens = .ok program' t' ∧
        Stmt.relabelAll (fun _ => 0) program' = Stmt.relabelAll (fun _ => 0) program ∧
        Stmt.printAll program' = Stmt.printAll program ∧
        again.tokens.length - t'.rest.length = (scan source).tokens.length - t.rest.length ∧
        t'.errors.map (fun error => (error.report.place, error.report.message)) =
          t.errors.map (fun error => (error.report.place, error.report.message)) := by
  obtain ⟨htokens, herrors, hlong⟩ := scan_relexed_tokens source
  obtain ⟨program, t, hp⟩ := parse_scan source
  obtain ⟨program', t', hp'⟩ := parse_scan (relexed (scan source).tokens)
  generalize scan (relexed (scan source).tokens) = again at htokens herrors hlong hp' ⊢
  -- Both lists of tokens are the same once all tokens stand on one line, and so are their replies.
  have hparse := parse_relabel (fun _ => 0) again.tokens
  rw [htokens, parse_relabel, hp, hp'] at hparse
  simp only [Reply.relabel, Reply.ok.injEq, ParserState.relabel, ParserState.mk.injEq] at hparse
  obtain ⟨hprogram, hrest, -, hreports⟩ := hparse
  refine ⟨again, rfl, herrors, hlong, ?_, ?_, program, t, program', t', hp, hp', hprogram.symm,
    ?_, ?_, ?_⟩
  · have hkinds := congrArg (List.map fun token => (token.kind, token.lexeme, token.literal)) htokens
    rw [List.map_map, List.map_map] at hkinds
    exact hkinds
  · rw [← relexed_map_relabel fun _ => 0, htokens, relexed_map_relabel]
  · rw [← Stmt.printAll_relabel (fun _ => 0) program', ← hprogram, Stmt.printAll_relabel]
  · have hlength := congrArg List.length htokens
    have hleft := congrArg List.length hrest
    simp only [List.length_map] at hlength hleft
    rw [hlength, hleft]
  · have hmessages := congrArg
      (List.map fun error => (error.report.place, error.report.message)) hreports
    rw [List.map_map, List.map_map] at hmessages
    exact hmessages.symm

/-- What a dropped character, a comment or nothing stood between is set apart. -/
example : relexed (scan "a=@=1.5.b//c\n\"d\ne\"!==").tokens =
    "a = = 1.5 . b \"d\ne\" != =" := by decide +kernel

end LoxLang
