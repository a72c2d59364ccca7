/-
**Returns outside function bodies.**

A return belongs into the body of a function.  The grammar derives a return for a place inside a function
body only, so no declaration at the top has one outside.

* `LoxLang.Stmt.looseReturns` — the returns of a statement that lie in no function body;
* `LoxLang.Grammar.Declarations.looseReturns` — **declarations at the top have none**.
-/

import LoxLang.Proofs.Syntax.Grammar

set_option relaxedAutoImplicit false
set_option autoImplicit false

namespace LoxLang

mutual

/-- The keywords of the returns that lie in no function body, from left to right. -/
def Stmt.looseReturns : Stmt → List Token
  | .block body => Stmt.looseReturnsAll body
  | .expression _ => []
  | .function _ _ _ => []
  | .branch _ thenBranch none => thenBranch.looseReturns
  | .branch _ thenBranch (some elseBranch) => thenBranch.looseReturns ++ elseBranch.looseReturns
  | .print _ => []
  | .giveBack keyword _ => [keyword]
  | .declare _ _ => []
  | .loop _ body => body.looseReturns

/-- The keywords of the returns of statements in a row that lie in no function body. -/
def Stmt.looseReturnsAll : List Stmt → List Token
  | [] => []
  | s :: ss => s.looseReturns ++ Stmt.looseReturnsAll ss

end

theorem Stmt.looseReturnsAll_eq_nil_iff {ss : List Stmt} :
    Stmt.looseReturnsAll ss = [] ↔ ∀ s ∈ ss, s.looseReturns = [] := by
  induction ss with
  | nil => simp [Stmt.looseReturnsAll]
  | cons s ss ih => simp [Stmt.looseReturnsAll, ih]

/-- The return within the function is not among them. -/
example : (Stmt.block [.function (Token.endOfSource 1) [] [.giveBack (Token.endOfSource 2) none],
    .giveBack (Token.endOfSource 3) none]).looseReturns = [Token.endOfSource 3] := by
  rfl

namespace Grammar

theorem Variable.looseReturns {ts : List Token} {s : Stmt} (h : Variable ts s) :
    s.looseReturns = [] := by
  cases h <;> rfl

theorem Initializer.looseReturns {ts : List Token} {s : Stmt} (h : Initializer ts (some s)) :
    s.looseReturns = [] := by
  rcases h with _ | h | ⟨-, -⟩
  · exact h.looseReturns
  · rfl

/-- A loop has the returns of its body. -/
theorem looseReturns_forTree {first : Option Stmt} (hf : ∀ s, first = some s → s.looseReturns = [])
    (condition increment : Option Expr) (body : Stmt) :
    (forTree first condition increment body).looseReturns = body.looseReturns := by
  cases first with
  | none =>
      cases increment <;> simp [forTree, Stmt.looseReturns, Stmt.looseReturnsAll]
  | some s =>
      cases increment <;> simp [forTree, Stmt.looseReturns, Stmt.looseReturnsAll, hf s rfl]

mutual

/-- **A statement outside function bodies has no return outside them.** -/
theorem Statement.looseReturns : ∀ {inside dangling : Bool} {ts : List Token} {s : Stmt},
    Statement inside dangling ts s → inside = false → s.looseReturns = []
  | _, _, _, _, .expression _ _, _ => rfl
  | _, _, _, _, .print _ _ _, _ => rfl
  | _, _, _, _, .giveBack _ _ _, hi => nomatch hi
  | _, _, _, _, .block _ h _, hi => h.looseReturns hi
  | _, _, _, _, .branch _ _ _ _ h, hi => h.looseReturns hi
  | _, _, _, _, .branchElse _ _ _ _ h _ h', hi => by
      rw [Stmt.looseReturns, h.looseReturns hi, h'.looseReturns hi, List.append_nil]
  | _, _, _, _, .loop _ _ _ _ h, hi => h.looseReturns hi
  | _, _, _, _, .forLoop _ _ hfirst _ _ _ _ h, hi => by
      rw [looseReturns_forTree (fun s hs => Initializer.looseReturns (hs ▸ hfirst)),
        h.looseReturns hi]

theorem Declaration.looseReturns : ∀ {inside : Bool} {ts : List Token} {s : Stmt},
    Declaration inside ts s → inside = false → s.looseReturns = []
  | _, _, _, .function _ _ _ _ _ _ _ _, _ => rfl
  | _, _, _, .variable h, _ => h.looseReturns
  | _, _, _, .statement h, hi => h.looseReturns hi

/-- **Declarations outside function bodies have no return outside them.** -/
theorem Declarations.looseReturns : ∀ {inside : Bool} {ts : List Token} {ss : List Stmt},
    Declarations inside ts ss → inside = false → Stmt.looseReturnsAll ss = []
  | _, _, _, .nil, _ => rfl
  | _, _, _, .cons h hs, hi => by
      rw [Stmt.looseReturnsAll, h.looseReturns hi, hs.looseReturns hi, List.append_nil]

end

end Grammar

end LoxLang
