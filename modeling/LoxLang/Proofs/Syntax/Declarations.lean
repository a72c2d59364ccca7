/-
**Where declarations stand.**

A statement declares names in the scope that it is executed in: its own name if it is a declaration, and
those of the branches and loop bodies within it, but none of its blocks and function bodies.  In a program
that is read, be it with errors or without, no branch and no loop body is a declaration.  So there the
names that a list of statements declares are those of the declarations written directly in it.

* `LoxLang.Stmt.declared`, `LoxLang.Stmt.declaredAll` — the names that statements declare;
* `LoxLang.Stmt.declaredNames` — the declarations written directly in a list;
* `LoxLang.Stmt.Placed` — declarations stand in lists only;
* `LoxLang.Stmt.declaredAll_eq_declaredNames` — **what placed statements declare is written in them**;
* `LoxLang.Parser.placed_program` — **programs that are read are placed**.
-/

import LoxLang.Proofs.Syntax.ParserBuilds

set_option relaxedAutoImplicit false
set_option autoImplicit false

namespace LoxLang

/-! ### The names that statements declare -/

namespace Stmt

/-- The names that a statement declares in its scope. -/
def declared : Stmt → List String
  | .block _ => []
  | .expression _ => []
  | .function name _ _ => [name.lexeme]
  | .branch _ thenBranch none => thenBranch.declared
  | .branch _ thenBranch (some elseBranch) => thenBranch.declared ++ elseBranch.declared
  | .print _ => []
  | .giveBack _ _ => []
  | .declare name _ => [name.lexeme]
  | .loop _ body => body.declared

/-- The names that statements declare in their scope. -/
def declaredAll (ss : List Stmt) : List String := ss.flatMap declared

/-- The name of a declaration; none for other statements. -/
def declaredName? : Stmt → Option String
  | .function name _ _ => some name.lexeme
  | .declare name _ => some name.lexeme
  | _ => none

/-- The names of the declarations that stand directly in a list. -/
def declaredNames (ss : List Stmt) : List String := ss.filterMap declaredName?

mutual

/-- No branch and no loop body in the statement is a declaration. -/
def Placed : Stmt → Prop
  | .block body => AllPlaced body
  | .expression _ => True
  | .function _ _ body => AllPlaced body
  | .branch _ thenBranch none => thenBranch.declaredName? = none ∧ thenBranch.Placed
  | .branch _ thenBranch (some elseBranch) =>
      (thenBranch.declaredName? = none ∧ thenBranch.Placed) ∧
        elseBranch.declaredName? = none ∧ elseBranch.Placed
  | .print _ => True
  | .giveBack _ _ => True
  | .declare _ _ => True
  | .loop _ body => body.declaredName? = none ∧ body.Placed

/-- No branch and no loop body in the statements is a declaration. -/
def AllPlaced : List Stmt → Prop
  | [] => True
  | s :: ss => s.Placed ∧ AllPlaced ss

end

/-- The statement is placed, and no declaration itself. -/
def PlacedBelow (s : Stmt) : Prop := s.declaredName? = none ∧ s.Placed

theorem declared_eq_toList : ∀ {s : Stmt}, s.Placed → s.declared = s.declaredName?.toList
  | .block _, _ => rfl
  | .expression _, _ => rfl
  | .function _ _ _, _ => rfl
  | .branch _ thenBranch none, ⟨hname, hplaced⟩ => by
      rw [declared, declared_eq_toList hplaced, hname]
      rfl
  | .branch _ thenBranch (some elseBranch), ⟨⟨hname, hplaced⟩, hname', hplaced'⟩ => by
      rw [declared, declared_eq_toList hplaced, declared_eq_toList hplaced', hname, hname']
      rfl
  | .print _, _ => rfl
  | .giveBack _ _, _ => rfl
  | .declare _ _, _ => rfl
  | .loop _ body, ⟨hname, hplaced⟩ => by
      rw [declared, declared_eq_toList hplaced, hname]
      rfl

/-- **What placed statements declare is written directly in them.** -/
theorem declaredAll_eq_declaredNames {ss : List Stmt} (h : AllPlaced ss) :
    declaredAll ss = declaredNames ss := by
  induction ss with
  | nil => rfl
  | cons s ss ih =>
      have hfirst := declared_eq_toList h.1
      have hothers := ih h.2
      unfold declaredAll declaredNames at hothers ⊢
      rw [List.flatMap_cons, hfirst, hothers, List.filterMap_cons]
      cases s.declaredName? <;> rfl

theorem allPlaced_iff {ss : List Stmt} : AllPlaced ss ↔ ∀ s ∈ ss, s.Placed := by
  induction ss with
  | nil => exact ⟨fun _ => List.forall_mem_nil _, fun _ => trivial⟩
  | cons s ss ih => rw [AllPlaced, ih, List.forall_mem_cons]

end Stmt

/-! ### Programs that are read -/

namespace Parser

open Stmt (Placed PlacedBelow AllPlaced)

/-- A statement is placed if its parts are, and only below branches and loops it must not be a
declaration. -/
theorem inherited_placed : Inherited (fun _ => True) Placed PlacedBelow where
  weaken := And.right
  function := Stmt.allPlaced_iff.2
  declare := fun _ => trivial
  block := fun h => ⟨rfl, Stmt.allPlaced_iff.2 h⟩
  expression := fun _ => ⟨rfl, trivial⟩
  print := fun _ => ⟨rfl, trivial⟩
  giveBack := fun _ => ⟨rfl, trivial⟩
  branch := by
    intro condition thenBranch elseBranch _ ht he
    cases elseBranch with
    | none => exact ⟨rfl, ht⟩
    | some s => exact ⟨rfl, ht, he s rfl⟩
  loop := fun _ hb => ⟨rfl, hb⟩
  always := trivial

/-- **In a program that the parser answers declarations stand in lists only**, whatever errors are
recorded. -/
theorem placed_program (fuel : Nat) : Builds AllPlaced (program fuel) :=
  (inherited_placed.builds_program (fun _ => builds_any _) fuel).mono fun _ => Stmt.allPlaced_iff.2

end Parser

end LoxLang
