/-
**No return is swallowed.**

Blocks, branches and loops pass a return on, and a call takes it.  So a statement without a return
outside function bodies never ends with one, whatever functions it calls.  A session executes a program
only if nothing was reported about it; such a program has no return outside function bodies, and none of
its statements ends with a return, which the session would ignore.

* `LoxLang.Machine.neverReturning` — **statements without a return outside function bodies**;
* `LoxLang.Session.reports_eq_nil_of_hadError` — programs that a session executes;
* `LoxLang.Session.no_return_swallowed` — **no return is swallowed**.
-/

import LoxLang.Proofs.Machine.Changes
import LoxLang.Proofs.Session.Runs
import LoxLang.Proofs.Syntax.Reading
import LoxLang.Proofs.Syntax.Returns

set_option relaxedAutoImplicit false
set_option autoImplicit false

namespace LoxLang

namespace Machine

/-! ### Statements -/

/-- If the run ends without a failure, it does not end with a return. -/
def NoReturn (outcome : Outcome Completion) : Prop :=
  outcome.Ends (fun completion _ => completion = .normal) fun _ _ => True

/-- Whatever the run comes to, what follows does not end with a return. -/
theorem noReturn_bind {α : Type} {outcome : Outcome α} {next : α → Machine → Outcome Completion}
    (hn : ∀ value m, NoReturn (next value m)) : NoReturn (outcome.bind next) := by
  have hany : outcome.Ends (fun _ _ => True) fun _ _ => True := by
    cases outcome <;> trivial
  exact hany.bind fun value m _ => hn value m

theorem NoReturn.bind {outcome : Outcome Completion} {next : Completion → Machine → Outcome Completion}
    (h : NoReturn outcome) (hn : ∀ m, NoReturn (next .normal m)) : NoReturn (outcome.bind next) := by
  refine Outcome.Ends.bind h fun completion m hc => ?_
  rw [hc]
  exact hn m

theorem noReturn_print (text : String) (m : Machine) : NoReturn (print text m) :=
  .print (fun _ => rfl) fun _ => trivial

/-- With so much fuel statements without a return outside function bodies do not end with one. -/
structure NeverReturning (fuel : Nat) : Prop where
  execute : ∀ s m, s.looseReturns = [] → NoReturn (Machine.execute fuel s m)
  repeating : ∀ condition body m, body.looseReturns = [] →
    NoReturn (Machine.repeating fuel condition body m)
  executeAll : ∀ ss m, Stmt.looseReturnsAll ss = [] → NoReturn (Machine.executeAll fuel ss m)
  executeIn : ∀ scope body m, Stmt.looseReturnsAll body = [] →
    NoReturn (Machine.executeIn fuel scope body m)

variable {fuel : Nat}

/-- What a function gives back stays in the expression that calls it. -/
theorem NeverReturning.execute_succ (h : NeverReturning fuel) (s : Stmt) (m : Machine)
    (hs : s.looseReturns = []) : NoReturn (Machine.execute (fuel + 1) s m) := by
  cases s with
  | block body => exact h.executeIn m.heap.next body _ hs
  | expression value => exact noReturn_bind fun _ _ => rfl
  | function name parameters body => exact rfl
  | branch condition thenBranch elseBranch =>
      refine noReturn_bind fun value m => ?_
      cases elseBranch with
      | none =>
          split
          · exact h.execute thenBranch m hs
          · exact rfl
      | some elseBranch =>
          obtain ⟨ht, he⟩ := List.append_eq_nil_iff.1 hs
          split
          · exact h.execute thenBranch m ht
          · exact h.execute elseBranch m he
  | print value => exact noReturn_bind fun _ _ => noReturn_bind fun text m => noReturn_print text m
  | giveBack keyword value => cases hs
  | declare name initializer =>
      cases initializer with
      | none => exact rfl
      | some value => exact noReturn_bind fun _ _ => rfl
  | loop condition body => exact h.repeating condition body m hs

theorem NeverReturning.repeating_succ (h : NeverReturning fuel) (condition : Expr) (body : Stmt)
    (m : Machine) (hb : body.looseReturns = []) :
    NoReturn (Machine.repeating (fuel + 1) condition body m) := by
  refine noReturn_bind fun value m => ?_
  split
  · exact (h.execute body m hb).bind fun m => h.repeating condition body m hb
  · exact rfl

theorem NeverReturning.executeAll_succ (h : NeverReturning fuel) (ss : List Stmt) (m : Machine)
    (hss : Stmt.looseReturnsAll ss = []) : NoReturn (Machine.executeAll (fuel + 1) ss m) := by
  cases ss with
  | nil => exact rfl
  | cons s ss =>
      obtain ⟨hs, hss⟩ := List.append_eq_nil_iff.1 hss
      exact (h.execute s m hs).bind fun m => h.executeAll ss m hss

theorem NeverReturning.executeIn_succ (h : NeverReturning fuel) (scope : Address)
    (body : List Stmt) (m : Machine) (hb : Stmt.looseReturnsAll body = []) :
    NoReturn (Machine.executeIn (fuel + 1) scope body m) :=
  Outcome.Ends.leaving (h.executeAll body (m.entering scope) hb) (fun _ _ hc => hc)
    fun _ _ hf => hf

/-- **Statements without a return outside function bodies do not end with one**, by induction on the
fuel. -/
theorem neverReturning (fuel : Nat) : NeverReturning fuel := by
  induction fuel with
  | zero =>
      constructor
      all_goals intros; trivial
  | succ fuel ih =>
      exact ⟨ih.execute_succ, ih.repeating_succ, ih.executeAll_succ, ih.executeIn_succ⟩

end Machine

/-! ### Sessions -/

/-- **A program that is read without a report** has no return outside function bodies. -/
theorem looseReturns_of_read {source : String} {program : List Stmt}
    (h : read source = ⟨[], .ok program⟩) : Stmt.looseReturnsAll program = [] := by
  obtain ⟨-, -, hp⟩ := read_eq_ok_iff.1 h
  generalize (scan source).tokens = tokens at hp
  obtain ⟨hd, -⟩ := hp
  exact hd.looseReturns rfl

namespace Diagnostics

theorem hadError_reportAll (d : Diagnostics) (reports : List Report) :
    (d.reportAll reports).hadError = (d.hadError || !reports.isEmpty) := by
  induction reports generalizing d with
  | nil => simp [reportAll]
  | cons r reports ih =>
      have hcons : d.reportAll (r :: reports) = (d.report r).reportAll reports := rfl
      rw [hcons, ih]
      simp [report]

end Diagnostics

namespace Session

/-- A session that has no error behind the reports about a text had none before, and there are no
reports. -/
theorem reports_eq_nil_of_hadError {s : Session} {reports : List Report}
    (h : (s.reporting reports).diagnostics.hadError = false) : reports = [] := by
  unfold reporting at h
  rw [Diagnostics.hadError_reportAll, Bool.or_eq_false_iff] at h
  simpa using h.2

/-- **No return is swallowed.**  A program that is read without a report has no return outside function
bodies.  A statement without one, executed in any state, does not end with a return.  So if a session
executes the program of a text, then none of its statements, each executed behind the others before it,
ends with a return. -/
theorem no_return_swallowed :
    (∀ source program, read source = ⟨[], .ok program⟩ → Stmt.looseReturnsAll program = []) ∧
      (∀ fuel s m, s.looseReturns = [] →
        ∀ completion m', Machine.execute fuel s m = .ok completion m' → completion = .normal) ∧
      ∀ (s : Session) fuel source program, (read source).program = .ok program →
        (s.reporting (read source).reports).diagnostics.hadError = false →
          s.run fuel source = s.interpret fuel program ∧
            ∀ before statement after, program = before ++ statement :: after →
              ∀ last m completion m', Machine.executeEach fuel before s.machine = .ok last m →
                Machine.execute fuel statement m = .ok completion m' → completion = .normal := by
  have hstatement : ∀ fuel s m, s.looseReturns = [] → ∀ completion m',
      Machine.execute fuel s m = .ok completion m' → completion = .normal :=
    fun fuel s m hs completion m' ho => ((Machine.neverReturning fuel).execute s m hs).of_ok ho
  refine ⟨fun source program => looseReturns_of_read, hstatement, ?_⟩
  intro s fuel source program hp he
  have hreports := reports_eq_nil_of_hadError he
  have hread : read source = ⟨[], .ok program⟩ := by
    rw [← hreports, ← hp]
  have hsame : s.reporting [] = s := rfl
  rw [hreports, hsame] at he
  constructor
  · unfold run
    rw [hread]
    dsimp only
    rw [hsame, he]
    rfl
  · rintro before statement after rfl last m completion m' - ho
    have hloose := Stmt.looseReturnsAll_eq_nil_iff.1 (looseReturns_of_read hread)
    exact hstatement fuel statement m (hloose statement (by simp)) completion m' ho

/-- Returns in blocks, branches and loops of functions, one of them within another. -/
def returningSource : String :=
  "fun f() \x7bfun g() \x7bwhile (true) return 1;\x7d if (g() == 1) \x7breturn g();\x7d\x7d f();"

/-- It is read without a report, and the call behind the declaration comes to its end. -/
theorem no_return_swallowed_returningSource :
    ∃ declaration call last m completion m',
      read returningSource = ⟨[], .ok [declaration, call]⟩ ∧
        Stmt.looseReturnsAll [declaration, call] = [] ∧
        Machine.executeEach 40 [declaration] (start fun _ => Binary64.zero).machine = .ok last m ∧
        Machine.execute 40 call m = .ok completion m' ∧ completion = .normal := by
  have hreports : (read returningSource).reports = [] := by decide +kernel
  have hlength : ((read returningSource).program.toOption.getD []).length = 2 := by decide +kernel
  have hends : (match Machine.executeEach 40
      ((read returningSource).program.toOption.getD []).dropLast
        (start fun _ => Binary64.zero).machine with
      | .ok _ m =>
          (match Machine.execute 40
            (((read returningSource).program.toOption.getD []).getLast?.getD (.block [])) m with
          | .ok _ _ => true
          | .failed _ _ => false
          | .outOfFuel => false)
      | .failed _ _ => false
      | .outOfFuel => false) = true := by decide +kernel
  cases hp : (read returningSource).program with
  | error fault =>
      rw [hp] at hlength
      cases hlength
  | ok program =>
      rw [hp] at hlength hends
      obtain ⟨declaration, call, rfl⟩ : ∃ declaration call, program = [declaration, call] := by
        rcases program with _ | ⟨declaration, _ | ⟨call, _ | ⟨other, others⟩⟩⟩
        · cases hlength
        · cases hlength
        · exact ⟨declaration, call, rfl⟩
        · simp [Except.toOption] at hlength
      split at hends
      · next last m hbefore =>
          split at hends
          · next completion m' ho =>
              have hread : read returningSource = ⟨[], .ok [declaration, call]⟩ := by
                rw [← hreports, ← hp]
              have herror : ((start fun _ => Binary64.zero).reporting
                  (read returningSource).reports).diagnostics.hadError = false := by
                rw [hreports]
                rfl
              have hcompletion := (no_return_swallowed.2.2 _ 40 _ _ hp herror).2 [declaration] call []
                rfl last m completion m' hbefore ho
              exact ⟨declaration, call, last, m, completion, m', hread,
                no_return_swallowed.1 _ _ hread, hbefore, ho, hcompletion⟩
          · cases hends
          · cases hends
      · cases hends
      · cases hends

end Session

end LoxLang
