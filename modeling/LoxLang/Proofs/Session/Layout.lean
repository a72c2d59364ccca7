/-
**Layout does not change meaning.**

Programs that differ in the lines of their tokens only, executed in states that differ in the lines of
functions only, run alike: with the same fuel both of them need more, or both end, with the same text
printed, in states that differ in such lines, and with values, completions and failures that differ in
nothing else.  So sessions whose reports differ in line numbers stay so, and a text about which nothing
is reported runs like the lexemes of its tokens with one space between any two.

* `LoxLang.Value.Alike`, `LoxLang.RuntimeError.Alike`, `LoxLang.Outcome.Alike` — what differs in lines
  only;
* `LoxLang.Machine.evaluate_alike`, `LoxLang.Machine.execute_alike` — expressions and statements;
* `LoxLang.Report.SameBehindLine`, `LoxLang.Session.Alike` — sessions that differ in lines only;
* `LoxLang.Session.interpret_alike`, `LoxLang.Session.run_alike_of_read` — programs and texts;
* `LoxLang.Session.run_layout` — **runs on other lines**.
-/

import Mathlib.Data.List.Forall2
import LoxLang.Proofs.Machine.Relabel
import LoxLang.Proofs.Session.Runs
import LoxLang.Proofs.Syntax.Reading
import LoxLang.Proofs.Syntax.Relexing

set_option relaxedAutoImplicit false
set_option autoImplicit false

namespace LoxLang

/-! ### What differs in lines only -/

/-- The expressions differ in the lines of their tokens only. -/
def Expr.Alike (e e' : Expr) : Prop := e.relabel (fun _ => 0) = e'.relabel (fun _ => 0)

/-- The statements differ in the lines of their tokens only. -/
def Stmt.Alike (s s' : Stmt) : Prop := s.relabel (fun _ => 0) = s'.relabel (fun _ => 0)

/-- The programs differ in the lines of their tokens only. -/
def Stmt.AllAlike (program program' : List Stmt) : Prop :=
  Stmt.relabelAll (fun _ => 0) program = Stmt.relabelAll (fun _ => 0) program'

/-- The values differ in the lines of a function only. -/
def Value.Alike (value value' : Value) : Prop :=
  value.relabel (fun _ => 0) = value'.relabel (fun _ => 0)

/-- The statements ended the same way, with values that differ in lines only. -/
inductive Completion.Alike : Completion → Completion → Prop where
  | normal : Alike .normal .normal
  | returned {value value' : Value} (h : value.Alike value') :
      Alike (.returned value) (.returned value')

/-- The errors have the same cause, which has the numbers of a wrong call in it, the same lexeme and the
same wording. -/
structure RuntimeError.Alike (error error' : RuntimeError) : Prop where
  cause : error.cause = error'.cause
  lexeme : error.token.lexeme = error'.token.lexeme
  message : error.message = error'.message

/-- The failures are errors that differ in lines only, or the same breakdown. -/
inductive Failure.Alike : Failure → Failure → Prop where
  | error {error error' : RuntimeError} (h : error.Alike error') : Alike (.error error) (.error error')
  | breakdown {problem : Breakdown} : Alike (.breakdown problem) (.breakdown problem)

/-- Both runs need more fuel, or both end alike, in states that differ in lines only. -/
inductive Outcome.Alike {α : Type} (Same : α → α → Prop) : Outcome α → Outcome α → Prop where
  | ok {value value' : α} {m m' : Machine} (h : Same value value') (hm : m.Alike m') :
      Alike Same (.ok value m) (.ok value' m')
  | failed {failure failure' : Failure} {m m' : Machine} (h : failure.Alike failure')
      (hm : m.Alike m') : Alike Same (.failed failure m) (.failed failure' m')
  | outOfFuel : Alike Same .outOfFuel .outOfFuel

/-! ### Once all tokens stand on one line -/

theorem RuntimeError.alike_of_relabel {error error' : RuntimeError}
    (h : error.relabel (fun _ => 0) = error'.relabel (fun _ => 0)) : error.Alike error' := by
  have hcause := congrArg RuntimeError.cause h
  have hlexeme := congrArg (fun found : RuntimeError => found.token.lexeme) h
  exact ⟨hcause, hlexeme, congrArg₂ (fun lexeme cause => RuntimeCause.message lexeme cause)
    hlexeme hcause⟩

theorem Failure.alike_of_relabel {failure failure' : Failure}
    (h : failure.relabel (fun _ => 0) = failure'.relabel (fun _ => 0)) :
    failure.Alike failure' := by
  cases failure with
  | error error =>
      cases failure' with
      | error error' => exact .error (RuntimeError.alike_of_relabel (Failure.error.inj h))
      | breakdown problem => cases h
  | breakdown problem =>
      cases failure' with
      | error error' => cases h
      | breakdown problem' =>
          cases h
          exact .breakdown

theorem Completion.alike_of_relabel {last last' : Completion}
    (h : last.relabel (fun _ => 0) = last'.relabel (fun _ => 0)) : last.Alike last' := by
  cases last with
  | normal =>
      cases last' with
      | normal => exact .normal
      | returned value => cases h
  | returned value =>
      cases last' with
      | normal => cases h
      | returned value' => exact .returned (Completion.returned.inj h)

/-- Runs are alike that are the same once all tokens stand on one line. -/
theorem Outcome.alike_of_relabel {α : Type} {change : α → α} {Same : α → α → Prop}
    (hsame : ∀ value value', change value = change value' → Same value value')
    {outcome outcome' : Outcome α}
    (h : outcome.relabel (fun _ => 0) change = outcome'.relabel (fun _ => 0) change) :
    outcome.Alike Same outcome' := by
  cases outcome with
  | ok value m =>
      cases outcome' with
      | ok value' m' =>
          obtain ⟨hvalue, hm⟩ := Outcome.ok.inj h
          exact .ok (hsame _ _ hvalue) hm
      | _ => cases h
  | failed failure m =>
      cases outcome' with
      | failed failure' m' =>
          obtain ⟨hfailure, hm⟩ := Outcome.failed.inj h
          exact .failed (Failure.alike_of_relabel hfailure) hm
      | _ => cases h
  | outOfFuel =>
      cases outcome' with
      | outOfFuel => exact .outOfFuel
      | _ => cases h

/-! ### Expressions, statements and programs -/

namespace Machine

variable {m m' : Machine} (fuel : Nat)

/-- **Expressions that differ in lines are evaluated alike.** -/
theorem evaluate_alike {e e' : Expr} (he : e.Alike e') (hm : m.Alike m') :
    (evaluate fuel e m).Alike Value.Alike (evaluate fuel e' m') := by
  refine Outcome.alike_of_relabel (fun _ _ h => h) ?_
  rw [← (blind _ fuel).evaluate, ← (blind _ fuel).evaluate, he, hm]

/-- **Statements that differ in lines are executed alike.** -/
theorem execute_alike {s s' : Stmt} (hs : s.Alike s') (hm : m.Alike m') :
    (execute fuel s m).Alike Completion.Alike (execute fuel s' m') := by
  refine Outcome.alike_of_relabel (fun _ _ => Completion.alike_of_relabel) ?_
  rw [← (blind _ fuel).execute, ← (blind _ fuel).execute, hs, hm]

theorem executeEach_allAlike {program program' : List Stmt} (hp : Stmt.AllAlike program program')
    (hm : m.Alike m') :
    (executeEach fuel program m).Alike Completion.Alike (executeEach fuel program' m') := by
  refine Outcome.alike_of_relabel (fun _ _ => Completion.alike_of_relabel) ?_
  rw [← executeEach_relabel, ← executeEach_relabel, hp, hm]

end Machine

/-! ### Sessions -/

/-- The texts are reports with the same wording behind the number of the line. -/
inductive Report.SameBehindLine : String → String → Prop where
  | text (line line' : Int) (place message : String) :
      SameBehindLine (Report.text ⟨line, place, message⟩) (Report.text ⟨line', place, message⟩)

theorem RuntimeError.Alike.sameBehindLine {error error' : RuntimeError} (h : error.Alike error') :
    Report.SameBehindLine error.report.text error'.report.text := by
  have hreport : error'.report = ⟨error'.token.line, "", error.message⟩ := by
    rw [h.message]
    rfl
  rw [hreport]
  exact .text _ _ _ _

namespace Session

/-- The sessions differ in the lines of functions and of reports only. -/
structure Alike (s s' : Session) : Prop where
  machine : s.machine.Alike s'.machine
  written : List.Forall₂ Report.SameBehindLine s.diagnostics.written s'.diagnostics.written
  messages : List.Forall₂ Report.SameBehindLine s.diagnostics.messages s'.diagnostics.messages
  hadError : s.diagnostics.hadError = s'.diagnostics.hadError
  hadRuntimeError : s.diagnostics.hadRuntimeError = s'.diagnostics.hadRuntimeError

variable {s s' : Session}

theorem alike_start (clock : Nat → Binary64) (takes : String → Bool) :
    (start clock takes).Alike (start clock takes) :=
  ⟨rfl, .nil, .nil, rfl, rfl⟩

theorem Alike.output (h : s.Alike s') : s.output = s'.output :=
  congrArg (fun printed => Text.endLines (Array.toList printed)) h.machine.printed

theorem Alike.exitCode (h : s.Alike s') : s.diagnostics.exitCode = s'.diagnostics.exitCode := by
  unfold Diagnostics.exitCode
  rw [h.hadError, h.hadRuntimeError]

/-- Errors that differ in lines are reported alike. -/
theorem Alike.reportRuntime (h : s.Alike s') {m m' : Machine} (hm : m.Alike m')
    {error error' : RuntimeError} (he : error.Alike error') :
    Session.Alike ⟨m, s.diagnostics.reportRuntime error.report⟩
      ⟨m', s'.diagnostics.reportRuntime error'.report⟩ where
  machine := hm
  written := List.rel_append h.written (.cons he.sameBehindLine .nil)
  messages := List.rel_append h.messages (.cons he.sameBehindLine .nil)
  hadError := h.hadError
  hadRuntimeError := rfl

/-- **Programs that differ in lines are interpreted alike**, in sessions that differ in lines. -/
theorem interpret_alike (fuel : Nat) {program program' : List Stmt}
    (hp : Stmt.AllAlike program program') (h : s.Alike s') :
    (s.interpret fuel program).1.Alike (s'.interpret fuel program').1 ∧
      (s.interpret fuel program).2 = (s'.interpret fuel program').2 := by
  have hrun := Machine.executeEach_allAlike fuel hp h.machine
  unfold interpret
  generalize Machine.executeEach fuel program s.machine = outcome at hrun ⊢
  generalize Machine.executeEach fuel program' s'.machine = outcome' at hrun ⊢
  cases hrun with
  | ok _ hm => exact ⟨⟨hm, h.written, h.messages, h.hadError, h.hadRuntimeError⟩, rfl⟩
  | failed hfailure hm =>
      cases hfailure with
      | error herror => exact ⟨h.reportRuntime hm herror, rfl⟩
      | breakdown => exact ⟨⟨hm, h.written, h.messages, h.hadError, h.hadRuntimeError⟩, rfl⟩
  | outOfFuel => exact ⟨h, rfl⟩

/-! ### Texts -/

/-- A text about which nothing is reported is interpreted as its program. -/
theorem run_eq_interpret {source : String} {program : List Stmt}
    (hr : read source = ⟨[], .ok program⟩) (he : s.diagnostics.hadError = false) (fuel : Nat) :
    s.run fuel source = s.interpret fuel program := by
  have hsame : s.reporting [] = s := rfl
  unfold run
  rw [hr]
  dsimp only
  rw [hsame, he]
  exact if_neg Bool.false_ne_true

/-- Tokens that differ in lines only from some that are read without a report are read so too, as a
program that differs in lines. -/
theorem readTokens_eq_ok {tokens tokens' : List Token} {program : List Stmt}
    (ht : tokens'.map (Token.relabel fun _ => 0) = tokens.map (Token.relabel fun _ => 0))
    (hr : readTokens tokens = ⟨[], .ok program⟩) :
    ∃ program', readTokens tokens' = ⟨[], .ok program'⟩ ∧ Stmt.AllAlike program program' := by
  have hparse := parse_relabel (fun _ => 0) tokens'
  rw [ht, parse_relabel] at hparse
  unfold readTokens at hr ⊢
  cases hp : parse tokens with
  | ok found t =>
      rw [hp] at hr hparse
      simp only [Reading.mk.injEq, List.map_eq_nil_iff, Except.ok.injEq] at hr
      obtain ⟨hnone, rfl⟩ := hr
      cases hp' : parse tokens' with
      | ok program' t' =>
          rw [hp'] at hparse
          simp only [Reply.relabel, Reply.ok.injEq, ParserState.relabel, ParserState.mk.injEq,
            hnone, List.map_nil] at hparse
          obtain ⟨hprogram, -, -, herrors⟩ := hparse
          refine ⟨program', ?_, hprogram⟩
          dsimp only
          rw [List.map_eq_nil_iff.1 herrors.symm]
          rfl
      | _ =>
          rw [hp'] at hparse
          cases hparse
  | _ => simp [hp] at hr

/-- The lexemes of a text about which nothing is reported are read without a report, as a program that
differs in lines. -/
theorem read_relexed {source : String} {program : List Stmt}
    (hr : read source = ⟨[], .ok program⟩) :
    ∃ program', read (relexed (scan source).tokens) = ⟨[], .ok program'⟩ ∧
      Stmt.AllAlike program program' := by
  obtain ⟨-, -, hprogram⟩ := read_eq_ok_iff.1 hr
  obtain ⟨htokens, herrors, hlong⟩ := scan_relexed_tokens source
  obtain ⟨program', hr', hp⟩ :=
    readTokens_eq_ok htokens ((readTokens_eq_ok_iff (endsOnce_scan source)).2 hprogram)
  exact ⟨program', read_eq_ok_iff.2 ⟨hlong, herrors,
    (readTokens_eq_ok_iff (endsOnce_scan _)).1 hr'⟩, hp⟩

theorem run_alike_of_read {source : String} {program : List Stmt}
    (hr : read source = ⟨[], .ok program⟩) (clock : Nat → Binary64) (takes : String → Bool)
    (fuel : Nat) :
    ((start clock takes).run fuel source).1.Alike
        ((start clock takes).run fuel (relexed (scan source).tokens)).1 ∧
      ((start clock takes).run fuel source).2 =
        ((start clock takes).run fuel (relexed (scan source).tokens)).2 := by
  obtain ⟨program', hr', hp⟩ := read_relexed hr
  rw [run_eq_interpret hr rfl, run_eq_interpret hr' rfl]
  exact interpret_alike fuel hp (alike_start clock takes)

/-- **Layout does not change meaning.**  Expressions, statements and programs that differ in the lines of
their tokens, run in states that differ in the lines of functions, run alike, whatever the fuel.  A text
about which nothing is reported, and the lexemes of its tokens with one space between any two, each run in
a new session with the same clock and output, leave the same failure to their caller or none, print the
same, end with the same exit code, and are reported the same errors behind the numbers of their lines. -/
theorem run_layout :
    (∀ fuel e e' (m m' : Machine), Expr.Alike e e' → m.Alike m' →
        (Machine.evaluate fuel e m).Alike Value.Alike (Machine.evaluate fuel e' m')) ∧
      (∀ fuel s s' (m m' : Machine), Stmt.Alike s s' → m.Alike m' →
        (Machine.execute fuel s m).Alike Completion.Alike (Machine.execute fuel s' m')) ∧
      (∀ fuel program program' (s s' : Session), Stmt.AllAlike program program' → s.Alike s' →
        (s.interpret fuel program).2 = (s'.interpret fuel program').2 ∧
          (s.interpret fuel program).1.Alike (s'.interpret fuel program').1) ∧
      ∀ clock takes fuel source program, read source = ⟨[], .ok program⟩ →
        ∃ s s' fault, (start clock takes).run fuel source = (s, fault) ∧
          (start clock takes).run fuel (relexed (scan source).tokens) = (s', fault) ∧
          s.output = s'.output ∧ s.diagnostics.exitCode = s'.diagnostics.exitCode ∧
          List.Forall₂ Report.SameBehindLine s.diagnostics.written s'.diagnostics.written ∧
          s.Alike s' := by
  refine ⟨fun fuel _ _ _ _ he hm => Machine.evaluate_alike fuel he hm,
    fun fuel _ _ _ _ hs hm => Machine.execute_alike fuel hs hm, ?_, ?_⟩
  · intro fuel program program' s s' hp h
    obtain ⟨halike, hfault⟩ := interpret_alike fuel hp h
    exact ⟨hfault, halike⟩
  · intro clock takes fuel source program hr
    obtain ⟨halike, hfault⟩ := run_alike_of_read hr clock takes fuel
    exact ⟨_, _, _, rfl, Prod.ext rfl hfault.symm, halike.output, halike.exitCode, halike.written,
      halike⟩

/-- A function that fails, over several lines with a comment. -/
def spreadSource : String := "fun f(a) \x7b // ends\n  print a;\n  return -nil;\n\x7d\nf(\n1);"

/-- A name on a line. -/
def nameOn (line : Int) : Expr := .lookup ⟨.identifier, "x", none, line⟩

/-- The function prints its argument, and its error is reported on its line; a name on two lines. -/
theorem run_spreadSource :
    ((Machine.evaluate 9 (nameOn 1) (start fun _ => .zero).machine).Alike Value.Alike
        (Machine.evaluate 9 (nameOn 2) (start fun _ => .zero).machine) ∧
      (Machine.execute 9 (.print (nameOn 1)) (start fun _ => .zero).machine).Alike Completion.Alike
        (Machine.execute 9 (.print (nameOn 2)) (start fun _ => .zero).machine) ∧
      ((start fun _ => .zero).interpret 9 [.print (nameOn 1)]).2 =
        ((start fun _ => .zero).interpret 9 [.print (nameOn 2)]).2) ∧
    relexed (scan spreadSource).tokens =
        "fun f ( a ) \x7b print a ; return - nil ; \x7d f ( 1 ) ;" ∧
      ∃ s s' fault, (start fun _ => .zero).run 20 spreadSource = (s, fault) ∧
        (start fun _ => .zero).run 20 (relexed (scan spreadSource).tokens) = (s', fault) ∧
        s'.output = "1\n" ∧ s'.diagnostics.exitCode = exitRuntime ∧
        s.diagnostics.written = ["[line 3] Error: Operand of '-' must be a number."] ∧
        List.Forall₂ Report.SameBehindLine s.diagnostics.written s'.diagnostics.written := by
  have hread : ∃ program, read spreadSource = ⟨[], .ok program⟩ :=
    ⟨_, read_eq_of_isOk (by decide +kernel) (by decide +kernel)⟩
  obtain ⟨program, hr⟩ := hread
  obtain ⟨hevaluate, hexecute, hinterpret, hruns⟩ := run_layout
  obtain ⟨s, s', fault, hs, hs', houtput, hcode, hwritten, -⟩ :=
    hruns (fun _ => .zero) (fun _ => true) 20 spreadSource program hr
  have hend : ((start fun _ => .zero).run 20 spreadSource).1 = s := congrArg Prod.fst hs
  refine ⟨⟨hevaluate 9 _ _ _ _ rfl rfl, hexecute 9 _ _ _ _ rfl rfl,
    (hinterpret 9 _ _ _ _ rfl (alike_start _ _)).1⟩, by decide +kernel, s, s', fault, hs, hs',
    ?_, ?_, ?_, hwritten⟩
  · rw [← houtput, ← hend]
    decide +kernel
  · rw [← hcode, ← hend]
    decide +kernel
  · rw [← hend]
    decide +kernel

end Session

end LoxLang
