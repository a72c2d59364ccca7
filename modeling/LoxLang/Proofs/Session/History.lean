/-
**What a session records.**

A run records the reports about its source text.  If no error of a source text is recorded since the
last reset, these included, it executes the program, and records the error that ends it if one does.  The
diagnostics of a session show all entries recorded since the start, and those since the last reset: an
error of a source text among the latter decides the exit code before an error of a program does, and
keeps everything from being executed until the next reset.

* `LoxLang.Entry`, `LoxLang.Session.recordings` — what a run records;
* `LoxLang.Session.History` — sessions with the entries recorded in them;
* `LoxLang.Session.RunEnds`, `LoxLang.Session.runEnds_of_run` — **the three ways in which a run ends**;
* `LoxLang.Session.History.diagnostics_eq` — **the diagnostics are those of the entries**;
* `LoxLang.Session.history_diagnostics` — streams, messages, exit codes and executions of a session.
-/

import LoxLang.Proofs.Session.Returns
import LoxLang.Proofs.Session.Runs

set_option relaxedAutoImplicit false
set_option autoImplicit false

namespace LoxLang

/-! ### Entries -/

/-- What a session records. -/
inductive Entry where
  /-- An error of a source text. -/
  | static (report : Report)
  /-- An error of a running program. -/
  | runtime (report : Report)

namespace Entry

/-- The wording of an entry. -/
def text : Entry → String
  | static report => report.text
  | runtime report => report.text

/-- The entry is an error of a source text. -/
def isStatic : Entry → Bool
  | static _ => true
  | runtime _ => false

/-- The entry is an error of a running program. -/
def isRuntime : Entry → Bool
  | static _ => false
  | runtime _ => true

end Entry

namespace Diagnostics

/-- Record an entry. -/
def record (d : Diagnostics) : Entry → Diagnostics
  | .static report => d.report report
  | .runtime report => d.reportRuntime report

/-- Record entries in order. -/
def recordAll (d : Diagnostics) (entries : List Entry) : Diagnostics := entries.foldl record d

/-- The diagnostics that show all entries, and those since the last reset. -/
def ofEntries (all since : List Entry) : Diagnostics where
  written := all.map Entry.text
  messages := since.map Entry.text
  hadError := since.any Entry.isStatic
  hadRuntimeError := since.any Entry.isRuntime

theorem record_ofEntries (all since : List Entry) (entry : Entry) :
    (ofEntries all since).record entry = ofEntries (all ++ [entry]) (since ++ [entry]) := by
  cases entry <;>
    simp [record, ofEntries, report, reportRuntime, write, Entry.text, Entry.isStatic,
      Entry.isRuntime]

/-- **Entries that are recorded are shown behind the others.** -/
theorem recordAll_ofEntries (all since entries : List Entry) :
    (ofEntries all since).recordAll entries = ofEntries (all ++ entries) (since ++ entries) := by
  induction entries generalizing all since with
  | nil => simp [recordAll]
  | cons entry entries ih =>
      have hcons : (ofEntries all since).recordAll (entry :: entries) =
          ((ofEntries all since).record entry).recordAll entries := rfl
      rw [hcons, record_ofEntries, ih, List.append_assoc, List.append_assoc, List.singleton_append]

/-- Reports are recorded as errors of a source text. -/
theorem recordAll_static (d : Diagnostics) (reports : List Report) :
    d.recordAll (reports.map .static) = d.reportAll reports := by
  unfold recordAll reportAll
  rw [List.foldl_map]
  rfl

theorem written_recordAll (d : Diagnostics) (entries : List Entry) :
    (d.recordAll entries).written = d.written ++ entries.map Entry.text := by
  induction entries generalizing d with
  | nil => simp [recordAll]
  | cons entry entries ih =>
      have hcons : d.recordAll (entry :: entries) = (d.record entry).recordAll entries := rfl
      rw [hcons, ih]
      cases entry <;> simp [record, report, reportRuntime, write, Entry.text]

/-- Reports about a source text are no errors of a program. -/
theorem hadRuntimeError_reportAll (d : Diagnostics) (reports : List Report) :
    (d.reportAll reports).hadRuntimeError = d.hadRuntimeError := by
  induction reports generalizing d with
  | nil => rfl
  | cons r reports ih => exact ih (d.report r)

theorem exitCode_eq_static_iff (d : Diagnostics) :
    d.exitCode = exitStatic ↔ d.hadError = true := by
  unfold exitCode
  cases d.hadError <;> cases d.hadRuntimeError <;> decide

theorem exitCode_eq_runtime_iff (d : Diagnostics) :
    d.exitCode = exitRuntime ↔ d.hadError = false ∧ d.hadRuntimeError = true := by
  unfold exitCode
  cases d.hadError <;> cases d.hadRuntimeError <;> decide

theorem exitCode_eq_success_iff (d : Diagnostics) :
    d.exitCode = exitSuccess ↔ d.hadError = false ∧ d.hadRuntimeError = false := by
  unfold exitCode
  cases d.hadError <;> cases d.hadRuntimeError <;> decide

end Diagnostics

/-! ### Runs -/

/-- The entry that a program leaves behind if it ends with an error. -/
def Outcome.entries : Outcome Completion → List Entry
  | .failed (.error error) _ => [.runtime error.report]
  | _ => []

namespace Session

/-- What a run of a source text records: the reports about it, and the error of its program if the
program is executed and ends with one. -/
def recordings (fuel : Nat) (source : String) (s : Session) : List Entry :=
  (read source).reports.map .static ++
    match (read source).program with
    | .error _ => []
    | .ok program =>
        if (s.reporting (read source).reports).diagnostics.hadError then []
        else (Machine.executeEach fuel program s.machine).entries

/-- How a run that leaves nothing to its caller ends, and what it records: nothing is executed, or the
program comes to its end, or it ends with an error. -/
inductive RunEnds (fuel : Nat) (source : String) (s : Session) : List Entry → Session → Prop
  | rejected {program : List Stmt} (hp : (read source).program = .ok program)
      (he : (s.reporting (read source).reports).diagnostics.hadError = true) :
      RunEnds fuel source s ((read source).reports.map .static)
        (s.reporting (read source).reports)
  | completed {program : List Stmt} {last : Completion} {machine : Machine}
      (he : s.diagnostics.hadError = false) (hr : read source = ⟨[], .ok program⟩)
      (ho : Machine.executeEach fuel program s.machine = .ok last machine) :
      RunEnds fuel source s [] { s with machine }
  | failed {program : List Stmt} {error : RuntimeError} {machine : Machine}
      (he : s.diagnostics.hadError = false) (hr : read source = ⟨[], .ok program⟩)
      (ho : Machine.executeEach fuel program s.machine = .failed (.error error) machine) :
      RunEnds fuel source s [.runtime error.report]
        ⟨machine, s.diagnostics.reportRuntime error.report⟩

/-- **A run that leaves nothing to its caller ends in one of three ways**, with its recordings. -/
theorem runEnds_of_run {fuel : Nat} {source : String} {s s' : Session}
    (h : s.run fuel source = (s', none)) :
    s.RunEnds fuel source (s.recordings fuel source) s' := by
  unfold run at h
  unfold recordings
  dsimp only at h
  cases hp : (read source).program with
  | error fault =>
      rw [hp] at h
      cases h
  | ok program =>
      rw [hp] at h
      dsimp only at h ⊢
      -- The flag may be set by this text or left over from one before.  If it is not set there are no
      -- reports, and the program is run.
      split at h
      · next he =>
          cases h
          rw [if_pos he, List.append_nil]
          exact .rejected hp he
      · next he =>
          have herror := eq_false_of_ne_true he
          have hreports := reports_eq_nil_of_hadError herror
          have hread : read source = ⟨[], .ok program⟩ := by
            rw [← hreports, ← hp]
          have hsame : s.reporting [] = s := rfl
          rw [if_neg he]
          rw [hreports, hsame] at h herror
          rw [hreports, List.map_nil, List.nil_append]
          unfold interpret at h
          cases ho : Machine.executeEach fuel program s.machine with
          | ok last machine =>
              rw [ho] at h
              cases h
              exact .completed herror hread ho
          | failed failure machine =>
              rw [ho] at h
              cases failure with
              | error error =>
                  cases h
                  exact .failed herror hread ho
              | breakdown problem => cases h
          | outOfFuel =>
              rw [ho] at h
              cases h

section

variable {fuel : Nat} {source : String} {s s' : Session} {entries : List Entry}

/-- The run records its entries, and does nothing else to the diagnostics. -/
theorem RunEnds.diagnostics_eq (h : s.RunEnds fuel source entries s') :
    s'.diagnostics = s.diagnostics.recordAll entries := by
  cases h with
  | rejected hp he => exact (Diagnostics.recordAll_static _ _).symm
  | completed he hr ho => rfl
  | failed he hr ho => rfl

/-- Where an error of a source text is recorded, nothing is executed. -/
theorem RunEnds.of_hadError (h : s.RunEnds fuel source entries s')
    (he' : s'.diagnostics.hadError = true) :
    s'.machine = s.machine ∧ entries = (read source).reports.map .static := by
  cases h with
  | rejected hp he => exact ⟨rfl, rfl⟩
  | completed he hr ho =>
      have hsame : s.diagnostics.hadError = true := he'
      rw [he] at hsame
      cases hsame
  | failed he hr ho =>
      have hsame : s.diagnostics.hadError = true := he'
      rw [he] at hsame
      cases hsame

/-- The errors of the source text come first, and behind them at most one error of the program, which
has been executed then. -/
theorem RunEnds.entries_eq (h : s.RunEnds fuel source entries s') :
    ∃ failure : Option Report,
      entries = (read source).reports.map .static ++ (failure.map .runtime).toList ∧
        (failure ≠ none → s'.diagnostics.hadError = false) := by
  cases h with
  | rejected hp he => exact ⟨none, (List.append_nil _).symm, fun hne => absurd rfl hne⟩
  | completed he hr ho => exact ⟨none, by rw [hr]; rfl, fun hne => absurd rfl hne⟩
  | @failed program error machine he hr ho =>
      exact ⟨some error.report, by rw [hr]; rfl, fun _ => he⟩

/-- An error of a source text is not forgotten by a run. -/
theorem RunEnds.hadError (h : s.RunEnds fuel source entries s')
    (he : s.diagnostics.hadError = true) : s'.diagnostics.hadError = true := by
  cases h with
  | rejected hp he' => exact he'
  | completed he' hr ho => exact he
  | failed he' hr ho => exact he

/-- Neither is an error of a program. -/
theorem RunEnds.hadRuntimeError (h : s.RunEnds fuel source entries s')
    (he : s.diagnostics.hadRuntimeError = true) : s'.diagnostics.hadRuntimeError = true := by
  cases h with
  | rejected hp he' => exact (Diagnostics.hadRuntimeError_reportAll _ _).trans he
  | completed he' hr ho => exact he
  | failed he' hr ho => rfl

end

/-! ### Runs without a reset -/

/-- The one session becomes the other by running source texts, with nothing left to the caller and
without a reset. -/
inductive Continues (s : Session) : Session → Prop
  | refl : Continues s s
  | run {s' s'' : Session} (h : Continues s s') {fuel : Nat} {source : String}
      (hr : s'.run fuel source = (s'', none)) : Continues s s''

/-- Between resets the exit code stays, or moves from success to an error, or from the error of a
program to one of a source text. -/
def ExitMoves (code code' : Nat) : Prop :=
  code' = code ∨ (code = exitSuccess ∧ (code' = exitRuntime ∨ code' = exitStatic)) ∨
    (code = exitRuntime ∧ code' = exitStatic)

theorem exitMoves_of_flags {d d' : Diagnostics} (h : d.hadError = true → d'.hadError = true)
    (h' : d.hadRuntimeError = true → d'.hadRuntimeError = true) :
    ExitMoves d.exitCode d'.exitCode := by
  unfold ExitMoves Diagnostics.exitCode
  revert h h'
  cases d.hadError <;> cases d.hadRuntimeError <;> cases d'.hadError <;>
    cases d'.hadRuntimeError <;> decide

section

variable {s s' : Session}

theorem Continues.hadRuntimeError (h : s.Continues s')
    (he : s.diagnostics.hadRuntimeError = true) : s'.diagnostics.hadRuntimeError = true := by
  induction h with
  | refl => exact he
  | run _ hr ih => exact (runEnds_of_run hr).hadRuntimeError ih

/-- **Behind an error of a source text nothing is executed until the next reset.** -/
theorem Continues.latched (h : s.Continues s') (he : s.diagnostics.hadError = true) :
    s'.diagnostics.hadError = true ∧ s'.machine = s.machine := by
  induction h with
  | refl => exact ⟨he, rfl⟩
  | run _ hr ih =>
      obtain ⟨he', hm⟩ := ih
      have hends := runEnds_of_run hr
      have herror := hends.hadError he'
      exact ⟨herror, (hends.of_hadError herror).1.trans hm⟩

end

/-! ### Histories -/

/-- The session comes about from a new one by running source texts, with nothing left to the caller, and
by resets.  The entries are all that were recorded on the way, and those since the last reset. -/
inductive History (clock : Nat → Binary64) (takes : String → Bool) :
    List Entry → List Entry → Session → Prop
  | start : History clock takes [] [] (start clock takes)
  | run {all since : List Entry} {s s' : Session} (h : History clock takes all since s) {fuel : Nat}
      {source : String} (hr : s.run fuel source = (s', none)) :
      History clock takes (all ++ s.recordings fuel source) (since ++ s.recordings fuel source) s'
  | reset {all since : List Entry} {s : Session} (h : History clock takes all since s) :
      History clock takes all [] s.reset

variable {clock : Nat → Binary64} {takes : String → Bool} {all since : List Entry} {s : Session}

/-- **The diagnostics of a session are those of its entries**, by induction on its history. -/
theorem History.diagnostics_eq (h : History clock takes all since s) :
    s.diagnostics = Diagnostics.ofEntries all since := by
  induction h with
  | start => rfl
  | run _ hr ih =>
      rw [(runEnds_of_run hr).diagnostics_eq, ih, Diagnostics.recordAll_ofEntries]
  | reset _ ih =>
      unfold Session.reset Diagnostics.reset
      rw [ih]
      rfl

/-- What a run does to a session with the given entries since its last reset. -/
structure RunRecords (since entries : List Entry) (source : String) (s s' : Session) : Prop where
  /-- The entries are recorded one by one. -/
  recorded : s'.diagnostics = s.diagnostics.recordAll entries
  /-- They are the errors of the source text, and behind them at most one error of the program, which
  is there only if no error of a source text is. -/
  entries_eq : ∃ failure : Option Report,
    entries = (read source).reports.map .static ++ (failure.map .runtime).toList ∧
      (failure ≠ none → s'.diagnostics.hadError = false)
  /-- Where an error of a source text is recorded, nothing is executed. -/
  latched : (∃ entry ∈ since ++ entries, entry.isStatic = true) →
    s'.machine = s.machine ∧ entries = (read source).reports.map .static

theorem History.runRecords (h : History clock takes all since s) {fuel : Nat} {source : String}
    {s' : Session} (hr : s.run fuel source = (s', none)) :
    RunRecords since (s.recordings fuel source) source s s' := by
  have hends := runEnds_of_run hr
  refine ⟨hends.diagnostics_eq, hends.entries_eq, fun hstatic => hends.of_hadError ?_⟩
  rw [(h.run hr).diagnostics_eq]
  exact List.any_eq_true.2 hstatic

/-- **What a session shows of its history.**  The stream holds the wordings of all entries, and the
messages are those since the last reset.  The exit code is decided by the errors of source texts since
then, and by those of programs only if there are none of the former.  A run records the errors of its
source text, and at most one error of its program behind them; where an error of a source text is
recorded, nothing is executed.  Until the next reset the exit code only moves from success towards the
error of a source text, and once it is there every run leaves the machine as it is. -/
theorem history_diagnostics (h : History clock takes all since s) :
    s.diagnostics.stream = Text.endLines (all.map Entry.text) ∧
      s.diagnostics.messages = since.map Entry.text ∧
      (s.diagnostics.exitCode = exitStatic ↔ ∃ entry ∈ since, entry.isStatic = true) ∧
      (s.diagnostics.exitCode = exitRuntime ↔
        (¬ ∃ entry ∈ since, entry.isStatic = true) ∧ ∃ entry ∈ since, entry.isRuntime = true) ∧
      (s.diagnostics.exitCode = exitSuccess ↔ since = []) ∧
      (∀ fuel source s', s.run fuel source = (s', none) →
        RunRecords since (s.recordings fuel source) source s s') ∧
      ∀ s', s.Continues s' →
        ExitMoves s.diagnostics.exitCode s'.diagnostics.exitCode ∧
          (s.diagnostics.exitCode = exitStatic →
            s'.diagnostics.exitCode = exitStatic ∧ s'.machine = s.machine) := by
  have hd := h.diagnostics_eq
  -- Both flags are read off the entries since the last reset.
  have hstatic : s.diagnostics.hadError = true ↔ ∃ entry ∈ since, entry.isStatic = true := by
    rw [hd]
    exact List.any_eq_true
  have hruntime :
      s.diagnostics.hadRuntimeError = true ↔ ∃ entry ∈ since, entry.isRuntime = true := by
    rw [hd]
    exact List.any_eq_true
  refine ⟨by rw [hd]; rfl, by rw [hd]; rfl, ?_, ?_, ?_, fun fuel source s' => h.runRecords, ?_⟩
  · rw [Diagnostics.exitCode_eq_static_iff, hstatic]
  · rw [Diagnostics.exitCode_eq_runtime_iff, hruntime, ← hstatic, Bool.not_eq_true]
  · rw [Diagnostics.exitCode_eq_success_iff, hd]
    cases since with
    | nil => simp [Diagnostics.ofEntries]
    | cons entry since => cases entry <;> simp [Diagnostics.ofEntries, Entry.isStatic, Entry.isRuntime]
  · intro s' hc
    refine ⟨exitMoves_of_flags (fun he => (hc.latched he).1) hc.hadRuntimeError, fun he => ?_⟩
    rw [Diagnostics.exitCode_eq_static_iff] at he ⊢
    exact hc.latched he

/-- A session in which a program fails, then a text is rejected, and then a program is not executed. -/
def latchedSession : Session :=
  ((((start fun _ => Binary64.zero).run 20 "print -nil;").1.run 20 "var;").1.run 20 "print 1;").1

/-- Nothing was printed, and the exit code is that of the rejected text. -/
theorem history_diagnostics_latchedSession :
    ∃ all since, History (fun _ => Binary64.zero) (fun _ => true) all since latchedSession ∧
      latchedSession.diagnostics.messages = since.map Entry.text ∧
      since.map Entry.text =
        ["[line 1] Error: Operand of '-' must be a number.",
          "[line 1] Error at ';': Expect variable name."] ∧
      latchedSession.diagnostics.exitCode = exitStatic ∧
      (latchedSession.run 20 "print 1;").1.machine.printed = #[] := by
  have hfirst : (start fun _ => Binary64.zero).run 20 "print -nil;" =
      (((start fun _ => Binary64.zero).run 20 "print -nil;").1, none) :=
    Prod.ext rfl (by decide +kernel)
  have hsecond : ((start fun _ => Binary64.zero).run 20 "print -nil;").1.run 20 "var;" =
      ((((start fun _ => Binary64.zero).run 20 "print -nil;").1.run 20 "var;").1, none) :=
    Prod.ext rfl (by decide +kernel)
  have hthird : (((start fun _ => Binary64.zero).run 20 "print -nil;").1.run 20 "var;").1.run 20
      "print 1;" = (latchedSession, none) := Prod.ext rfl (by decide +kernel)
  have hfourth : latchedSession.run 20 "print 1;" =
      ((latchedSession.run 20 "print 1;").1, none) := Prod.ext rfl (by decide +kernel)
  have hhistory := ((History.start.run hfirst).run hsecond).run hthird
  obtain ⟨-, hmessages, -, -, -, -, hcontinues⟩ := history_diagnostics hhistory
  have hshown : latchedSession.diagnostics.messages =
      ["[line 1] Error: Operand of '-' must be a number.",
        "[line 1] Error at ';': Expect variable name."] := by decide +kernel
  have hcode : latchedSession.diagnostics.exitCode = exitStatic := by decide +kernel
  have hprinted : latchedSession.machine.printed = #[] := by decide +kernel
  refine ⟨_, _, hhistory, hmessages, by rw [← hmessages, hshown], hcode, ?_⟩
  rw [((hcontinues _ (Continues.refl.run hfourth)).2 hcode).2, hprinted]

end Session

end LoxLang
