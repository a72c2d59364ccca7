/-
**What one program does to a session.**

Reports are only ever added to what was written, and texts to what was printed.  So a program about
which nothing was written was read without a report and ran to its end.

* `LoxLang.Session.Extends` — what was written and printed is still there;
* `LoxLang.Session.run_extends`, `LoxLang.Session.enter_extends`, `LoxLang.Session.dialogue_extends` —
  **sessions only add**;
* `LoxLang.Session.run_eq_of_quiet` — **a program without a report**;
* `LoxLang.Session.output_append_outputSince` — what was printed before and since.
-/

import LoxLang.Proofs.Machine.Changes
import LoxLang.Session

set_option relaxedAutoImplicit false
set_option autoImplicit false

namespace LoxLang

/-! ### Reports -/

namespace Diagnostics

theorem written_reportAll (d : Diagnostics) (reports : List Report) :
    (d.reportAll reports).written = d.written ++ reports.map Report.text := by
  induction reports generalizing d with
  | nil => simp [reportAll]
  | cons r reports ih =>
      have hcons : d.reportAll (r :: reports) = (d.report r).reportAll reports := rfl
      rw [hcons, ih]
      simp [report, write]

end Diagnostics

namespace Session

/-- The one session comes before the other: it has written and printed no more. -/
structure Extends (s s' : Session) : Prop where
  written : s.diagnostics.written <+: s'.diagnostics.written
  printed : s.machine.printed.toList <+: s'.machine.printed.toList

theorem Extends.refl (s : Session) : s.Extends s := ⟨List.prefix_refl _, List.prefix_refl _⟩

theorem Extends.trans {s₁ s₂ s₃ : Session} (h : s₁.Extends s₂) (h' : s₂.Extends s₃) :
    s₁.Extends s₃ := ⟨h.written.trans h'.written, h.printed.trans h'.printed⟩

/-- What wrote nothing new at all wrote nothing new at first. -/
theorem Extends.written_eq {s₁ s₂ s₃ : Session} (h : s₁.Extends s₂) (h' : s₂.Extends s₃)
    (he : s₃.diagnostics.written = s₁.diagnostics.written) :
    s₂.diagnostics.written = s₁.diagnostics.written := by
  have hback : s₂.diagnostics.written <+: s₁.diagnostics.written := by
    rw [← he]
    exact h'.written
  exact (h.written.eq_of_length_le hback.length_le).symm

theorem extends_reporting (s : Session) (reports : List Report) :
    s.Extends (s.reporting reports) := by
  refine ⟨?_, List.prefix_refl _⟩
  unfold reporting
  rw [Diagnostics.written_reportAll]
  exact List.prefix_append _ _

theorem extends_interpret (fuel : Nat) (program : List Stmt) (s : Session) :
    s.Extends (s.interpret fuel program).1 := by
  have hleads := Machine.leadsOn_executeEach fuel program s.machine
  unfold interpret
  cases ho : Machine.executeEach fuel program s.machine with
  | ok last machine =>
      exact ⟨List.prefix_refl _, (hleads.of_ok ho).printed⟩
  | failed failure machine =>
      have hm := (hleads.of_failed ho).printed
      cases failure with
      | error error => exact ⟨List.prefix_append _ _, hm⟩
      | breakdown problem => exact ⟨List.prefix_refl _, hm⟩
  | outOfFuel => exact .refl s

/-- **Running a program only adds.** -/
theorem run_extends (fuel : Nat) (source : String) (s : Session) :
    s.Extends (s.run fuel source).1 := by
  have hreporting := extends_reporting s (read source).reports
  unfold run
  dsimp only
  split
  · exact hreporting
  · split
    · exact hreporting
    · exact hreporting.trans (extends_interpret fuel _ _)

theorem enter_extends (fuel : Nat) (line : String) (s : Session) :
    s.Extends (s.enter fuel line).1 := by
  have hrun := run_extends fuel line s
  unfold enter
  split
  · next he =>
      rw [he] at hrun
      exact ⟨hrun.written, hrun.printed⟩
  · next he =>
      rw [he] at hrun
      exact hrun

/-- **A dialogue only adds.** -/
theorem dialogue_extends (fuel : Nat) (lines : List String) (s : Session) :
    s.Extends (dialogue fuel lines s).2.1 := by
  induction lines generalizing s with
  | nil => exact .refl s
  | cons line lines ih =>
      have henter := enter_extends fuel line s
      unfold dialogue
      split
      · next he =>
          rw [he] at henter
          exact henter.trans (ih _)
      · next he =>
          rw [he] at henter
          exact henter

/-- A dialogue without a fault goes on after its first line. -/
theorem dialogue_cons {fuel : Nat} {line : String} {lines : List String} {s last : Session}
    {after : List Session} (h : dialogue fuel (line :: lines) s = (after, last, none)) :
    ∃ s' others, s.run fuel line = (s', none) ∧
      dialogue fuel lines s'.reset = (others, last, none) ∧ after = s'.reset :: others := by
  rw [dialogue, enter] at h
  rcases hrun : s.run fuel line with ⟨s', _ | fault⟩
  · rw [hrun] at h
    dsimp only at h
    rcases hd : dialogue fuel lines s'.reset with ⟨others, last', _ | fault⟩
    · rw [hd] at h
      cases h
      exact ⟨s', others, rfl, hd, rfl⟩
    · rw [hd] at h
      cases h
  · rw [hrun] at h
    cases h

/-! ### Programs without a report -/

/-- **A program about which nothing is written** is read without a report and runs to its end. -/
theorem run_eq_of_quiet {fuel : Nat} {source : String} {s s' : Session}
    (he : s.diagnostics.hadError = false) (h : s.run fuel source = (s', none))
    (hq : s'.diagnostics.written = s.diagnostics.written) :
    ∃ program last machine, read source = ⟨[], .ok program⟩ ∧
      Machine.executeEach fuel program s.machine = .ok last machine ∧
      s' = { s with machine } := by
  have hreports : (read source).reports = [] := by
    have hbefore := extends_reporting s (read source).reports
    have hafter : (s.reporting (read source).reports).Extends s' := by
      unfold run at h
      dsimp only at h
      split at h
      · cases h
      · split at h
        · cases h
          exact .refl _
        · next program _ _ =>
            have hinterpret := extends_interpret fuel program (s.reporting (read source).reports)
            rw [h] at hinterpret
            exact hinterpret
    have hwritten := hbefore.written_eq hafter hq
    unfold reporting at hwritten
    rw [Diagnostics.written_reportAll] at hwritten
    exact List.map_eq_nil_iff.1 (List.append_right_eq_self.1 hwritten)
  have hsame : s.reporting [] = s := rfl
  unfold run at h
  dsimp only at h
  rw [hreports, hsame] at h
  cases hp : (read source).program with
  | error fault =>
      rw [hp] at h
      cases h
  | ok program =>
      rw [hp, he] at h
      simp only [Bool.false_eq_true, if_false] at h
      have hread : read source = ⟨[], .ok program⟩ := by
        rw [← hreports, ← hp]
      unfold interpret at h
      cases ho : Machine.executeEach fuel program s.machine with
      | ok last machine =>
          rw [ho] at h
          cases h
          exact ⟨program, last, machine, hread, ho, rfl⟩
      | failed failure machine =>
          rw [ho] at h
          cases failure with
          | error error =>
              -- The error of a program is a report of its own.
              cases h
              exact absurd hq (by simp [Diagnostics.reportRuntime, Diagnostics.write])
          | breakdown problem => cases h
      | outOfFuel =>
          rw [ho] at h
          cases h

/-- A text that is read without a report runs as its program. -/
theorem run_of_read {fuel : Nat} {source : String} {s : Session} {program : List Stmt}
    {last : Completion} {machine : Machine} (he : s.diagnostics.hadError = false)
    (hr : read source = ⟨[], .ok program⟩)
    (ho : Machine.executeEach fuel program s.machine = .ok last machine) :
    s.run fuel source = ({ s with machine }, none) := by
  have hsame : s.reporting [] = s := rfl
  unfold run
  rw [hr]
  dsimp only
  rw [hsame, he]
  simp only [Bool.false_eq_true, if_false]
  unfold interpret
  rw [ho]

/-! ### Output -/

/-- What was printed before and what was printed since. -/
theorem output_append_outputSince {s s' : Session} (h : s.Extends s') :
    s.output ++ s.outputSince s' = s'.output := by
  obtain ⟨since, hsince⟩ := h.printed
  unfold output outputSince
  rw [← hsince, ← Array.length_toList, List.drop_left]
  unfold Text.endLines
  rw [List.map_append, String.join_append]

/-- What was printed from each session of a row to the next. -/
def outputs : Session → List Session → List String
  | _, [] => []
  | s, after :: others => s.outputSince after :: outputs after others

/-- **A dialogue prints what its lines print.** -/
theorem output_append_outputs {fuel : Nat} {lines : List String} {s last : Session}
    {after : List Session} (h : dialogue fuel lines s = (after, last, none)) :
    s.output ++ String.join (s.outputs after) = last.output := by
  induction lines generalizing s after with
  | nil =>
      cases h
      simp [outputs]
  | cons line lines ih =>
      obtain ⟨s', others, hrun, hrest, rfl⟩ := dialogue_cons h
      have hfirst := run_extends fuel line s
      rw [hrun] at hfirst
      have hreset : s.Extends s'.reset := ⟨hfirst.written, hfirst.printed⟩
      rw [outputs, String.join_cons, ← String.append_assoc, output_append_outputSince hreset,
        ih hrest]

end Session

end LoxLang
