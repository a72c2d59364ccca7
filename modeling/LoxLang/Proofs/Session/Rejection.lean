/-
**A rejected line leaves no trace.**

What a run does depends on the machine, and on whether an error of a source text is recorded; what was
written before does not matter.  In a dialogue every line begins without recorded errors, and a line that
is rejected leaves the machine as it is.  So the dialogue without some rejected lines answers the other
lines as before, and ends with the same machine.

* `LoxLang.Session.replies` — what a dialogue answers to its lines;
* `LoxLang.Session.run_agree` — **runs in sessions that agree**;
* `LoxLang.Session.run_of_reports` — what a rejected line does;
* `LoxLang.Session.dialogue_rejected` — **a dialogue without rejected lines**.
-/

import LoxLang.Proofs.Session.History

set_option relaxedAutoImplicit false
set_option autoImplicit false

namespace LoxLang

/-- The items at the places that are kept. -/
def keeping {α : Type} : List Bool → List α → List α
  | kept :: marks, x :: xs => if kept then x :: keeping marks xs else keeping marks xs
  | _, _ => []

namespace Session

/-- What was reported in a session after an earlier state of it. -/
def errorsSince (earlier later : Session) : String :=
  Text.endLines (later.diagnostics.written.drop earlier.diagnostics.written.length)

/-- What was printed and reported from each session of a row to the next. -/
def replies : Session → List Session → List (String × String)
  | _, [] => []
  | s, after :: others => (s.outputSince after, s.errorsSince after) :: replies after others

/-! ### Runs in sessions that agree -/

section

variable {fuel : Nat} {source : String} {s s' t : Session}

theorem hadError_reporting_congr (he : s.diagnostics.hadError = t.diagnostics.hadError)
    (reports : List Report) : (s.reporting reports).diagnostics.hadError =
      (t.reporting reports).diagnostics.hadError := by
  unfold reporting
  rw [Diagnostics.hadError_reportAll, Diagnostics.hadError_reportAll, he]

/-- What a run records depends on the machine and on whether an error of a source text is recorded. -/
theorem recordings_congr (hm : s.machine = t.machine)
    (he : s.diagnostics.hadError = t.diagnostics.hadError) :
    s.recordings fuel source = t.recordings fuel source := by
  unfold recordings
  rw [hm, hadError_reporting_congr he]

/-- **In sessions that agree a run does the same**, whatever was written in them before. -/
theorem run_agree (hm : s.machine = t.machine)
    (he : s.diagnostics.hadError = t.diagnostics.hadError)
    (h : s.run fuel source = (s', none)) :
    ∃ t', t.run fuel source = (t', none) ∧ t'.machine = s'.machine := by
  have hends := runEnds_of_run h
  generalize s.recordings fuel source = entries at hends
  -- The diagnostics before matter by their flag only.
  cases hends with
  | rejected hp hr =>
      rw [hadError_reporting_congr he] at hr
      refine ⟨t.reporting (read source).reports, ?_, hm.symm⟩
      unfold run
      dsimp only
      rw [hp]
      dsimp only
      rw [if_pos hr]
  | completed hs hr ho =>
      rw [hm] at ho
      exact ⟨_, run_of_read (he ▸ hs) hr ho, rfl⟩
  | @failed program error machine hs hr ho =>
      rw [he] at hs
      rw [hm] at ho
      have hsame : t.reporting [] = t := rfl
      refine ⟨⟨machine, t.diagnostics.reportRuntime error.report⟩, ?_, rfl⟩
      unfold run
      rw [hr]
      dsimp only
      rw [hsame, hs]
      simp only [Bool.false_eq_true, if_false]
      unfold interpret
      rw [ho]

/-- A text about which something is reported leaves the machine as it is. -/
theorem run_of_reports (hr : (read source).reports ≠ []) (h : s.run fuel source = (s', none)) :
    s'.machine = s.machine := by
  have hends := runEnds_of_run h
  generalize s.recordings fuel source = entries at hends
  cases hends with
  | rejected hp he => rfl
  | completed he hread ho => exact absurd (by rw [hread]) hr
  | failed he hread ho => exact absurd (by rw [hread]) hr

/-- What a run writes is what it records. -/
theorem errorsSince_run (h : s.run fuel source = (s', none)) :
    s.errorsSince s' = Text.endLines ((s.recordings fuel source).map Entry.text) := by
  unfold errorsSince
  rw [(runEnds_of_run h).diagnostics_eq, Diagnostics.written_recordAll, List.drop_left]

end

/-! ### Dialogues -/

/-- Behind every line of a dialogue nothing is recorded. -/
theorem dialogue_forgets {fuel : Nat} {lines : List String} {s last : Session}
    {after : List Session} (h : dialogue fuel lines s = (after, last, none)) :
    after.length = lines.length ∧ ∀ t ∈ after,
      t.diagnostics.messages = [] ∧ t.diagnostics.exitCode = exitSuccess := by
  induction lines generalizing s after with
  | nil =>
      cases h
      exact ⟨rfl, List.forall_mem_nil _⟩
  | cons line lines ih =>
      obtain ⟨s', others, -, hrest, rfl⟩ := dialogue_cons h
      obtain ⟨hlength, hothers⟩ := ih hrest
      exact ⟨congrArg Nat.succ hlength, List.forall_mem_cons.2 ⟨⟨rfl, rfl⟩, hothers⟩⟩

/-- A dialogue goes on behind a line that leaves nothing to its caller. -/
theorem dialogue_cons_of_run {fuel : Nat} {line : String} {lines : List String}
    {s s' last : Session} {others : List Session} (hr : s.run fuel line = (s', none))
    (h : dialogue fuel lines s'.reset = (others, last, none)) :
    dialogue fuel (line :: lines) s = (s'.reset :: others, last, none) := by
  rw [dialogue, enter, hr]
  dsimp only
  rw [h]

/-- The dialogue without some rejected lines, in a session with the same machine. -/
theorem dialogue_keeping {fuel : Nat} {lines : List String} {kept : List Bool}
    {s t last : Session} {after : List Session} (hm : s.machine = t.machine)
    (hs : s.diagnostics.hadError = false) (ht : t.diagnostics.hadError = false)
    (hlength : kept.length = lines.length)
    (hrejected : ∀ pair ∈ lines.zip kept, pair.2 = false → (read pair.1).reports ≠ [])
    (h : dialogue fuel lines s = (after, last, none)) :
    ∃ after' last', dialogue fuel (keeping kept lines) t = (after', last', none) ∧
      t.replies after' = keeping kept (s.replies after) ∧ last'.machine = last.machine := by
  induction lines generalizing kept s t after with
  | nil =>
      cases h
      obtain rfl := List.length_eq_zero_iff.1 hlength
      exact ⟨[], t, rfl, rfl, hm.symm⟩
  | cons line lines ih =>
      obtain ⟨mark, kept, rfl⟩ := List.exists_cons_of_length_eq_add_one hlength
      obtain ⟨s', others, hrun, hrest, rfl⟩ := dialogue_cons h
      rw [List.zip_cons_cons] at hrejected
      have hmark := hrejected (line, mark) List.mem_cons_self
      have hmarks := fun pair hp => hrejected pair (List.mem_cons_of_mem _ hp)
      have hlengths : kept.length = lines.length := Nat.succ.inj hlength
      cases mark with
      | false =>
          -- The line is left out: it has not changed the machine, and its errors are forgotten.
          have hsame : s'.reset.machine = t.machine :=
            (run_of_reports (hmark rfl) hrun).trans hm
          obtain ⟨after', last', hd, hreplies, hlast⟩ := ih hsame rfl ht hlengths hmarks hrest
          exact ⟨after', last', hd, hreplies, hlast⟩
      | true =>
          have hagree := hs.trans ht.symm
          obtain ⟨t', hrun', hm'⟩ := run_agree hm hagree hrun
          have hsame : s'.reset.machine = t'.reset.machine := hm'.symm
          obtain ⟨after', last', hd, hreplies, hlast⟩ := ih hsame rfl rfl hlengths hmarks hrest
          refine ⟨t'.reset :: after', last', dialogue_cons_of_run hrun' hd, ?_, hlast⟩
          have houtput : t.outputSince t'.reset = s.outputSince s'.reset := by
            unfold outputSince
            rw [← hsame, hm]
          have herrors : t.errorsSince t'.reset = s.errorsSince s'.reset := by
            have ht' := errorsSince_run hrun'
            have hs' := errorsSince_run hrun
            rw [← recordings_congr hm hagree, ← hs'] at ht'
            exact ht'
          rw [replies, replies, keeping, if_pos rfl, houtput, herrors, hreplies]

/-- **A rejected line leaves no trace.**  If in a dialogue some lines are left out about which errors are
reported, then the other lines are answered as before, in what is printed and in what is reported, and the
machine is the same in the end; and behind every line of either dialogue nothing is recorded. -/
theorem dialogue_rejected {fuel : Nat} {lines : List String} {kept : List Bool}
    {s last : Session} {after : List Session} (hs : s.diagnostics.hadError = false)
    (hlength : kept.length = lines.length)
    (hrejected : ∀ pair ∈ lines.zip kept, pair.2 = false → (read pair.1).reports ≠ [])
    (h : dialogue fuel lines s = (after, last, none)) :
    ∃ after' last', dialogue fuel (keeping kept lines) s = (after', last', none) ∧
      after.length = lines.length ∧ s.replies after' = keeping kept (s.replies after) ∧
      last'.machine = last.machine ∧ ∀ t ∈ after ++ after',
        t.diagnostics.messages = [] ∧ t.diagnostics.exitCode = exitSuccess := by
  obtain ⟨after', last', hd, hreplies, hlast⟩ := dialogue_keeping rfl hs hs hlength hrejected h
  obtain ⟨hafter, hforgets⟩ := dialogue_forgets h
  refine ⟨after', last', hd, hafter, hreplies, hlast, ?_⟩
  exact List.forall_mem_append.2 ⟨hforgets, (dialogue_forgets hd).2⟩

/-- A line that declares a variable, one that declares it anew in front of an error, one that fails, and
one that is rejected by the lexer. -/
def rejectedLines : List String := ["var a = 1;", "var a = 2; var b = ;", "print a; -nil;", "a = 3; ?"]

/-- Without the second and the last line the third prints the same and fails in the same way. -/
theorem dialogue_rejected_rejectedLines :
    ∃ after last after' last',
      dialogue 20 rejectedLines (start fun _ => Binary64.zero) = (after, last, none) ∧
        dialogue 20 ["var a = 1;", "print a; -nil;"] (start fun _ => Binary64.zero) =
          (after', last', none) ∧
        (start fun _ => Binary64.zero).replies after' =
          keeping [true, false, true, false] ((start fun _ => Binary64.zero).replies after) ∧
        (start fun _ => Binary64.zero).replies after' =
          [("", ""), ("1\n", "[line 1] Error: Operand of '-' must be a number.\n")] ∧
        last'.machine = last.machine := by
  have hends : (dialogue 20 rejectedLines (start fun _ => Binary64.zero)).2.2 = none := by
    decide +kernel
  have hrejected : ∀ pair ∈ rejectedLines.zip [true, false, true, false], pair.2 = false →
      (read pair.1).reports ≠ [] := by decide +kernel
  have hreplies : (start fun _ => Binary64.zero).replies
      (dialogue 20 ["var a = 1;", "print a; -nil;"] (start fun _ => Binary64.zero)).1 =
        [("", ""), ("1\n", "[line 1] Error: Operand of '-' must be a number.\n")] := by
    decide +kernel
  obtain ⟨after', last', hd, -, hsame, hlast, -⟩ :=
    dialogue_rejected rfl rfl hrejected (Prod.ext rfl (Prod.ext rfl hends))
  have hkept : keeping [true, false, true, false] rejectedLines =
      ["var a = 1;", "print a; -nil;"] := rfl
  rw [hkept] at hd
  rw [hd] at hreplies
  exact ⟨_, _, after', last', Prod.ext rfl (Prod.ext rfl hends), hd, hsame, hreplies, hlast⟩

end Session

end LoxLang
