/-
**Numerals that end a scan.**

Every lexical error is reported and scanning goes on behind it, with one exception: an integer numeral
with more digits than the limit ends the scan at once, and nothing is reported about it.  A text without
such a numeral is scanned to its end, its tokens end once, and whoever runs it is left with no lexical
failure.  A text with one has no tokens to go on with: running it reports the errors in front of the
numeral, executes nothing, and leaves the failure to the caller.

* `LoxLang.Session.run_fault_eq_reading_iff` — the lexical failures of a run;
* `LoxLang.Session.lexical_failures` — **scans, runs, dialogues and files**;
* `LoxLang.Session.lexical_failure_longNumeral` — a text that is well formed and not scanned.
-/

import LoxLang.Proofs.Syntax.Reading
import LoxLang.Proofs.Token.OverLimit
import LoxLang.Session

set_option relaxedAutoImplicit false
set_option autoImplicit false

namespace LoxLang

namespace Session

variable {fuel : Nat} {source : String} {s : Session}

/-! ### Runs -/

/-- A run of a text with a numeral over the limit reports the errors in front of it and does nothing
else. -/
theorem run_of_overLimit {digits : Nat} (h : OverLimit source digits) :
    s.run fuel source =
      (s.reporting ((scan source).errors.map LexicalError.report),
        some (.reading (.tooLong digits))) := by
  unfold run read
  dsimp only
  rw [tooLong_eq_some_iff.2 h]

/-- A text without such a numeral has a program, so its run is left with no failure of reading. -/
theorem run_fault_ne_reading (h : ∀ digits, ¬ OverLimit source digits) (fault : ReadingFault) :
    (s.run fuel source).2 ≠ some (.reading fault) := by
  obtain ⟨program, t, hp⟩ := parse_scan source
  have hprogram := read_program_eq_ok_iff.2 ⟨tooLong_eq_none h, t, hp⟩
  unfold run
  dsimp only
  rw [hprogram]
  dsimp only
  split
  · exact nofun
  · unfold interpret
    split <;> simp

/-- **The failures of reading that a run leaves to its caller.** -/
theorem run_fault_eq_reading_iff {fault : ReadingFault} :
    (s.run fuel source).2 = some (.reading fault) ↔
      ∃ digits, OverLimit source digits ∧ fault = .tooLong digits := by
  constructor
  · intro h
    by_cases hover : ∃ digits, OverLimit source digits
    · obtain ⟨digits, hdigits⟩ := hover
      rw [run_of_overLimit hdigits] at h
      cases h
      exact ⟨digits, hdigits, rfl⟩
    · exact absurd h (run_fault_ne_reading (not_exists.1 hover) fault)
  · rintro ⟨digits, hdigits, rfl⟩
    rw [run_of_overLimit hdigits]

/-- A failure of reading that a dialogue is left with comes from one of its lines. -/
theorem dialogue_fault_eq_reading {lines : List String} {fault : ReadingFault}
    (h : (dialogue fuel lines s).2.2 = some (.reading fault)) :
    ∃ line ∈ lines, ∃ digits, OverLimit line digits ∧ fault = .tooLong digits := by
  induction lines generalizing s with
  | nil => cases h
  | cons line lines ih =>
      rw [dialogue, enter] at h
      rcases hrun : s.run fuel line with ⟨s', _ | found⟩
      · rw [hrun] at h
        obtain ⟨other, ho, hover⟩ := ih h
        exact ⟨other, List.mem_cons_of_mem _ ho, hover⟩
      · rw [hrun] at h
        have hfault : (s.run fuel line).2 = some (.reading fault) := by
          rw [hrun]
          exact h
        exact ⟨line, List.mem_cons_self, run_fault_eq_reading_iff.1 hfault⟩

/-- **Lexical failures.**  A scan is ended before its text only by the first integer numeral over the limit;
otherwise its tokens end once, with the end of the source.  A run is left with a failure of reading exactly
by such a numeral, and then it has reported the errors in front of it and executed nothing.  So dialogues
and files without such a numeral are left with no failure of reading. -/
theorem lexical_failures (source : String) :
    ((scan source).tooLong = none ∧ EndsOnce (scan source).tokens ↔
        ∀ digits, ¬ OverLimit source digits) ∧
      (∀ digits, (scan source).tooLong = some digits ↔ OverLimit source digits) ∧
      (∀ fuel (s : Session) fault, (s.run fuel source).2 = some (.reading fault) ↔
        ∃ digits, OverLimit source digits ∧ fault = .tooLong digits) ∧
      (∀ fuel (s : Session) digits, OverLimit source digits →
        (s.run fuel source).1 = s.reporting ((scan source).errors.map LexicalError.report)) ∧
      (∀ fuel lines (s : Session), (∀ line ∈ source :: lines, ∀ digits, ¬ OverLimit line digits) →
        ∀ fault, (dialogue fuel (source :: lines) s).2.2 ≠ some (.reading fault)) ∧
      ∀ fuel octets text (s : Session), Text.Utf8.decode octets = .ok text →
        String.ofList (Text.unifyLineEnds text.toList) = source →
          (∀ digits, ¬ OverLimit source digits) →
            ∀ fault, (s.runOctets fuel octets).2 ≠ some (.reading fault) := by
  refine ⟨⟨fun h digits hover => ?_, fun h => ⟨tooLong_eq_none h, endsOnce_scan source⟩⟩,
    fun _ => tooLong_eq_some_iff, fun _ _ _ => run_fault_eq_reading_iff,
    fun _ _ _ h => congrArg Prod.fst (run_of_overLimit h), fun fuel lines s h fault hf => ?_,
    fun fuel octets text s hd hs h fault => ?_⟩
  · rw [tooLong_eq_some_iff.2 hover] at h
    cases h.1
  · obtain ⟨line, hline, digits, hdigits, -⟩ := dialogue_fault_eq_reading hf
    exact h line hline digits hdigits
  · unfold runOctets
    rw [hd]
    dsimp only
    rw [hs]
    exact run_fault_ne_reading h fault

/-! ### A numeral over the limit -/

/-- An expression statement that is a numeral of one digit more than the limit. -/
def longNumeral : String :=
  String.ofList ('1' :: (List.replicate Numeral.digitLimit '1' ++ [' ', ';']))

theorem munch_longNumeral :
    munch '1' (List.replicate Numeral.digitLimit '1' ++ [' ', ';']) =
      ⟨.whole, List.replicate Numeral.digitLimit '1', [' ', ';']⟩ := by
  have hdigits : ∀ c ∈ '1' :: List.replicate Numeral.digitLimit '1', isDigit c := by
    intro c hc
    rcases List.mem_cons.1 hc with rfl | hc
    · decide
    · rw [List.eq_of_mem_replicate hc]
      decide
  exact (Lexeme.Covers.whole (List.cons_ne_nil _ _) hdigits).munch_eq (.inr ⟨nofun, [';'], rfl⟩)

/-- A numeral over the limit in front of a text is the only step through it. -/
theorem scanSteps_of_lt {first : Char} {text taken rest : List Char}
    (hm : munch first text = ⟨.whole, taken, rest⟩)
    (h : Numeral.digitLimit < (first :: taken).length) (line : Int) :
    ∃ last, scanSteps line (first :: text) =
      [⟨first :: taken, last, .tooLong (first :: taken).length⟩] := by
  have hstep : scanStep line first ⟨.whole, taken, rest⟩ =
      ⟨first :: taken, _, .tooLong (first :: taken).length⟩ :=
    congrArg (ScanStep.mk _ _) (emission_whole_of_lt h _)
  rw [scanSteps_cons, hm, hstep]
  exact ⟨_, if_pos rfl⟩

theorem scanSteps_longNumeral : ∃ slice last,
    scanSteps 1 longNumeral.toList = [⟨slice, last, .tooLong (Numeral.digitLimit + 1)⟩] := by
  have hlength : ('1' :: List.replicate Numeral.digitLimit '1').length = Numeral.digitLimit + 1 := by
    rw [List.length_cons, List.length_replicate]
  obtain ⟨last, hsteps⟩ := scanSteps_of_lt munch_longNumeral
    (Nat.lt_of_lt_of_eq (Nat.lt_succ_self _) hlength.symm) 1
  rw [hlength] at hsteps
  rw [longNumeral, String.toList_ofList]
  exact ⟨_, last, hsteps⟩

theorem errors_longNumeral : (scan longNumeral).errors = [] := by
  obtain ⟨slice, line, hsteps⟩ := scanSteps_longNumeral
  unfold scan
  rw [hsteps]
  rfl

theorem overLimit_longNumeral : OverLimit longNumeral (Numeral.digitLimit + 1) := by
  obtain ⟨slice, line, hsteps⟩ := scanSteps_longNumeral
  refine tooLong_eq_some_iff.1 ?_
  unfold scan
  rw [hsteps]
  rfl

/-- **A statement that is one long numeral is not scanned.**  Nothing is reported about it, and its run
leaves the failure to the caller. -/
theorem lexical_failure_longNumeral :
    (scan longNumeral).tooLong = some 4301 ∧
      ∀ fuel (s : Session), s.run fuel longNumeral = (s, some (.reading (.tooLong 4301))) := by
  have hover : OverLimit longNumeral 4301 := overLimit_longNumeral
  refine ⟨tooLong_eq_some_iff.2 hover, fun fuel s => ?_⟩
  rw [run_of_overLimit hover, errors_longNumeral]
  rfl

/-- The long numeral, and a short one in a text, in a dialogue and in the octets of a file. -/
theorem lexical_failures_longNumeral :
    OverLimit longNumeral 4301 ∧ (∀ digits, ¬ OverLimit "print 1;" digits) ∧
      ((scan "print 1;").tooLong = none ∧ EndsOnce (scan "print 1;").tokens) ∧
      ((start fun _ => .zero).run 9 longNumeral).2 = some (.reading (.tooLong 4301)) ∧
      ((start fun _ => .zero).run 9 longNumeral).1.diagnostics.hadError = false ∧
      (dialogue 9 ["print 1;", "print 1;"] (start fun _ => .zero)).2.2 ≠
        some (.reading (.tooLong 1)) ∧
      ((start fun _ => .zero).runOctets 9 [112, 114, 105, 110, 116, 32, 49, 59]).2 ≠
        some (.reading (.tooLong 1)) := by
  have hlong : OverLimit longNumeral 4301 := overLimit_longNumeral
  have hshort : ∀ digits, ¬ OverLimit "print 1;" digits := by
    have hnone : (scan "print 1;").tooLong = none := by decide +kernel
    intro digits h
    rw [tooLong_eq_some_iff.2 h] at hnone
    cases hnone
  obtain ⟨-, -, hfault, hstate, -, -⟩ := lexical_failures longNumeral
  obtain ⟨hscan, -, -, -, hlines, hfile⟩ := lexical_failures "print 1;"
  refine ⟨hlong, hshort, hscan.2 hshort, (hfault 9 _ _).2 ⟨4301, hlong, rfl⟩, ?_, ?_, ?_⟩
  · rw [hstate 9 _ _ hlong, errors_longNumeral]
    rfl
  · exact hlines 9 ["print 1;"] _ (by simpa using hshort) _
  · exact hfile 9 _ "print 1;" _ (by decide +kernel) (by decide +kernel) hshort _

end Session

end LoxLang
