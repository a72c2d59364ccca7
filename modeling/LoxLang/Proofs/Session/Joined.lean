/-
**A dialogue without a report is one program.**

The lines of a dialogue, put below one another, are one source text.  If nothing is reported about any
of the lines, nothing is reported about this text, it prints what the lines print, and the session ends
the same: the heaps differ in the lines of functions only, since every line of a dialogue counts its
lines from one.

* `LoxLang.Machine.executeEachAfter_append` — two programs in a row;
* `LoxLang.Session.executeEach_joined` — the program of all lines runs as the lines do;
* `LoxLang.Session.run_joined` — **the text of all lines**.
-/

import LoxLang.Proofs.Machine.Relabel
import LoxLang.Proofs.Session.Runs
import LoxLang.Proofs.Syntax.Reading

set_option relaxedAutoImplicit false
set_option autoImplicit false

namespace LoxLang

/-! ### Programs in a row -/

namespace Machine

theorem executeEachAfter_append (fuel : Nat) (last : Completion) (program others : List Stmt)
    (m : Machine) :
    executeEachAfter fuel last (program ++ others) m =
      (executeEachAfter fuel last program m).bind fun last m =>
        executeEachAfter fuel last others m := by
  induction program generalizing last m with
  | nil => rfl
  | cons s ss ih =>
      rw [List.cons_append, executeEachAfter, executeEachAfter]
      cases execute fuel s m with
      | ok completion m => exact ih completion m
      | failed failure m => rfl
      | outOfFuel => rfl

/-- How the statement before ended does not matter to the state. -/
theorem executeEachAfter_ok {fuel : Nat} {program : List Stmt} {m after : Machine}
    {last : Completion} (h : executeEach fuel program m = .ok last after) (before : Completion) :
    ∃ last', executeEachAfter fuel before program m = .ok last' after := by
  cases program with
  | nil =>
      cases h
      exact ⟨before, rfl⟩
  | cons s ss => exact ⟨last, h⟩

/-- **Two programs in a row that run to their ends.** -/
theorem executeEach_append {fuel : Nat} {program others : List Stmt} {m m₁ m₂ : Machine}
    {last₁ last₂ : Completion} (h₁ : executeEach fuel program m = .ok last₁ m₁)
    (h₂ : executeEach fuel others m₁ = .ok last₂ m₂) :
    ∃ last, executeEach fuel (program ++ others) m = .ok last m₂ := by
  obtain ⟨last, ho⟩ := executeEachAfter_ok h₂ last₁
  refine ⟨last, ?_⟩
  unfold executeEach at h₁ ⊢
  rw [executeEachAfter_append, h₁, Outcome.bind_ok, ho]

/-- The bindings of the global scope. -/
def globalBindings (m : Machine) : Bindings :=
  ((m.heap.frame? globals).map Frame.bindings).getD []

theorem Alike.globalBindings {m m' : Machine} (h : m.Alike m') :
    m.globalBindings.relabel (fun _ => 0) = m'.globalBindings.relabel (fun _ => 0) := by
  have hframes := congrArg Machine.globalBindings h
  have hrelabel : ∀ m : Machine, (m.relabel fun _ => 0).globalBindings =
      m.globalBindings.relabel fun _ => 0 := by
    intro m
    unfold Machine.globalBindings Machine.relabel
    dsimp only
    rw [Heap.frame?_relabel]
    cases m.heap.frame? globals <;> rfl
  rw [hrelabel, hrelabel] at hframes
  exact hframes

end Machine

/-! ### Lines in a row -/

theorem read_empty : read "" = ⟨[], .ok []⟩ := by
  have htokens : (scan "").tokens = [] ++ [Token.endOfSource 1] := by
    rw [scan_tokens_eq, String.toList_empty, scanSteps_nil]
    rfl
  have hsteps : scanSteps 1 "".toList = [] := scanSteps_nil 1
  refine read_eq_ok_iff.2 ⟨?_, ?_, ?_⟩
  · unfold scan
    rw [hsteps]
    rfl
  · unfold scan
    rw [hsteps]
    rfl
  · rw [htokens]
    exact .intro .nil rfl

namespace Session

/-- **The program of all lines runs as the lines do**: the text of at least one line is read without a
report, and its program ends in a state that differs from the one after the last line in lines only.
By induction on the lines: those behind the first are a program by themselves, which follows that of
the first on later lines. -/
theorem executeEach_joined {fuel : Nat} {line : String} {lines : List String} {s last : Session}
    {after : List Session} (he : s.diagnostics.hadError = false)
    (h : dialogue fuel (line :: lines) s = (after, last, none))
    (hq : last.diagnostics.written = s.diagnostics.written) :
    ∃ program completion machine,
      read ("\n".intercalate (line :: lines)) = ⟨[], .ok program⟩ ∧
        Machine.executeEach fuel program s.machine = .ok completion machine ∧
        machine.Alike last.machine := by
  induction lines generalizing line s after with
  | nil =>
      obtain ⟨s', others, hrun, hrest, -⟩ := dialogue_cons h
      cases hrest
      obtain ⟨program, completion, machine, hread, ho, rfl⟩ := run_eq_of_quiet he hrun hq
      rw [String.intercalate_singleton]
      exact ⟨program, completion, machine, hread, ho, rfl⟩
  | cons line' lines ih =>
      obtain ⟨s', others, hrun, hrest, -⟩ := dialogue_cons h
      have hfirst := run_extends fuel line s
      have hothers := dialogue_extends fuel (line' :: lines) s'.reset
      rw [hrun] at hfirst
      rw [hrest] at hothers
      have hwritten := hfirst.written_eq ⟨hothers.written, hothers.printed⟩ hq
      obtain ⟨program, completion, machine, hread, ho, rfl⟩ := run_eq_of_quiet he hrun hwritten
      obtain ⟨program', completion', machine', hread', ho', halike⟩ :=
        ih rfl hrest (hq.trans hwritten.symm)
      -- The lines behind the first run on later lines than by themselves.
      obtain ⟨completion'', machine'', ho'', halike'⟩ :=
        Machine.executeEach_alike (· + (newlines line + 1)) ho'
      obtain ⟨completion₃, hboth⟩ := Machine.executeEach_append ho ho''
      rw [String.intercalate_cons_cons]
      exact ⟨_, completion₃, machine'', read_append_newline hread hread', hboth,
        halike'.trans halike⟩

/-- **A dialogue without a report is one program.**  The text of its lines, run in a new session with
the same clock and output, is reported nothing about, ends with the code of success, and prints what the
lines print; its state, and in it the global names in their order with their values, is that of the dialogue
up to the lines of functions. -/
theorem run_joined {clock : Nat → Binary64} {takes : String → Bool} {fuel : Nat}
    {lines : List String} {after : List Session} {last : Session}
    (h : dialogue fuel lines (start clock takes) = (after, last, none))
    (hq : last.diagnostics.written = []) :
    ∃ s, (start clock takes).run fuel ("\n".intercalate lines) = (s, none) ∧
      s.diagnostics.written = [] ∧ s.diagnostics.messages = [] ∧
      s.diagnostics.exitCode = exitSuccess ∧
      s.output = String.join ((start clock takes).outputs after) ∧
      s.machine.Alike last.machine ∧
      s.machine.globalBindings.names = last.machine.globalBindings.names ∧
      s.machine.globalBindings.relabel (fun _ => 0) =
        last.machine.globalBindings.relabel (fun _ => 0) := by
  obtain ⟨program, completion, machine, hread, ho, halike⟩ : ∃ program completion machine,
      read ("\n".intercalate lines) = ⟨[], .ok program⟩ ∧
        Machine.executeEach fuel program (start clock takes).machine = .ok completion machine ∧
        machine.Alike last.machine := by
    cases lines with
    | nil =>
        -- A dialogue without lines is the empty text.
        cases h
        rw [String.intercalate_nil]
        exact ⟨[], .normal, _, read_empty, rfl, rfl⟩
    | cons line lines => exact executeEach_joined rfl h hq
  have houtput : Session.output ⟨machine, (start clock takes).diagnostics⟩ = last.output :=
    congrArg (fun printed => Text.endLines (Array.toList printed)) halike.printed
  have hbindings := halike.globalBindings
  have hnames := congrArg Bindings.names hbindings
  rw [Bindings.names_relabel, Bindings.names_relabel] at hnames
  refine ⟨⟨machine, (start clock takes).diagnostics⟩, run_of_read rfl hread ho, rfl, rfl, rfl, ?_, halike,
    hnames, hbindings⟩
  rw [houtput, ← output_append_outputs h]
  exact String.empty_append.symm

/-- A variable, a function that looks it up, and a call. -/
def callDialogue : List String := ["var a = 2;", "fun f() \x7breturn a;\x7d", "print f();"]

/-- The function is declared on the first line of its own line, and on the second one of the text of all
lines; both print the same. -/
theorem run_callDialogue :
    ∃ after last, dialogue 20 callDialogue (start fun _ => Binary64.zero) = (after, last, none) ∧
      last.diagnostics.written = [] ∧
      ∃ s, (start fun _ => Binary64.zero).run 20 ("\n".intercalate callDialogue) = (s, none) ∧
        s.output = "2\n" ∧ s.machine.Alike last.machine := by
  have hfault : (dialogue 20 callDialogue (start fun _ => Binary64.zero)).2.2 = none := by
    decide +kernel
  have hquiet : (dialogue 20 callDialogue
      (start fun _ => Binary64.zero)).2.1.diagnostics.written = [] := by
    decide +kernel
  have hend : dialogue 20 callDialogue (start fun _ => Binary64.zero) =
      ((dialogue 20 callDialogue (start fun _ => Binary64.zero)).1,
        (dialogue 20 callDialogue (start fun _ => Binary64.zero)).2.1, none) := by
    rw [← hfault]
  obtain ⟨s, hrun, -, -, -, houtput, halike, -⟩ := run_joined hend hquiet
  refine ⟨_, _, hend, hquiet, s, hrun, ?_, halike⟩
  rw [houtput]
  decide +kernel

end Session

end LoxLang
