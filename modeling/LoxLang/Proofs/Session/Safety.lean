/-
**Programs that are read run without a breakdown.**

Every source text that the lexer does not stop at has a program, of which every node passes its checks,
even if errors are recorded about the text.  In every session that comes about from such programs the
machine is well formed, so the program ends there with a value or with an error of its own, which no
unknown operator causes.  What remains is the output: a text that it does not take breaks the program off,
and this leaves the session.

* `LoxLang.wellFormed_of_readSomewhere` — the programs that are read;
* `LoxLang.Session.Reached.wellFormed` — the machines of sessions;
* `LoxLang.Session.interpret_of_takesPrinted` — an output that takes what is printed is enough;
* `LoxLang.Session.interpret_ofProgram` — **programs that are read do not go wrong**.
-/

import LoxLang.Proofs.Machine.Output
import LoxLang.Proofs.Machine.Safety
import LoxLang.Proofs.Session.Reached
import LoxLang.Proofs.Syntax.Reading

set_option relaxedAutoImplicit false
set_option autoImplicit false

namespace LoxLang

theorem wellFormed_of_parse {tokens : List Token} {program : List Stmt} {t : ParserState}
    (h : parse tokens = .ok program t) : Stmt.AllWellFormed program :=
  Parser.builds_program _ _ _ _ h

/-- **A program that is read is well formed.** -/
theorem wellFormed_of_readSomewhere {program : List Stmt} (h : ReadSomewhere program) :
    Stmt.AllWellFormed program := by
  obtain ⟨source, hr⟩ := h
  obtain ⟨-, t, hp⟩ := read_program_eq_ok_iff.1 hr
  exact wellFormed_of_parse hp

namespace Session

variable {clock : Nat → Binary64} {takes : String → Bool} {Allowed : List Stmt → Prop} {s : Session}

theorem keptBy_wellFormed {program : List Stmt} (h : Stmt.AllWellFormed program) :
    KeptBy Machine.WellFormed program := fun fuel _ hm =>
  (Machine.sound_executeEach fuel h hm).imp (fun _ _ hv => hv.2) fun _ _ hf => hf.2

/-- **The machine of a session is well formed** if only programs that are read are executed in it. -/
theorem Reached.wellFormed (h : Reached clock takes ReadSomewhere s) : s.machine.WellFormed :=
  h.machine (Machine.wellFormed_start clock takes)
    (fun _ hp => keptBy_wellFormed (wellFormed_of_readSomewhere hp))
    fun _ hp => keptBy_wellFormed (wellFormed_of_readSomewhere hp)

theorem keptBy_takes (takes : String → Bool) (program : List Stmt) :
    KeptBy (fun m => m.takes = takes) program := by
  rintro fuel m rfl
  exact (Machine.leadsOn_executeEach fuel program m).imp (fun _ _ hl => hl.takes)
    fun _ _ hl => hl.takes

/-- A session keeps its output. -/
theorem Reached.takes_eq (h : Reached clock takes Allowed s) : s.machine.takes = takes :=
  h.machine (P := fun m => m.takes = takes) rfl (fun program _ => keptBy_takes takes program)
    fun program _ => keptBy_takes takes program

/-- A program that fails with its own errors only leaves nothing to the caller of a session. -/
theorem interpret_eq_none {fuel : Nat} {program : List Stmt} {s : Session}
    (h : (Machine.executeEach fuel program s.machine).Ends (fun _ _ => True)
      fun failure _ => failure.OfProgram)
    (hends : Machine.executeEach fuel program s.machine ≠ .outOfFuel) :
    (s.interpret fuel program).2 = none := by
  unfold interpret
  cases ho : Machine.executeEach fuel program s.machine with
  | ok last machine => rfl
  | failed failure machine =>
      cases failure with
      | error error => rfl
      | breakdown problem => exact absurd (h.of_failed ho) id
  | outOfFuel => exact absurd ho hends

/-- Nor does a program whose texts the output takes: it runs as on an output that takes every text. -/
theorem interpret_of_takesPrinted {fuel : Nat} {program : List Stmt} {s : Session}
    (hp : Stmt.AllWellFormed program) (hm : s.machine.WellFormed)
    (ht : s.machine.TakesPrinted (Machine.executeEach fuel program s.machine.unlimited))
    (hends : Machine.executeEach fuel program s.machine.unlimited ≠ .outOfFuel) :
    (s.interpret fuel program).2 = none := by
  have hsame := Machine.executeEach_unlimited hends ht
  have hwell : s.machine.unlimited.WellFormed := hm
  -- The run is the one on the other output, which refuses nothing.
  have hfull := Machine.executeEach_of_takes fuel hp hwell fun _ => rfl
  rw [hsame] at hfull hends
  refine interpret_eq_none ?_ fun ho => hends (by rw [ho]; rfl)
  generalize Machine.executeEach fuel program s.machine = outcome at hfull
  cases outcome with
  | ok last machine => trivial
  | failed failure machine => exact hfull
  | outOfFuel => trivial

/-- **Programs that are read do not go wrong.**  A source text without an integer numeral that is too
long has a program, whatever errors are recorded about it, and its nodes pass their checks.  Executed in
any session that comes about from such programs, it comes to its end or fails with an error that is not
about an unknown operator, unless it is to print a text that the output does not take.  So if it ends at
all, nothing else leaves the session, be it that the output takes every text, be it that the output takes
those that the program prints on an output that takes every text. -/
theorem interpret_ofProgram {source : String} (h : (scan source).tooLong = none) :
    ∃ program t, parse (scan source).tokens = .ok program t ∧
      (read source).program = .ok program ∧
      Tree.constructAll (Stmt.toTrees program) = .ok (Stmt.toTrees program) ∧
      ∀ {clock : Nat → Binary64} {takes : String → Bool} {s : Session},
        Reached clock takes ReadSomewhere s → ∀ fuel,
          (Machine.executeEach fuel program s.machine).Ends (fun _ _ => True) (fun failure _ =>
              (∃ error, failure = .error error ∧ error.cause ≠ .unknownUnary ∧
                error.cause ≠ .unknownBinary) ∨
              failure = .breakdown .unwritable ∧
                ∃ (value : Value) (text : String), value.written = .ok text ∧ takes text = false) ∧
            ((∀ text, takes text = true) →
              Machine.executeEach fuel program s.machine ≠ .outOfFuel →
                (s.interpret fuel program).2 = none) ∧
            (s.machine.TakesPrinted (Machine.executeEach fuel program s.machine.unlimited) →
              Machine.executeEach fuel program s.machine.unlimited ≠ .outOfFuel →
                (s.interpret fuel program).2 = none) := by
  obtain ⟨program, t, hp⟩ := parse_scan source
  refine ⟨program, t, hp, read_program_eq_ok_iff.2 ⟨h, t, hp⟩, Stmt.constructAll_toTrees program, ?_⟩
  intro clock takes s hs fuel
  have hprogram := wellFormed_of_parse hp
  refine ⟨(Machine.executeEach_ofProgram fuel hprogram hs.wellFormed).imp (fun _ _ => id) ?_, ?_,
    interpret_of_takesPrinted hprogram hs.wellFormed⟩
  · -- The program fails by an error of its own; the machine breaks down by the output only.
    rintro (error | problem) m (hfailure | hrefused)
    · exact .inl ⟨error, rfl, hfailure⟩
    · cases hrefused.1
    · exact absurd hfailure id
    · unfold Machine.Refused at hrefused
      rw [hs.takes_eq] at hrefused
      exact .inr hrefused
  · intro ht
    rw [← hs.takes_eq] at ht
    exact interpret_eq_none (Machine.executeEach_of_takes fuel hprogram hs.wellFormed ht)

/-- A text with a syntax error in its second declaration; what is left of it divides by zero within a
call. -/
def dividingSource : String := "fun f(a) \x7breturn -a / 0;\x7d var b = ; print f(1);"

/-- The error is recorded, and what is left fails with the error of the division. -/
theorem interpret_dividingSource :
    (scan dividingSource).tooLong = none ∧
      ∃ program t, parse (scan dividingSource).tokens = .ok program t ∧ t.errors.length = 1 ∧
        ((start fun _ => Binary64.zero).interpret 20 program).2 = none ∧
        ((start fun _ => Binary64.zero).interpret 20 program).1.diagnostics.messages =
          ["[line 1] Error: Division by zero."] := by
  have hlong : (scan dividingSource).tooLong = none := by decide +kernel
  obtain ⟨program, t, hp, hread, -, hruns⟩ := interpret_ofProgram hlong
  have herrors : (readTokens (scan dividingSource).tokens).reports.length = 1 := by decide +kernel
  have hmessages : ((start fun _ => Binary64.zero).interpret 20
      ((read dividingSource).program.toOption.getD [])).1.diagnostics.messages =
        ["[line 1] Error: Division by zero."] := by decide +kernel
  rw [hread, Except.toOption, Option.getD_some] at hmessages
  unfold readTokens at herrors
  rw [hp] at herrors
  rw [List.length_map] at herrors
  refine ⟨hlong, program, t, hp, herrors, (hruns .start 20).2.1 (fun _ => rfl) fun ho => ?_,
    hmessages⟩
  unfold interpret at hmessages
  rw [ho] at hmessages
  cases hmessages

/-- An output that has the characters of ASCII only. -/
def asciiOutput (text : String) : Bool := text.toList.all fun c => c.toNat < 128

/-- The first text is printed, and the second one leaves the session. -/
example :
    ((start (fun _ => Binary64.zero) asciiOutput).run 20 "print \"e\"; print \"\u00e9\"; print 1;").2 =
        some (.breakdown .unwritable) ∧
      ((start (fun _ => Binary64.zero) asciiOutput).run 20
        "print \"e\"; print \"\u00e9\"; print 1;").1.output = "e\n" := by
  decide +kernel

end Session

end LoxLang
