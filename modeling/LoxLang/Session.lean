/-
Sessions.

A session keeps one machine and its diagnostics over any number of programs.  A program is executed
only if nothing is wrong with any source text since the last reset; an error of the running program
is reported and ends that program.  In a dialogue every line is a program, and the diagnostics are
reset after each.

Main definitions:

* `LoxLang.Session`, `LoxLang.Session.start` — a session, and a new one;
* `LoxLang.SessionFault` — what a session does not report;
* `LoxLang.Session.interpret` — execute a program and report its error;
* `LoxLang.Session.run` — read and execute a source text;
* `LoxLang.Session.enter`, `LoxLang.Session.dialogue` — the lines of a dialogue;
* `LoxLang.Session.runOctets` — read and execute the octets of a file.
-/

import LoxLang.Diagnostics
import LoxLang.Machine.Evaluation
import LoxLang.Syntax.Reading
import LoxLang.Text.Utf8

set_option relaxedAutoImplicit false
set_option autoImplicit false

namespace LoxLang

/-- A machine and its diagnostics. -/
structure Session where
  machine : Machine
  diagnostics : Diagnostics

/-- What a session does not report but leaves to its caller. -/
inductive SessionFault where
  /-- The source text has no program at all. -/
  | reading (fault : ReadingFault)
  /-- The octets of a file are not a text. -/
  | octets (fault : Text.Utf8.Fault)
  /-- The machine broke down. -/
  | breakdown (breakdown : Breakdown)
  | outOfFuel
  deriving DecidableEq, Repr

namespace Session

/-- A new session with the given readings of the clock.  The output takes every text unless it is said
which. -/
def start (clock : Nat → Binary64) (takes : String → Bool := fun _ => true) : Session :=
  ⟨Machine.start clock takes, Diagnostics.empty⟩

/-- What the programs printed, each text on a line. -/
def output (s : Session) : String := Text.endLines s.machine.printed.toList

/-- What programs printed in a session after an earlier state of it. -/
def outputSince (earlier later : Session) : String :=
  Text.endLines (later.machine.printed.toList.drop earlier.machine.printed.size)

/-- Report errors of a source text. -/
def reporting (s : Session) (reports : List Report) : Session :=
  { s with diagnostics := s.diagnostics.reportAll reports }

/-- Forget the reports. -/
def reset (s : Session) : Session := { s with diagnostics := s.diagnostics.reset }

/-- Execute a program.  An error ends it and is reported. -/
def interpret (fuel : Nat) (program : List Stmt) (s : Session) : Session × Option SessionFault :=
  match Machine.executeEach fuel program s.machine with
  | .ok _ machine => ({ s with machine }, none)
  | .failed (.error error) machine => (⟨machine, s.diagnostics.reportRuntime error.report⟩, none)
  | .failed (.breakdown problem) machine => ({ s with machine }, some (.breakdown problem))
  | .outOfFuel => (s, some .outOfFuel)

/-- Read a source text, and execute it unless something is wrong with it or was with one before. -/
def run (fuel : Nat) (source : String) (s : Session) : Session × Option SessionFault :=
  let reading := read source
  let s := s.reporting reading.reports
  match reading.program with
  | .error fault => (s, some (.reading fault))
  | .ok program => if s.diagnostics.hadError then (s, none) else s.interpret fuel program

/-! ### Dialogues -/

/-- Run a line of a dialogue and forget its reports. -/
def enter (fuel : Nat) (line : String) (s : Session) : Session × Option SessionFault :=
  match s.run fuel line with
  | (s, none) => (s.reset, none)
  | (s, some fault) => (s, some fault)

/-- Run the lines of a dialogue, up to the first with a fault: the sessions after each line without
one, and the session at the end. -/
def dialogue (fuel : Nat) : List String → Session → List Session × Session × Option SessionFault
  | [], s => ([], s, none)
  | line :: lines, s =>
      match s.enter fuel line with
      | (s, none) =>
          let (after, last, fault) := dialogue fuel lines s
          (s :: after, last, fault)
      | (s, some fault) => ([], s, some fault)

/-! ### Files -/

/-- Run the octets of a file; every line end counts as a line feed. -/
def runOctets (fuel : Nat) (octets : List Nat) (s : Session) : Session × Option SessionFault :=
  match Text.Utf8.decode octets with
  | .error fault => (s, some (.octets fault))
  | .ok text => s.run fuel (String.ofList (Text.unifyLineEnds text.toList))

end Session

end LoxLang
