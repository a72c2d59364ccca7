/-
The diagnostics of a session.

Reports are written out as they come, and remembered until the next reset together with whether
there was an error in a source text or an error of a running program.  These decide the exit code.

The stream of the reports takes every text, as a standard error stream does, which writes the characters
that its encoding lacks in another way.  The output of programs need not; see `LoxLang.Machine`.

Main definitions:

* `LoxLang.Diagnostics` — what was written since the start, and what was reported since the reset;
* `LoxLang.Diagnostics.report`, `LoxLang.Diagnostics.reportAll` — report errors of a source text;
* `LoxLang.Diagnostics.reportRuntime` — report an error of a running program;
* `LoxLang.Diagnostics.reset`, `LoxLang.Diagnostics.exitCode` — forget, and decide.
-/

import LoxLang.Report
import LoxLang.Text.Lines

set_option relaxedAutoImplicit false
set_option autoImplicit false

namespace LoxLang

/-- What was reported in a session. -/
structure Diagnostics where
  /-- The wordings of all reports since the start. -/
  written : List String
  /-- The wordings of the reports since the last reset. -/
  messages : List String
  /-- There was an error in a source text since the last reset. -/
  hadError : Bool
  /-- There was an error of a running program since the last reset. -/
  hadRuntimeError : Bool
  deriving DecidableEq, Repr

/-- The exit code of a program without errors. -/
def exitSuccess : Nat := 0

/-- The exit code of a program with an error in its source text. -/
def exitStatic : Nat := 65

/-- The exit code of a program that could not be read. -/
def exitNoInput : Nat := 66

/-- The exit code of a program that ended with an error. -/
def exitRuntime : Nat := 70

namespace Diagnostics

/-- Nothing was reported. -/
def empty : Diagnostics := ⟨[], [], false, false⟩

/-- Write out a wording and remember it. -/
def write (d : Diagnostics) (text : String) : Diagnostics :=
  { d with written := d.written ++ [text], messages := d.messages ++ [text] }

/-- Report an error of a source text. -/
def report (d : Diagnostics) (r : Report) : Diagnostics := { d.write r.text with hadError := true }

/-- Report errors of a source text in order. -/
def reportAll (d : Diagnostics) (reports : List Report) : Diagnostics := reports.foldl report d

/-- Report an error of a running program. -/
def reportRuntime (d : Diagnostics) (r : Report) : Diagnostics :=
  { d.write r.text with hadRuntimeError := true }

/-- Forget what was reported, but not what was written. -/
def reset (d : Diagnostics) : Diagnostics := ⟨d.written, [], false, false⟩

/-- An error in a source text comes before an error of a running program. -/
def exitCode (d : Diagnostics) : Nat :=
  if d.hadError then exitStatic else if d.hadRuntimeError then exitRuntime else exitSuccess

/-- Everything written since the start. -/
def stream (d : Diagnostics) : String := Text.endLines d.written

end Diagnostics

end LoxLang
