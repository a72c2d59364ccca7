/-
Reports of errors.

Main definitions:

* `LoxLang.Report` — a line, the place in it if the report names one, and a message;
* `LoxLang.Report.text` — the wording of a report;
* `LoxLang.Report.ofToken` — a report at a token.
-/

import LoxLang.Token.Basic

set_option relaxedAutoImplicit false
set_option autoImplicit false

namespace LoxLang

/-- A report of an error. -/
structure Report where
  line : Int
  place : String
  message : String
  deriving DecidableEq, Repr

namespace Report

/-- The wording of a report. -/
def text (report : Report) : String :=
  s!"[line {report.line}] Error{report.place}: {report.message}"

/-- A report that names no place in its line. -/
def ofLine (line : Int) (message : String) : Report := ⟨line, "", message⟩

/-- The place of a token in a report. -/
def placeOf (token : Token) : String :=
  if token.isEnd then " at end" else " at '" ++ token.lexeme ++ "'"

/-- A report at a token. -/
def ofToken (token : Token) (message : String) : Report := ⟨token.line, placeOf token, message⟩

end Report

end LoxLang
