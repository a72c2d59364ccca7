/-
Settings from the environment.

A variable that is not set, or set to nothing, leaves a setting at its default.

Main definitions:

* `LoxLang.Environment`, `LoxLang.Environment.setting` — variables and settings;
* `LoxLang.LogLevel` — the levels of the log and their names;
* `LoxLang.Environment.logLevel`, `LoxLang.Environment.prompt` — the settings of the program.
-/

import LoxLang.Text.Blank

set_option relaxedAutoImplicit false
set_option autoImplicit false

namespace LoxLang

/-- Variables and their values. -/
abbrev Environment : Type := List (String × String)

/-- The value of a variable if it has any characters, and the default otherwise. -/
def Environment.setting (environment : Environment) (variableName default : String) : String :=
  match environment.lookup variableName with
  | none => default
  | some value => if value.isEmpty then default else value

/-! ### The level of the log -/

namespace LogLevel

/-- The level at which warnings and anything worse are logged. -/
def warning : Nat := 30

/-- The names of the levels. -/
def named : List (String × Nat) :=
  [("CRITICAL", 50), ("FATAL", 50), ("ERROR", 40), ("WARN", warning), ("WARNING", warning),
    ("INFO", 20), ("DEBUG", 10), ("NOTSET", 0)]

/-- The capital of a letter.  Besides the small letters of ASCII, the dotless i and the long s have a
capital in ASCII; other characters do not occur in the names of levels. -/
def capital (c : Char) : Char :=
  if c = '\u0131' then 'I' else if c = '\u017f' then 'S' else c.toUpper

/-- The level of a name, in any case and with any blanks around it; that of warnings for anything
else. -/
def ofName (text : String) : Nat :=
  (named.lookup ((Text.strip text).map capital)).getD warning

end LogLevel

/-! ### Settings of the program -/

namespace Environment

/-- The level of the log. -/
def logLevel (environment : Environment) : Nat :=
  LogLevel.ofName (environment.setting "LOX_LOG_LEVEL" "WARNING")

/-- The prompt of a dialogue. -/
def prompt (environment : Environment) : String := environment.setting "LOX_PROMPT" "> "

end Environment

end LoxLang
