/-
The command line.

`lox` runs a script, or starts a dialogue if none is named.  Options begin with a dash; a lone dash,
a negative number and anything with a space in it do not count as options, and nothing does after a
double dash.  The only option asks for help, which is given as soon as it is met; all other options,
and all names after the first, are refused together at the end.

Main definitions:

* `LoxLang.Argument`, `LoxLang.Argument.ofText` — what a word of the command line is;
* `LoxLang.Invocation`, `LoxLang.Invocation.ofWords` — what a command line asks for;
* `LoxLang.plainPath` — the path that a script is read from;
* `LoxLang.ScriptFault` — why a script cannot be read;
* `LoxLang.CommandRun`, `LoxLang.Invocation.run` — what a command line comes to;
* `LoxLang.transcript` — the output of a dialogue, prompts included.
-/

import LoxLang.Session
import LoxLang.Settings
import LoxLang.Text.DecimalDigit
import LoxLang.Text.Quoted

set_option relaxedAutoImplicit false
set_option autoImplicit false

namespace LoxLang

/-! ### Texts -/

/-- The usage line. -/
def usageText : String := "usage: lox [-h] [script]\n"

/-- What help says. -/
def helpText : String :=
  usageText ++
    "\nRun a Lox script, or start a REPL.\n" ++
    "\npositional arguments:\n" ++
    "  script      path to a .lox file\n" ++
    "\noptions:\n" ++
    "  -h, --help  show this help message and exit\n"

/-- The exit code of a command line that cannot be understood. -/
def exitUsage : Nat := 2

/-! ### Words -/

/-- What a word of the command line is, in front of a double dash. -/
inductive Argument where
  | positional
  | help
  /-- Help, with a value that it does not take. -/
  | helpWith (value : String)
  | unknown
  deriving DecidableEq, Repr

/-- A text without the line end that it may end with. -/
def withoutLineEnd (text : List Char) : List Char :=
  if text.getLast? = some '\n' then text.dropLast else text

/-- The characters make a number: digits, or a point with digits behind it and perhaps some before
it. -/
def isUnsignedNumber (text : List Char) : Bool :=
  match text.dropWhile Text.isDecimalDigit with
  | [] => !text.isEmpty
  | '.' :: fraction => !fraction.isEmpty && fraction.all Text.isDecimalDigit
  | _ => false

namespace Argument

/-- What follows the letter of the help option directly.  It is read as further letters of options,
and from the first one that is not that of help it is a value. -/
def ofLetters (text : List Char) : Argument :=
  match text.dropWhile (· == 'h') with
  | [] => .help
  | value => .helpWith (String.ofList value)

/-- What follows the letter of the help option.  An equals sign in front is skipped, but not if it
stands alone: then the value is empty. -/
def ofShortName : List Char → Argument
  | ['='] => .helpWith ""
  | '=' :: text => ofLetters text
  | text => ofLetters text

/-- What follows a double dash: the beginning of the name of the help option, perhaps with a value,
or something else. -/
def ofLongName (text : List Char) : Argument :=
  let name := text.takeWhile (· != '=')
  if name.isPrefixOf "help".toList then
    match text.dropWhile (· != '=') with
    | [] => .help
    | _ :: value => .helpWith (String.ofList value)
  else if text.contains ' ' then
    .positional
  else
    .unknown

/-- What a word is that is not a double dash. -/
def ofText (word : String) : Argument :=
  match word.toList with
  | '-' :: '-' :: name => ofLongName name
  | '-' :: 'h' :: text => ofShortName text
  | ['-'] => .positional
  | '-' :: text =>
      if isUnsignedNumber (withoutLineEnd text) || text.contains ' ' then .positional else .unknown
  | _ => .positional

end Argument

/-! ### Command lines -/

/-- What a command line asks for. -/
inductive Invocation where
  | dialogue
  | script (path : String)
  | help
  /-- A value that the help option does not take. -/
  | refusedValue (value : String)
  /-- Words that are not understood. -/
  | refusedWords (words : List String)
  deriving DecidableEq, Repr

/-- How far the script is found while the words are read. -/
inductive ScriptSearch where
  | missing
  /-- The word before was the script. -/
  | justFound (path : String)
  | found (path : String)
  deriving DecidableEq, Repr

namespace Invocation

/-- What is asked for by a script, if one was found, and words that are not understood. -/
def ofScript (script : Option String) (refused : List String) : Invocation :=
  if refused.isEmpty then
    match script with
    | none => .dialogue
    | some path => .script path
  else
    .refusedWords refused

/-- The script, if it is found. -/
def scriptOf : ScriptSearch → Option String
  | .missing => none
  | .justFound path => some path
  | .found path => some path

/-- Read the words after a double dash. -/
def afterDashes (search : ScriptSearch) (refused : List String) (words : List String) :
    Invocation :=
  match search, words with
  | .missing, [] => ofScript none refused
  | .missing, path :: rest => ofScript (some path) (refused ++ rest)
  | .justFound path, rest => ofScript (some path) (refused ++ rest)
  | .found path, rest => ofScript (some path) (refused ++ "--" :: rest)

/-- Read words, with the script as far as it is found and the words refused so far. -/
def ofWordsAfter (search : ScriptSearch) (refused : List String) : List String → Invocation
  | [] => ofScript (scriptOf search) refused
  | "--" :: rest => afterDashes search refused rest
  | word :: rest =>
      match Argument.ofText word, search with
      | .help, _ => .help
      | .helpWith value, _ => .refusedValue value
      | .positional, .missing => ofWordsAfter (.justFound word) refused rest
      | .positional, .justFound path => ofWordsAfter (.found path) (refused ++ [word]) rest
      | .unknown, .justFound path => ofWordsAfter (.found path) (refused ++ [word]) rest
      | _, search => ofWordsAfter search (refused ++ [word]) rest

/-- What a command line asks for. -/
def ofWords (words : List String) : Invocation := ofWordsAfter .missing [] words

/-- Why a command line is refused, if it is. -/
def refusal? : Invocation → Option String
  | .refusedValue value =>
      some ("argument -h/--help: ignored explicit argument " ++ Text.quoted value)
  | .refusedWords words => some ("unrecognized arguments: " ++ " ".intercalate words)
  | _ => none

end Invocation

/-! ### Paths -/

/-- The parts of a path that name something: not the empty ones, and not a dot. -/
def pathParts (path : String) : List String :=
  (path.splitOn "/").filter fun part => part != "" && part != "."

/-- The slashes that a path begins with, as far as they count: two are kept, and any other number
of them is one. -/
def pathRoot (path : String) : String :=
  match path.toList with
  | '/' :: '/' :: '/' :: _ => "/"
  | '/' :: '/' :: _ => "//"
  | '/' :: _ => "/"
  | _ => ""

/-- A path without the parts that name nothing; a dot stands for a path that has no others. -/
def plainPath (path : String) : String :=
  let plain := pathRoot path ++ "/".intercalate (pathParts path)
  if plain.isEmpty then "." else plain

/-! ### Running a command line -/

/-- Why a script cannot be read. -/
inductive ScriptFault where
  | missing
  | directory
  | notDirectory
  | nameTooLong
  | other (message : String)
  deriving DecidableEq, Repr

/-- The wording of a fault. -/
def ScriptFault.message : ScriptFault → String
  | .missing => "No such file or directory"
  | .directory => "Is a directory"
  | .notDirectory => "Not a directory"
  | .nameTooLong => "File name too long"
  | .other message => message

/-- The complaint about a script that cannot be read. -/
def ScriptFault.complaint (path : String) (fault : ScriptFault) : String :=
  "lox: cannot read " ++ path ++ ": " ++ fault.message ++ "\n"

/-- How a command line ends. -/
inductive CommandEnd where
  | code (code : Nat)
  /-- The command line was answered at once, before anything was set up. -/
  | early (code : Nat)
  | fault (fault : SessionFault)
  deriving DecidableEq, Repr

/-- What a command line comes to: what was printed, what was reported, and how it ended. -/
structure CommandRun where
  output : String
  errors : String
  ending : CommandEnd
  deriving DecidableEq, Repr

/-- The output of a dialogue with the prompt before each line and before the end, the session at the
end, and the fault that ended the dialogue early. -/
def transcript (fuel : Nat) (prompt : String) :
    List String → Session → String × Session × Option SessionFault
  | [], s => (prompt, s, none)
  | line :: lines, s =>
      let (after, fault) := s.enter fuel line
      let shown := prompt ++ s.outputSince after
      match fault with
      | some fault => (shown, after, some fault)
      | none =>
          let (more, last, fault) := transcript fuel prompt lines after
          (shown ++ more, last, fault)

namespace Invocation

/-- Run what a command line asks for, with the prompt, a way to read scripts by their plain paths, the
lines of the input and a new session. -/
def run (fuel : Nat) (prompt : String) (readScript : String → Except ScriptFault (List Nat))
    (input : List String) (s : Session) : Invocation → CommandRun
  | .help => ⟨helpText, "", .early exitSuccess⟩
  | .dialogue =>
      let (output, s, fault) := transcript fuel prompt input s
      ⟨output, s.diagnostics.stream, (fault.map .fault).getD (.code exitSuccess)⟩
  | .script path =>
      match readScript (plainPath path) with
      | .error fault => ⟨"", fault.complaint path, .code exitNoInput⟩
      | .ok octets =>
          let (s, fault) := s.runOctets fuel octets
          ⟨s.output, s.diagnostics.stream,
            (fault.map .fault).getD (.code s.diagnostics.exitCode)⟩
  | refused =>
      ⟨"", usageText ++ "lox: error: " ++ refused.refusal?.getD "" ++ "\n", .early exitUsage⟩

end Invocation

end LoxLang
