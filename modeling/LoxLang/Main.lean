/-
The program.

It reads the command line, the environment, scripts and the lines of a dialogue, and writes what
comes of them.  What a command line means and what programs do is decided elsewhere.
-/

import LoxLang.CommandLine

set_option relaxedAutoImplicit false
set_option autoImplicit false

namespace LoxLang.Main

/-- Fuel that no program uses up. -/
def fuel : Nat := 1000000000000000000

/-- The variables that the program looks at. -/
def readEnvironment : IO Environment := do
  let mut found := []
  for variableName in ["LOX_LOG_LEVEL", "LOX_PROMPT"] do
    if let some value ← IO.getEnv variableName then
      found := (variableName, value) :: found
  return found

/-- Readings of the clock that pass with each reading, from a time in milliseconds on. -/
def clockFrom (start : Nat) (reading : Nat) : Binary64 :=
  Binary64.ofDecimal false (start + reading) (-3)

/-- The code of the operating system for reading a directory.  The other path that is of the wrong
kind goes on behind a file. -/
def isDirectoryCode : UInt32 := 21

/-- The code of the operating system for an argument that is not valid.  The other path that is
refused for its form is too long. -/
def notValidCode : UInt32 := 22

/-- The octets of a script. -/
def readScript (path : String) : IO (Except ScriptFault (List Nat)) := do
  try
    let octets ← IO.FS.readBinFile path
    return .ok (octets.toList.map UInt8.toNat)
  catch problem =>
    match problem with
    | .noFileOrDirectory _ _ _ => return .error .missing
    | .inappropriateType _ code _ =>
        return .error (if code = isDirectoryCode then .directory else .notDirectory)
    | .invalidArgument _ code details =>
        return .error (if code = notValidCode then .other details else .nameTooLong)
    | .permissionDenied _ _ _ => return .error (.other "Permission denied")
    | other => return .error (.other (toString other))

/-- Write text at once. -/
def writeOut (text : String) : IO Unit := do
  let out ← IO.getStdout
  out.putStr text
  out.flush

/-- What a fault of a session says. -/
def faultMessage : SessionFault → String
  | .reading (.tooLong digits) => Numeral.readLimitMessage digits
  | .reading _ => "not a program"
  | .octets fault => fault.message
  | .breakdown _ => "the machine broke down"
  | .outOfFuel => "out of fuel"

/-- A line of the input without its end; none at the end of the input. -/
def readLine : IO (Option String) := do
  let line ← (← IO.getStdin).getLine
  if line.isEmpty then
    return none
  else
    return some (String.ofList (line.toList.takeWhile (· != '\n')))

/-- The lines of a dialogue, each answered as it comes. -/
partial def converse (prompt : String) (s : Session) : IO UInt32 := do
  writeOut prompt
  match ← readLine with
  | none => return 0
  | some line =>
      let (after, fault) := s.enter fuel line
      writeOut (s.outputSince after)
      IO.eprint (Text.endLines (after.diagnostics.written.drop s.diagnostics.written.length))
      match fault with
      | some fault =>
          IO.eprintln (faultMessage fault)
          return 1
      | none => converse prompt after

/-- Write what a command line came to, and give its exit code. -/
def finish (run : CommandRun) : IO UInt32 := do
  writeOut run.output
  IO.eprint run.errors
  match run.ending with
  | .code code => return code.toUInt32
  | .early code => return code.toUInt32
  | .fault fault =>
      IO.eprintln (faultMessage fault)
      return 1

end LoxLang.Main

/-- Run the command line. -/
def main (words : List String) : IO UInt32 := do
  let environment ← LoxLang.Main.readEnvironment
  let session := LoxLang.Session.start (LoxLang.Main.clockFrom (← IO.monoMsNow))
  match LoxLang.Invocation.ofWords words with
  | .dialogue => LoxLang.Main.converse environment.prompt session
  | .script path =>
      let script ← LoxLang.Main.readScript (LoxLang.plainPath path)
      LoxLang.Main.finish
        ((LoxLang.Invocation.script path).run LoxLang.Main.fuel environment.prompt
          (fun _ => script) [] session)
  | invocation =>
      LoxLang.Main.finish
        (invocation.run LoxLang.Main.fuel environment.prompt (fun _ => .error .missing) [] session)
