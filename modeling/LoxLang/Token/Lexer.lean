/-
Reading a source text into tokens.

The text falls into lexemes from left to right.  A lexeme yields a token, nothing, or an error;
after an error reading goes on behind the lexeme, with one exception: a numeral with more digits
than the limit for integers ends the reading.  Everything a lexeme yields carries the line on which
the lexeme ends; the lines are counted by the lexemes that end some.  A source text holds no lone
surrogates.

Main definitions:

* `LoxLang.LexicalError` — an error and its line;
* `LoxLang.Emission`, `LoxLang.Lexeme.emission` — what a lexeme yields;
* `LoxLang.ScanStep`, `LoxLang.scanSteps` — the lexemes of a text with what they yield;
* `LoxLang.Scan`, `LoxLang.scan` — tokens, with the one that ends the text, and errors.

Main results:

* `LoxLang.Lexeme.emission_eq_token` — the lexeme and the line of a token;
* `LoxLang.scanSteps_nil`, `LoxLang.scanSteps_cons`, `LoxLang.scanSteps_cons_of_not_isLast` — reading
  goes on where a lexeme ends.
-/

import LoxLang.Report
import LoxLang.Token.Lexeme

set_option relaxedAutoImplicit false
set_option autoImplicit false

namespace LoxLang

/-! ### Errors -/

/-- Why a slice of the text is no lexeme of the language. -/
inductive LexicalCause where
  | unexpectedCharacter (c : Char)
  | unterminatedString
  deriving DecidableEq, Repr

/-- The wording of a cause. -/
def LexicalCause.message : LexicalCause → String
  | .unexpectedCharacter c => "Unexpected character " ++ String.singleton c ++ "."
  | .unterminatedString => "Unterminated string."

/-- An error in a source text. -/
structure LexicalError where
  line : Int
  cause : LexicalCause
  deriving DecidableEq, Repr

/-- The report of an error. -/
def LexicalError.report (error : LexicalError) : Report :=
  Report.ofLine error.line error.cause.message

/-! ### What a lexeme yields -/

/-- What a lexeme yields. -/
inductive Emission where
  | nothing
  | token (token : Token)
  | error (error : LexicalError)
  /-- An integer numeral with more digits than the limit. -/
  | tooLong (digits : Nat)
  deriving DecidableEq

/-- The token, if there is one. -/
def Emission.token? : Emission → Option Token
  | .token found => some found
  | _ => none

/-- The error, if there is one. -/
def Emission.error? : Emission → Option LexicalError
  | .error found => some found
  | _ => none

/-- What a lexeme yields that has the given slice and ends on the given line. -/
def Lexeme.emission (slice : List Char) (line : Int) : Lexeme → Emission
  | .mark kind => .token ⟨kind, String.ofList slice, none, line⟩
  | .comment => .nothing
  | .blank => .nothing
  | .lineEnd => .nothing
  | .quoted text =>
      .token ⟨.string, String.ofList slice, some (.text (String.ofList text)), line⟩
  | .unterminated => .error ⟨line, .unterminatedString⟩
  | .whole =>
      if slice.length ≤ Numeral.digitLimit then
        .token ⟨.number, String.ofList slice, some (.number (.int (Numeral.value slice))), line⟩
      else
        .tooLong slice.length
  | .fraction before after =>
      let value := Binary64.ofDecimal false (Numeral.value (before ++ after)) (-after.length)
      .token ⟨.number, String.ofList slice, some (.number (.double value)), line⟩
  | .word => .token ⟨.ofWord (String.ofList slice), String.ofList slice, none, line⟩
  | .illegal c => .error ⟨line, .unexpectedCharacter c⟩

/-- A token that a lexeme yields has the slice as its lexeme, and the line that the lexeme ends on. -/
theorem Lexeme.emission_eq_token {lexeme : Lexeme} {slice : List Char} {line : Int} {token : Token}
    (h : lexeme.emission slice line = .token token) :
    token.lexeme = String.ofList slice ∧ token.line = line := by
  cases lexeme with
  | whole =>
      simp only [emission] at h
      split at h
      · cases h
        exact ⟨rfl, rfl⟩
      · cases h
  | mark kind | quoted text | fraction before after | word =>
      cases h
      exact ⟨rfl, rfl⟩
  | comment | blank | lineEnd | unterminated | illegal c => cases h

/-! ### Steps -/

/-- One lexeme of a source text: its slice, the line on which it ends, and what it yields. -/
structure ScanStep where
  slice : List Char
  line : Int
  emission : Emission

/-- The step of a lexeme that begins on the given line. -/
def scanStep (line : Int) (first : Char) (found : Munch) : ScanStep :=
  let slice := first :: found.taken
  let last := found.lexeme.endLine line found.taken
  ⟨slice, last, found.lexeme.emission slice last⟩

/-- The step ends the reading. -/
def ScanStep.isLast (step : ScanStep) : Bool :=
  match step.emission with
  | .tooLong _ => true
  | _ => false

/-- The steps through a text that begins on the given line. -/
def scanSteps (line : Int) : List Char → List ScanStep
  | [] => []
  | first :: text =>
      let found := munch first text
      let step := scanStep line first found
      if step.isLast then [step] else step :: scanSteps step.line found.rest
termination_by text => text.length
decreasing_by exact Nat.lt_succ_of_le (munch_rest_length_le first text)

theorem scanSteps_nil (line : Int) : scanSteps line [] = [] := by rw [scanSteps]

theorem scanSteps_cons (line : Int) (first : Char) (text : List Char) :
    scanSteps line (first :: text) =
      if (scanStep line first (munch first text)).isLast then
        [scanStep line first (munch first text)]
      else
        scanStep line first (munch first text) ::
          scanSteps (scanStep line first (munch first text)).line (munch first text).rest := by
  rw [scanSteps]

theorem scanStep_mem_scanSteps (line : Int) (first : Char) (text : List Char) :
    scanStep line first (munch first text) ∈ scanSteps line (first :: text) := by
  rw [scanSteps_cons]
  split
  · exact List.mem_singleton_self _
  · exact List.mem_cons_self

theorem scanSteps_cons_of_not_isLast {line : Int} {first : Char} {text : List Char}
    (h : (scanStep line first (munch first text)).isLast = false) :
    scanSteps line (first :: text) =
      scanStep line first (munch first text) ::
        scanSteps (scanStep line first (munch first text)).line (munch first text).rest := by
  rw [scanSteps_cons, h, if_neg Bool.false_ne_true]

/-! ### Scans -/

/-- What a source text is read into. -/
structure Scan where
  tokens : List Token
  errors : List LexicalError
  /-- The digits of the integer numeral that ended the reading, if one did. -/
  tooLong : Option Nat

/-- The line that the steps end on, when they begin on the given one. -/
def lastLine (line : Int) (steps : List ScanStep) : Int :=
  match steps.getLast? with
  | some step => step.line
  | none => line

/-- The digits of a numeral that is too long, if the step has one. -/
def ScanStep.tooLong? (step : ScanStep) : Option Nat :=
  match step.emission with
  | .tooLong digits => some digits
  | _ => none

/-- Read a source text. -/
def scan (source : String) : Scan :=
  let steps := scanSteps 1 source.toList
  { tokens := steps.filterMap (·.emission.token?) ++ [Token.endOfSource (lastLine 1 steps)]
    errors := steps.filterMap (·.emission.error?)
    tooLong := steps.findSome? ScanStep.tooLong? }

end LoxLang
