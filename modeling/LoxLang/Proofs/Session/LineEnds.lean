/-
**The line ends of a file do not matter.**

A file is read with its line ends unified, while a source text that is run as it is keeps them.  Both are
scanned alike, if each carriage return stands in front of a line feed and none in a closed string, and a
run depends on nothing but the scan.  So a file that holds such a text runs like the text.

* `LoxLang.read_congr`, `LoxLang.Session.run_congr` — texts with the same scan;
* `LoxLang.Session.run_lineEnds` — **files and texts**.
-/

import LoxLang.Proofs.Text.Utf8
import LoxLang.Proofs.Token.LineEnds
import LoxLang.Session

set_option relaxedAutoImplicit false
set_option autoImplicit false

namespace LoxLang

/-- Texts with the same scan are read alike. -/
theorem read_congr {source other : String} (h : scan source = scan other) :
    read source = read other := by
  unfold read
  rw [h]

namespace Session

/-- Texts with the same scan are run alike. -/
theorem run_congr {source other : String} (h : scan source = scan other) (fuel : Nat) (s : Session) :
    s.run fuel source = s.run fuel other := by
  unfold run
  rw [read_congr h]

/-- The octets of a text run like the text with its line ends unified. -/
theorem runOctets_of_decode {octets : List Nat} {source : String}
    (h : Text.Utf8.decode octets = .ok source) (fuel : Nat) (s : Session) :
    s.runOctets fuel octets =
      s.run fuel (String.ofList (Text.unifyLineEnds source.toList)) := by
  unfold runOctets
  rw [h]

/-- **Line ends do not matter.**  If each carriage return of a source stands in front of a line feed and
none in a closed string, then unifying the line ends takes just these carriage returns away, the scan is the
same, with the same tokens on the same lines and the same errors, and a file that holds the source, which
its octets do, runs like the source itself in every session, a new one among them: with the same session
behind it, its output, its messages, its exit code and its globals, and with the same fault or none. -/
theorem run_lineEnds {source : String} (hr : ReturnsPaired source.toList)
    (hs : StringsWithoutReturns source.toList) :
    Text.unifyLineEnds source.toList = source.toList.filter (· != '\r') ∧
      scan (String.ofList (Text.unifyLineEnds source.toList)) = scan source ∧
      Text.Utf8.decode (Text.Utf8.octets source) = .ok source ∧
      ∀ octets, Text.Utf8.decode octets = .ok source → ∀ fuel (s : Session),
        s.runOctets fuel octets = s.run fuel source := by
  have hscan := scan_unifyLineEnds hr hs
  refine ⟨unifyLineEnds_eq hr, hscan, Text.Utf8.decode_octets source, ?_⟩
  intro octets hd fuel s
  rw [runOctets_of_decode hd, run_congr hscan]

/-- Carriage returns behind a comment, a numeral, an operator, a name, a string and an empty line, in a
program that prints twice and then fails. -/
def returnedSource : String :=
  "var a = 1 // one\r\n;\r\nprint a\r\n<=\r\n2;\r\n\r\nprint \"b\"\r\n;\r\nc;\r\n"

/-- A file that holds such a text, and the text itself, in a new session. -/
theorem run_lineEnds_returnedSource :
    ReturnsPaired returnedSource.toList ∧ StringsWithoutReturns returnedSource.toList ∧
      (scan (String.ofList (Text.unifyLineEnds returnedSource.toList))).tokens =
        (scan returnedSource).tokens ∧
      (start fun _ => .zero).runOctets 9 (Text.Utf8.octets returnedSource) =
        (start fun _ => .zero).run 9 returnedSource ∧
      ((start fun _ => .zero).run 9 returnedSource).1.output = "true\nb\n" ∧
      ((start fun _ => .zero).run 9 returnedSource).1.diagnostics.exitCode = exitRuntime := by
  have hr : ReturnsPaired returnedSource.toList := by decide +kernel
  have hs : StringsWithoutReturns returnedSource.toList :=
    stringsWithoutReturns_of_steps 1 (by decide +kernel)
  obtain ⟨-, hscan, hdecode, hrun⟩ := run_lineEnds hr hs
  refine ⟨hr, hs, congrArg Scan.tokens hscan, hrun _ hdecode 9 _, ?_, ?_⟩
  · decide +kernel
  · decide +kernel

end Session

end LoxLang
