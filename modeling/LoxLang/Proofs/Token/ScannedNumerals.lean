/-
**Integers are printed exactly, and read back by the scanner.**

The text that a program prints of an integer is its canonical numeral, whichever way it is written.  A text
of digits is one lexeme from its first character to its last, and as long as the digits are within the limit
it is one token, whose literal is the number that they denote.  So a printed integer that is not negative
is scanned as itself.

* `LoxLang.scan_digits` — the scan of a text of digits;
* `LoxLang.Numeral.printing_exact` — **printing an integer, and scanning it again**.
-/

import LoxLang.Proofs.Number.Canonical
import LoxLang.Proofs.Token.OverLimit
import LoxLang.Value.Operators

set_option relaxedAutoImplicit false
set_option autoImplicit false

namespace LoxLang

/-! ### Texts of digits -/

/-- The only step through digits within the limit. -/
theorem scanSteps_digits {digits : List Char} (hne : digits ≠ [])
    (hd : ∀ c ∈ digits, isDigit c = true) (hle : digits.length ≤ Numeral.digitLimit) (line : Int) :
    scanSteps line digits = [⟨digits, line,
      .token ⟨.number, String.ofList digits, some (.number (.int (Numeral.value digits))), line⟩⟩] := by
  obtain ⟨first, others, rfl⟩ := List.exists_cons_of_ne_nil hne
  have hmunch : munch first others = ⟨.whole, others, []⟩ := by
    have h := (Lexeme.Covers.whole hne hd).munch_eq (.inl rfl)
    rwa [List.append_nil] at h
  have hstep : scanStep line first (munch first others) = ⟨first :: others, line,
      .token ⟨.number, String.ofList (first :: others),
        some (.number (.int (Numeral.value (first :: others)))), line⟩⟩ := by
    rw [hmunch]
    exact congrArg (ScanStep.mk _ line) (emission_whole_of_le hle line)
  rw [scanSteps_cons, hstep, if_neg (by exact Bool.false_ne_true), hmunch, scanSteps_nil]

/-- **A text of digits is scanned as one numeral**, if they are within the limit. -/
theorem scan_digits {text : String} (hne : text.toList ≠ [])
    (hd : ∀ c ∈ text.toList, isDigit c = true) (hle : text.toList.length ≤ Numeral.digitLimit) :
    scan text = ⟨[⟨.number, text, some (.number (.int (Numeral.value text.toList))), 1⟩,
      Token.endOfSource 1], [], none⟩ := by
  unfold scan
  rw [scanSteps_digits hne hd hle 1, String.ofList_toList]
  rfl

namespace Numeral

/-- The canonical numeral of an integer that is not negative is scanned as it. -/
theorem Canonical.scan_eq {text : String} {v : Int} (h : Canonical text v) (hv : 0 ≤ v)
    (hle : text.length ≤ digitLimit) :
    scan text = ⟨[⟨.number, text, some (.number (.int v)), 1⟩, Token.endOfSource 1], [], none⟩ := by
  obtain ⟨digits, hdigits, htext⟩ := h
  rw [if_neg (by omega), List.nil_append] at htext
  have hvalue : (value digits : Int) = v := by
    rw [value_eq_decimal, hdigits.decimal]
    omega
  rw [← hvalue, ← htext]
  refine scan_digits ?_ ?_ ?_
  · rw [htext]
    exact hdigits.nonempty
  · rw [htext]
    exact hdigits.digit
  · rw [String.length_toList]
    exact hle

/-- **Printing an integer is exact, and inverse to scanning.**  An integer of any size is printed as its
canonical numeral; written in chunks it is the same text, unless it is zero, which has no chunks; and the
text of an integer that is not negative and within the limit of digits is scanned as one numeral with the
integer for its literal, and nothing else. -/
theorem printing_exact (v : Int) :
    ∃ text, (Value.number (.int v)).written = .ok text ∧ text? v = some text ∧
      (∀ other, Canonical other v ↔ other = text) ∧
      (v ≠ 0 → chunked? v = some text) ∧
      (0 ≤ v → text.length ≤ digitLimit →
        scan text =
          ⟨[⟨.number, text, some (.number (.int v)), 1⟩, Token.endOfSource 1], [], none⟩) := by
  obtain ⟨text, htext, hcanonical⟩ := text?_canonical v
  refine ⟨text, ?_, htext, fun other => ⟨fun h => h.unique hcanonical, ?_⟩, ?_, hcanonical.scan_eq⟩
  · unfold Value.written Value.print? Number.print?
    dsimp only
    rw [htext]
  · rintro rfl
    exact hcanonical
  · intro hv
    rw [chunked?_eq_text? hv, htext]

/-- A negative integer over the limit, and a short one with a zero at its end. -/
theorem printing_exact_longAndShort :
    (∃ text, limited? (-(10 ^ 4300)) = none ∧
      (Value.number (.int (-(10 ^ 4300)))).written = .ok text ∧
      chunked? (-(10 ^ 4300)) = some text ∧ Canonical text (-(10 ^ 4300))) ∧
    chunked? 120 = some "120" ∧
    scan "120" = ⟨[⟨.number, "120", some (.number (.int 120)), 1⟩, Token.endOfSource 1], [], none⟩ := by
  have hlong : limited? (-(10 ^ 4300)) = none := by decide +kernel
  have hne : (-(10 ^ 4300) : Int) ≠ 0 := by decide +kernel
  obtain ⟨text, hwritten, -, hcanonical, hchunked, -⟩ := printing_exact (-(10 ^ 4300))
  obtain ⟨short, -, hshort, -, hchunks, hscan⟩ := printing_exact 120
  have hknown : text? 120 = some "120" := by decide +kernel
  cases hknown.symm.trans hshort
  exact ⟨⟨text, hlong, hwritten, hchunked hne, (hcanonical text).2 rfl⟩, hchunks (by decide),
    hscan (by decide) (by decide)⟩

end Numeral

end LoxLang
