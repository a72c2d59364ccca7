/-
Blank characters, and texts without blanks around them.

Main definitions:

* `LoxLang.Text.isBlank` — the characters with the Unicode property of white space, and the four
  separators of ASCII;
* `LoxLang.Text.strip` — a text without the blanks at its two ends.

Main results:

* `LoxLang.Text.isBlank_of_isWhitespace` — ASCII white space is blank.
-/

import LoxLang.Text.Interval

set_option relaxedAutoImplicit false
set_option autoImplicit false

namespace LoxLang.Text

/-- The code points of blanks. -/
def blanks : Intervals :=
  [(0x9, 0xd), (0x1c, 0x20), (0x85, 0x85), (0xa0, 0xa0), (0x1680, 0x1680), (0x2000, 0x200a),
    (0x2028, 0x2029), (0x202f, 0x202f), (0x205f, 0x205f), (0x3000, 0x3000)]

/-- The character is blank. -/
def isBlank (c : Char) : Bool := blanks.contains c

theorem isBlank_of_isWhitespace {c : Char} (h : c.isWhitespace = true) : isBlank c = true := by
  simp only [Char.isWhitespace, Bool.or_eq_true, decide_eq_true_eq] at h
  rcases h with ((rfl | rfl) | rfl) | rfl <;> decide

/-- The text without the blanks at its two ends. -/
def strip (text : String) : String :=
  String.ofList ((text.toList.dropWhile isBlank).reverse.dropWhile isBlank).reverse

end LoxLang.Text
