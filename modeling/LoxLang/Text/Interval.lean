/-
Sets of characters given by intervals of code points.

The character classes of this library that are not a matter of ASCII are tables of a standard.
Each of them is a list of closed intervals, in increasing order, and this module reads them.

Main definitions:

* `LoxLang.Text.Intervals` — a list of closed intervals of code points;
* `LoxLang.Text.Intervals.contains` — a character lies in one of them.
-/

set_option relaxedAutoImplicit false
set_option autoImplicit false

namespace LoxLang.Text

/-- Closed intervals of code points, each given by its first and its last member. -/
abbrev Intervals : Type := List (Nat × Nat)

/-- The character lies in one of the intervals. -/
def Intervals.contains (table : Intervals) (c : Char) : Bool :=
  table.any fun interval => interval.1 ≤ c.toNat && c.toNat ≤ interval.2

theorem Intervals.contains_iff (table : Intervals) (c : Char) :
    table.contains c = true ↔ ∃ interval ∈ table, interval.1 ≤ c.toNat ∧ c.toNat ≤ interval.2 := by
  simp [Intervals.contains]

end LoxLang.Text
