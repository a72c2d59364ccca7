/-
The shortest decimal of a double.

A double is written with the fewest decimal digits that read back as that double; of the decimals
with that many digits the nearest is taken, and of two equally near ones the one with the even
last digit.  Digits are tried on the decimal grids `10 ^ exponent` from the coarsest on: on each
grid only the two neighbours of the number can be nearest.  Every double is itself a decimal, since
a unit is `5 ^ 1074 * 10 ^ (-1074)`, so the search may fall back on its exact digits.

Main definitions:

* `LoxLang.Decimal` — digits and a power of ten;
* `LoxLang.Decimal.toMagnitude?` — the magnitude that a decimal reads as;
* `LoxLang.Magnitude.leadingExponent` — the power of ten of the first digit;
* `LoxLang.Magnitude.neighbour?` — the decimal on a grid that reads back;
* `LoxLang.Magnitude.shortest` — the shortest decimal;
* `LoxLang.DoubleLayout`, `LoxLang.Binary64.render` — digits, point and exponent of the text.

Main results:

* `LoxLang.Magnitude.neighbour?_readsBack` — what a grid offers reads back as the number.
-/

import LoxLang.Number.Binary64

set_option relaxedAutoImplicit false
set_option autoImplicit false

namespace LoxLang

/-! ### Decimals -/

/-- The number `digits * 10 ^ exponent`. -/
structure Decimal where
  digits : Nat
  exponent : Int
  deriving DecidableEq, Repr

/-- The magnitude nearest to the decimal, if it is finite. -/
def Decimal.toMagnitude? (decimal : Decimal) : Option Magnitude :=
  Magnitude.ofRatio? (decimal.digits * unitsPerOne * Nat.pow 10 decimal.exponent.toNat)
    (Nat.pow 10 (-decimal.exponent).toNat)

/-- The number of decimal digits, one for zero. -/
def decimalLength (n : Nat) : Nat := n.repr.length

namespace Magnitude

/-- The power of ten of the first digit of a positive magnitude: it is at least `10 ^ e` and less
than `10 ^ (e + 1)`. -/
def leadingExponent (m : Magnitude) : Int :=
  if unitsPerOne ≤ m.units then (decimalLength (m.units / unitsPerOne) : Int) - 1
  else -(decimalLength ((unitsPerOne - 1) / m.units) : Int)

/-- The multiple of `10 ^ exponent` nearest to the magnitude among the next one below and the next
one above, of those that read back as it. -/
def neighbour? (m : Magnitude) (exponent : Int) : Option Decimal :=
  let num := m.units * Nat.pow 10 (-exponent).toNat
  let den := unitsPerOne * Nat.pow 10 exponent.toNat
  let below : Decimal := ⟨num / den, exponent⟩
  let above : Decimal := ⟨num / den + 1, exponent⟩
  if below.toMagnitude? = some m then
    if above.toMagnitude? = some m then
      some ⟨divHalfEven num den, exponent⟩
    else
      some below
  else if above.toMagnitude? = some m then
    some above
  else
    none

theorem divHalfEven_eq_or (num den : Nat) :
    divHalfEven num den = num / den ∨ divHalfEven num den = num / den + 1 := by
  have := divHalfEven_le num den
  have := le_divHalfEven num den
  omega

theorem neighbour?_readsBack {m : Magnitude} {exponent : Int} {decimal : Decimal}
    (found : m.neighbour? exponent = some decimal) : decimal.toMagnitude? = some m := by
  unfold neighbour? at found
  dsimp only at found
  split at found
  · next below =>
      split at found
      · next above =>
          rw [← Option.some.inj found]
          rcases divHalfEven_eq_or (m.units * Nat.pow 10 (-exponent).toNat)
            (unitsPerOne * Nat.pow 10 exponent.toNat) with same | next
          · rw [same]; exact below
          · rw [next]; exact above
      · rw [← Option.some.inj found]; exact below
  · split at found
    · next above => rw [← Option.some.inj found]; exact above
    · nomatch found

/-- All the digits of a magnitude. -/
def exact (m : Magnitude) : Decimal := ⟨m.units * Nat.pow 5 unitPlaces, -unitPlaces⟩

/-- Seventeen digits tell any two doubles apart. -/
def enoughDigits : Nat := 17

/-- The shortest decimal that reads back as the magnitude. -/
def shortest (m : Magnitude) : Decimal :=
  let leading := m.leadingExponent
  ((List.range enoughDigits).findSome? fun (more : Nat) => m.neighbour? (leading - more)).getD m.exact

end Magnitude

/-! ### Texts of doubles -/

/-- How the digits of a double are laid out. -/
structure DoubleLayout where
  /-- The least power of ten of the first digit that is written without an exponent. -/
  positionalFrom : Int
  /-- The power of ten of the first digit from which on an exponent is written. -/
  positionalBelow : Int
  /-- The least number of digits of an exponent. -/
  exponentDigits : Nat
  /-- What follows the digits of a whole number. -/
  wholeEnding : String

/-- Doubles in a dump: an exponent below `10 ^ (-4)` and from `10 ^ 16` on, and a whole number shows
that it is a double. -/
def DoubleLayout.dumped : DoubleLayout := ⟨-4, 16, 2, ".0"⟩

/-- Doubles in a program's output: as in a dump, but a whole number looks like an integer. -/
def DoubleLayout.printed : DoubleLayout := { DoubleLayout.dumped with wholeEnding := "" }

/-- The list without the zeros at its end. -/
def dropTrailingZeros (digits : List Char) : List Char :=
  (digits.reverse.dropWhile (· == '0')).reverse

namespace DoubleLayout

/-- Digits of which the first stands at `10 ^ leading`, with a point and without an exponent. -/
def positional (layout : DoubleLayout) (digits : List Char) (leading : Int) : String :=
  if leading < 0 then
    String.ofList ('0' :: '.' :: (List.replicate (-leading - 1).toNat '0' ++ digits))
  else
    let whole := digits.take (leading.toNat + 1)
    let filled := whole ++ List.replicate (leading.toNat + 1 - whole.length) '0'
    match digits.drop (leading.toNat + 1) with
    | [] => String.ofList filled ++ layout.wholeEnding
    | fraction => String.ofList (filled ++ '.' :: fraction)

/-- An exponent, with its sign. -/
def exponent (layout : DoubleLayout) (leading : Int) : String :=
  let digits := leading.natAbs.repr
  let zeros := String.ofList (List.replicate (layout.exponentDigits - digits.length) '0')
  "e" ++ (if leading < 0 then "-" else "+") ++ zeros ++ digits

/-- Digits of which the first stands at `10 ^ leading`, with an exponent. -/
def scientific (layout : DoubleLayout) (digits : List Char) (leading : Int) : String :=
  let mantissa :=
    match digits with
    | first :: second :: more => first :: '.' :: second :: more
    | short => short
  String.ofList mantissa ++ layout.exponent leading

/-- The text of a decimal. -/
def decimal (layout : DoubleLayout) (decimal : Decimal) : String :=
  let all := decimal.digits.repr.toList
  let leading := decimal.exponent + all.length - 1
  let digits := dropTrailingZeros all
  if layout.positionalFrom ≤ leading ∧ leading < layout.positionalBelow then
    layout.positional digits leading
  else
    layout.scientific digits leading

/-- The text of a magnitude. -/
def magnitude (layout : DoubleLayout) (m : Magnitude) : String :=
  if m.units = 0 then "0" ++ layout.wholeEnding else layout.decimal m.shortest

end DoubleLayout

/-- The text of a double. -/
def Binary64.render (layout : DoubleLayout) : Binary64 → String
  | .nan => "nan"
  | .infinite negative => (if negative then "-" else "") ++ "inf"
  | .finite negative m => (if negative then "-" else "") ++ layout.magnitude m

end LoxLang
