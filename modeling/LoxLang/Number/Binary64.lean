/-
Double-precision numbers.

Every finite double is a whole number of *units*, the unit being the least positive double
`2 ^ (-1074)`.  So a double is held here exactly, as a sign and a count of units, and each
operation is the exact operation on integers or quotients of integers followed by one rounding to
the nearest double, halves to the neighbour with the even significand.

Main definitions:

* `LoxLang.divHalfEven` — the whole number nearest to a quotient;
* `LoxLang.IsMagnitude`, `LoxLang.Magnitude` — the counts of units that are doubles: at most 53
  significant bits, and below `2 ^ 1024`;
* `LoxLang.Magnitude.ofRatio?` — the magnitude nearest to a quotient of units, if it is finite;
* `LoxLang.Binary64` — a double, with its sign kept on zeros and infinities;
* `LoxLang.Binary64.add`, `sub`, `mul`, `div`, `neg` — arithmetic;
* `LoxLang.Binary64.ofInt?`, `LoxLang.Binary64.ofDecimal` — the nearest double to an integer and to
  a decimal fraction.

Main results:

* `LoxLang.divHalfEven_le` — rounding moves a quotient up by less than one;
* `LoxLang.isMagnitude_of_significand` — 53 bits at any place below the limit are a magnitude.
-/

set_option relaxedAutoImplicit false
set_option autoImplicit false

namespace LoxLang

/-! ### Rounding a quotient -/

/-- The whole number nearest to `num / den`; a half goes to the even neighbour. -/
def divHalfEven (num den : Nat) : Nat :=
  let below := num / den
  let remainder := num % den
  if 2 * remainder < den then below
  else if den < 2 * remainder then below + 1
  else if below % 2 = 0 then below
  else below + 1

theorem divHalfEven_le (num den : Nat) : divHalfEven num den ≤ num / den + 1 := by
  unfold divHalfEven
  dsimp only
  split <;> try split <;> try split
  all_goals omega

theorem le_divHalfEven (num den : Nat) : num / den ≤ divHalfEven num den := by
  unfold divHalfEven
  dsimp only
  split <;> try split <;> try split
  all_goals omega

/-! ### Magnitudes -/

/-- The number of binary places of the unit. -/
def unitPlaces : Nat := 1074

/-- The number of units in one. -/
def unitsPerOne : Nat := Nat.pow 2 unitPlaces

/-- The number of units from which on there is no finite double. -/
def unitsLimit : Nat := Nat.pow 2 (1024 + unitPlaces)

theorem unitsPerOne_pos : 0 < unitsPerOne := Nat.pow_pos (by decide)

theorem unitsLimit_pos : 0 < unitsLimit := Nat.pow_pos (by decide)

/-- The units are those of a finite double: at most 53 significant bits, below the limit. -/
def IsMagnitude (units : Nat) : Prop :=
  units < unitsLimit ∧
    ∃ significand exponent, significand < Nat.pow 2 53 ∧ units = significand * Nat.pow 2 exponent

theorem isMagnitude_of_significand {significand exponent : Nat} (bits : significand ≤ Nat.pow 2 53)
    (limit : significand * Nat.pow 2 exponent < unitsLimit) :
    IsMagnitude (significand * Nat.pow 2 exponent) := by
  refine ⟨limit, ?_⟩
  rcases Nat.lt_or_eq_of_le bits with below | full
  · exact ⟨significand, exponent, below, rfl⟩
  · refine ⟨Nat.pow 2 52, exponent + 1, by decide, ?_⟩
    subst full
    change Nat.pow 2 52 * 2 * Nat.pow 2 exponent = Nat.pow 2 52 * (Nat.pow 2 exponent * 2)
    rw [Nat.mul_assoc, Nat.mul_comm 2]

/-- The absolute value of a finite double. -/
structure Magnitude where
  units : Nat
  isMagnitude : IsMagnitude units
  deriving DecidableEq

namespace Magnitude

/-- No units. -/
def zero : Magnitude where
  units := 0
  isMagnitude := ⟨unitsLimit_pos, 0, 0, by decide, by decide⟩

/-- The place of the last significand bit of a double near `num / den` units: the significand has
53 bits, or fewer where units are the finest spacing. -/
def lastPlace (num den : Nat) : Nat := (num / den).log2 - 52

theorem div_lastPlace_lt (num den : Nat) :
    num / (den * Nat.pow 2 (lastPlace num den)) < Nat.pow 2 53 := by
  unfold lastPlace
  simp only [Nat.pow_eq]
  rw [← Nat.div_div_eq_div_mul]
  generalize num / den = quotient
  have upper : quotient < 2 ^ (quotient.log2 + 1) := Nat.lt_log2_self
  apply Nat.div_lt_of_lt_mul
  rw [← Nat.pow_add]
  exact Nat.lt_of_lt_of_le upper (Nat.pow_le_pow_right (by decide) (by omega))

/-- The magnitude nearest to `num / den` units, a half going to the even significand; none where
the nearest one would reach the limit. -/
def ofRatio? (num den : Nat) : Option Magnitude :=
  let place := lastPlace num den
  let significand := divHalfEven num (den * Nat.pow 2 place)
  if limit : significand * Nat.pow 2 place < unitsLimit then
    some
      { units := significand * Nat.pow 2 place
        isMagnitude := isMagnitude_of_significand
          (Nat.le_trans (divHalfEven_le _ _) (div_lastPlace_lt num den)) limit }
  else
    none

end Magnitude

/-! ### Doubles -/

/-- A double-precision number. -/
inductive Binary64 where
  | nan
  | infinite (negative : Bool)
  | finite (negative : Bool) (magnitude : Magnitude)
  deriving DecidableEq

namespace Binary64

/-- Positive zero. -/
def zero : Binary64 := .finite false Magnitude.zero

/-- The double nearest to `num / den` units under the given sign; infinite past the limit. -/
def round (negative : Bool) (num den : Nat) : Binary64 :=
  match Magnitude.ofRatio? num den with
  | some magnitude => .finite negative magnitude
  | none => .infinite negative

/-- The number is a zero of either sign. -/
def isZero : Binary64 → Bool
  | .finite _ magnitude => magnitude.units == 0
  | _ => false

/-- The opposite sign, on zeros and infinities too. -/
def neg : Binary64 → Binary64
  | .nan => .nan
  | .infinite negative => .infinite !negative
  | .finite negative magnitude => .finite (!negative) magnitude

/-- The sum.  Opposite numbers add up to positive zero. -/
def add : Binary64 → Binary64 → Binary64
  | .nan, _ => .nan
  | _, .nan => .nan
  | .infinite left, .infinite right => if left = right then .infinite left else .nan
  | .infinite left, .finite _ _ => .infinite left
  | .finite _ _, .infinite right => .infinite right
  | .finite left x, .finite right y =>
      if left = right then round left (x.units + y.units) 1
      else if y.units < x.units then round left (x.units - y.units) 1
      else if x.units < y.units then round right (y.units - x.units) 1
      else zero

/-- The difference. -/
def sub (x y : Binary64) : Binary64 := add x (neg y)

/-- The product. -/
def mul : Binary64 → Binary64 → Binary64
  | .nan, _ => .nan
  | _, .nan => .nan
  | .infinite left, .infinite right => .infinite (left != right)
  | .infinite left, .finite right y => if y.units = 0 then .nan else .infinite (left != right)
  | .finite left x, .infinite right => if x.units = 0 then .nan else .infinite (left != right)
  | .finite left x, .finite right y => round (left != right) (x.units * y.units) unitsPerOne

/-- The quotient; a number other than zero over zero is infinite. -/
def div : Binary64 → Binary64 → Binary64
  | .nan, _ => .nan
  | _, .nan => .nan
  | .infinite _, .infinite _ => .nan
  | .infinite left, .finite right _ => .infinite (left != right)
  | .finite left _, .infinite right => .finite (left != right) Magnitude.zero
  | .finite left x, .finite right y =>
      if y.units = 0 then
        if x.units = 0 then .nan else .infinite (left != right)
      else
        round (left != right) (x.units * unitsPerOne) y.units

/-! ### Doubles from integers and decimals -/

/-- The double nearest to an integer; none where it would be infinite. -/
def ofInt? (n : Int) : Option Binary64 :=
  (Magnitude.ofRatio? (n.natAbs * unitsPerOne) 1).map (.finite (decide (n < 0)))

/-- The double nearest to `digits * 10 ^ exponent` under the given sign. -/
def ofDecimal (negative : Bool) (digits : Nat) (exponent : Int) : Binary64 :=
  round negative (digits * unitsPerOne * Nat.pow 10 exponent.toNat) (Nat.pow 10 (-exponent).toNat)

end Binary64

end LoxLang
