/-
**Integers that are too large for doubles.**

The largest double is `2 ^ 1024 - 2 ^ 971`, and halfway from it to `2 ^ 1024` lies `2 ^ 1024 - 2 ^ 970`.  A
half goes to the even significand, which is here the one above; so from that integer on, and in both
directions from zero, an integer has no nearest double.  This is the one limit of arithmetic on an integer
and a double, whichever operation it is and whichever the double.

* `LoxLang.Magnitude.ofRatio?_eq_none` — the limit in units;
* `LoxLang.tooLarge`, `LoxLang.Binary64.ofInt?_eq_none` — **the least integer without a nearest double**;
* `LoxLang.Number.Limited`, `LoxLang.Number.limited_left`, `LoxLang.Number.limited_right` — **what
  arithmetic on an integer and a double comes to**;
* `LoxLang.Number.fdiv_eq_floor` — the quotient of integers.
-/

import Mathlib.Data.Rat.Floor
import LoxLang.Proofs.Number.Nearest
import LoxLang.Proofs.Number.Results

set_option relaxedAutoImplicit false
set_option autoImplicit false

namespace LoxLang

/-! ### Rounding up to an even number -/

/-- A quotient is rounded up to an even number from the half below it on. -/
theorem le_divHalfEven_iff {num den top : Nat} (hden : 0 < den) (heven : 2 ∣ top) :
    top ≤ divHalfEven num den ↔ 2 * (top * den) ≤ 2 * num + den := by
  have hsum := div_mul_add_mod num den
  have hlt := Nat.mod_lt num hden
  rcases Nat.lt_trichotomy top (num / den + 1) with h | rfl | h
  · have hmul := Nat.mul_le_mul_right den (Nat.le_of_lt_succ h)
    have hle := le_divHalfEven num den
    exact ⟨fun _ => by omega, fun _ => by omega⟩
  · -- The quotient lies between the even number and the odd one below it.
    have hsucc : (num / den + 1) * den = num / den * den + den := Nat.succ_mul _ _
    rcases divHalfEven_cases num den with ⟨hr, hmod⟩ | ⟨hr, hmod⟩ | ⟨hmod, hdvd, hr⟩
    · omega
    · omega
    · omega
  · have hmul := Nat.mul_le_mul_right den h
    rw [Nat.succ_mul, Nat.succ_mul] at hmul
    have hle := divHalfEven_le num den
    exact ⟨fun _ => by omega, fun _ => by omega⟩

/-! ### The limit in units -/

namespace Magnitude

/-- Half the spacing of the largest doubles, in units. -/
def halfPlace : Nat := Nat.pow 2 2044

theorem halfPlace_pos : 0 < halfPlace := Nat.pow_pos (by decide)

theorem unitsLimit_eq : unitsLimit = 2 ^ 54 * halfPlace := by
  unfold unitsLimit unitPlaces halfPlace
  rw [Nat.pow_eq, Nat.pow_eq, ← Nat.pow_add]

theorem ofRatio?_eq_none_iff_rounded (num : Nat) :
    ofRatio? num 1 = none ↔
      unitsLimit ≤ divHalfEven num (2 ^ lastPlace num 1) * 2 ^ lastPlace num 1 := by
  unfold ofRatio?
  simp only [Nat.pow_eq, Nat.one_mul]
  split
  · next h => simpa using h
  · next h => simpa using h

/-- Up to the place of the largest doubles, the limit is an even multiple of the last place. -/
theorem unitsLimit_le_rounded_iff {num place : Nat} (hp : place ≤ 2045) :
    unitsLimit ≤ divHalfEven num (2 ^ place) * 2 ^ place ↔
      2 * unitsLimit ≤ 2 * num + 2 ^ place := by
  have hlimit : unitsLimit = 2 * 2 ^ (2097 - place) * 2 ^ place := by
    unfold unitsLimit unitPlaces
    rw [Nat.pow_eq, ← Nat.pow_succ', ← Nat.pow_add]
    congr 1
    omega
  have hpos : 0 < 2 ^ place := Nat.two_pow_pos place
  rw [hlimit, Nat.mul_le_mul_right_iff hpos, le_divHalfEven_iff hpos (Nat.dvd_mul_right 2 _)]

/-- **There is no nearest magnitude from half a spacing below the limit on.** -/
theorem ofRatio?_eq_none (num : Nat) :
    ofRatio? num 1 = none ↔ (2 ^ 54 - 1) * halfPlace ≤ num := by
  rw [ofRatio?_eq_none_iff_rounded]
  have hplace : lastPlace num 1 = num.log2 - 52 := by rw [lastPlace, Nat.div_one]
  have hupper : num < 2 ^ (num.log2 + 1) := Nat.lt_log2_self
  have hhalf := halfPlace_pos
  rcases Nat.lt_trichotomy (lastPlace num 1) 2045 with h | h | h
  · -- Below the place of the largest doubles both sides fail.
    have hsmall : 2 ^ lastPlace num 1 ≤ halfPlace := Nat.pow_le_pow_right (by decide) (by omega)
    have hnum : num < 2 ^ 53 * halfPlace := by
      refine Nat.lt_of_lt_of_le hupper ?_
      unfold halfPlace
      rw [Nat.pow_eq, ← Nat.pow_add]
      exact Nat.pow_le_pow_right (by decide) (by omega)
    rw [unitsLimit_le_rounded_iff (by omega), unitsLimit_eq]
    omega
  · -- At the place itself the limit lies half a unit below the first number that is too large.
    have hdouble : 2 ^ lastPlace num 1 = 2 * halfPlace := by
      unfold halfPlace
      rw [h, Nat.pow_eq, ← Nat.pow_succ']
    rw [unitsLimit_le_rounded_iff (by omega), unitsLimit_eq, hdouble]
    omega
  · -- Above it both sides hold: there are 53 bits at the last place.
    have hlog : num.log2 = 52 + lastPlace num 1 := by omega
    have hlower : 2 ^ 52 * 2 ^ lastPlace num 1 ≤ num := by
      rw [← Nat.pow_add, ← hlog]
      refine Nat.log2_self_le ?_
      rintro rfl
      rw [Nat.log2_zero] at hlog
      omega
    have hlarge : 2 ^ 54 * halfPlace ≤ 2 ^ 52 * 2 ^ lastPlace num 1 := by
      unfold halfPlace
      rw [Nat.pow_eq, ← Nat.pow_add, ← Nat.pow_add]
      exact Nat.pow_le_pow_right (by decide) (by omega)
    have hrounded : 2 ^ 52 ≤ divHalfEven num (2 ^ lastPlace num 1) :=
      Nat.le_trans ((Nat.le_div_iff_mul_le (Nat.two_pow_pos _)).2 hlower) (le_divHalfEven _ _)
    have hmul := Nat.mul_le_mul_right (2 ^ lastPlace num 1) hrounded
    rw [unitsLimit_eq]
    omega

end Magnitude

/-! ### Integers -/

/-- The least integer that is too large for doubles. -/
def tooLarge : Nat := 2 ^ 1024 - 2 ^ 970

theorem tooLarge_mul_unitsPerOne : tooLarge * unitsPerOne = (2 ^ 54 - 1) * Magnitude.halfPlace := by
  unfold tooLarge unitsPerOne unitPlaces Magnitude.halfPlace
  rw [Nat.pow_eq, Nat.pow_eq, Nat.sub_mul, ← Nat.pow_add, ← Nat.pow_add, Nat.sub_mul, ← Nat.pow_add,
    Nat.one_mul]

/-- **An integer has no nearest double from the limit on**, on either side of zero. -/
theorem Binary64.ofInt?_eq_none (n : Int) : ofInt? n = none ↔ tooLarge ≤ n.natAbs := by
  unfold ofInt?
  rw [Option.map_eq_none_iff, Magnitude.ofRatio?_eq_none, ← tooLarge_mul_unitsPerOne,
    Nat.mul_le_mul_right_iff unitsPerOne_pos]

/-! ### Arithmetic on an integer and a double -/

namespace Number

/-- The result of arithmetic on an integer and a double: the integer is too large, or it is a double. -/
inductive Limited (n : Int) : Except ArithmeticFault Number → Prop where
  | tooLarge (h : tooLarge ≤ n.natAbs) : Limited n (.error .tooLarge)
  | double (h : n.natAbs < LoxLang.tooLarge) (x : Binary64) : Limited n (.ok (.double x))

/-- An integer is converted to a double, unless it is too large. -/
theorem toDouble_int_cases (n : Int) :
    LoxLang.tooLarge ≤ n.natAbs ∧ (int n).toDouble = .error .tooLarge ∨
      n.natAbs < LoxLang.tooLarge ∧ ∃ x, (int n).toDouble = .ok x := by
  rcases Nat.lt_or_ge n.natAbs LoxLang.tooLarge with h | h
  · have hsome : Binary64.ofInt? n ≠ none := by
      rw [ne_eq, Binary64.ofInt?_eq_none]
      omega
    obtain ⟨x, hx⟩ := Option.ne_none_iff_exists'.1 hsome
    exact .inr ⟨h, x, by rw [toDouble, hx, orTooLarge]⟩
  · exact .inl ⟨h, by rw [toDouble, (Binary64.ofInt?_eq_none n).2 h, orTooLarge]⟩

theorem toDouble_double (x : Binary64) : (double x).toDouble = .ok x := rfl

section

variable {x y : Number} {left right : Binary64} {fault : ArithmeticFault}
  {operation : Binary64 → Binary64 → Binary64}

-- The conversions stay closed here: unfolded at an integer they would be computed.

theorem onDoubles_of_ok (hx : x.toDouble = .ok left) (hy : y.toDouble = .ok right) :
    onDoubles operation x y = .ok (.double (operation left right)) := by
  unfold onDoubles
  rw [hx, hy]

theorem onDoubles_of_error_left (hx : x.toDouble = .error fault) :
    onDoubles operation x y = .error fault := by
  unfold onDoubles
  rw [hx]

theorem onDoubles_of_error_right (hx : x.toDouble = .ok left) (hy : y.toDouble = .error fault) :
    onDoubles operation x y = .error fault := by
  unfold onDoubles
  rw [hx, hy]

theorem neg_of_ok (hx : x.toDouble = .ok left) : x.neg = .ok (.double left.neg) := by
  unfold neg
  rw [hx]

theorem neg_of_error (hx : x.toDouble = .error fault) : x.neg = .error fault := by
  unfold neg
  rw [hx]

/-- One of the numbers is a double. -/
def Mixed (x y : Number) : Prop := ∀ m n, x = .int m → y = .int n → False

theorem div_of_ok (hmixed : Mixed x y) (hx : x.toDouble = .ok left) (hy : y.toDouble = .ok right)
    (hz : right.isZero = false) : x.div y = .ok (.double (left.div right)) := by
  unfold div
  split
  · next m n => exact (hmixed m n rfl rfl).elim
  · rw [hx, hy]
    simp [hz]

theorem div_of_error_left (hmixed : Mixed x y) (hx : x.toDouble = .error fault) :
    x.div y = .error fault := by
  unfold div
  split
  · next m n => exact (hmixed m n rfl rfl).elim
  · rw [hx]

theorem div_of_error_right (hmixed : Mixed x y) (hx : x.toDouble = .ok left)
    (hy : y.toDouble = .error fault) : x.div y = .error fault := by
  unfold div
  split
  · next m n => exact (hmixed m n rfl rfl).elim
  · rw [hx, hy]

end

section

variable (n : Int) (x : Binary64) (operation : Binary64 → Binary64 → Binary64)

theorem limited_left : Limited n (onDoubles operation (.int n) (.double x)) := by
  rcases toDouble_int_cases n with ⟨h, hn⟩ | ⟨h, value, hn⟩
  · rw [onDoubles_of_error_left hn]
    exact .tooLarge h
  · rw [onDoubles_of_ok hn (toDouble_double x)]
    exact .double h _

theorem limited_right : Limited n (onDoubles operation (.double x) (.int n)) := by
  rcases toDouble_int_cases n with ⟨h, hn⟩ | ⟨h, value, hn⟩
  · rw [onDoubles_of_error_right (toDouble_double x) hn]
    exact .tooLarge h
  · rw [onDoubles_of_ok (toDouble_double x) hn]
    exact .double h _

theorem limited_neg : Limited n (int n).neg := by
  rcases toDouble_int_cases n with ⟨h, hn⟩ | ⟨h, value, hn⟩
  · rw [neg_of_error hn]
    exact .tooLarge h
  · rw [neg_of_ok hn]
    exact .double h _

end

variable {n : Int} {x : Binary64}

theorem limited_div_left (hx : x.isZero = false) : Limited n ((int n).div (.double x)) := by
  have hmixed : Mixed (.int n) (.double x) := fun _ _ _ h => nomatch h
  rcases toDouble_int_cases n with ⟨h, hn⟩ | ⟨h, value, hn⟩
  · rw [div_of_error_left hmixed hn]
    exact .tooLarge h
  · rw [div_of_ok hmixed hn (toDouble_double x) hx]
    exact .double h _

/-- No integer but zero is converted to a zero. -/
theorem limited_div_right (hn : n ≠ 0) : Limited n ((double x).div (.int n)) := by
  have hmixed : Mixed (.double x) (.int n) := fun _ _ h _ => nomatch h
  rcases toDouble_int_cases n with ⟨h, hd⟩ | ⟨h, value, hd⟩
  · rw [div_of_error_right hmixed (toDouble_double x) hd]
    exact .tooLarge h
  · have hzero : value.isZero = false := by
      refine Bool.eq_false_iff.2 fun hz => hn ?_
      simpa [isZero] using isZero_toDouble hd hz
    rw [div_of_ok hmixed (toDouble_double x) hd hzero]
    exact .double h _

/-! ### Quotients of integers -/

/-- **The quotient of two integers is the floor of the quotient of rational numbers.** -/
theorem fdiv_eq_floor (m n : Int) : m.fdiv n = ⌊(m : ℚ) / n⌋ := by
  -- The sign is moved to the dividend, and the divisor is a natural number.
  have hnat : ∀ (m : Int) (k : Nat), m.fdiv k = ⌊(m : ℚ) / (k : Int)⌋ := by
    intro m k
    rw [Int.fdiv_eq_ediv_of_nonneg _ (Int.natCast_nonneg k), Int.cast_natCast,
      Rat.floor_intCast_div_natCast]
  rcases Int.eq_nat_or_neg n with ⟨k, rfl | rfl⟩
  · exact hnat m k
  · rw [← Int.neg_fdiv_neg, Int.neg_neg, hnat, Int.cast_neg, Int.cast_neg, div_neg, neg_div]

end Number

end LoxLang
