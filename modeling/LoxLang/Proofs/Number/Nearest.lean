/-
**Rounding goes to the nearest double.**

Apart from the bound on their magnitude, the doubles are the counts of units with at most 53 significant
bits.  A quotient is rounded to the nearest of these, and one that lies halfway between two of them to
the one whose last bit is zero; only then does the bound come in, as a rounded count that reaches it is
infinite.  Distances are compared without a division, as those of whole numbers.

* `LoxLang.divHalfEven_nearest`, `LoxLang.even_divHalfEven_of_tie` — the nearest whole number;
* `LoxLang.HasSignificand`, `LoxLang.HasEvenSignificand` — the counts of 53 bits;
* `LoxLang.IsNearest`, `LoxLang.Binary64.Rounds` — **what rounding to the nearest is**;
* `LoxLang.Binary64.rounds_round`, `LoxLang.Binary64.rounds_ofDecimal` — quotients and decimal fractions
  are rounded so.
-/

import Mathlib.Algebra.Ring.Nat
import LoxLang.Number.Binary64

set_option relaxedAutoImplicit false
set_option autoImplicit false

namespace LoxLang

/-! ### Whole numbers -/

/-- How far `k` is from `num / den`, in parts of `1 / den`. -/
def distance (num den k : Nat) : Nat := (k * den - num) + (num - k * den)

theorem div_mul_add_mod (num den : Nat) : num / den * den + num % den = num := by
  rw [Nat.mul_comm]
  exact Nat.div_add_mod num den

/-- A whole number is one of the two next to a quotient, or lies beyond one of them. -/
theorem mul_beside (num den k : Nat) :
    k * den + den ≤ num / den * den ∨ k = num / den ∨ k = num / den + 1 ∨
      num / den * den + 2 * den ≤ k * den := by
  rcases Nat.lt_or_ge k (num / den) with h | h
  · have hmul := Nat.mul_le_mul_right den h
    rw [Nat.succ_mul] at hmul
    exact .inl hmul
  · rcases Nat.lt_or_ge (num / den + 1) k with h' | h'
    · have hmul := Nat.mul_le_mul_right den h'
      rw [Nat.succ_mul, Nat.succ_mul] at hmul
      exact .inr (.inr (.inr (by omega)))
    · exact .inr (by omega)

/-- The rounding of a quotient is the next whole number below or above it, whichever is nearer. -/
theorem divHalfEven_cases (num den : Nat) :
    (divHalfEven num den = num / den ∧ 2 * (num % den) < den) ∨
      (divHalfEven num den = num / den + 1 ∧ den < 2 * (num % den)) ∨
        (2 * (num % den) = den ∧ 2 ∣ divHalfEven num den ∧
          (divHalfEven num den = num / den ∨ divHalfEven num den = num / den + 1)) := by
  unfold divHalfEven
  dsimp only
  split
  · exact .inl ⟨rfl, by omega⟩
  split
  · exact .inr (.inl ⟨rfl, by omega⟩)
  split
  · exact .inr (.inr ⟨by omega, by omega, .inl rfl⟩)
  · exact .inr (.inr ⟨by omega, by omega, .inr rfl⟩)

/-- No whole number is nearer to a quotient than its rounding. -/
theorem divHalfEven_nearest {den : Nat} (hden : 0 < den) (num k : Nat) :
    distance num den (divHalfEven num den) ≤ distance num den k := by
  have hsum := div_mul_add_mod num den
  have hlt := Nat.mod_lt num hden
  have hsucc : (num / den + 1) * den = num / den * den + den := Nat.succ_mul _ _
  unfold distance
  -- The products are known on both sides of the floor, and what is left is linear.
  rcases mul_beside num den k with hk | rfl | rfl | hk <;>
    rcases divHalfEven_cases num den with ⟨h, hr⟩ | ⟨h, hr⟩ | ⟨hr, -, h | h⟩ <;>
    rw [h] <;> omega

/-- Halfway between two whole numbers the even one is taken. -/
theorem even_divHalfEven_of_tie {den : Nat} (hden : 0 < den) {num k : Nat}
    (hne : k ≠ divHalfEven num den)
    (htie : distance num den k = distance num den (divHalfEven num den)) :
    2 ∣ divHalfEven num den := by
  have hsum := div_mul_add_mod num den
  have hlt := Nat.mod_lt num hden
  have hsucc : (num / den + 1) * den = num / den * den + den := Nat.succ_mul _ _
  unfold distance at htie
  rcases divHalfEven_cases num den with ⟨h, hr⟩ | ⟨h, hr⟩ | ⟨-, heven, -⟩
  · rw [h] at hne htie
    rcases mul_beside num den k with hk | rfl | rfl | hk <;> omega
  · rw [h] at hne htie
    rcases mul_beside num den k with hk | rfl | rfl | hk <;> omega
  · exact heven

/-! ### Counts of units -/

/-- The units have at most 53 significant bits. -/
def HasSignificand (units : Nat) : Prop :=
  ∃ significand exponent, significand < 2 ^ 53 ∧ units = significand * 2 ^ exponent

/-- The last of the significant bits is zero.  There are 53 of them, or fewer where units are the
finest spacing. -/
def HasEvenSignificand (units : Nat) : Prop :=
  ∃ significand exponent, 2 ∣ significand ∧ significand ≤ 2 ^ 53 ∧
    (exponent = 0 ∨ 2 ^ 52 ≤ significand) ∧ units = significand * 2 ^ exponent

/-- The count of 53 significant bits that is nearest to `num / den`. -/
structure IsNearest (num den units : Nat) : Prop where
  hasSignificand : HasSignificand units
  nearest : ∀ other, HasSignificand other → distance num den units ≤ distance num den other
  even : ∀ other, HasSignificand other → other ≠ units →
    distance num den other = distance num den units → HasEvenSignificand units

theorem hasSignificand_of_le {significand : Nat} (h : significand ≤ 2 ^ 53) (exponent : Nat) :
    HasSignificand (significand * 2 ^ exponent) := by
  rcases Nat.lt_or_eq_of_le h with hlt | rfl
  · exact ⟨significand, exponent, hlt, rfl⟩
  · refine ⟨2 ^ 52, exponent + 1, by decide, ?_⟩
    rw [Nat.pow_succ 2 exponent, Nat.pow_succ 2 52, Nat.mul_assoc, Nat.mul_comm 2]

/-- Either units are the finest spacing, or there are 53 bits at the last place. -/
theorem lastPlace_cases (num den : Nat) :
    Magnitude.lastPlace num den = 0 ∨
      2 ^ 52 * 2 ^ Magnitude.lastPlace num den ≤ num / den := by
  unfold Magnitude.lastPlace
  generalize num / den = quotient
  rcases Nat.lt_or_ge 52 quotient.log2 with h | h
  · right
    rw [← Nat.pow_add, show 52 + (quotient.log2 - 52) = quotient.log2 by omega]
    refine Nat.log2_self_le ?_
    rintro rfl
    simp at h
  · exact .inl (by omega)

theorem distance_mul (num den k scale : Nat) :
    distance num den (k * scale) = distance num (den * scale) k := by
  unfold distance
  rw [Nat.mul_assoc, Nat.mul_comm scale]

/-- A count of units whose last place is finer lies below the quotient by more than the rounding. -/
theorem lt_distance_of_finer {num den significand exponent place : Nat} (hden : 0 < den)
    (hs : significand < 2 ^ 53) (he : exponent < place) (hp : 2 ^ 52 * 2 ^ place ≤ num / den) :
    distance num den (2 ^ 52 * 2 ^ place) < distance num den (significand * 2 ^ exponent) := by
  have hfiner : significand * 2 ^ exponent < 2 ^ 52 * 2 ^ place := by
    calc significand * 2 ^ exponent < 2 ^ 53 * 2 ^ exponent :=
          Nat.mul_lt_mul_of_pos_right hs (Nat.two_pow_pos exponent)
      _ = 2 ^ 52 * 2 ^ (exponent + 1) := by
          rw [← Nat.pow_add, ← Nat.pow_add]
          congr 1
          omega
      _ ≤ 2 ^ 52 * 2 ^ place := Nat.mul_le_mul_left _ (Nat.pow_le_pow_right (by decide) he)
  have hnum : 2 ^ 52 * 2 ^ place * den ≤ num :=
    Nat.le_trans (Nat.mul_le_mul_right den hp) (Nat.div_mul_le_self num den)
  have hmul := Nat.mul_lt_mul_of_pos_right hfiner hden
  unfold distance
  omega

/-- **The rounded significand at the last place is the nearest count of units.** -/
theorem isNearest_divHalfEven {den : Nat} (hden : 0 < den) (num : Nat) :
    IsNearest num den (divHalfEven num (den * 2 ^ Magnitude.lastPlace num den) *
      2 ^ Magnitude.lastPlace num den) := by
  have hcases := lastPlace_cases num den
  have hbits : divHalfEven num (den * 2 ^ Magnitude.lastPlace num den) ≤ 2 ^ 53 :=
    Nat.le_trans (divHalfEven_le _ _) (Magnitude.div_lastPlace_lt num den)
  generalize Magnitude.lastPlace num den = place at hcases hbits
  have hscaled : 0 < den * 2 ^ place := Nat.mul_pos hden (Nat.two_pow_pos place)
  have hmultiple : ∀ k, distance num den
      (divHalfEven num (den * 2 ^ place) * 2 ^ place) ≤ distance num den (k * 2 ^ place) := by
    intro k
    rw [distance_mul, distance_mul]
    exact divHalfEven_nearest hscaled num k
  -- A count of units with 53 bits is a multiple of the last place, or it is farther away.
  have hother : ∀ other, HasSignificand other → (∃ k, other = k * 2 ^ place) ∨
      distance num den (divHalfEven num (den * 2 ^ place) * 2 ^ place) <
        distance num den other := by
    rintro _ ⟨significand, exponent, hs, rfl⟩
    rcases Nat.lt_or_ge exponent place with he | he
    · have hp := hcases.resolve_left (by omega)
      exact .inr (Nat.lt_of_le_of_lt (hmultiple _) (lt_distance_of_finer hden hs he hp))
    · refine .inl ⟨significand * 2 ^ (exponent - place), ?_⟩
      rw [Nat.mul_assoc, ← Nat.pow_add, Nat.sub_add_cancel he]
  refine ⟨hasSignificand_of_le hbits place, ?_, ?_⟩
  · intro other ho
    rcases hother other ho with ⟨k, rfl⟩ | hlt
    · exact hmultiple k
    · exact Nat.le_of_lt hlt
  · intro other ho hne htie
    rcases hother other ho with ⟨k, rfl⟩ | hlt
    · refine ⟨_, place, ?_, hbits, ?_, rfl⟩
      · rw [distance_mul, distance_mul] at htie
        exact even_divHalfEven_of_tie hscaled (fun h => hne (by rw [h])) htie
      · refine hcases.imp id fun hp => ?_
        refine Nat.le_trans ?_ (le_divHalfEven _ _)
        rw [← Nat.div_div_eq_div_mul]
        exact (Nat.le_div_iff_mul_le (Nat.two_pow_pos place)).2 hp
    · omega

/-! ### Doubles -/

/-- The double nearest to `num / den` units under the given sign, halves going to the even
significand. -/
inductive Binary64.Rounds (negative : Bool) (num den : Nat) : Binary64 → Prop where
  | finite {magnitude : Magnitude} (h : IsNearest num den magnitude.units) :
      Rounds negative num den (.finite negative magnitude)
  | infinite {units : Nat} (h : IsNearest num den units) (hlimit : unitsLimit ≤ units) :
      Rounds negative num den (.infinite negative)

/-- **A quotient of units is rounded to the nearest double.** -/
theorem Binary64.rounds_round (negative : Bool) (num : Nat) {den : Nat} (hden : 0 < den) :
    Rounds negative num den (round negative num den) := by
  have hnearest := isNearest_divHalfEven hden num
  unfold round Magnitude.ofRatio?
  dsimp only
  split
  · next magnitude hm =>
      split at hm
      · cases hm
        exact .finite hnearest
      · cases hm
  · next hm =>
      split at hm
      · cases hm
      · next hlimit => exact .infinite hnearest (Nat.le_of_not_lt hlimit)

/-- **A decimal fraction is rounded to the nearest double.** -/
theorem Binary64.rounds_ofDecimal (negative : Bool) (digits places : Nat) :
    Rounds negative (digits * unitsPerOne) (10 ^ places)
      (ofDecimal negative digits (-places)) := by
  have hround : ofDecimal negative digits (-places) =
      round negative (digits * unitsPerOne) (10 ^ places) := by
    unfold ofDecimal
    rw [Int.neg_neg, Int.toNat_natCast, Int.toNat_neg_natCast, Nat.pow_eq, Nat.pow_eq, Nat.pow_zero,
      Nat.mul_one]
  rw [hround]
  exact rounds_round negative _ (Nat.pow_pos (by decide))

end LoxLang
