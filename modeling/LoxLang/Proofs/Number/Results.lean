/-
**Arithmetic comes to something.**

Arithmetic on two numbers has a result unless one of them is an integer too large for a double; a
quotient has one besides only if the divisor is not zero, for no other integer is nearest to the double
zero.

* `LoxLang.Binary64.isZero_ofInt` — **only zero becomes the double zero**;
* `LoxLang.Number.OnlyTooLarge`, `LoxLang.Number.div_eq_error` — the faults of arithmetic.
-/

import LoxLang.Number.Basic

set_option relaxedAutoImplicit false
set_option autoImplicit false

namespace LoxLang

/-! ### Doubles from integers -/

/-- Of a whole number of units at least one significant bit is left. -/
theorem Magnitude.units_pos {num : Nat} (hn : 0 < num) {magnitude : Magnitude}
    (h : Magnitude.ofRatio? num 1 = some magnitude) : 0 < magnitude.units := by
  have hplace : Nat.pow 2 (lastPlace num 1) ≤ num := by
    unfold lastPlace
    rw [Nat.div_one]
    calc 2 ^ (num.log2 - 52) ≤ 2 ^ num.log2 := Nat.pow_le_pow_right (by decide) (Nat.sub_le _ _)
      _ ≤ num := Nat.log2_self_le (Nat.pos_iff_ne_zero.1 hn)
  have hpow : 0 < Nat.pow 2 (lastPlace num 1) := Nat.pow_pos (by decide)
  unfold ofRatio? at h
  dsimp only at h
  split at h
  · cases h
    refine Nat.mul_pos ?_ hpow
    refine Nat.lt_of_lt_of_le ?_ (le_divHalfEven _ _)
    rw [Nat.one_mul]
    exact Nat.div_pos hplace hpow
  · cases h

/-- An integer that is not zero has units. -/
theorem Magnitude.units_pos_of_int {n : Int} (hn : n ≠ 0) {magnitude : Magnitude}
    (h : Magnitude.ofRatio? (n.natAbs * unitsPerOne) 1 = some magnitude) : 0 < magnitude.units := by
  exact Magnitude.units_pos (Nat.mul_pos (Int.natAbs_pos.2 hn) unitsPerOne_pos) h

namespace Binary64

theorem ofInt?_eq_some {n : Int} {x : Binary64} (h : ofInt? n = some x) :
    ∃ magnitude, Magnitude.ofRatio? (n.natAbs * unitsPerOne) 1 = some magnitude ∧
      x = .finite (decide (n < 0)) magnitude := by
  unfold ofInt? at h
  obtain ⟨magnitude, hm, hx⟩ := Option.map_eq_some_iff.1 h
  exact ⟨magnitude, hm, hx.symm⟩

/-- **The double nearest to an integer is zero only if the integer is.** -/
theorem isZero_ofInt {n : Int} {x : Binary64} (h : ofInt? n = some x) (hx : x.isZero = true) :
    n = 0 := by
  obtain ⟨magnitude, hm, hfinite⟩ := ofInt?_eq_some h
  rw [hfinite] at hx
  have hunits : magnitude.units = 0 := beq_iff_eq.1 hx
  rcases Int.decEq n 0 with hn | hn
  · exact absurd hunits (Nat.ne_of_gt (Magnitude.units_pos_of_int hn hm))
  · exact hn

end Binary64

/-! ### Faults of arithmetic -/

namespace Number

theorem toDouble_eq_error {x : Number} {fault : ArithmeticFault} (h : x.toDouble = .error fault) :
    fault = .tooLarge := by
  cases x with
  | int n =>
      rw [toDouble] at h
      cases ho : Binary64.ofInt? n with
      | some value =>
          rw [ho] at h
          cases h
      | none =>
          rw [ho] at h
          cases h
          rfl
  | double x => cases h

/-- The operation has a result unless a number is too large. -/
def OnlyTooLarge {α : Type} (operation : Number → Number → Except ArithmeticFault α) : Prop :=
  ∀ x y fault, operation x y = .error fault → fault = .tooLarge

theorem onlyTooLarge_onDoubles (operation : Binary64 → Binary64 → Binary64) :
    OnlyTooLarge (onDoubles operation) := by
  intro x y fault h
  unfold onDoubles at h
  split at h
  · cases h
  · next hx =>
      cases h
      exact toDouble_eq_error hx
  · next hy _ =>
      cases h
      exact toDouble_eq_error hy

theorem onlyTooLarge_add : OnlyTooLarge add := by
  intro x y fault h
  unfold add at h
  split at h
  · cases h
  · exact onlyTooLarge_onDoubles _ _ _ _ h

theorem onlyTooLarge_sub : OnlyTooLarge sub := by
  intro x y fault h
  unfold sub at h
  split at h
  · cases h
  · exact onlyTooLarge_onDoubles _ _ _ _ h

theorem onlyTooLarge_mul : OnlyTooLarge mul := by
  intro x y fault h
  unfold mul at h
  split at h
  · cases h
  · exact onlyTooLarge_onDoubles _ _ _ _ h

/-- The double nearest to a number is zero only if the number is. -/
theorem isZero_toDouble {x : Number} {value : Binary64} (h : x.toDouble = .ok value)
    (hv : value.isZero = true) : x.isZero = true := by
  cases x with
  | int n =>
      rw [toDouble] at h
      cases ho : Binary64.ofInt? n with
      | some found =>
          rw [ho] at h
          cases h
          rw [Binary64.isZero_ofInt ho hv]
          rfl
      | none =>
          rw [ho] at h
          cases h
  | double x =>
      cases h
      exact hv

/-- **A quotient by anything but zero has a result unless a number is too large.** -/
theorem div_eq_error {x y : Number} {fault : ArithmeticFault} (h : x.div y = .error fault)
    (hy : y.isZero = false) : fault = .tooLarge := by
  unfold div at h
  split at h
  · next m n =>
      split at h
      · next hn =>
          rw [hn] at hy
          simp [isZero] at hy
      · cases h
  · split at h
    · next hright =>
        split at h
        · next hz =>
            rw [isZero_toDouble hright hz] at hy
            cases hy
        · cases h
    · next hx =>
        cases h
        exact toDouble_eq_error hx
    · next hy' _ =>
        cases h
        exact toDouble_eq_error hy'

theorem neg_eq_error {x : Number} {fault : ArithmeticFault} (h : x.neg = .error fault) :
    fault = .tooLarge := by
  unfold neg at h
  split at h
  · cases h
  · next hx =>
      cases h
      exact toDouble_eq_error hx

end Number

end LoxLang
