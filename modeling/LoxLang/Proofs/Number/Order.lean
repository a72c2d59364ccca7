/-
**Numbers are compared by value.**

The value of a number is a rational number or an infinity, and NaN has no value.  An integer and a double
have their values on one line, so that no comparison converts a number and none is rounded: equality and
order of numbers are those of the values.

* `LoxLang.ExtendedRat`, `LoxLang.Number.value?` — values;
* `LoxLang.Number.value?_eq_none` — **only NaN has no value**;
* `LoxLang.Number.Related`, `LoxLang.Number.same_iff`, `LoxLang.Number.less_iff`,
  `LoxLang.Number.lessOrSame_iff` — **numbers are compared by value**;
-/

import Mathlib.Algebra.Order.Field.Rat
import Mathlib.Algebra.Order.Ring.Cast
import Mathlib.Data.Int.CharZero
import Mathlib.Order.WithBot
import LoxLang.Number.Basic

set_option relaxedAutoImplicit false
set_option autoImplicit false

namespace LoxLang

/-! ### Values -/

/-- A rational number, or an infinity on either side. -/
abbrev ExtendedRat : Type := WithBot (WithTop ℚ)

/-- A rational number among the extended ones. -/
def ExtendedRat.finite (q : ℚ) : ExtendedRat := ((q : WithTop ℚ) : WithBot (WithTop ℚ))

/-- The value of a count of units. -/
def unitsValue (units : Int) : ExtendedRat := .finite (units / unitsPerOne)

/-- The value of a double. -/
def Binary64.value? : Binary64 → Option ExtendedRat
  | .nan => none
  | .infinite true => some ⊥
  | .infinite false => some ⊤
  | .finite true m => some (unitsValue (-m.units))
  | .finite false m => some (unitsValue m.units)

/-- The value of a number. -/
def Number.value? : Number → Option ExtendedRat
  | .int n => some (.finite n)
  | .double x => x.value?

namespace ExtendedRat

theorem finite_lt_finite {p q : ℚ} : finite p < finite q ↔ p < q := by
  unfold finite
  rw [WithBot.coe_lt_coe, WithTop.coe_lt_coe]

theorem finite_inj {p q : ℚ} : finite p = finite q ↔ p = q := by
  unfold finite
  rw [WithBot.coe_inj, WithTop.coe_inj]

theorem bot_lt_finite (q : ℚ) : ⊥ < finite q := WithBot.bot_lt_coe _

theorem finite_lt_top (q : ℚ) : finite q < ⊤ := WithBot.coe_lt_coe.2 (WithTop.coe_lt_top q)

end ExtendedRat

/-! ### Places and values -/

/-- The value at a place of the line of units. -/
def Position.value : Position → ExtendedRat
  | .below => ⊥
  | .finite units => unitsValue units
  | .above => ⊤

theorem bot_lt_unitsValue (units : Int) : ⊥ < unitsValue units := ExtendedRat.bot_lt_finite _

theorem unitsValue_lt_top (units : Int) : unitsValue units < ⊤ := ExtendedRat.finite_lt_top _

theorem unitsPerOne_cast_pos : (0 : ℚ) < unitsPerOne := by exact_mod_cast unitsPerOne_pos

namespace Position

/-- The order of the line is the order of the values. -/
theorem less_iff (p q : Position) : p.less q = true ↔ p.value < q.value := by
  have hpos := unitsPerOne_cast_pos
  cases p with
  | below =>
      cases q with
      | below => simp [less, value]
      | finite units => simp [less, value, bot_lt_unitsValue]
      | above => simp [less, value]
  | finite units =>
      cases q with
      | below => simp [less, value]
      | finite other =>
          simp only [less, value, unitsValue, decide_eq_true_eq, ExtendedRat.finite_lt_finite]
          rw [div_lt_div_iff_of_pos_right hpos, Int.cast_lt]
      | above => simp [less, value, unitsValue_lt_top]
  | above =>
      have htop : ∀ v : ExtendedRat, ¬ ⊤ < v := fun v => not_top_lt
      cases q <;> simp [less, value, htop]

theorem value_injective : Function.Injective value := by
  intro p q h
  have hpos := unitsPerOne_cast_pos
  cases p with
  | below =>
      cases q with
      | below => rfl
      | finite units => exact absurd h (bot_lt_unitsValue units).ne
      | above => exact absurd h bot_ne_top
  | finite units =>
      cases q with
      | below => exact absurd h (bot_lt_unitsValue units).ne'
      | finite other =>
          have hsame : (units : ℚ) = other := (div_left_inj' hpos.ne').1 (ExtendedRat.finite_inj.1 h)
          rw [Int.cast_inj.1 hsame]
      | above => exact absurd h (unitsValue_lt_top units).ne
  | above =>
      cases q with
      | below => exact absurd h top_ne_bot
      | finite units => exact absurd h (unitsValue_lt_top units).ne'
      | above => rfl

end Position

/-! ### Numbers -/

namespace Number

/-- The value of a number is that of its place. -/
theorem value?_eq (x : Number) : x.value? = x.position?.map Position.value := by
  cases x with
  | int n =>
      have hunits : ((n * unitsPerOne : Int) : ℚ) / unitsPerOne = n := by
        rw [Int.cast_mul, Int.cast_natCast]
        exact mul_div_cancel_right₀ _ unitsPerOne_cast_pos.ne'
      simp only [value?, position?, Option.map_some, Position.value, unitsValue, hunits]
  | double x =>
      cases x with
      | nan => rfl
      | infinite negative => cases negative <;> rfl
      | finite negative m => cases negative <;> rfl

/-- **Only NaN has no value.** -/
theorem value?_eq_none (x : Number) : x.value? = none ↔ x = .double .nan := by
  refine ⟨fun h => ?_, fun h => by rw [h]; rfl⟩
  cases x with
  | int n => cases h
  | double x =>
      cases x with
      | nan => rfl
      | infinite negative => cases negative <;> cases h
      | finite negative m => cases negative <;> cases h

/-- The numbers have values, which are so related. -/
def Related (rel : ExtendedRat → ExtendedRat → Prop) (x y : Number) : Prop :=
  ∃ v w, x.value? = some v ∧ y.value? = some w ∧ rel v w

variable {x y z : Number} {rel : ExtendedRat → ExtendedRat → Prop}

/-- **Numbers are equal if their values are.** -/
theorem same_iff : x.same y = true ↔ x.Related (· = ·) y := by
  unfold same Related
  rw [value?_eq, value?_eq]
  cases hx : x.position? with
  | none => simp
  | some p =>
      cases hy : y.position? with
      | none => simp
      | some q => simp [Position.value_injective.eq_iff]

/-- **A number is less than another if its value is.** -/
theorem less_iff : x.less y = true ↔ x.Related (· < ·) y := by
  unfold less Related
  rw [value?_eq, value?_eq]
  cases hx : x.position? with
  | none => simp
  | some p =>
      cases hy : y.position? with
      | none => simp
      | some q => simp [Position.less_iff]

theorem related_le_iff : x.Related (· ≤ ·) y ↔ x.Related (· < ·) y ∨ x.Related (· = ·) y := by
  constructor
  · rintro ⟨v, w, hv, hw, hle⟩
    exact hle.lt_or_eq.imp (fun hlt => ⟨v, w, hv, hw, hlt⟩) (fun heq => ⟨v, w, hv, hw, heq⟩)
  · rintro (⟨v, w, hv, hw, hlt⟩ | ⟨v, w, hv, hw, heq⟩)
    · exact ⟨v, w, hv, hw, hlt.le⟩
    · exact ⟨v, w, hv, hw, heq.le⟩

theorem lessOrSame_iff : x.lessOrSame y = true ↔ x.Related (· ≤ ·) y := by
  unfold lessOrSame
  rw [Bool.or_eq_true, less_iff, same_iff, related_le_iff]

/-- The relation the other way round. -/
theorem related_swap : x.Related (fun v w => rel w v) y ↔ y.Related rel x := by
  constructor
  · rintro ⟨v, w, hv, hw, h⟩
    exact ⟨w, v, hw, hv, h⟩
  · rintro ⟨v, w, hv, hw, h⟩
    exact ⟨w, v, hw, hv, h⟩

theorem Related.trans (htrans : ∀ u v w, rel u v → rel v w → rel u w) (h : x.Related rel y)
    (h' : y.Related rel z) : x.Related rel z := by
  obtain ⟨u, v, hu, hv, huv⟩ := h
  obtain ⟨v', w, hv', hw, hvw⟩ := h'
  cases hv.symm.trans hv'
  exact ⟨u, w, hu, hw, htrans u v w huv hvw⟩

/-- NaN is related to nothing. -/
theorem Related.ne_nan (h : x.Related rel y) : x ≠ .double .nan ∧ y ≠ .double .nan := by
  obtain ⟨v, w, hv, hw, -⟩ := h
  refine ⟨?_, ?_⟩
  · rintro rfl
    cases hv
  · rintro rfl
    cases hw

theorem related_iff_of_value {v w : ExtendedRat} (hv : x.value? = some v) (hw : y.value? = some w) :
    x.Related rel y ↔ rel v w := by
  unfold Related
  rw [hv, hw]
  simp

theorem exists_value (h : x ≠ .double .nan) : ∃ v, x.value? = some v :=
  Option.ne_none_iff_exists'.1 fun hnone => h ((value?_eq_none x).1 hnone)

end Number

end LoxLang
