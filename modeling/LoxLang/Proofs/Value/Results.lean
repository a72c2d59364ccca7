/-
**What operators answer.**

An operator answers a number, a text or a truth value, whatever its operands are.  It never answers a
function, so the only functions of a program are those that it declares and the native ones.

* `LoxLang.Value.isData` — numbers, texts and truth values;
* `LoxLang.Value.isData_binary`, `LoxLang.Value.isData_unary` — **what operators answer**.
-/

import LoxLang.Value.Operators

set_option relaxedAutoImplicit false
set_option autoImplicit false

namespace LoxLang.Value

/-- The value is a number, a text or a truth value. -/
def isData : Value → Bool
  | .bool _ => true
  | .number _ => true
  | .text _ => true
  | _ => false

/-- What a checked operation answers was the result of the operation. -/
theorem checked_eq_ok {operator : Token} {result : Except Breakdown Value} {value : Value}
    (h : checked operator result = .ok value) : result = .ok value := by
  unfold checked at h
  split at h
  · cases h
    rfl
  · cases h
  · cases h

/-- What an operation on numbers answers is the result on two numbers. -/
theorem onNumbers_eq_ok {operation : Number → Number → Except ArithmeticFault Value}
    {left right value : Value} (h : onNumbers operation left right = .ok value) :
    ∃ x y, left = .number x ∧ right = .number y ∧ operation x y = .ok value := by
  unfold onNumbers at h
  split at h
  · next x y =>
      cases ho : operation x y with
      | error fault =>
          rw [ho] at h
          cases h
      | ok result =>
          rw [ho] at h
          cases h
          exact ⟨x, y, rfl, rfl, ho⟩
  · cases h

/-- The operation answers data. -/
def AnswersData (operation : Number → Number → Except ArithmeticFault Value) : Prop :=
  ∀ x y value, operation x y = .ok value → value.isData = true

theorem answersData_ofArithmetic (operation : Number → Number → Except ArithmeticFault Number) :
    AnswersData (ofArithmetic operation) := by
  intro x y value h
  unfold ofArithmetic at h
  cases ho : operation x y with
  | error fault =>
      rw [ho] at h
      cases h
  | ok z =>
      rw [ho] at h
      cases h
      rfl

theorem answersData_ofTest (test : Number → Number → Bool) : AnswersData (ofTest test) := by
  intro x y value h
  cases h
  rfl

theorem isData_onNumbers {operation : Number → Number → Except ArithmeticFault Value}
    (ho : AnswersData operation) {left right value : Value}
    (h : onNumbers operation left right = .ok value) : value.isData = true := by
  obtain ⟨x, y, -, -, hv⟩ := onNumbers_eq_ok h
  exact ho x y value hv

theorem isData_numeric {operation : Number → Number → Except ArithmeticFault Value}
    (ho : AnswersData operation) {operator : Token} {left right value : Value}
    (h : numeric operation operator left right = .ok value) : value.isData = true := by
  unfold numeric at h
  split at h
  · exact isData_onNumbers ho (checked_eq_ok h)
  · cases h

theorem isData_add {operator : Token} {left right value : Value}
    (h : add operator left right = .ok value) : value.isData = true := by
  unfold add at h
  split at h
  · exact isData_onNumbers (answersData_ofArithmetic _) (checked_eq_ok h)
  · split at h
    · cases h
      rfl
    · cases h

theorem isData_divide {operator : Token} {left right value : Value}
    (h : divide operator left right = .ok value) : value.isData = true := by
  unfold divide at h
  split at h
  · split at h
    · cases h
    · exact isData_onNumbers (answersData_ofArithmetic _) (checked_eq_ok h)
  · cases h

/-- **A binary operator answers data.** -/
theorem isData_binary {operator : Token} {left right value : Value}
    (h : left.binary operator right = .ok value) : value.isData = true := by
  unfold binary at h
  split at h
  · exact isData_add h
  · exact isData_numeric (answersData_ofArithmetic _) h
  · exact isData_numeric (answersData_ofArithmetic _) h
  · exact isData_divide h
  · cases h
    rfl
  · cases h
    rfl
  · exact isData_numeric (answersData_ofTest _) h
  · exact isData_numeric (answersData_ofTest _) h
  · exact isData_numeric (answersData_ofTest _) h
  · exact isData_numeric (answersData_ofTest _) h
  · cases h

theorem isData_opposite {operand value : Value} (h : operand.opposite = .ok value) :
    value.isData = true := by
  unfold opposite at h
  split at h
  · next x =>
      cases hn : x.neg with
      | error fault =>
          rw [hn] at h
          cases h
      | ok y =>
          rw [hn] at h
          cases h
          rfl
  · cases h

/-- **A unary operator answers data.** -/
theorem isData_unary {operator : Token} {right value : Value}
    (h : right.unary operator = .ok value) : value.isData = true := by
  unfold unary at h
  split at h
  · unfold negate at h
    split at h
    · exact isData_opposite (checked_eq_ok h)
    · cases h
  · cases h
    rfl
  · cases h

end LoxLang.Value
