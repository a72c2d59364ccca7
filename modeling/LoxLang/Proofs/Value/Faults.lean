/-
**What operators fail with.**

An operator looks at its operands before it computes, so what it computes with are numbers, and all that
is left to go wrong is that a number is too large, which is an error of the program.  Neither operators,
if their token is one, nor the check of a call nor printing break the machine down.

* `LoxLang.Failure.OfProgram` — an error of the program, and not an operator that does not exist;
* `LoxLang.Value.binary_ofProgram`, `LoxLang.Value.unary_ofProgram` — **what operators fail with**;
* `LoxLang.Value.checkCall_ofProgram`, `LoxLang.Value.checkCall_eq_ok` — the check of a call;
* `LoxLang.Value.written_eq_ok` — every value can be printed.
-/

import LoxLang.Proofs.Number.Canonical
import LoxLang.Proofs.Number.Results
import LoxLang.Syntax.Parser
import LoxLang.Value.Operators

set_option relaxedAutoImplicit false
set_option autoImplicit false

namespace LoxLang

/-- The operators of binary expressions that are not logical. -/
def binaryOperators : List TokenKind :=
  [.plus, .minus, .star, .slash, .equalEqual, .bangEqual, .less, .lessEqual, .greater, .greaterEqual]

/-- The failure is an error of the program, and no operator was unknown. -/
def Failure.OfProgram : Failure → Prop
  | .error found => found.cause ≠ .unknownUnary ∧ found.cause ≠ .unknownBinary
  | .breakdown _ => False

namespace Value

/-! ### Operations on numbers -/

theorem checked_ofProgram {operator : Token} {result : Except Breakdown Value} {failure : Failure}
    (hr : ∀ problem, result = .error problem → problem = .arithmetic .tooLarge)
    (h : checked operator result = .error failure) : failure.OfProgram := by
  cases result with
  | ok value => cases h
  | error problem =>
      rw [hr problem rfl] at h
      cases h
      exact ⟨nofun, nofun⟩

theorem onNumbers_eq_error {operation : Number → Number → Except ArithmeticFault Value}
    {left right : Value} {problem : Breakdown} (hl : left.isNumber = true)
    (hr : right.isNumber = true) (h : onNumbers operation left right = .error problem) :
    ∃ x y fault, left = .number x ∧ right = .number y ∧ operation x y = .error fault ∧
      problem = .arithmetic fault := by
  cases left with
  | number x =>
      cases right with
      | number y =>
          simp only [onNumbers] at h
          cases ho : operation x y with
          | ok value => simp [ho] at h
          | error fault =>
              simp only [ho, Except.error.injEq] at h
              exact ⟨x, y, fault, rfl, rfl, ho, h.symm⟩
      | _ => cases hr
  | _ => cases hl

theorem ofArithmetic_eq_error {operation : Number → Number → Except ArithmeticFault Number}
    {x y : Number} {fault : ArithmeticFault} (h : ofArithmetic operation x y = .error fault) :
    operation x y = .error fault := by
  unfold ofArithmetic at h
  cases ho : operation x y with
  | ok z =>
      rw [ho] at h
      cases h
  | error found =>
      rw [ho] at h
      cases h
      rfl

theorem onlyTooLarge_ofArithmetic {operation : Number → Number → Except ArithmeticFault Number}
    (ho : Number.OnlyTooLarge operation) : Number.OnlyTooLarge (ofArithmetic operation) :=
  fun x y fault h => ho x y fault (ofArithmetic_eq_error h)

theorem onlyTooLarge_ofTest (test : Number → Number → Bool) :
    Number.OnlyTooLarge (ofTest test) := by
  intro x y fault h
  cases h

theorem onNumbers_tooLarge {operation : Number → Number → Except ArithmeticFault Value}
    (ho : Number.OnlyTooLarge operation) {left right : Value} {problem : Breakdown}
    (hl : left.isNumber = true) (hr : right.isNumber = true)
    (h : onNumbers operation left right = .error problem) : problem = .arithmetic .tooLarge := by
  obtain ⟨x, y, fault, -, -, hf, rfl⟩ := onNumbers_eq_error hl hr h
  rw [ho x y fault hf]

theorem numeric_ofProgram {operation : Number → Number → Except ArithmeticFault Value}
    (ho : Number.OnlyTooLarge operation) {operator : Token} {left right : Value}
    {failure : Failure} (h : numeric operation operator left right = .error failure) :
    failure.OfProgram := by
  unfold numeric at h
  split at h
  · next hn =>
      rw [Bool.and_eq_true] at hn
      exact checked_ofProgram (fun problem => onNumbers_tooLarge ho hn.1 hn.2) h
  · cases h
    exact ⟨nofun, nofun⟩

theorem add_ofProgram {operator : Token} {left right : Value} {failure : Failure}
    (h : add operator left right = .error failure) : failure.OfProgram := by
  unfold add at h
  split at h
  · next hn =>
      rw [Bool.and_eq_true] at hn
      have honly := onlyTooLarge_ofArithmetic Number.onlyTooLarge_add
      exact checked_ofProgram (fun problem => onNumbers_tooLarge honly hn.1 hn.2) h
  · split at h
    · cases h
    · cases h
      exact ⟨nofun, nofun⟩

/-- A divisor of zero is refused before the quotient is taken. -/
theorem divide_ofProgram {operator : Token} {left right : Value} {failure : Failure}
    (h : divide operator left right = .error failure) : failure.OfProgram := by
  unfold divide at h
  split at h
  · next hn =>
      rw [Bool.and_eq_true] at hn
      split at h
      · cases h
        exact ⟨nofun, nofun⟩
      · next hz =>
          refine checked_ofProgram (fun problem hp => ?_) h
          obtain ⟨x, y, fault, -, rfl, hf, rfl⟩ := onNumbers_eq_error hn.1 hn.2 hp
          have hy : y.isZero = false := (Bool.not_eq_true _).mp hz
          rw [Number.div_eq_error (ofArithmetic_eq_error hf) hy]
  · cases h
    exact ⟨nofun, nofun⟩

/-! ### Operators -/

/-- **A binary operator fails with an error of the program.** -/
theorem binary_ofProgram {operator : Token} (hk : operator.kind ∈ binaryOperators)
    {left right : Value} {failure : Failure} (h : left.binary operator right = .error failure) :
    failure.OfProgram := by
  unfold binary at h
  split at h
  · exact add_ofProgram h
  · exact numeric_ofProgram (onlyTooLarge_ofArithmetic Number.onlyTooLarge_sub) h
  · exact numeric_ofProgram (onlyTooLarge_ofArithmetic Number.onlyTooLarge_mul) h
  · exact divide_ofProgram h
  · cases h
  · cases h
  · exact numeric_ofProgram (onlyTooLarge_ofTest _) h
  · exact numeric_ofProgram (onlyTooLarge_ofTest _) h
  · exact numeric_ofProgram (onlyTooLarge_ofTest _) h
  · exact numeric_ofProgram (onlyTooLarge_ofTest _) h
  · -- No kind of the list is left for an operator that is unknown.
    simp only [binaryOperators, List.mem_cons, List.not_mem_nil, or_false] at hk
    simp_all

theorem negate_ofProgram {operator : Token} {operand : Value} {failure : Failure}
    (h : negate operator operand = .error failure) : failure.OfProgram := by
  unfold negate at h
  split at h
  · next hn =>
      refine checked_ofProgram (fun problem hp => ?_) h
      cases operand with
      | number x =>
          simp only [opposite] at hp
          cases ho : x.neg with
          | ok y => simp [ho] at hp
          | error fault =>
              simp only [ho, Except.error.injEq] at hp
              rw [← hp, Number.neg_eq_error ho]
      | _ => cases hn
  · cases h
    exact ⟨nofun, nofun⟩

/-- **A unary operator fails with an error of the program.** -/
theorem unary_ofProgram {operator : Token} (hk : operator.kind ∈ unaryOperators) {right : Value}
    {failure : Failure} (h : right.unary operator = .error failure) : failure.OfProgram := by
  unfold unary at h
  split at h
  · exact negate_ofProgram h
  · cases h
  · simp only [unaryOperators, List.mem_cons, List.not_mem_nil, or_false] at hk
    simp_all

/-! ### Calls and printing -/

/-- A call that can be made is of a function that takes so many arguments. -/
theorem checkCall_eq_ok {paren : Token} {callee : Value} {actual : Nat}
    (h : callee.checkCall paren actual = .ok ()) :
    callee.isFunction = true ∧ callee.arity = .ok actual := by
  unfold checkCall at h
  split at h
  · next hf =>
      split at h
      · next expected ha =>
          split at h
          · next hn =>
              rw [hn]
              exact ⟨hf, ha⟩
          · cases h
      · cases h
  · cases h

/-- **The check of a call fails with an error of the program.** -/
theorem checkCall_ofProgram {paren : Token} {callee : Value} {actual : Nat} {failure : Failure}
    (h : callee.checkCall paren actual = .error failure) : failure.OfProgram := by
  unfold checkCall at h
  split at h
  · next hf =>
      split at h
      · split at h
        · cases h
        · cases h
          refine ⟨fun hc => ?_, fun hc => ?_⟩
          · cases hc
          · cases hc
      · next ha => cases callee <;> cases hf <;> cases ha
  · cases h
    refine ⟨fun hc => ?_, fun hc => ?_⟩
    · cases hc
    · cases hc

/-- **Every value can be printed.** -/
theorem written_eq_ok (value : Value) : ∃ text, value.written = .ok text := by
  have hprint : value.print?.isSome = true := by
    cases value with
    | number n => exact n.print?_isSome
    | _ => rfl
  obtain ⟨text, ht⟩ := Option.isSome_iff_exists.1 hprint
  refine ⟨text, ?_⟩
  unfold written
  rw [ht]

end Value

end LoxLang
