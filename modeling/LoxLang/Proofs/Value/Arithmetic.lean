/-
**Arithmetic has one limit.**

An operator that meets an integer and a double converts the integer, and that fails from
`LoxLang.tooLarge` on; all its operands decide is whether this is reached.  So sums, differences, products
and the opposite of an integer are refused at the same integers, on either side of the operator and whatever
the double is, and a quotient is refused there too, unless its divisor is zero, which is looked at first.
Two integers are computed exactly, two doubles always have a result, and a comparison never fails.

* `LoxLang.Value.ReportsAt`, `LoxLang.Value.LimitedAt` — a failure at an operator, and that of the limit;
* `LoxLang.Value.arithmetic`, `LoxLang.Value.binary_slash` — the operators on numbers;
* `LoxLang.Value.ArithmeticLimits`, `LoxLang.Value.arithmetic_limits` — **what arithmetic fails with**.
-/

import LoxLang.Proofs.Number.Overflow
import LoxLang.Proofs.Value.Comparison

set_option relaxedAutoImplicit false
set_option autoImplicit false

namespace LoxLang

/-! ### Zeros -/

theorem Binary64.isZero_iff (x : Binary64) : x.isZero = true ↔ x = .zero ∨ x = .neg .zero := by
  have hmagnitude : ∀ m : Magnitude, m.units = 0 ↔ m = Magnitude.zero := by
    rintro ⟨units, h⟩
    constructor
    · rintro rfl
      rfl
    · exact congrArg Magnitude.units
  cases x with
  | nan => simp [isZero, zero, neg]
  | infinite negative => simp [isZero, zero, neg]
  | finite negative m =>
      cases negative <;> simp [isZero, zero, neg, hmagnitude]

namespace Value

/-! ### Failures at an operator -/

/-- The result is an error of the program at the operator, with a wording. -/
def ReportsAt (operator : Token) (wording : String) (result : Except Failure Value) : Prop :=
  ∃ error : RuntimeError, result = .error (.error error) ∧ error.token = operator ∧
    error.message = wording

/-- The result is refused as too large exactly if the integer is, and otherwise it is a double. -/
def LimitedAt (operator : Token) (n : Int) (result : Except Failure Value) : Prop :=
  (ReportsAt operator "Number too large." result ↔ tooLarge ≤ n.natAbs) ∧
    (n.natAbs < tooLarge → ∃ x : Binary64, result = .ok (.number (.double x)))

variable {operator : Token}

/-- A failure has one wording. -/
theorem ReportsAt.unique {wording other : String} {result : Except Failure Value}
    (h : ReportsAt operator wording result) (h' : ReportsAt operator other result) :
    wording = other := by
  obtain ⟨error, he, -, rfl⟩ := h
  obtain ⟨found, hf, -, rfl⟩ := h'
  rw [he] at hf
  cases hf
  rfl

theorem not_reportsAt_ok {wording : String} {value : Value} :
    ¬ ReportsAt operator wording (.ok value) := by
  rintro ⟨error, h, -⟩
  cases h

/-! ### The operators on numbers -/

/-- The result of arithmetic at an operator. -/
def arithmetic (operator : Token) : Except ArithmeticFault Number → Except Failure Value
  | .ok x => .ok (.number x)
  | .error fault => checked operator (.error (.arithmetic fault))

theorem checked_ofArithmetic (operation : Number → Number → Except ArithmeticFault Number)
    (a b : Number) :
    checked operator (onNumbers (ofArithmetic operation) (.number a) (.number b)) =
      arithmetic operator (operation a b) := by
  simp only [onNumbers, ofArithmetic]
  cases h : operation a b with
  | ok x => rfl
  | error fault => rfl

/-- An operator of arithmetic, and what it computes. -/
inductive Operation : TokenKind → (Number → Number → Except ArithmeticFault Number) → Prop where
  | plus : Operation .plus Number.add
  | minus : Operation .minus Number.sub
  | star : Operation .star Number.mul

theorem Operation.binary_eq {operation : Number → Number → Except ArithmeticFault Number}
    (h : Operation operator.kind operation) (a b : Number) :
    (number a).binary operator (.number b) = arithmetic operator (operation a b) := by
  rw [← checked_ofArithmetic]
  generalize hk : operator.kind = kind at h
  cases h with
  | plus => simp only [binary, hk, add, isNumber, Bool.and_self, if_true]
  | minus => simp only [binary, hk, numeric, isNumber, Bool.and_self, if_true]
  | star => simp only [binary, hk, numeric, isNumber, Bool.and_self, if_true]

/-- A zero divisor is refused before anything is computed. -/
theorem binary_slash (hk : operator.kind = .slash) (a b : Number) :
    (number a).binary operator (.number b) =
      if b.isZero then .error (.error ⟨operator, .divisionByZero⟩)
      else arithmetic operator (a.div b) := by
  rw [← checked_ofArithmetic]
  simp only [binary, hk, divide, isNumber, Bool.and_self, if_true, isZero]
  rfl

theorem unary_minus (hk : operator.kind = .minus) (a : Number) :
    (number a).unary operator = arithmetic operator a.neg := by
  simp only [unary, hk, negate, isNumber, if_true, opposite]
  cases a.neg <;> rfl

/-! ### An integer and a double -/

theorem limitedAt_of_limited {n : Int} {result : Except ArithmeticFault Number}
    (h : Number.Limited n result) : LimitedAt operator n (arithmetic operator result) := by
  cases h with
  | tooLarge h =>
      refine ⟨⟨fun _ => h, fun _ => ⟨_, rfl, rfl, rfl⟩⟩, fun hlt => ?_⟩
      omega
  | double h x =>
      refine ⟨⟨fun hr => (not_reportsAt_ok hr).elim, fun hle => ?_⟩, fun _ => ⟨x, rfl⟩⟩
      omega

theorem Operation.limited {kind : TokenKind}
    {operation : Number → Number → Except ArithmeticFault Number} (h : Operation kind operation)
    (n : Int) (x : Binary64) :
    Number.Limited n (operation (.int n) (.double x)) ∧
      Number.Limited n (operation (.double x) (.int n)) := by
  cases h with
  | plus => exact ⟨Number.limited_left n x Binary64.add, Number.limited_right n x Binary64.add⟩
  | minus => exact ⟨Number.limited_left n x Binary64.sub, Number.limited_right n x Binary64.sub⟩
  | star => exact ⟨Number.limited_left n x Binary64.mul, Number.limited_right n x Binary64.mul⟩

/-- The operators that look at nothing but the size of their operands. -/
def combining : List TokenKind := [.plus, .minus, .star]

theorem exists_operation {kind : TokenKind} (h : kind ∈ combining) :
    ∃ operation, Operation kind operation := by
  simp only [combining, List.mem_cons, List.not_mem_nil, or_false] at h
  rcases h with rfl | rfl | rfl
  · exact ⟨_, .plus⟩
  · exact ⟨_, .minus⟩
  · exact ⟨_, .star⟩

theorem limitedAt_combining (hk : operator.kind ∈ combining) (n : Int) (x : Binary64) :
    LimitedAt operator n ((number (.int n)).binary operator (.number (.double x))) ∧
      LimitedAt operator n ((number (.double x)).binary operator (.number (.int n))) := by
  obtain ⟨operation, h⟩ := exists_operation hk
  obtain ⟨hleft, hright⟩ := h.limited n x
  rw [h.binary_eq, h.binary_eq]
  exact ⟨limitedAt_of_limited hleft, limitedAt_of_limited hright⟩

theorem not_reportsAt_arithmetic {n : Int} {result : Except ArithmeticFault Number}
    (h : Number.Limited n result) :
    ¬ ReportsAt operator "Division by zero." (arithmetic operator result) := by
  cases h with
  | tooLarge _ =>
      intro hzero
      have htoo : ReportsAt operator "Number too large." (arithmetic operator (.error .tooLarge)) :=
        ⟨_, rfl, rfl, rfl⟩
      exact absurd (hzero.unique htoo) (by decide)
  | double h x => exact not_reportsAt_ok

theorem binary_slash_zero {a b : Number} (hk : operator.kind = .slash) (hb : b.isZero = true) :
    ReportsAt operator "Division by zero." ((number a).binary operator (.number b)) := by
  rw [binary_slash hk, if_pos hb]
  exact ⟨_, rfl, rfl, rfl⟩

theorem binary_slash_nonzero {a b : Number} (hk : operator.kind = .slash) (hb : b.isZero = false) :
    (number a).binary operator (.number b) = arithmetic operator (a.div b) := by
  rw [binary_slash hk, if_neg (Bool.eq_false_iff.1 hb)]

/-- A quotient fails for its divisor exactly if that is zero, and otherwise is limited. -/
theorem quotient_limited {a b : Number} {n : Int} (hk : operator.kind = .slash)
    (h : b.isZero = false → Number.Limited n (a.div b)) :
    (ReportsAt operator "Division by zero." ((number a).binary operator (.number b)) ↔
        b.isZero = true) ∧
      (b.isZero = false → LimitedAt operator n ((number a).binary operator (.number b))) := by
  refine ⟨⟨fun hr => ?_, binary_slash_zero hk⟩, fun hb => ?_⟩
  · by_contra hb
    rw [Bool.not_eq_true] at hb
    rw [binary_slash_nonzero hk hb] at hr
    exact not_reportsAt_arithmetic (h hb) hr
  · rw [binary_slash_nonzero hk hb]
    exact limitedAt_of_limited (h hb)

/-! ### Two integers, two doubles -/

/-- What an operator makes of two integers. -/
inductive Computes : TokenKind → Int → Int → Int → Prop where
  | sum (m n : Int) : Computes .plus m n (m + n)
  | difference (m n : Int) : Computes .minus m n (m - n)
  | product (m n : Int) : Computes .star m n (m * n)
  | quotient (m n : Int) (h : n ≠ 0) : Computes .slash m n ⌊(m : ℚ) / n⌋

theorem binary_int_int {m n result : Int} (h : Computes operator.kind m n result) :
    (number (.int m)).binary operator (.number (.int n)) = .ok (.number (.int result)) := by
  generalize hk : operator.kind = kind at h
  cases h with
  | sum =>
      rw [(hk ▸ Operation.plus : Operation operator.kind Number.add).binary_eq]
      rfl
  | difference =>
      rw [(hk ▸ Operation.minus : Operation operator.kind Number.sub).binary_eq]
      rfl
  | product =>
      rw [(hk ▸ Operation.star : Operation operator.kind Number.mul).binary_eq]
      rfl
  | quotient _ _ hn =>
      rw [binary_slash_nonzero hk (by simpa [Number.isZero] using hn), Number.div, if_neg hn,
        Number.fdiv_eq_floor]
      rfl

theorem Operation.doubles {kind : TokenKind}
    {operation : Number → Number → Except ArithmeticFault Number} (h : Operation kind operation)
    (x y : Binary64) : ∃ z, operation (.double x) (.double y) = .ok (.double z) := by
  cases h with
  | plus => exact ⟨_, Number.onDoubles_of_ok (Number.toDouble_double x) (Number.toDouble_double y)⟩
  | minus => exact ⟨_, Number.onDoubles_of_ok (Number.toDouble_double x) (Number.toDouble_double y)⟩
  | star => exact ⟨_, Number.onDoubles_of_ok (Number.toDouble_double x) (Number.toDouble_double y)⟩

theorem binary_double_double (hk : operator.kind ∈ combining) (x y : Binary64) :
    ∃ z, (number (.double x)).binary operator (.number (.double y)) = .ok (.number (.double z)) := by
  obtain ⟨operation, h⟩ := exists_operation hk
  obtain ⟨z, hz⟩ := h.doubles x y
  refine ⟨z, ?_⟩
  rw [h.binary_eq, hz]
  rfl

theorem binary_slash_double {x y : Binary64} (hk : operator.kind = .slash) (hy : y.isZero = false) :
    ∃ z, (number (.double x)).binary operator (.number (.double y)) = .ok (.number (.double z)) := by
  have hmixed : Number.Mixed (.double x) (.double y) := fun _ _ h _ => nomatch h
  refine ⟨x.div y, ?_⟩
  have hzero : (Number.double y).isZero = false := hy
  rw [binary_slash_nonzero hk hzero,
    Number.div_of_ok hmixed (Number.toDouble_double x) (Number.toDouble_double y) hy]
  rfl

/-! ### Comparisons -/

/-- The operators that compare. -/
def comparisons : List TokenKind :=
  [.equalEqual, .bangEqual, .less, .lessEqual, .greater, .greaterEqual]

/-- A comparison of two numbers has an answer. -/
theorem exists_answer {kind : TokenKind} (h : kind ∈ comparisons) (a b : Number) :
    ∃ answer, Answers kind (.number a) (.number b) answer := by
  by_cases hne : kind = .bangEqual
  · subst hne
    exact ⟨_, answers_bangEqual⟩
  · have hrel : ∃ rel, Compares kind rel := by
      simp only [comparisons, List.mem_cons, List.not_mem_nil, or_false] at h
      rcases h with rfl | rfl | rfl | rfl | rfl | rfl
      · exact ⟨_, .equal⟩
      · exact absurd rfl hne
      · exact ⟨_, .less⟩
      · exact ⟨_, .lessEqual⟩
      · exact ⟨_, .greater⟩
      · exact ⟨_, .greaterEqual⟩
    obtain ⟨rel, hrel⟩ := hrel
    obtain ⟨answer, ha, -⟩ := answers_of_compares hrel a b
    exact ⟨answer, ha⟩

/-! ### The limit -/

theorem unary_double (hk : operator.kind = .minus) (x : Binary64) :
    (number (.double x)).unary operator = .ok (.number (.double x.neg)) := by
  rw [unary_minus hk, Number.neg_of_ok (Number.toDouble_double x)]
  rfl

/-- Integers alone are never too large. -/
theorem not_tooLarge_integers (hk : operator.kind ∈ TokenKind.slash :: combining) (m n : Int) :
    ¬ ReportsAt operator "Number too large."
      ((number (.int m)).binary operator (.number (.int n))) := by
  by_cases hzero : operator.kind = .slash ∧ n = 0
  · obtain ⟨hslash, rfl⟩ := hzero
    exact fun htoo => absurd ((binary_slash_zero hslash rfl).unique htoo) (by decide)
  · have hcomputes : ∃ result, Computes operator.kind m n result := by
      generalize operator.kind = kind at hk hzero
      simp only [combining, List.mem_cons, List.not_mem_nil, or_false] at hk
      rcases hk with rfl | rfl | rfl | rfl
      · exact ⟨_, .quotient m n (by simpa using hzero)⟩
      · exact ⟨_, .sum m n⟩
      · exact ⟨_, .difference m n⟩
      · exact ⟨_, .product m n⟩
    obtain ⟨result, hresult⟩ := hcomputes
    rw [binary_int_int hresult]
    exact not_reportsAt_ok

/-- Doubles alone are never too large. -/
theorem not_tooLarge_doubles (hk : operator.kind ∈ TokenKind.slash :: combining) (x y : Binary64) :
    ¬ ReportsAt operator "Number too large."
      ((number (.double x)).binary operator (.number (.double y))) := by
  have hresult : (∃ z, (number (.double x)).binary operator (.number (.double y)) =
        .ok (.number (.double z))) ∨
      ReportsAt operator "Division by zero."
        ((number (.double x)).binary operator (.number (.double y))) := by
    rcases List.mem_cons.1 hk with hslash | hcombining
    · cases hy : y.isZero with
      | true => exact .inr (binary_slash_zero hslash hy)
      | false => exact .inl (binary_slash_double hslash hy)
    · exact .inl (binary_double_double hcombining x y)
  rcases hresult with ⟨z, hz⟩ | hr
  · rw [hz]
    exact not_reportsAt_ok
  · exact fun htoo => absurd (hr.unique htoo) (by decide)

/-- What the operator of a token makes of numbers, and what it fails with. -/
structure ArithmeticLimits (operator : Token) : Prop where
  /-- An integer and a double, on either side of a sum, a difference or a product. -/
  mixed : operator.kind ∈ combining → ∀ (n : Int) (x : Binary64),
    LimitedAt operator n ((number (.int n)).binary operator (.number (.double x))) ∧
      LimitedAt operator n ((number (.double x)).binary operator (.number (.int n)))
  /-- An integer divided by a double. -/
  integerByDouble : operator.kind = .slash → ∀ (n : Int) (x : Binary64),
    (ReportsAt operator "Division by zero."
        ((number (.int n)).binary operator (.number (.double x))) ↔ x = .zero ∨ x = .neg .zero) ∧
      (¬ (x = .zero ∨ x = .neg .zero) →
        LimitedAt operator n ((number (.int n)).binary operator (.number (.double x))))
  /-- A double divided by an integer. -/
  doubleByInteger : operator.kind = .slash → ∀ (x : Binary64) (n : Int),
    (ReportsAt operator "Division by zero."
        ((number (.double x)).binary operator (.number (.int n))) ↔ n = 0) ∧
      (n ≠ 0 → LimitedAt operator n ((number (.double x)).binary operator (.number (.int n))))
  /-- The opposite of an integer. -/
  opposite : operator.kind = .minus → ∀ n : Int,
    LimitedAt operator n ((number (.int n)).unary operator)
  /-- Two integers. -/
  integers : ∀ m n result : Int, Computes operator.kind m n result →
    (number (.int m)).binary operator (.number (.int n)) = .ok (.number (.int result))
  integersByZero : operator.kind = .slash → ∀ m : Int,
    ReportsAt operator "Division by zero." ((number (.int m)).binary operator (.number (.int 0)))
  /-- Two doubles. -/
  doubles : ∀ x y : Binary64,
    operator.kind ∈ combining ∨ operator.kind = .slash ∧ ¬ (y = .zero ∨ y = .neg .zero) →
      ∃ z, (number (.double x)).binary operator (.number (.double y)) = .ok (.number (.double z))
  doublesByZero : operator.kind = .slash → ∀ x y : Binary64, y = .zero ∨ y = .neg .zero →
    ReportsAt operator "Division by zero."
      ((number (.double x)).binary operator (.number (.double y)))
  /-- Neither two integers nor two doubles are ever too large. -/
  neverTooLarge : operator.kind ∈ TokenKind.slash :: combining → ∀ (m n : Int) (x y : Binary64),
    ¬ ReportsAt operator "Number too large."
        ((number (.int m)).binary operator (.number (.int n))) ∧
      ¬ ReportsAt operator "Number too large."
        ((number (.double x)).binary operator (.number (.double y)))
  /-- The opposite of a double. -/
  oppositeDouble : operator.kind = .minus → ∀ x : Binary64,
    (number (.double x)).unary operator = .ok (.number (.double x.neg))
  /-- A comparison of any two numbers has an answer. -/
  compared : operator.kind ∈ comparisons → ∀ a b : Number,
    ∃ answer, (number a).binary operator (.number b) = .ok (.bool answer)

/-- **Arithmetic has one limit.**  An operator on an integer and a double, on either side, is refused as
too large exactly if the integer is, whatever the double is, and has a double for its result otherwise; so
is the opposite of an integer.  A quotient is refused for a zero divisor first, whatever its dividend.  Two
integers are computed exactly, two doubles have a double for their result, and neither are ever too large;
and a comparison of two numbers always has an answer. -/
theorem arithmetic_limits (operator : Token) : ArithmeticLimits operator := by
  have hzero : ∀ x : Binary64, ¬ (x = .zero ∨ x = .neg .zero) → x.isZero = false := by
    intro x hx
    rw [← Binary64.isZero_iff, Bool.not_eq_true] at hx
    exact hx
  constructor
  case mixed => exact limitedAt_combining
  case integerByDouble =>
    intro hk n x
    obtain ⟨hdivisor, hlimited⟩ :=
      quotient_limited (a := .int n) (b := .double x) hk fun hx => Number.limited_div_left hx
    exact ⟨hdivisor.trans x.isZero_iff, fun hx => hlimited (hzero x hx)⟩
  case doubleByInteger =>
    intro hk x n
    have hn : (Number.int n).isZero = true ↔ n = 0 := beq_iff_eq
    have hn' : (Number.int n).isZero = false ↔ n ≠ 0 := by rw [← Bool.not_eq_true, hn]
    obtain ⟨hdivisor, hlimited⟩ :=
      quotient_limited (a := .double x) (b := .int n) hk fun h => Number.limited_div_right (hn'.1 h)
    exact ⟨hdivisor.trans hn, fun h => hlimited (hn'.2 h)⟩
  case opposite =>
    intro hk n
    rw [unary_minus hk]
    exact limitedAt_of_limited (Number.limited_neg n)
  case integers => exact fun m n result h => binary_int_int h
  case integersByZero => exact fun hk m => binary_slash_zero hk rfl
  case doubles =>
    rintro x y (hk | ⟨hk, hy⟩)
    · exact binary_double_double hk x y
    · exact binary_slash_double hk (hzero y hy)
  case doublesByZero => exact fun hk x y hy => binary_slash_zero hk (y.isZero_iff.2 hy)
  case neverTooLarge =>
    exact fun hk m n x y => ⟨not_tooLarge_integers hk m n, not_tooLarge_doubles hk x y⟩
  case oppositeDouble => exact unary_double
  case compared =>
    intro hk a b
    obtain ⟨answer, h⟩ := exists_answer hk a b
    exact ⟨answer, h operator rfl⟩

/-- At the least integer that is too large: it is refused beside NaN and its opposite beside infinity, the
one before it is not; a zero divisor comes first; and alone it is computed with, and compared. -/
theorem arithmetic_limits_boundary :
    let n : Int := tooLarge
    let plus : Token := ⟨.plus, "+", none, 1⟩
    let minus : Token := ⟨.minus, "-", none, 1⟩
    let slash : Token := ⟨.slash, "/", none, 1⟩
    let less : Token := ⟨.less, "<", none, 1⟩
    ReportsAt plus "Number too large."
        ((number (.int n)).binary plus (.number (.double .nan))) ∧
      ReportsAt minus "Number too large."
        ((number (.double (.infinite true))).binary minus (.number (.int (-n)))) ∧
      (∃ x, (number (.int (n - 1))).binary plus (.number (.double .nan)) =
        .ok (.number (.double x))) ∧
      ReportsAt minus "Number too large." ((number (.int n)).unary minus) ∧
      ReportsAt slash "Division by zero."
        ((number (.int n)).binary slash (.number (.double (.neg .zero)))) ∧
      ReportsAt slash "Number too large."
        ((number (.int n)).binary slash (.number (.double (.infinite false)))) ∧
      ReportsAt slash "Number too large."
        ((number (.double .zero)).binary slash (.number (.int n))) ∧
      (number (.int n)).binary plus (.number (.int n)) = .ok (.number (.int (n + n))) ∧
      (number (.int (-7))).binary slash (.number (.int 2)) = .ok (.number (.int (-4))) ∧
      ∃ answer, (number (.int n)).binary less (.number (.double .nan)) = .ok (.bool answer) := by
  intro n plus minus slash less
  have hpos : 0 < tooLarge := by decide +kernel
  have hn : tooLarge ≤ n.natAbs := by omega
  have hinfinite : ¬ (Binary64.infinite false = .zero ∨ Binary64.infinite false = .neg .zero) := by
    decide
  have hfloor : Computes slash.kind (-7) 2 (-4) := by
    have h := Computes.quotient (-7) 2 (by decide)
    norm_num at h
    exact h
  refine ⟨?_, ?_, ?_, ?_, ?_, ?_, ?_, ?_, ?_, ?_⟩
  · exact (((arithmetic_limits plus).mixed (by decide) n .nan).1).1.2 hn
  · exact (((arithmetic_limits minus).mixed (by decide) (-n) (.infinite true)).2).1.2 (by omega)
  · exact (((arithmetic_limits plus).mixed (by decide) (n - 1) .nan).1).2 (by omega)
  · exact ((arithmetic_limits minus).opposite rfl n).1.2 hn
  · exact ((arithmetic_limits slash).integerByDouble rfl n (.neg .zero)).1.2 (.inr rfl)
  · exact (((arithmetic_limits slash).integerByDouble rfl n (.infinite false)).2 hinfinite).1.2 hn
  · exact (((arithmetic_limits slash).doubleByInteger rfl .zero n).2 (by omega)).1.2 hn
  · exact (arithmetic_limits plus).integers n n _ (.sum n n)
  · exact (arithmetic_limits slash).integers (-7) 2 (-4) hfloor
  · exact (arithmetic_limits less).compared (by decide) (.int n) (.double .nan)

end Value

end LoxLang
