/-
Numbers of the language: unbounded integers and doubles.

Arithmetic on two integers stays exact.  When one operand is a double the other is first converted
to the nearest double, which fails for an integer that is too large.  Comparison is by mathematical
value and never converts: both operands are placed on the line of units of a double, extended by
the two infinities, and NaN has no place on it.

Main definitions:

* `LoxLang.Number` — an integer or a double;
* `LoxLang.Position`, `LoxLang.Number.position?` — the place of a number on the extended line;
* `LoxLang.Number.same`, `LoxLang.Number.less` — equality and order by value;
* `LoxLang.ArithmeticFault` — why arithmetic has no result;
* `LoxLang.Number.add`, `sub`, `mul`, `div`, `neg` — arithmetic.
-/

import LoxLang.Number.Shortest
import LoxLang.Number.Numeral

set_option relaxedAutoImplicit false
set_option autoImplicit false

namespace LoxLang

/-- A number of the language. -/
inductive Number where
  | int (n : Int)
  | double (x : Binary64)
  deriving DecidableEq

/-! ### Comparison -/

/-- A place on the line of units, or beyond it on either side. -/
inductive Position where
  | below
  | finite (units : Int)
  | above
  deriving DecidableEq

/-- The order of the line. -/
def Position.less : Position → Position → Bool
  | .below, .below => false
  | .below, _ => true
  | .finite _, .below => false
  | .finite x, .finite y => x < y
  | .finite _, .above => true
  | .above, _ => false

/-- The place of a double; NaN has none. -/
def Binary64.position? : Binary64 → Option Position
  | .nan => none
  | .infinite negative => some (if negative then .below else .above)
  | .finite negative m => some (.finite (if negative then -(m.units : Int) else m.units))

namespace Number

/-- The place of a number; NaN has none. -/
def position? : Number → Option Position
  | .int n => some (.finite (n * unitsPerOne))
  | .double x => x.position?

/-- The numbers are equal by value. -/
def same (x y : Number) : Bool :=
  match x.position?, y.position? with
  | some p, some q => p = q
  | _, _ => false

/-- The first number is less than the second by value. -/
def less (x y : Number) : Bool :=
  match x.position?, y.position? with
  | some p, some q => p.less q
  | _, _ => false

/-- The first number is less than or equal to the second by value. -/
def lessOrSame (x y : Number) : Bool := x.less y || x.same y

/-- The number is an integer or a double zero. -/
def isZero : Number → Bool
  | .int n => n == 0
  | .double x => x.isZero

end Number

/-! ### Arithmetic -/

/-- Why an operation on numbers has no result. -/
inductive ArithmeticFault where
  | tooLarge
  | divisionByZero
  deriving DecidableEq, Repr

namespace Number

/-- The nearest double if there is one; otherwise the integer is too large for doubles. -/
def orTooLarge : Option Binary64 → Except ArithmeticFault Binary64
  | some x => .ok x
  | none => .error .tooLarge

/-- The nearest double, which an integer too large for doubles does not have. -/
def toDouble : Number → Except ArithmeticFault Binary64
  | .int n => orTooLarge (Binary64.ofInt? n)
  | .double x => .ok x

/-- Apply an operation of doubles to the nearest doubles of two numbers. -/
def onDoubles (operation : Binary64 → Binary64 → Binary64) (x y : Number) :
    Except ArithmeticFault Number :=
  match x.toDouble, y.toDouble with
  | .ok left, .ok right => .ok (.double (operation left right))
  | .error fault, _ => .error fault
  | _, .error fault => .error fault

/-- The sum. -/
def add : Number → Number → Except ArithmeticFault Number
  | .int m, .int n => .ok (.int (m + n))
  | x, y => onDoubles Binary64.add x y

/-- The difference. -/
def sub : Number → Number → Except ArithmeticFault Number
  | .int m, .int n => .ok (.int (m - n))
  | x, y => onDoubles Binary64.sub x y

/-- The product. -/
def mul : Number → Number → Except ArithmeticFault Number
  | .int m, .int n => .ok (.int (m * n))
  | x, y => onDoubles Binary64.mul x y

/-- The quotient; two integers give the floor of it.  The operands are converted before the divisor
is looked at. -/
def div : Number → Number → Except ArithmeticFault Number
  | .int m, .int n => if n = 0 then .error .divisionByZero else .ok (.int (m.fdiv n))
  | x, y =>
      match x.toDouble, y.toDouble with
      | .ok left, .ok right =>
          if right.isZero then .error .divisionByZero else .ok (.double (left.div right))
      | .error fault, _ => .error fault
      | _, .error fault => .error fault

/-- The opposite number, always a double. -/
def neg (x : Number) : Except ArithmeticFault Number :=
  match x.toDouble with
  | .ok value => .ok (.double value.neg)
  | .error fault => .error fault

/-! ### Texts -/

/-- The text of a number in a program's output, if it can be written. -/
def print? : Number → Option String
  | .int n => Numeral.text? n
  | .double x => some (x.render .printed)

/-- The text of a number in a dump; an integer beyond the digit limit has none. -/
def dump? : Number → Option String
  | .int n => Numeral.limited? n
  | .double x => some (x.render .dumped)

end Number

end LoxLang
