/-
Operators on values, calls, and the errors of a running program.

An error carries the token at which it arose; its wording may quote that token.  Below the errors of
a program are the breakdowns of the machine: an operation on numbers is defined on numbers only, and
some of them not on all, a call is defined on functions only, and a number may be too long to be
written.  Every operator therefore looks at its operands first, and takes a number that is too large
for an error of the program.

Main definitions:

* `LoxLang.RuntimeCause`, `LoxLang.RuntimeError` — the errors of a running program;
* `LoxLang.Breakdown`, `LoxLang.Failure` — the breakdowns, and all that ends a run without a value;
* `LoxLang.Value.onNumbers`, `LoxLang.Value.checked` — operations on numbers, applied to values;
* `LoxLang.Value.add`, `LoxLang.Value.divide`, `LoxLang.Value.numeric` — binary operators;
* `LoxLang.Value.binary` — the binary operator of a token;
* `LoxLang.Value.negate`, `LoxLang.Value.unary` — unary operators;
* `LoxLang.Value.checkCall` — whether a call can be made;
* `LoxLang.Value.written` — the text of a value to be printed.
-/

import LoxLang.Report
import LoxLang.Value.Basic

set_option relaxedAutoImplicit false
set_option autoImplicit false

namespace LoxLang

/-! ### Errors -/

/-- Why a program cannot go on. -/
inductive RuntimeCause where
  | operandNotNumber
  | operandsNotNumbers
  | operandsNotAddable
  | divisionByZero
  | numberTooLarge
  | unknownUnary
  | unknownBinary
  | notCallable
  | arity (expected actual : Nat)
  | undefinedVariable
  deriving DecidableEq, Repr

/-- An error of a running program, at a token. -/
structure RuntimeError where
  token : Token
  cause : RuntimeCause
  deriving DecidableEq

/-- The wording of a cause at a token of the given lexeme. -/
def RuntimeCause.message (lexeme : String) : RuntimeCause → String
  | .operandNotNumber => s!"Operand of '{lexeme}' must be a number."
  | .operandsNotNumbers => s!"Operands of '{lexeme}' must be numbers."
  | .operandsNotAddable => s!"Operands of '{lexeme}' must be two numbers or two strings."
  | .divisionByZero => "Division by zero."
  | .numberTooLarge => "Number too large."
  | .unknownUnary => s!"Unknown unary operator '{lexeme}'."
  | .unknownBinary => s!"Unknown binary operator '{lexeme}'."
  | .notCallable => "Can only call functions and classes."
  | .arity expected actual => s!"Expected {expected} arguments but got {actual}."
  | .undefinedVariable => s!"Undefined variable '{lexeme}'."

namespace RuntimeError

/-- The wording of an error. -/
def message (error : RuntimeError) : String := error.cause.message error.token.lexeme

/-- The report of an error, which names the line only. -/
def report (error : RuntimeError) : Report := Report.ofLine error.token.line error.message

end RuntimeError

/-! ### Breakdowns -/

/-- Why an operation of the machine has no result. -/
inductive Breakdown where
  /-- Arithmetic on numbers has no result. -/
  | arithmetic (fault : ArithmeticFault)
  /-- An operand of an operation on numbers is no number. -/
  | notNumber
  /-- A value that is called is no function. -/
  | notFunction
  /-- The arguments of a call are not as many as the function takes. -/
  | argumentCount
  /-- A number has no text, or the output does not take a text. -/
  | unwritable
  deriving DecidableEq, Repr

/-- Why running something ends without a value: an error of the program, or a breakdown of the
machine, which no program may cause unless the output does not take what it prints. -/
inductive Failure where
  | error (error : RuntimeError)
  | breakdown (breakdown : Breakdown)
  deriving DecidableEq

namespace Value

/-! ### Operations on numbers -/

/-- An operation on numbers, applied to two values. -/
def onNumbers (operation : Number → Number → Except ArithmeticFault Value) :
    Value → Value → Except Breakdown Value
  | .number x, .number y =>
      match operation x y with
      | .ok value => .ok value
      | .error fault => .error (.arithmetic fault)
  | _, _ => .error .notNumber

/-- The result of an operation at an operator, at which a number too large is an error of the
program. -/
def checked (operator : Token) : Except Breakdown Value → Except Failure Value
  | .ok value => .ok value
  | .error (.arithmetic .tooLarge) => .error (.error ⟨operator, .numberTooLarge⟩)
  | .error other => .error (.breakdown other)

/-- Arithmetic as an operation with values for its results. -/
def ofArithmetic (operation : Number → Number → Except ArithmeticFault Number) (x y : Number) :
    Except ArithmeticFault Value :=
  (operation x y).map .number

/-- A comparison as an operation with values for its results. -/
def ofTest (test : Number → Number → Bool) (x y : Number) : Except ArithmeticFault Value :=
  .ok (.bool (test x y))

/-! ### Binary operators -/

/-- The sum of two numbers, or two texts in a row. -/
def add (operator : Token) (left right : Value) : Except Failure Value :=
  if left.isNumber && right.isNumber then
    checked operator (onNumbers (ofArithmetic Number.add) left right)
  else
    match left, right with
    | .text x, .text y => .ok (.text (x ++ y))
    | _, _ => .error (.error ⟨operator, .operandsNotAddable⟩)

/-- The value is a number that is zero. -/
def isZero : Value → Bool
  | .number x => x.isZero
  | _ => false

/-- The quotient of two numbers.  A zero divisor is refused before the size of the operands is
looked at. -/
def divide (operator : Token) (left right : Value) : Except Failure Value :=
  if left.isNumber && right.isNumber then
    if right.isZero then .error (.error ⟨operator, .divisionByZero⟩)
    else checked operator (onNumbers (ofArithmetic Number.div) left right)
  else
    .error (.error ⟨operator, .operandsNotNumbers⟩)

/-- An operator that takes two numbers only. -/
def numeric (operation : Number → Number → Except ArithmeticFault Value) (operator : Token)
    (left right : Value) : Except Failure Value :=
  if left.isNumber && right.isNumber then checked operator (onNumbers operation left right)
  else .error (.error ⟨operator, .operandsNotNumbers⟩)

/-- The binary operator of a token.  Its kind is looked at before its operands. -/
def binary (operator : Token) (left right : Value) : Except Failure Value :=
  match operator.kind with
  | .plus => add operator left right
  | .minus => numeric (ofArithmetic Number.sub) operator left right
  | .star => numeric (ofArithmetic Number.mul) operator left right
  | .slash => divide operator left right
  | .equalEqual => .ok (.bool (left.same right))
  | .bangEqual => .ok (.bool !(left.same right))
  | .less => numeric (ofTest Number.less) operator left right
  | .lessEqual => numeric (ofTest Number.lessOrSame) operator left right
  | .greater => numeric (ofTest fun x y => y.less x) operator left right
  | .greaterEqual => numeric (ofTest fun x y => y.lessOrSame x) operator left right
  | _ => .error (.error ⟨operator, .unknownBinary⟩)

/-! ### Unary operators -/

/-- The opposite of a number. -/
def opposite : Value → Except Breakdown Value
  | .number x =>
      match x.neg with
      | .ok y => .ok (.number y)
      | .error fault => .error (.arithmetic fault)
  | _ => .error .notNumber

/-- The opposite of a number, and an error for other values. -/
def negate (operator : Token) (operand : Value) : Except Failure Value :=
  if operand.isNumber then checked operator operand.opposite
  else .error (.error ⟨operator, .operandNotNumber⟩)

/-- The unary operator of a token. -/
def unary (operator : Token) (right : Value) : Except Failure Value :=
  match operator.kind with
  | .minus => negate operator right
  | .bang => .ok (.bool !right.isTruthy)
  | _ => .error (.error ⟨operator, .unknownUnary⟩)

/-! ### Calls -/

/-- The value is a function. -/
def isFunction : Value → Bool
  | .closure _ | .native _ | .stub _ => true
  | _ => false

/-- The number of arguments that a function takes. -/
def arity : Value → Except Breakdown Nat
  | .closure f => .ok f.parameters.length
  | .native f => .ok f.arity
  | .stub f => .ok f.arity
  | _ => .error .notFunction

/-- Check a call of a value with so many arguments, at the parenthesis behind them: first that it is
a function, then the number of arguments. -/
def checkCall (paren : Token) (callee : Value) (actual : Nat) : Except Failure Unit :=
  if callee.isFunction then
    match callee.arity with
    | .ok expected =>
        if actual = expected then .ok ()
        else .error (.error ⟨paren, .arity expected actual⟩)
    | .error problem => .error (.breakdown problem)
  else
    .error (.error ⟨paren, .notCallable⟩)

/-! ### Printing -/

/-- The text of a value to be printed. -/
def written (value : Value) : Except Failure String :=
  match value.print? with
  | some shown => .ok shown
  | none => .error (.breakdown .unwritable)

end Value

end LoxLang
