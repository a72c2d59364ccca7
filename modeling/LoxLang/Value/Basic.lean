/-
Values of a running program.

Main definitions:

* `LoxLang.Address` — where a frame of bindings stands on the heap;
* `LoxLang.Closure` — a function with the scope it was declared in;
* `LoxLang.Native` — the functions that every program starts with;
* `LoxLang.Value` — the values;
* `LoxLang.Value.isTruthy`, `LoxLang.Value.same` — truth and equality;
* `LoxLang.Value.print?`, `LoxLang.Value.dump?` — texts of values.
-/

import LoxLang.Syntax.Basic

set_option relaxedAutoImplicit false
set_option autoImplicit false

namespace LoxLang

/-- The place of a frame on the heap. -/
abbrev Address : Type := Nat

/-- A function: its declaration, the scope it was declared in, and an identity that no other
function of the same run has. -/
structure Closure where
  name : Token
  parameters : List Token
  body : List Stmt
  scope : Address
  identity : Nat

/-- A function that every program starts with. -/
inductive Native where
  /-- The time in seconds. -/
  | clock
  deriving DecidableEq, Repr

namespace Native

/-- All native functions, in the order in which they are bound. -/
def all : List Native := [.clock]

/-- The name that a native function is bound to. -/
def name : Native → String
  | clock => "clock"

/-- The number of arguments. -/
def arity : Native → Nat
  | clock => 0

end Native

/-- A value of a running program. -/
inductive Value where
  /-- No value at all, which a program cannot produce: only an operand given from outside may be
  missing. -/
  | absent
  | nil
  | bool (b : Bool)
  | number (n : Number)
  | text (s : String)
  | closure (f : Closure)
  | native (f : Native)
  | stub (f : Stub)

namespace Value

/-- The value of a literal. -/
def ofLiteral : Literal → Value
  | .nil => .nil
  | .bool b => .bool b
  | .number n => .number n
  | .text s => .text s
  | .stub f => .stub f

/-- The value is a number. -/
def isNumber : Value → Bool
  | .number _ => true
  | _ => false

/-- Everything is true but false, nil and a missing value. -/
def isTruthy : Value → Bool
  | .absent => false
  | .nil => false
  | .bool b => b
  | _ => true

/-- Values of different kinds are different; numbers are equal by value, and functions only to
themselves. -/
def same : Value → Value → Bool
  | .absent, .absent => true
  | .nil, .nil => true
  | .bool x, .bool y => x = y
  | .number x, .number y => x.same y
  | .text x, .text y => x = y
  | .closure f, .closure g => f.identity = g.identity
  | .native f, .native g => f = g
  | .stub f, .stub g => f = g
  | _, _ => false

/-- The text of a value in a program's output, if it can be written. -/
def print? : Value → Option String
  | .absent => some "nil"
  | .nil => some "nil"
  | .bool b => some (if b then "true" else "false")
  | .number n => n.print?
  | .text s => some s
  | .closure f => some (functionText f.name.lexeme)
  | .native _ => some nativeText
  | .stub f => some f.print

/-- The text of a value in dumps; an integer beyond the digit limit has none. -/
def dump? : Value → Option String
  | .absent => some "None"
  | .nil => some "nil"
  | .bool b => some (boolDump b)
  | .number n => n.dump?
  | .text s => some (Text.quoted s)
  | .closure f => some (functionDump f.name.lexeme (f.parameters.map Token.lexeme))
  | .native f => some (nativeDump f.name f.arity)
  | .stub f => some f.dump

end Value

end LoxLang
