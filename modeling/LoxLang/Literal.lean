/-
Literal values.

What a program can write down as a value: nil, the booleans, numbers and texts.  A tree that was not
read from a source text may also hold a *stub*, a callable which takes its arguments, does nothing
and answers nil; two stubs are the same only if they have the same identity.

Main definitions:

* `LoxLang.Stub` — a callable given from outside;
* `LoxLang.Literal` — a value that stands in a tree or in a token;
* `LoxLang.Literal.dump?` — the text of a literal in dumps of scopes and trees.
-/

import LoxLang.Number.Basic
import LoxLang.Text.Quoted

set_option relaxedAutoImplicit false
set_option autoImplicit false

namespace LoxLang

/-! ### Stubs -/

/-- A callable given from outside: it does nothing and answers nil. -/
inductive Stub where
  | function (name : String) (parameters : List String) (identity : Nat)
  | native (name : String) (arity : Nat) (identity : Nat)
  deriving DecidableEq

/-- The text of a function in dumps. -/
def functionDump (name : String) (parameters : List String) : String :=
  "<fn " ++ name ++ "(" ++ ", ".intercalate parameters ++ ")>"

/-- The text of a function in a program's output. -/
def functionText (name : String) : String := "<fn " ++ name ++ ">"

/-- The text of a native function in dumps. -/
def nativeDump (name : String) (arity : Nat) : String :=
  "NativeFunction(" ++ Text.quoted name ++ ", " ++ toString arity ++ ")"

/-- The text of any native function in a program's output. -/
def nativeText : String := "<native fn>"

namespace Stub

/-- The number of arguments. -/
def arity : Stub → Nat
  | .function _ parameters _ => parameters.length
  | .native _ arity _ => arity

/-- The text of a stub in dumps. -/
def dump : Stub → String
  | .function name parameters _ => functionDump name parameters
  | .native name arity _ => nativeDump name arity

/-- The text of a stub in a program's output. -/
def print : Stub → String
  | .function name _ _ => functionText name
  | .native _ _ _ => nativeText

end Stub

/-! ### Literals -/

/-- A value that stands in a tree or in a token. -/
inductive Literal where
  | nil
  | bool (b : Bool)
  | number (n : Number)
  | text (s : String)
  | stub (f : Stub)
  deriving DecidableEq

/-- A boolean in dumps. -/
def boolDump (b : Bool) : String := if b then "True" else "False"

namespace Literal

/-- The text of a literal in dumps; an integer beyond the digit limit has none. -/
def dump? : Literal → Option String
  | .nil => some "nil"
  | .bool b => some (boolDump b)
  | .number n => n.dump?
  | .text s => some (Text.quoted s)
  | .stub f => some f.dump

/-- The text of a literal in the listing of a token: a text stands without quotes. -/
def listed : Literal → String
  | .nil => "nil"
  | .bool b => boolDump b
  | .number (.int n) => Numeral.text n
  | .number (.double x) => x.render .dumped
  | .text s => s
  | .stub f => f.print

end Literal

end LoxLang
