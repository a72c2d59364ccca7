/-
Running expressions and statements.

Operands are evaluated from left to right, the callee of a call before its arguments; a call then
checks that it can be made at all and that the number of arguments is right.  A block and a call
make a frame of their own current and go back to the scope before, however they end.  A return ends
the blocks, branches and loops around it up to the nearest call.

All functions are recursive on an amount of fuel, which every step into a part takes one of.

Main definitions:

* `LoxLang.Machine.evaluate`, `LoxLang.Machine.evaluateAll` — expressions;
* `LoxLang.Machine.apply`, `LoxLang.Machine.invoke` — calls;
* `LoxLang.Machine.execute`, `LoxLang.Machine.executeAll`, `LoxLang.Machine.repeating` — statements;
* `LoxLang.Machine.executeIn` — statements in a scope of their own;
* `LoxLang.Machine.executeEach`, `LoxLang.Machine.executeInBlock` — statements at the top.
-/

import LoxLang.Machine.Basic

set_option relaxedAutoImplicit false
set_option autoImplicit false

namespace LoxLang.Machine

/-! ### Names, functions and the output -/

/-- The value of a name in the current scope. -/
def lookup (name : Token) (m : Machine) : Outcome Value :=
  match m.heap.get? m.scope name.lexeme with
  | some value => .ok value m
  | none => .failed (.error ⟨name, .undefinedVariable⟩) m

/-- Give a name of the current scope another value. -/
def assign (name : Token) (value : Value) (m : Machine) : Outcome Value :=
  match m.heap.assign? m.scope name.lexeme value with
  | some heap => .ok value { m with heap }
  | none => .failed (.error ⟨name, .undefinedVariable⟩) m

/-- The frame that changes is the one where the name is found. -/
theorem assign_eq (name : Token) (value : Value) (m : Machine) : assign name value m =
    match m.heap.find? m.scope name.lexeme with
    | some found => .ok value { m with heap := m.heap.define found name.lexeme value }
    | none => .failed (.error ⟨name, .undefinedVariable⟩) m := by
  unfold assign Heap.assign?
  cases m.heap.find? m.scope name.lexeme <;> rfl

/-- Print a text.  If the output does not take it, nothing of it is printed and the machine breaks
down. -/
def print (text : String) (m : Machine) : Outcome Completion :=
  if m.takes text then .ok .normal (m.write text) else .failed (.breakdown .unwritable) m

theorem print_of_takes {text : String} {m : Machine} (h : m.takes text = true) :
    print text m = .ok .normal (m.write text) := if_pos h

theorem print_of_not_takes {text : String} {m : Machine} (h : m.takes text = false) :
    print text m = .failed (.breakdown .unwritable) m := if_neg (Bool.eq_false_iff.1 h)

/-- Bind a new function in the current scope. -/
def makeFunction (name : Token) (parameters : List Token) (body : List Stmt) (m : Machine) :
    Machine :=
  let closure : Closure := ⟨name, parameters, body, m.scope, m.functions⟩
  Machine.define { m with functions := m.functions + 1 } name.lexeme (.closure closure)

/-- The frame of a call: the parameters bound to the arguments, in the scope of the function. -/
def callFrame (f : Closure) (arguments : List Value) : Frame :=
  ⟨Bindings.setAll (f.parameters.map Token.lexeme) arguments [], some f.scope⟩

/-- The frame of a block in the current scope. -/
def blockFrame (m : Machine) : Frame := ⟨[], some m.scope⟩

/-- The value of a call whose body ended. -/
def callValue : Completion → Value
  | .normal => .nil
  | .returned value => value

/-- The right operand of a logical operator stays unevaluated when the left one decides.  Every
operator but a disjunction counts as a conjunction. -/
def decides (operator : Token) (left : Value) : Bool :=
  if operator.kind = .orWord then left.isTruthy else !left.isTruthy

/-! ### Expressions, calls and statements -/

mutual

/-- Evaluate an expression. -/
def evaluate : Nat → Expr → Machine → Outcome Value
  | 0, _, _ => .outOfFuel
  | fuel + 1, .assign name value, m =>
      (evaluate fuel value m).bind fun value m => assign name value m
  | fuel + 1, .binary left operator right, m =>
      (evaluate fuel left m).bind fun left m =>
        (evaluate fuel right m).bind fun right m =>
          Outcome.ofExcept (left.binary operator right) m
  | fuel + 1, .call callee paren arguments, m =>
      (evaluate fuel callee m).bind fun callee m =>
        (evaluateAll fuel arguments m).bind fun arguments m =>
          apply fuel paren callee arguments m
  | fuel + 1, .grouping inner, m => evaluate fuel inner m
  | _ + 1, .literal value, m => .ok (Value.ofLiteral value) m
  | fuel + 1, .logical left operator right, m =>
      (evaluate fuel left m).bind fun left m =>
        if decides operator left then .ok left m else evaluate fuel right m
  | fuel + 1, .unary operator right, m =>
      (evaluate fuel right m).bind fun right m => Outcome.ofExcept (right.unary operator) m
  | _ + 1, .lookup name, m => lookup name m

/-- Evaluate expressions from left to right. -/
def evaluateAll : Nat → List Expr → Machine → Outcome (List Value)
  | 0, _, _ => .outOfFuel
  | _ + 1, [], m => .ok [] m
  | fuel + 1, e :: es, m =>
      (evaluate fuel e m).bind fun value m =>
        (evaluateAll fuel es m).bind fun values m => .ok (value :: values) m

/-- Call a value with arguments; the parenthesis after them is where errors arise. -/
def apply : Nat → Token → Value → List Value → Machine → Outcome Value
  | 0, _, _, _, _ => .outOfFuel
  | fuel + 1, paren, callee, arguments, m =>
      (Outcome.ofExcept (callee.checkCall paren arguments.length) m).bind fun _ m =>
        match callee, arguments with
        | .closure f, arguments => invoke fuel f arguments m
        | .native .clock, [] =>
            let (reading, m) := m.readClock
            .ok (.number (.double reading)) m
        | .native .clock, _ :: _ => .failed (.breakdown .argumentCount) m
        | .stub _, _ => .ok .nil m
        | _, _ => .failed (.breakdown .notFunction) m

/-- Run the body of a function in a frame of its own. -/
def invoke : Nat → Closure → List Value → Machine → Outcome Value
  | 0, _, _, _ => .outOfFuel
  | fuel + 1, f, arguments, m =>
      let scope := m.heap.next
      (executeIn fuel scope f.body (m.allocate (callFrame f arguments))).map callValue

/-- Execute a statement. -/
def execute : Nat → Stmt → Machine → Outcome Completion
  | 0, _, _ => .outOfFuel
  | fuel + 1, .block body, m =>
      let scope := m.heap.next
      executeIn fuel scope body (m.allocate m.blockFrame)
  | fuel + 1, .expression value, m => (evaluate fuel value m).bind fun _ m => .ok .normal m
  | _ + 1, .function name parameters body, m => .ok .normal (m.makeFunction name parameters body)
  | fuel + 1, .branch condition thenBranch elseBranch, m =>
      (evaluate fuel condition m).bind fun condition m =>
        if condition.isTruthy then execute fuel thenBranch m
        else
          match elseBranch with
          | none => .ok .normal m
          | some elseBranch => execute fuel elseBranch m
  | fuel + 1, .print value, m =>
      (evaluate fuel value m).bind fun value m =>
        (Outcome.ofExcept value.written m).bind fun text m => print text m
  | _ + 1, .giveBack _ none, m => .ok (.returned .nil) m
  | fuel + 1, .giveBack _ (some value), m =>
      (evaluate fuel value m).bind fun value m => .ok (.returned value) m
  | _ + 1, .declare name none, m => .ok .normal (m.define name.lexeme .nil)
  | fuel + 1, .declare name (some value), m =>
      (evaluate fuel value m).bind fun value m => .ok .normal (m.define name.lexeme value)
  | fuel + 1, .loop condition body, m => repeating fuel condition body m

/-- Execute a statement as long as a condition is true. -/
def repeating : Nat → Expr → Stmt → Machine → Outcome Completion
  | 0, _, _, _ => .outOfFuel
  | fuel + 1, condition, body, m =>
      (evaluate fuel condition m).bind fun value m =>
        if value.isTruthy then
          (execute fuel body m).bind fun completion m =>
            match completion with
            | .normal => repeating fuel condition body m
            | .returned value => .ok (.returned value) m
        else
          .ok .normal m

/-- Execute statements up to the first that returns. -/
def executeAll : Nat → List Stmt → Machine → Outcome Completion
  | 0, _, _ => .outOfFuel
  | _ + 1, [], m => .ok .normal m
  | fuel + 1, s :: ss, m =>
      (execute fuel s m).bind fun completion m =>
        match completion with
        | .normal => executeAll fuel ss m
        | .returned value => .ok (.returned value) m

/-- Execute statements in a scope of their own, and go back to the scope before. -/
def executeIn : Nat → Address → List Stmt → Machine → Outcome Completion
  | 0, _, _, _ => .outOfFuel
  | fuel + 1, scope, body, m =>
      let before := m.scope
      (executeAll fuel body (m.entering scope)).leaving before

end

/-! ### Statements at the top -/

/-- Execute all of the statements, going on after one that returns, and answer how the last one
ended. -/
def executeEachAfter (fuel : Nat) : Completion → List Stmt → Machine → Outcome Completion
  | last, [], m => .ok last m
  | _, s :: ss, m =>
      (execute fuel s m).bind fun completion m => executeEachAfter fuel completion ss m

/-- Execute all of the statements, even after one that returns. -/
def executeEach (fuel : Nat) (program : List Stmt) (m : Machine) : Outcome Completion :=
  executeEachAfter fuel .normal program m

/-- Execute statements in a new scope within the global one. -/
def executeInBlock (fuel : Nat) (body : List Stmt) (m : Machine) : Outcome Completion :=
  executeIn fuel m.heap.next body (m.allocate ⟨[], some globals⟩)

end LoxLang.Machine
