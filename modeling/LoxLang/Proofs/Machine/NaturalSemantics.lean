/-
**The natural semantics of the language.**

What an expression or a statement comes to is said here by rules, without an evaluator and without fuel:
from a state it comes to an ending, which is a value or a failure with the state then.  Where a rule
evaluates several parts, each begins in the state in which the one before it ended, and a part that
fails is the end of the whole, in the state in which it failed.  Something that has no ending by the
rules does not end.

The primitives under the rules are those of single steps: what a name is bound to, the binary and unary
operators on values, the text of a printed value, and whether the output takes it.

* `LoxLang.Ending` — a value or a failure, with the state then;
* `LoxLang.Evaluates`, `LoxLang.EvaluatesAll` — **expressions**, and arguments from left to right;
* `LoxLang.Calls` — **calls** of values with arguments;
* `LoxLang.Executes`, `LoxLang.ExecutesAll` — **statements**, and statements up to the first that
  returns.
-/

import LoxLang.Machine.Basic

set_option relaxedAutoImplicit false
set_option autoImplicit false

namespace LoxLang

/-! ### Endings -/

/-- A value or a failure, and the state in which it came about. -/
inductive Ending (α : Type) where
  | ok (value : α) (machine : Machine)
  | failed (failure : Failure) (machine : Machine)

/-- The ending with a scope current again. -/
def Ending.leaving {α : Type} (scope : Address) : Ending α → Ending α
  | .ok value m => .ok value (m.entering scope)
  | .failed failure m => .failed failure (m.entering scope)

/-- The state in which a new frame is current, in the given scope, that binds nothing else but the names
to the values. -/
def Machine.opening (m : Machine) (names : List String) (values : List Value) (enclosing : Address) :
    Machine :=
  (m.allocate ⟨Bindings.setAll names values [], some enclosing⟩).entering m.heap.next

/-! ### Rules -/

mutual

/-- The expression comes to the ending, begun in the state. -/
inductive Evaluates : Expr → Machine → Ending Value → Prop where
  | literal {value : Literal} {m : Machine} :
      Evaluates (.literal value) m (.ok (Value.ofLiteral value) m)
  | grouping {inner : Expr} {m : Machine} {ending : Ending Value} (h : Evaluates inner m ending) :
      Evaluates (.grouping inner) m ending
  | lookup {name : Token} {m : Machine} {value : Value}
      (h : m.heap.get? m.scope name.lexeme = some value) :
      Evaluates (.lookup name) m (.ok value m)
  | lookupUnbound {name : Token} {m : Machine} (h : m.heap.get? m.scope name.lexeme = none) :
      Evaluates (.lookup name) m (.failed (.error ⟨name, .undefinedVariable⟩) m)
  /-- The value is bound in the nearest frame that binds the name once the right side has come to it. -/
  | assign {name : Token} {right : Expr} {m m' : Machine} {value : Value} {found : Address}
      (h : Evaluates right m (.ok value m'))
      (hfound : m'.heap.find? m'.scope name.lexeme = some found) :
      Evaluates (.assign name right) m
        (.ok value { m' with heap := m'.heap.define found name.lexeme value })
  | assignUnbound {name : Token} {right : Expr} {m m' : Machine} {value : Value}
      (h : Evaluates right m (.ok value m'))
      (hfound : m'.heap.find? m'.scope name.lexeme = none) :
      Evaluates (.assign name right) m (.failed (.error ⟨name, .undefinedVariable⟩) m')
  | assignFails {name : Token} {right : Expr} {m m' : Machine} {failure : Failure}
      (h : Evaluates right m (.failed failure m')) :
      Evaluates (.assign name right) m (.failed failure m')
  /-- The left operand comes before the right one, and both come before the operator. -/
  | binary {left right : Expr} {operator : Token} {m m₁ m₂ : Machine} {x y value : Value}
      (hx : Evaluates left m (.ok x m₁)) (hy : Evaluates right m₁ (.ok y m₂))
      (h : x.binary operator y = .ok value) :
      Evaluates (.binary left operator right) m (.ok value m₂)
  | binaryRefuses {left right : Expr} {operator : Token} {m m₁ m₂ : Machine} {x y : Value}
      {failure : Failure} (hx : Evaluates left m (.ok x m₁)) (hy : Evaluates right m₁ (.ok y m₂))
      (h : x.binary operator y = .error failure) :
      Evaluates (.binary left operator right) m (.failed failure m₂)
  | binaryLeftFails {left right : Expr} {operator : Token} {m m₁ : Machine} {failure : Failure}
      (hx : Evaluates left m (.failed failure m₁)) :
      Evaluates (.binary left operator right) m (.failed failure m₁)
  | binaryRightFails {left right : Expr} {operator : Token} {m m₁ m₂ : Machine} {x : Value}
      {failure : Failure} (hx : Evaluates left m (.ok x m₁))
      (hy : Evaluates right m₁ (.failed failure m₂)) :
      Evaluates (.binary left operator right) m (.failed failure m₂)
  | unary {operator : Token} {right : Expr} {m m' : Machine} {x value : Value}
      (hx : Evaluates right m (.ok x m')) (h : x.unary operator = .ok value) :
      Evaluates (.unary operator right) m (.ok value m')
  | unaryRefuses {operator : Token} {right : Expr} {m m' : Machine} {x : Value} {failure : Failure}
      (hx : Evaluates right m (.ok x m')) (h : x.unary operator = .error failure) :
      Evaluates (.unary operator right) m (.failed failure m')
  | unaryFails {operator : Token} {right : Expr} {m m' : Machine} {failure : Failure}
      (hx : Evaluates right m (.failed failure m')) :
      Evaluates (.unary operator right) m (.failed failure m')
  /-- A disjunction is its left operand if that is true. -/
  | orDecided {left right : Expr} {operator : Token} {m m₁ : Machine} {x : Value}
      (ho : operator.kind = .orWord) (hx : Evaluates left m (.ok x m₁)) (ht : x.isTruthy = true) :
      Evaluates (.logical left operator right) m (.ok x m₁)
  | orUndecided {left right : Expr} {operator : Token} {m m₁ : Machine} {x : Value}
      {ending : Ending Value} (ho : operator.kind = .orWord) (hx : Evaluates left m (.ok x m₁))
      (ht : x.isTruthy = false) (hy : Evaluates right m₁ ending) :
      Evaluates (.logical left operator right) m ending
  /-- A conjunction is its left operand if that is false. -/
  | andDecided {left right : Expr} {operator : Token} {m m₁ : Machine} {x : Value}
      (ho : operator.kind ≠ .orWord) (hx : Evaluates left m (.ok x m₁)) (ht : x.isTruthy = false) :
      Evaluates (.logical left operator right) m (.ok x m₁)
  | andUndecided {left right : Expr} {operator : Token} {m m₁ : Machine} {x : Value}
      {ending : Ending Value} (ho : operator.kind ≠ .orWord) (hx : Evaluates left m (.ok x m₁))
      (ht : x.isTruthy = true) (hy : Evaluates right m₁ ending) :
      Evaluates (.logical left operator right) m ending
  | logicalFails {left right : Expr} {operator : Token} {m m₁ : Machine} {failure : Failure}
      (hx : Evaluates left m (.failed failure m₁)) :
      Evaluates (.logical left operator right) m (.failed failure m₁)
  /-- The callee comes before the arguments, and all of them come before the call. -/
  | call {callee : Expr} {paren : Token} {arguments : List Expr} {m m₁ m₂ : Machine} {c : Value}
      {values : List Value} {ending : Ending Value} (hc : Evaluates callee m (.ok c m₁))
      (ha : EvaluatesAll arguments m₁ (.ok values m₂)) (h : Calls paren c values m₂ ending) :
      Evaluates (.call callee paren arguments) m ending
  | callCalleeFails {callee : Expr} {paren : Token} {arguments : List Expr} {m m₁ : Machine}
      {failure : Failure} (hc : Evaluates callee m (.failed failure m₁)) :
      Evaluates (.call callee paren arguments) m (.failed failure m₁)
  | callArgumentFails {callee : Expr} {paren : Token} {arguments : List Expr} {m m₁ m₂ : Machine}
      {c : Value} {failure : Failure} (hc : Evaluates callee m (.ok c m₁))
      (ha : EvaluatesAll arguments m₁ (.failed failure m₂)) :
      Evaluates (.call callee paren arguments) m (.failed failure m₂)

/-- The expressions come to the ending, one behind the other. -/
inductive EvaluatesAll : List Expr → Machine → Ending (List Value) → Prop where
  | nil {m : Machine} : EvaluatesAll [] m (.ok [] m)
  | cons {e : Expr} {es : List Expr} {m m₁ m₂ : Machine} {value : Value} {values : List Value}
      (h : Evaluates e m (.ok value m₁)) (hs : EvaluatesAll es m₁ (.ok values m₂)) :
      EvaluatesAll (e :: es) m (.ok (value :: values) m₂)
  | headFails {e : Expr} {es : List Expr} {m m₁ : Machine} {failure : Failure}
      (h : Evaluates e m (.failed failure m₁)) : EvaluatesAll (e :: es) m (.failed failure m₁)
  | tailFails {e : Expr} {es : List Expr} {m m₁ m₂ : Machine} {value : Value} {failure : Failure}
      (h : Evaluates e m (.ok value m₁)) (hs : EvaluatesAll es m₁ (.failed failure m₂)) :
      EvaluatesAll (e :: es) m (.failed failure m₂)

/-- The call of the value with the arguments comes to the ending. -/
inductive Calls : Token → Value → List Value → Machine → Ending Value → Prop where
  | notCallable {paren : Token} {callee : Value} {arguments : List Value} {m : Machine}
      (h : callee.isFunction = false) :
      Calls paren callee arguments m (.failed (.error ⟨paren, .notCallable⟩) m)
  | arity {paren : Token} {callee : Value} {arguments : List Value} {m : Machine} {expected : Nat}
      (h : callee.arity = .ok expected) (hne : arguments.length ≠ expected) :
      Calls paren callee arguments m
        (.failed (.error ⟨paren, .arity expected arguments.length⟩) m)
  /-- The body runs in a frame of its own, in the scope of the function, and gives back a value. -/
  | returned {paren : Token} {c : Closure} {arguments : List Value} {m m' : Machine} {value : Value}
      (hn : arguments.length = c.parameters.length)
      (h : ExecutesAll c.body (m.opening (c.parameters.map Token.lexeme) arguments c.scope)
        (.ok (.returned value) m')) :
      Calls paren (.closure c) arguments m (.ok value (m'.entering m.scope))
  | completed {paren : Token} {c : Closure} {arguments : List Value} {m m' : Machine}
      (hn : arguments.length = c.parameters.length)
      (h : ExecutesAll c.body (m.opening (c.parameters.map Token.lexeme) arguments c.scope)
        (.ok .normal m')) :
      Calls paren (.closure c) arguments m (.ok .nil (m'.entering m.scope))
  | bodyFails {paren : Token} {c : Closure} {arguments : List Value} {m m' : Machine}
      {failure : Failure} (hn : arguments.length = c.parameters.length)
      (h : ExecutesAll c.body (m.opening (c.parameters.map Token.lexeme) arguments c.scope)
        (.failed failure m')) :
      Calls paren (.closure c) arguments m (.failed failure (m'.entering m.scope))
  | clock {paren : Token} {m : Machine} :
      Calls paren (.native .clock) [] m
        (.ok (.number (.double (m.clock m.readings))) { m with readings := m.readings + 1 })
  | stub {paren : Token} {f : Stub} {arguments : List Value} {m : Machine}
      (hn : arguments.length = f.arity) : Calls paren (.stub f) arguments m (.ok .nil m)

/-- The statement comes to the ending, begun in the state. -/
inductive Executes : Stmt → Machine → Ending Completion → Prop where
  | expression {e : Expr} {m m' : Machine} {value : Value} (h : Evaluates e m (.ok value m')) :
      Executes (.expression e) m (.ok .normal m')
  | expressionFails {e : Expr} {m m' : Machine} {failure : Failure}
      (h : Evaluates e m (.failed failure m')) :
      Executes (.expression e) m (.failed failure m')
  | print {e : Expr} {m m' : Machine} {value : Value} {text : String}
      (h : Evaluates e m (.ok value m')) (ht : value.written = .ok text)
      (hw : m'.takes text = true) : Executes (.print e) m (.ok .normal (m'.write text))
  /-- The machine breaks down over a text that the output does not take, and nothing is printed. -/
  | printUntaken {e : Expr} {m m' : Machine} {value : Value} {text : String}
      (h : Evaluates e m (.ok value m')) (ht : value.written = .ok text)
      (hw : m'.takes text = false) :
      Executes (.print e) m (.failed (.breakdown .unwritable) m')
  | printRefuses {e : Expr} {m m' : Machine} {value : Value} {failure : Failure}
      (h : Evaluates e m (.ok value m')) (ht : value.written = .error failure) :
      Executes (.print e) m (.failed failure m')
  | printFails {e : Expr} {m m' : Machine} {failure : Failure}
      (h : Evaluates e m (.failed failure m')) : Executes (.print e) m (.failed failure m')
  | declareNil {name : Token} {m : Machine} :
      Executes (.declare name none) m (.ok .normal (m.define name.lexeme .nil))
  /-- The name is bound once the right side has come to its value. -/
  | declare {name : Token} {e : Expr} {m m' : Machine} {value : Value}
      (h : Evaluates e m (.ok value m')) :
      Executes (.declare name (some e)) m (.ok .normal (m'.define name.lexeme value))
  | declareFails {name : Token} {e : Expr} {m m' : Machine} {failure : Failure}
      (h : Evaluates e m (.failed failure m')) :
      Executes (.declare name (some e)) m (.failed failure m')
  /-- The new function keeps the current scope, and has a new identity. -/
  | function {name : Token} {parameters : List Token} {body : List Stmt} {m : Machine} :
      Executes (.function name parameters body) m
        (.ok .normal (Machine.define { m with functions := m.functions + 1 } name.lexeme
          (.closure ⟨name, parameters, body, m.scope, m.functions⟩)))
  /-- However a block ends, the scope before it is current again. -/
  | block {body : List Stmt} {m : Machine} {ending : Ending Completion}
      (h : ExecutesAll body (m.opening [] [] m.scope) ending) :
      Executes (.block body) m (ending.leaving m.scope)
  | branchThen {condition : Expr} {thenBranch : Stmt} {elseBranch : Option Stmt} {m m' : Machine}
      {value : Value} {ending : Ending Completion} (hc : Evaluates condition m (.ok value m'))
      (ht : value.isTruthy = true) (h : Executes thenBranch m' ending) :
      Executes (.branch condition thenBranch elseBranch) m ending
  | branchElse {condition : Expr} {thenBranch elseBranch : Stmt} {m m' : Machine} {value : Value}
      {ending : Ending Completion} (hc : Evaluates condition m (.ok value m'))
      (ht : value.isTruthy = false) (h : Executes elseBranch m' ending) :
      Executes (.branch condition thenBranch (some elseBranch)) m ending
  | branchSkipped {condition : Expr} {thenBranch : Stmt} {m m' : Machine} {value : Value}
      (hc : Evaluates condition m (.ok value m')) (ht : value.isTruthy = false) :
      Executes (.branch condition thenBranch none) m (.ok .normal m')
  | branchFails {condition : Expr} {thenBranch : Stmt} {elseBranch : Option Stmt} {m m' : Machine}
      {failure : Failure} (hc : Evaluates condition m (.failed failure m')) :
      Executes (.branch condition thenBranch elseBranch) m (.failed failure m')
  | returnNil {keyword : Token} {m : Machine} :
      Executes (.giveBack keyword none) m (.ok (.returned .nil) m)
  | returnValue {keyword : Token} {e : Expr} {m m' : Machine} {value : Value}
      (h : Evaluates e m (.ok value m')) :
      Executes (.giveBack keyword (some e)) m (.ok (.returned value) m')
  | returnFails {keyword : Token} {e : Expr} {m m' : Machine} {failure : Failure}
      (h : Evaluates e m (.failed failure m')) :
      Executes (.giveBack keyword (some e)) m (.failed failure m')
  | loopEnds {condition : Expr} {body : Stmt} {m m' : Machine} {value : Value}
      (hc : Evaluates condition m (.ok value m')) (ht : value.isTruthy = false) :
      Executes (.loop condition body) m (.ok .normal m')
  | loopAgain {condition : Expr} {body : Stmt} {m m₁ m₂ : Machine} {value : Value}
      {ending : Ending Completion} (hc : Evaluates condition m (.ok value m₁))
      (ht : value.isTruthy = true) (hb : Executes body m₁ (.ok .normal m₂))
      (h : Executes (.loop condition body) m₂ ending) :
      Executes (.loop condition body) m ending
  /-- A return leaves the loop at once. -/
  | loopReturns {condition : Expr} {body : Stmt} {m m₁ m₂ : Machine} {value result : Value}
      (hc : Evaluates condition m (.ok value m₁)) (ht : value.isTruthy = true)
      (hb : Executes body m₁ (.ok (.returned result) m₂)) :
      Executes (.loop condition body) m (.ok (.returned result) m₂)
  | loopBodyFails {condition : Expr} {body : Stmt} {m m₁ m₂ : Machine} {value : Value}
      {failure : Failure} (hc : Evaluates condition m (.ok value m₁)) (ht : value.isTruthy = true)
      (hb : Executes body m₁ (.failed failure m₂)) :
      Executes (.loop condition body) m (.failed failure m₂)
  | loopConditionFails {condition : Expr} {body : Stmt} {m m' : Machine} {failure : Failure}
      (hc : Evaluates condition m (.failed failure m')) :
      Executes (.loop condition body) m (.failed failure m')

/-- The statements come to the ending, up to the first that returns. -/
inductive ExecutesAll : List Stmt → Machine → Ending Completion → Prop where
  | nil {m : Machine} : ExecutesAll [] m (.ok .normal m)
  | cons {s : Stmt} {ss : List Stmt} {m m' : Machine} {ending : Ending Completion}
      (h : Executes s m (.ok .normal m')) (hs : ExecutesAll ss m' ending) :
      ExecutesAll (s :: ss) m ending
  /-- The statements behind a return stay unexecuted. -/
  | returns {s : Stmt} {ss : List Stmt} {m m' : Machine} {value : Value}
      (h : Executes s m (.ok (.returned value) m')) :
      ExecutesAll (s :: ss) m (.ok (.returned value) m')
  | fails {s : Stmt} {ss : List Stmt} {m m' : Machine} {failure : Failure}
      (h : Executes s m (.failed failure m')) : ExecutesAll (s :: ss) m (.failed failure m')

end

end LoxLang
