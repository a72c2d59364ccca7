/-
**Running does not look at lines.**

The lines of tokens reach the reports of errors only.  So a statement with its lines changed, run in a
state whose functions have their lines changed likewise, ends the same way, up to this change, and
prints the same.

* `LoxLang.Value.relabel`, `LoxLang.Heap.relabel`, `LoxLang.Machine.relabel` — the change of lines in
  values and states, which reaches the declarations of functions;
* `LoxLang.Outcome.relabel` — the change in what a run comes to;
* `LoxLang.Heap.find?_relabel`, `LoxLang.Value.binary_relabel` — names and operators;
* `LoxLang.Machine.execute_relabel`, `LoxLang.Machine.executeEach_relabel` — **runs with their lines
  changed**;
* `LoxLang.Machine.Alike` — states that differ in the lines of functions only.
-/

import LoxLang.Machine.Evaluation
import LoxLang.Proofs.Syntax.Relabel
import LoxLang.Proofs.Value.Results

set_option relaxedAutoImplicit false
set_option autoImplicit false

namespace LoxLang

variable (f : Int → Int)

/-! ### Values and states on other lines -/

/-- The function with the lines in its declaration changed. -/
def Closure.relabel (c : Closure) : Closure :=
  { c with
    name := c.name.relabel f
    parameters := c.parameters.map (Token.relabel f)
    body := Stmt.relabelAll f c.body }

/-- The value with the lines in the declaration changed, if it is a function. -/
def Value.relabel : Value → Value
  | .closure c => .closure (c.relabel f)
  | value => value

/-- The bindings with the lines in all values changed. -/
def Bindings.relabel (bindings : Bindings) : Bindings :=
  bindings.map fun binding => (binding.1, binding.2.relabel f)

/-- The frame with the lines in all values changed. -/
def Frame.relabel (frame : Frame) : Frame := { frame with bindings := frame.bindings.relabel f }

/-- The heap with the lines in all values changed. -/
def Heap.relabel (heap : Heap) : Heap := ⟨heap.frames.map (Frame.relabel f)⟩

/-- The state with the lines in all values changed. -/
def Machine.relabel (m : Machine) : Machine := { m with heap := m.heap.relabel f }

/-- The error at its token on another line. -/
def RuntimeError.relabel (error : RuntimeError) : RuntimeError :=
  { error with token := error.token.relabel f }

/-- The failure with its line changed. -/
def Failure.relabel : Failure → Failure
  | .error found => .error (found.relabel f)
  | .breakdown problem => .breakdown problem

/-- The completion with the lines in its value changed. -/
def Completion.relabel : Completion → Completion
  | .normal => .normal
  | .returned value => .returned (value.relabel f)

/-- What a run comes to, with a change of what it answers and the lines changed in the rest. -/
def Outcome.relabel {α : Type} (change : α → α) : Outcome α → Outcome α
  | .ok value m => .ok (change value) (m.relabel f)
  | .failed failure m => .failed (failure.relabel f) (m.relabel f)
  | .outOfFuel => .outOfFuel

/-- The result of an operation that leaves the state alone, with its lines changed. -/
def Failure.relabelIn {α : Type} (change : α → α) (result : Except Failure α) :
    Except Failure α :=
  match result with
  | .ok value => .ok (change value)
  | .error failure => .error (failure.relabel f)

/-! ### Values -/

namespace Value

@[simp] theorem isTruthy_relabel (value : Value) : (value.relabel f).isTruthy = value.isTruthy := by
  cases value <;> rfl

@[simp] theorem isNumber_relabel (value : Value) : (value.relabel f).isNumber = value.isNumber := by
  cases value <;> rfl

@[simp] theorem isZero_relabel (value : Value) : (value.relabel f).isZero = value.isZero := by
  cases value <;> rfl

@[simp] theorem isFunction_relabel (value : Value) :
    (value.relabel f).isFunction = value.isFunction := by
  cases value <;> rfl

@[simp] theorem arity_relabel (value : Value) : (value.relabel f).arity = value.arity := by
  cases value with
  | closure c => simp only [relabel, Closure.relabel, arity, List.length_map]
  | _ => rfl

/-- Functions are told apart by their number, not by their declaration. -/
@[simp] theorem same_relabel (left right : Value) :
    (left.relabel f).same (right.relabel f) = left.same right := by
  cases left <;> cases right <;> rfl

/-- A function is printed with its name, which has no line. -/
@[simp] theorem print?_relabel (value : Value) : (value.relabel f).print? = value.print? := by
  cases value <;> rfl

/-- Only functions have lines. -/
theorem relabel_of_isData {value : Value} (h : value.isData = true) : value.relabel f = value := by
  cases value with
  | closure c => simp [isData] at h
  | _ => rfl

end Value

namespace Value

/-- An operation on numbers answers a value without lines, or fails at its operator. -/
theorem checked_relabel {operator : Token} {result : Except Breakdown Value}
    (h : ∀ value, result = .ok value → value.isData = true) :
    checked (operator.relabel f) result =
      Failure.relabelIn f (Value.relabel f) (checked operator result) := by
  rcases result with problem | value
  · cases problem with
    | arithmetic fault => cases fault <;> rfl
    | _ => rfl
  · simp only [checked, Failure.relabelIn, relabel_of_isData f (h value rfl)]

/-- Numbers have no lines, and nothing but numbers is worked on. -/
theorem onNumbers_relabel (operation : Number → Number → Except ArithmeticFault Value)
    (left right : Value) :
    onNumbers operation (left.relabel f) (right.relabel f) = onNumbers operation left right := by
  cases left <;> cases right <;> rfl

/-- An operator on two numbers fails at its token, on its other line. -/
theorem numeric_relabel {operation : Number → Number → Except ArithmeticFault Value}
    (h : AnswersData operation) (operator : Token) (left right : Value) :
    numeric operation (operator.relabel f) (left.relabel f) (right.relabel f) =
      Failure.relabelIn f (Value.relabel f) (numeric operation operator left right) := by
  unfold numeric
  rw [isNumber_relabel, isNumber_relabel, onNumbers_relabel,
    checked_relabel f fun value hv => isData_onNumbers h hv]
  split <;> rfl

theorem add_relabel (operator : Token) (left right : Value) :
    add (operator.relabel f) (left.relabel f) (right.relabel f) =
      Failure.relabelIn f (Value.relabel f) (add operator left right) := by
  unfold add
  rw [isNumber_relabel, isNumber_relabel, onNumbers_relabel,
    checked_relabel f fun value hv => isData_onNumbers (answersData_ofArithmetic _) hv]
  split
  · rfl
  · cases left <;> cases right <;> rfl

/-- A zero divisor is found on any line. -/
theorem divide_relabel (operator : Token) (left right : Value) :
    divide (operator.relabel f) (left.relabel f) (right.relabel f) =
      Failure.relabelIn f (Value.relabel f) (divide operator left right) := by
  unfold divide
  rw [isNumber_relabel, isNumber_relabel, isZero_relabel, onNumbers_relabel,
    checked_relabel f fun value hv => isData_onNumbers (answersData_ofArithmetic _) hv]
  split
  · split <;> rfl
  · rfl

/-- **A binary operator does not look at lines.** -/
theorem binary_relabel (operator : Token) (left right : Value) :
    (left.relabel f).binary (operator.relabel f) (right.relabel f) =
      Failure.relabelIn f (Value.relabel f) (left.binary operator right) := by
  unfold binary
  rw [Token.relabel_kind]
  split
  · exact add_relabel f operator left right
  · exact numeric_relabel f (answersData_ofArithmetic _) operator left right
  · exact numeric_relabel f (answersData_ofArithmetic _) operator left right
  · exact divide_relabel f operator left right
  · rw [same_relabel]
    rfl
  · rw [same_relabel]
    rfl
  · exact numeric_relabel f (answersData_ofTest _) operator left right
  · exact numeric_relabel f (answersData_ofTest _) operator left right
  · exact numeric_relabel f (answersData_ofTest _) operator left right
  · exact numeric_relabel f (answersData_ofTest _) operator left right
  · rfl

/-- **A unary operator does not look at lines.** -/
theorem unary_relabel (operator : Token) (right : Value) :
    (right.relabel f).unary (operator.relabel f) =
      Failure.relabelIn f (Value.relabel f) (right.unary operator) := by
  unfold unary
  rw [Token.relabel_kind]
  split
  · unfold negate
    have hopposite : (right.relabel f).opposite = right.opposite := by cases right <;> rfl
    rw [isNumber_relabel, hopposite, checked_relabel f fun value hv => isData_opposite hv]
    split <;> rfl
  · rw [isTruthy_relabel]
    rfl
  · rfl

/-- The check of a call does not look at lines. -/
theorem checkCall_relabel (paren : Token) (callee : Value) (actual : Nat) :
    (callee.relabel f).checkCall (paren.relabel f) actual =
      Failure.relabelIn f id (callee.checkCall paren actual) := by
  unfold checkCall
  rw [isFunction_relabel, arity_relabel]
  split
  · cases callee.arity with
    | error problem => rfl
    | ok expected =>
        dsimp only
        split <;> rfl
  · rfl

/-- The text that is printed for a value does not depend on lines. -/
theorem written_relabel (value : Value) :
    (value.relabel f).written = Failure.relabelIn f id value.written := by
  unfold written
  rw [print?_relabel]
  cases value.print? <;> rfl

end Value

/-! ### Bindings and the heap -/

namespace Bindings

@[simp] theorem names_relabel (bindings : Bindings) :
    (bindings.relabel f).names = bindings.names := by
  unfold relabel names
  rw [List.map_map]
  rfl

@[simp] theorem lookup?_relabel (name : String) (bindings : Bindings) :
    (bindings.relabel f).lookup? name = (bindings.lookup? name).map (Value.relabel f) := by
  induction bindings with
  | nil => rfl
  | cons binding others ih =>
      unfold relabel at ih ⊢
      simp only [List.map_cons, lookup?, ih]
      split <;> rfl

@[simp] theorem binds_relabel (name : String) (bindings : Bindings) :
    (bindings.relabel f).binds name = bindings.binds name := by
  unfold binds
  rw [lookup?_relabel, Option.isSome_map]

theorem set_relabel (name : String) (value : Value) (bindings : Bindings) :
    (bindings.set name value).relabel f = (bindings.relabel f).set name (value.relabel f) := by
  induction bindings with
  | nil => rfl
  | cons binding others ih =>
      unfold relabel at ih ⊢
      simp only [set, List.map_cons]
      split
      · rfl
      · rw [List.map_cons, ih]

theorem setAll_relabel (names : List String) (values : List Value) (bindings : Bindings) :
    (bindings.setAll names values).relabel f =
      (bindings.relabel f).setAll names (values.map (Value.relabel f)) := by
  induction names generalizing values bindings with
  | nil => rfl
  | cons name names ih =>
      cases values with
      | nil => rfl
      | cons value values =>
          unfold setAll at ih ⊢
          rw [List.map_cons, List.zip_cons_cons, List.zip_cons_cons, List.foldl_cons,
            List.foldl_cons, ih, set_relabel]

end Bindings

namespace Heap

@[simp] theorem next_relabel (heap : Heap) : (heap.relabel f).next = heap.next := by
  unfold relabel next
  rw [Array.size_map]

@[simp] theorem frame?_relabel (heap : Heap) (scope : Address) :
    (heap.relabel f).frame? scope = (heap.frame? scope).map (Frame.relabel f) := by
  unfold relabel frame?
  rw [Array.getElem?_map]

/-- The frames around are those that they were, since only values have lines. -/
theorem chainFrom_relabel (heap : Heap) (more : Nat) (scope : Address) :
    (heap.relabel f).chainFrom more scope = heap.chainFrom more scope := by
  induction more generalizing scope with
  | zero => rfl
  | succ more ih =>
      simp only [chainFrom, frame?_relabel]
      cases heap.frame? scope with
      | none => rfl
      | some frame =>
          simp only [Option.map_some, Frame.relabel]
          cases frame.enclosing with
          | none => rfl
          | some outer => exact congrArg (scope :: ·) (ih outer)

@[simp] theorem chain_relabel (heap : Heap) (scope : Address) :
    (heap.relabel f).chain scope = heap.chain scope :=
  chainFrom_relabel f heap _ scope

@[simp] theorem binds_relabel (heap : Heap) (name : String) (scope : Address) :
    (heap.relabel f).binds name scope = heap.binds name scope := by
  unfold binds
  rw [frame?_relabel]
  cases heap.frame? scope with
  | none => rfl
  | some frame => exact Bindings.binds_relabel f name frame.bindings

/-- **Names are found in the same frames.** -/
@[simp] theorem find?_relabel (heap : Heap) (scope : Address) (name : String) :
    (heap.relabel f).find? scope name = heap.find? scope name := by
  have hbinds : (heap.relabel f).binds name = heap.binds name :=
    funext fun scope => binds_relabel f heap name scope
  unfold find?
  rw [chain_relabel, hbinds]

theorem own?_relabel (heap : Heap) (scope : Address) (name : String) :
    (heap.relabel f).own? scope name = (heap.own? scope name).map (Value.relabel f) := by
  unfold own?
  rw [frame?_relabel]
  cases heap.frame? scope with
  | none => rfl
  | some frame => exact Bindings.lookup?_relabel f name frame.bindings

theorem get?_relabel (heap : Heap) (scope : Address) (name : String) :
    (heap.relabel f).get? scope name = (heap.get? scope name).map (Value.relabel f) := by
  unfold get?
  rw [find?_relabel]
  cases heap.find? scope name with
  | none => rfl
  | some found => exact own?_relabel f heap found name

theorem allocate_relabel (heap : Heap) (frame : Frame) :
    (heap.allocate frame).relabel f = (heap.relabel f).allocate (frame.relabel f) := by
  unfold allocate relabel
  rw [Array.map_push]

theorem define_relabel (heap : Heap) (scope : Address) (name : String) (value : Value) :
    (heap.define scope name value).relabel f =
      (heap.relabel f).define scope name (value.relabel f) := by
  unfold define relabel
  refine congrArg Heap.mk (Array.ext_getElem? fun i => ?_)
  rw [Array.getElem?_map, Array.getElem?_modify, Array.getElem?_modify, Array.getElem?_map]
  split
  · cases heap.frames[i]? with
    | none => rfl
    | some frame => simp only [Option.map_some, Frame.relabel, Bindings.set_relabel]
  · rfl

end Heap

/-! ### Going on -/

namespace Outcome

variable {α β : Type}

/-- A run and what goes on after it change together. -/
theorem bind_relabel {change : α → α} {change' : β → β} (outcome : Outcome α)
    {next next' : α → Machine → Outcome β}
    (h : ∀ value m, next' (change value) (m.relabel f) = (next value m).relabel f change') :
    (outcome.relabel f change).bind next' = (outcome.bind next).relabel f change' := by
  cases outcome with
  | ok value m => exact h value m
  | failed failure m => rfl
  | outOfFuel => rfl

theorem leaving_relabel {change : α → α} (scope : Address) (outcome : Outcome α) :
    (outcome.relabel f change).leaving scope = (outcome.leaving scope).relabel f change := by
  cases outcome <;> rfl

/-- An operation that leaves the state alone changes in its result only. -/
theorem ofExcept_relabel (change : α → α) (result : Except Failure α) (m : Machine) :
    Outcome.ofExcept (Failure.relabelIn f change result) (m.relabel f) =
      (Outcome.ofExcept result m).relabel f change := by
  cases result <;> rfl

end Outcome

/-! ### Running -/

namespace Machine

/-- A name without a value is reported at its token, on its other line. -/
theorem lookup_relabel (name : Token) (m : Machine) :
    lookup (name.relabel f) (m.relabel f) = (lookup name m).relabel f (Value.relabel f) := by
  have hget : (m.relabel f).heap.get? (m.relabel f).scope (name.relabel f).lexeme =
      (m.heap.get? m.scope name.lexeme).map (Value.relabel f) :=
    Heap.get?_relabel f m.heap m.scope name.lexeme
  unfold lookup
  rw [hget]
  cases m.heap.get? m.scope name.lexeme <;> rfl

theorem define_relabel (name : String) (value : Value) (m : Machine) :
    (m.relabel f).define name (value.relabel f) = (m.define name value).relabel f := by
  unfold define relabel
  dsimp only
  rw [Heap.define_relabel]

/-- An assignment goes to the same frame. -/
theorem assign_relabel (name : Token) (value : Value) (m : Machine) :
    assign (name.relabel f) (value.relabel f) (m.relabel f) =
      (assign name value m).relabel f (Value.relabel f) := by
  have hfind : (m.relabel f).heap.find? (m.relabel f).scope (name.relabel f).lexeme =
      m.heap.find? m.scope name.lexeme := Heap.find?_relabel f m.heap m.scope name.lexeme
  rw [assign_eq, assign_eq, hfind]
  cases m.heap.find? m.scope name.lexeme with
  | none => rfl
  | some found =>
      unfold Outcome.relabel relabel
      dsimp only
      rw [Heap.define_relabel]
      rfl

/-- The output takes the same texts. -/
theorem print_relabel (text : String) (m : Machine) :
    print text (m.relabel f) = (print text m).relabel f (Completion.relabel f) := by
  have htakes : (m.relabel f).takes = m.takes := rfl
  unfold print
  rw [htakes]
  split <;> rfl

theorem allocate_relabel (m : Machine) (frame : Frame) :
    (m.relabel f).allocate (frame.relabel f) = (m.allocate frame).relabel f := by
  unfold allocate relabel
  dsimp only
  rw [Heap.allocate_relabel]

/-- A function is made of the declaration on other lines, with the same number. -/
theorem makeFunction_relabel (name : Token) (parameters : List Token) (body : List Stmt)
    (m : Machine) :
    makeFunction (name.relabel f) (parameters.map (Token.relabel f)) (Stmt.relabelAll f body)
        (m.relabel f) = (makeFunction name parameters body m).relabel f :=
  define_relabel f name.lexeme (.closure ⟨name, parameters, body, m.scope, m.functions⟩)
    { m with functions := m.functions + 1 }

/-- A call starts with the same names, bound to values on other lines. -/
theorem callFrame_relabel (c : Closure) (arguments : List Value) :
    callFrame (c.relabel f) (arguments.map (Value.relabel f)) =
      (callFrame c arguments).relabel f := by
  have hnames : (c.relabel f).parameters.map Token.lexeme = c.parameters.map Token.lexeme := by
    unfold Closure.relabel
    rw [List.map_map]
    rfl
  unfold callFrame Frame.relabel
  rw [hnames, Bindings.setAll_relabel]
  rfl

/-- Running with so much fuel is the same up to lines, whatever is run.  The induction on the fuel
goes through all parts of a program at once. -/
structure Blind (fuel : Nat) : Prop where
  evaluate : ∀ e m, Machine.evaluate fuel (e.relabel f) (m.relabel f) =
    (Machine.evaluate fuel e m).relabel f (Value.relabel f)
  evaluateAll : ∀ es m, Machine.evaluateAll fuel (Expr.relabelAll f es) (m.relabel f) =
    (Machine.evaluateAll fuel es m).relabel f (List.map (Value.relabel f))
  apply : ∀ paren callee arguments m,
    Machine.apply fuel (paren.relabel f) (callee.relabel f) (arguments.map (Value.relabel f))
        (m.relabel f) =
      (Machine.apply fuel paren callee arguments m).relabel f (Value.relabel f)
  invoke : ∀ c arguments m,
    Machine.invoke fuel (c.relabel f) (arguments.map (Value.relabel f)) (m.relabel f) =
      (Machine.invoke fuel c arguments m).relabel f (Value.relabel f)
  execute : ∀ s m, Machine.execute fuel (s.relabel f) (m.relabel f) =
    (Machine.execute fuel s m).relabel f (Completion.relabel f)
  repeating : ∀ condition body m,
    Machine.repeating fuel (condition.relabel f) (body.relabel f) (m.relabel f) =
      (Machine.repeating fuel condition body m).relabel f (Completion.relabel f)
  executeAll : ∀ ss m, Machine.executeAll fuel (Stmt.relabelAll f ss) (m.relabel f) =
    (Machine.executeAll fuel ss m).relabel f (Completion.relabel f)
  executeIn : ∀ scope body m,
    Machine.executeIn fuel scope (Stmt.relabelAll f body) (m.relabel f) =
      (Machine.executeIn fuel scope body m).relabel f (Completion.relabel f)

variable {f} {fuel : Nat}

/-- One step of an expression: the line of its token goes to the reports only. -/
theorem Blind.evaluate_succ (h : Blind f fuel) (e : Expr) (m : Machine) :
    Machine.evaluate (fuel + 1) (e.relabel f) (m.relabel f) =
      (Machine.evaluate (fuel + 1) e m).relabel f (Value.relabel f) := by
  cases e with
  | assign name value =>
      simp only [Expr.relabel, Machine.evaluate, h.evaluate]
      exact Outcome.bind_relabel f _ fun value m => assign_relabel f name value m
  | binary left operator right =>
      simp only [Expr.relabel, Machine.evaluate, h.evaluate]
      refine Outcome.bind_relabel f _ fun x m => ?_
      simp only [h.evaluate]
      refine Outcome.bind_relabel f _ fun y m => ?_
      rw [Value.binary_relabel, Outcome.ofExcept_relabel]
  | call callee paren arguments =>
      simp only [Expr.relabel, Machine.evaluate, h.evaluate]
      refine Outcome.bind_relabel f _ fun c m => ?_
      simp only [h.evaluateAll]
      exact Outcome.bind_relabel f _ fun values m => h.apply paren c values m
  | grouping inner =>
      simp only [Expr.relabel, Machine.evaluate, h.evaluate]
  | literal value =>
      cases value <;> rfl
  | logical left operator right =>
      simp only [Expr.relabel, Machine.evaluate, h.evaluate]
      refine Outcome.bind_relabel f _ fun x m => ?_
      have hdecides : decides (operator.relabel f) (x.relabel f) = decides operator x := by
        unfold decides
        rw [Token.relabel_kind, Value.isTruthy_relabel]
      rw [hdecides, h.evaluate]
      split <;> rfl
  | unary operator right =>
      simp only [Expr.relabel, Machine.evaluate, h.evaluate]
      refine Outcome.bind_relabel f _ fun x m => ?_
      rw [Value.unary_relabel, Outcome.ofExcept_relabel]
  | lookup name => exact lookup_relabel f name m

theorem Blind.evaluateAll_succ (h : Blind f fuel) (es : List Expr) (m : Machine) :
    Machine.evaluateAll (fuel + 1) (Expr.relabelAll f es) (m.relabel f) =
      (Machine.evaluateAll (fuel + 1) es m).relabel f (List.map (Value.relabel f)) := by
  cases es with
  | nil => rfl
  | cons e es =>
      simp only [Expr.relabelAll, Machine.evaluateAll, h.evaluate]
      refine Outcome.bind_relabel f _ fun x m => ?_
      simp only [h.evaluateAll]
      exact Outcome.bind_relabel f _ fun values m => rfl

/-- A call is checked by kinds and numbers of arguments, and reported at its parenthesis. -/
theorem Blind.apply_succ (h : Blind f fuel) (paren : Token) (callee : Value)
    (arguments : List Value) (m : Machine) :
    Machine.apply (fuel + 1) (paren.relabel f) (callee.relabel f)
        (arguments.map (Value.relabel f)) (m.relabel f) =
      (Machine.apply (fuel + 1) paren callee arguments m).relabel f (Value.relabel f) := by
  simp only [Machine.apply, List.length_map, Value.checkCall_relabel, Outcome.ofExcept_relabel]
  refine Outcome.bind_relabel f _ fun _ m => ?_
  cases callee with
  | closure c => exact h.invoke c arguments m
  | native native =>
      cases native
      cases arguments <;> rfl
  | _ => rfl

/-- The body that is run is the one of the function, on other lines. -/
theorem Blind.invoke_succ (h : Blind f fuel) (c : Closure) (arguments : List Value) (m : Machine) :
    Machine.invoke (fuel + 1) (c.relabel f) (arguments.map (Value.relabel f)) (m.relabel f) =
      (Machine.invoke (fuel + 1) c arguments m).relabel f (Value.relabel f) := by
  have hnext : (m.relabel f).heap.next = m.heap.next := Heap.next_relabel f m.heap
  have hbody : (c.relabel f).body = Stmt.relabelAll f c.body := rfl
  simp only [Machine.invoke, Outcome.map, hnext, hbody, callFrame_relabel, allocate_relabel,
    h.executeIn]
  refine Outcome.bind_relabel f _ fun completion m => ?_
  cases completion <;> rfl

/-- One step of a statement: what it branches on and what it prints have no lines. -/
theorem Blind.execute_succ (h : Blind f fuel) (s : Stmt) (m : Machine) :
    Machine.execute (fuel + 1) (s.relabel f) (m.relabel f) =
      (Machine.execute (fuel + 1) s m).relabel f (Completion.relabel f) := by
  cases s with
  | block body =>
      have hnext : (m.relabel f).heap.next = m.heap.next := Heap.next_relabel f m.heap
      have hframe : (m.relabel f).blockFrame = m.blockFrame.relabel f := rfl
      simp only [Stmt.relabel, Machine.execute, hnext, hframe, allocate_relabel, h.executeIn]
  | expression value =>
      simp only [Stmt.relabel, Machine.execute, h.evaluate]
      exact Outcome.bind_relabel f _ fun _ m => rfl
  | function name parameters body =>
      simp only [Stmt.relabel, Machine.execute, makeFunction_relabel]
      rfl
  | branch condition thenBranch elseBranch =>
      cases elseBranch with
      | none =>
          simp only [Stmt.relabel, Machine.execute, h.evaluate]
          refine Outcome.bind_relabel f _ fun value m => ?_
          rw [Value.isTruthy_relabel, h.execute]
          split <;> rfl
      | some elseBranch =>
          simp only [Stmt.relabel, Machine.execute, h.evaluate]
          refine Outcome.bind_relabel f _ fun value m => ?_
          rw [Value.isTruthy_relabel, h.execute, h.execute]
          split <;> rfl
  | print value =>
      simp only [Stmt.relabel, Machine.execute, h.evaluate]
      refine Outcome.bind_relabel f _ fun value m => ?_
      rw [Value.written_relabel, Outcome.ofExcept_relabel]
      exact Outcome.bind_relabel f _ fun text m => print_relabel f text m
  | giveBack keyword value =>
      cases value with
      | none => rfl
      | some value =>
          simp only [Stmt.relabel, Option.map_some, Machine.execute, h.evaluate]
          exact Outcome.bind_relabel f _ fun value m => rfl
  | declare name initializer =>
      cases initializer with
      | none =>
          simp only [Stmt.relabel, Option.map_none, Machine.execute]
          exact congrArg _ (define_relabel f name.lexeme .nil m)
      | some value =>
          simp only [Stmt.relabel, Option.map_some, Machine.execute, h.evaluate]
          refine Outcome.bind_relabel f _ fun value m => ?_
          exact congrArg _ (define_relabel f name.lexeme value m)
  | loop condition body =>
      simp only [Stmt.relabel, Machine.execute, h.repeating]

theorem Blind.repeating_succ (h : Blind f fuel) (condition : Expr) (body : Stmt) (m : Machine) :
    Machine.repeating (fuel + 1) (condition.relabel f) (body.relabel f) (m.relabel f) =
      (Machine.repeating (fuel + 1) condition body m).relabel f (Completion.relabel f) := by
  simp only [Machine.repeating, h.evaluate]
  refine Outcome.bind_relabel f _ fun value m => ?_
  rw [Value.isTruthy_relabel, h.execute]
  split
  · refine Outcome.bind_relabel f _ fun completion m => ?_
    cases completion with
    | normal => exact h.repeating condition body m
    | returned value => rfl
  · rfl

theorem Blind.executeAll_succ (h : Blind f fuel) (ss : List Stmt) (m : Machine) :
    Machine.executeAll (fuel + 1) (Stmt.relabelAll f ss) (m.relabel f) =
      (Machine.executeAll (fuel + 1) ss m).relabel f (Completion.relabel f) := by
  cases ss with
  | nil => rfl
  | cons s ss =>
      simp only [Stmt.relabelAll, Machine.executeAll, h.execute]
      refine Outcome.bind_relabel f _ fun completion m => ?_
      cases completion with
      | normal => exact h.executeAll ss m
      | returned value => rfl

/-- A body is run in the same frame, and the frame before is taken up again. -/
theorem Blind.executeIn_succ (h : Blind f fuel) (scope : Address) (body : List Stmt) (m : Machine) :
    Machine.executeIn (fuel + 1) scope (Stmt.relabelAll f body) (m.relabel f) =
      (Machine.executeIn (fuel + 1) scope body m).relabel f (Completion.relabel f) := by
  have hentering : (m.relabel f).entering scope = (m.entering scope).relabel f := rfl
  simp only [Machine.executeIn, hentering, h.executeAll, Outcome.leaving_relabel]
  rfl

variable (f)

/-- **Running does not look at lines.** -/
theorem blind (fuel : Nat) : Blind f fuel := by
  induction fuel with
  | zero =>
      constructor
      all_goals intros; rfl
  | succ fuel ih =>
      exact ⟨ih.evaluate_succ, ih.evaluateAll_succ, ih.apply_succ, ih.invoke_succ,
        ih.execute_succ, ih.repeating_succ, ih.executeAll_succ, ih.executeIn_succ⟩

/-- The statements at the top run one behind the other, with what the last one came to. -/
theorem executeEachAfter_relabel (fuel : Nat) (last : Completion) (program : List Stmt)
    (m : Machine) :
    executeEachAfter fuel (last.relabel f) (Stmt.relabelAll f program) (m.relabel f) =
      (executeEachAfter fuel last program m).relabel f (Completion.relabel f) := by
  induction program generalizing last m with
  | nil => rfl
  | cons s ss ih =>
      simp only [Stmt.relabelAll, executeEachAfter, (blind f fuel).execute]
      exact Outcome.bind_relabel f _ fun completion m => ih completion m

/-- **A program on other lines runs the same**, up to the lines. -/
theorem executeEach_relabel (fuel : Nat) (program : List Stmt) (m : Machine) :
    executeEach fuel (Stmt.relabelAll f program) (m.relabel f) =
      (executeEach fuel program m).relabel f (Completion.relabel f) :=
  executeEachAfter_relabel f fuel .normal program m

/-! ### States that differ in lines -/

/-- The states differ in the lines of functions only. -/
def Alike (m m' : Machine) : Prop := m.relabel (fun _ => 0) = m'.relabel (fun _ => 0)

theorem Alike.trans {m₁ m₂ m₃ : Machine} (h : m₁.Alike m₂) (h' : m₂.Alike m₃) : m₁.Alike m₃ :=
  Eq.trans h h'

/-- States that differ in lines have printed the same. -/
theorem Alike.printed {m m' : Machine} (h : m.Alike m') : m.printed = m'.printed := by
  have hprinted := congrArg Machine.printed h
  exact hprinted

/-- **A program on other lines, run in the same state, ends in a state that differs in lines.** -/
theorem executeEach_alike {fuel : Nat} {program : List Stmt} {m after : Machine} {last : Completion}
    (h : executeEach fuel program m = .ok last after) :
    ∃ last' after', executeEach fuel (Stmt.relabelAll f program) m = .ok last' after' ∧
      after'.Alike after := by
  have hlines : executeEach fuel (Stmt.relabelAll (fun _ => 0) (Stmt.relabelAll f program))
      (m.relabel fun _ => 0) = executeEach fuel (Stmt.relabelAll (fun _ => 0) program)
      (m.relabel fun _ => 0) := by
    rw [Stmt.relabelAll_relabelAll]
    rfl
  rw [executeEach_relabel, executeEach_relabel, h] at hlines
  cases ho : executeEach fuel (Stmt.relabelAll f program) m with
  | ok last' after' =>
      rw [ho] at hlines
      simp only [Outcome.relabel, Outcome.ok.injEq] at hlines
      exact ⟨last', after', rfl, hlines.2⟩
  | failed failure after' =>
      rw [ho] at hlines
      cases hlines
  | outOfFuel =>
      rw [ho] at hlines
      cases hlines

end Machine

end LoxLang
