/-
The machine that runs programs.

Its state is a heap, the scope that is current, what was printed, and two counters: how many
functions were made, which gives each of them an identity, and how often the clock was read.  The
readings of the clock are given in advance, and so is which texts the output takes: the encoding of an
output need not have all characters.

Running something ends with a value or with a failure, and in both cases with the state then; or the
fuel does not suffice.

Main definitions:

* `LoxLang.Machine` — the state;
* `LoxLang.Outcome` — how running something ends;
* `LoxLang.Completion` — how a statement ends that does not fail;
* `LoxLang.Machine.start` — the state before the first program;
* `LoxLang.Outcome.bind`, `LoxLang.Outcome.leaving` — going on, and going back to a scope.

Main results:

* `LoxLang.Outcome.bind_ok`, `LoxLang.Outcome.bind_failed`, `LoxLang.Outcome.bind_outOfFuel` — going
  on happens only after a value.
-/

import LoxLang.Heap
import LoxLang.Value.Operators

set_option relaxedAutoImplicit false
set_option autoImplicit false

namespace LoxLang

/-! ### States -/

/-- The state of a machine. -/
structure Machine where
  heap : Heap
  /-- The scope that is current. -/
  scope : Address
  /-- What was printed, in order; each ends its line. -/
  printed : Array String
  /-- The number of functions made. -/
  functions : Nat
  /-- The number of readings of the clock taken. -/
  readings : Nat
  /-- The readings of the clock, first to last. -/
  clock : Nat → Binary64
  /-- The texts that the output takes. -/
  takes : String → Bool

namespace Machine

/-- The scope that holds the native functions and the declarations at the top of programs. -/
def globals : Address := 0

/-- The frame of the global scope before the first program. -/
def globalFrame : Frame := ⟨Native.all.map fun native => (native.name, .native native), none⟩

/-- The state before the first program.  The output takes every text unless it is said which. -/
def start (clock : Nat → Binary64) (takes : String → Bool := fun _ => true) : Machine where
  heap := Heap.empty.allocate globalFrame
  scope := globals
  printed := #[]
  functions := 0
  readings := 0
  clock := clock
  takes := takes

/-- The state after a text has gone to the output. -/
def write (m : Machine) (text : String) : Machine := { m with printed := m.printed.push text }

/-- The state after binding a name in the current scope. -/
def define (m : Machine) (name : String) (value : Value) : Machine :=
  { m with heap := m.heap.define m.scope name value }

/-- The state with another frame on the heap, at the next address. -/
def allocate (m : Machine) (frame : Frame) : Machine := { m with heap := m.heap.allocate frame }

/-- The state with another scope current. -/
def entering (m : Machine) (scope : Address) : Machine := { m with scope }

/-- The current reading of the clock, and the state after taking it. -/
def readClock (m : Machine) : Binary64 × Machine :=
  (m.clock m.readings, { m with readings := m.readings + 1 })

end Machine

/-! ### Outcomes -/

/-- How a statement ends that does not fail: it comes to its end, or a return gives back a value to
the nearest call. -/
inductive Completion where
  | normal
  | returned (value : Value)

/-- How running something ends. -/
inductive Outcome (α : Type) where
  | ok (value : α) (machine : Machine)
  | failed (failure : Failure) (machine : Machine)
  | outOfFuel

namespace Outcome

variable {α β : Type}

/-- Go on after a value. -/
@[inline] def bind (outcome : Outcome α) (next : α → Machine → Outcome β) : Outcome β :=
  match outcome with
  | .ok value m => next value m
  | .failed failure m => .failed failure m
  | .outOfFuel => .outOfFuel

@[simp] theorem bind_ok (value : α) (m : Machine) (next : α → Machine → Outcome β) :
    (Outcome.ok value m).bind next = next value m := rfl

@[simp] theorem bind_failed (failure : Failure) (m : Machine) (next : α → Machine → Outcome β) :
    (Outcome.failed failure m).bind next = .failed failure m := rfl

@[simp] theorem bind_outOfFuel (next : α → Machine → Outcome β) :
    (Outcome.outOfFuel : Outcome α).bind next = .outOfFuel := rfl

/-- Apply a function to the value. -/
@[inline] def map (f : α → β) (outcome : Outcome α) : Outcome β :=
  outcome.bind fun value m => .ok (f value) m

/-- Make a scope current again, however the running ended. -/
def leaving (scope : Address) : Outcome α → Outcome α
  | .ok value m => .ok value (m.entering scope)
  | .failed failure m => .failed failure (m.entering scope)
  | .outOfFuel => .outOfFuel

/-- The outcome of an operation that leaves the state alone. -/
@[inline] def ofExcept (result : Except Failure α) (m : Machine) : Outcome α :=
  match result with
  | .ok value => .ok value m
  | .error failure => .failed failure m

end Outcome

end LoxLang
