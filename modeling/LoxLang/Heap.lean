/-
Frames of bindings on a heap.

A scope is the address of a frame.  A frame binds names and may have an enclosing frame, fixed when
it is made; names are looked up from a frame outwards.  Frames are never removed, so closures keep
the frames that they need, and several closures may share one.

Main definitions:

* `LoxLang.Bindings` — names and their values, in the order of first definition;
* `LoxLang.Frame`, `LoxLang.Heap` — frames and the heap;
* `LoxLang.Heap.chain` — a frame and the frames around it;
* `LoxLang.Heap.find?`, `LoxLang.Heap.get?` — looking a name up;
* `LoxLang.Heap.allocate`, `LoxLang.Heap.define`, `LoxLang.Heap.assign?` — changing the heap;
* `LoxLang.Heap.dump?`, `LoxLang.Heap.dumpChain?` — a frame, and a chain of frames, as texts.

Main results:

* `LoxLang.Bindings.lookup?_set` — a name that was set has its new value, and the others their old
  ones;
* `LoxLang.Bindings.names_set` — setting a name keeps the places of all names.
-/

import LoxLang.Value.Basic

set_option relaxedAutoImplicit false
set_option autoImplicit false

namespace LoxLang

/-! ### Bindings -/

/-- Names and their values, in the order in which the names were first bound. -/
abbrev Bindings : Type := List (String × Value)

namespace Bindings

/-- The names that are bound. -/
def names (bindings : Bindings) : List String := bindings.map Prod.fst

/-- The value of a name. -/
def lookup? (name : String) : Bindings → Option Value
  | [] => none
  | (bound, value) :: others => if bound = name then some value else lookup? name others

/-- The name is bound. -/
def binds (name : String) (bindings : Bindings) : Bool := (bindings.lookup? name).isSome

/-- Bind a name; a name that is bound already keeps its place. -/
def set (name : String) (value : Value) : Bindings → Bindings
  | [] => [(name, value)]
  | (bound, old) :: others =>
      if bound = name then (bound, value) :: others else (bound, old) :: set name value others

theorem lookup?_set (name other : String) (value : Value) (bindings : Bindings) :
    (bindings.set name value).lookup? other =
      if name = other then some value else bindings.lookup? other := by
  induction bindings with
  | nil => simp [set, lookup?]
  | cons binding others ih =>
      obtain ⟨bound, old⟩ := binding
      by_cases found : bound = name
      · subst found
        by_cases asked : bound = other <;> simp [set, lookup?, asked]
      · by_cases asked : bound = other
        · subst asked
          simp [set, lookup?, found, Ne.symm found]
        · simp [set, lookup?, found, asked, ih]

theorem mem_names_iff (name : String) (bindings : Bindings) :
    name ∈ bindings.names ↔ bindings.binds name = true := by
  induction bindings with
  | nil => simp [names, binds, lookup?]
  | cons binding others ih =>
      obtain ⟨bound, value⟩ := binding
      simp only [names, binds, List.map_cons, List.mem_cons, lookup?] at ih ⊢
      by_cases found : bound = name
      · simp [found]
      · simp [found, Ne.symm found, ih]

theorem names_set (name : String) (value : Value) (bindings : Bindings) :
    (bindings.set name value).names =
      if bindings.binds name then bindings.names else bindings.names ++ [name] := by
  induction bindings with
  | nil => rfl
  | cons binding others ih =>
      obtain ⟨bound, old⟩ := binding
      simp only [names, binds, set, lookup?] at ih ⊢
      by_cases found : bound = name
      · simp [found]
      · simp only [found, if_false, List.map_cons, ih]
        split <;> simp [*]

/-- Bind names to values one by one. -/
def setAll (names : List String) (values : List Value) (bindings : Bindings) : Bindings :=
  (names.zip values).foldl (fun bindings pair => bindings.set pair.1 pair.2) bindings

/-- The bindings as a text; none if a value has none. -/
def dump? (bindings : Bindings) : Option String := do
  let entries ← bindings.mapM fun (name, value) => return name ++ ": " ++ (← value.dump?)
  return "\x7b" ++ ", ".intercalate entries ++ "\x7d"

end Bindings

/-! ### Frames -/

/-- A frame: bindings, and the frame around it. -/
structure Frame where
  bindings : Bindings
  enclosing : Option Address

/-- The frames of a run, each at its address. -/
structure Heap where
  frames : Array Frame

namespace Heap

/-- A heap without frames. -/
def empty : Heap := ⟨#[]⟩

/-- The frame at an address. -/
def frame? (heap : Heap) (scope : Address) : Option Frame := heap.frames[scope]?

/-- The address of the next frame. -/
def next (heap : Heap) : Address := heap.frames.size

/-- Add a frame, at the next address. -/
def allocate (heap : Heap) (frame : Frame) : Heap := ⟨heap.frames.push frame⟩

/-- The addresses of at most so many frames from a frame outwards. -/
def chainFrom (heap : Heap) : Nat → Address → List Address
  | 0, _ => []
  | more + 1, scope =>
      match heap.frame? scope with
      | none => []
      | some frame =>
          scope ::
            match frame.enclosing with
            | none => []
            | some outer => chainFrom heap more outer

/-- The addresses of a frame and of the frames around it.  A frame is older than the ones it
encloses, so there are no more of them than addresses up to its own. -/
def chain (heap : Heap) (scope : Address) : List Address := heap.chainFrom (scope + 1) scope

/-- The frame at an address binds a name. -/
def binds (heap : Heap) (name : String) (scope : Address) : Bool :=
  match heap.frame? scope with
  | none => false
  | some frame => frame.bindings.binds name

/-- The nearest frame, from a frame outwards, that binds a name. -/
def find? (heap : Heap) (scope : Address) (name : String) : Option Address :=
  (heap.chain scope).find? (heap.binds name)

/-- The value of a name that the frame at an address binds. -/
def own? (heap : Heap) (scope : Address) (name : String) : Option Value :=
  (heap.frame? scope).bind fun frame => frame.bindings.lookup? name

/-- The value of a name, looked up from a frame outwards. -/
def get? (heap : Heap) (scope : Address) (name : String) : Option Value :=
  (heap.find? scope name).bind fun found => heap.own? found name

/-- Bind a name in the frame at an address. -/
def define (heap : Heap) (scope : Address) (name : String) (value : Value) : Heap :=
  ⟨heap.frames.modify scope fun frame =>
    { frame with bindings := frame.bindings.set name value }⟩

/-- Give a bound name another value, in the nearest frame that binds it; none if none does. -/
def assign? (heap : Heap) (scope : Address) (name : String) (value : Value) : Option Heap :=
  (heap.find? scope name).map fun found => heap.define found name value

/-! ### Texts -/

/-- The bindings of a frame as a text, with a mark if there is a frame around it. -/
def dump? (heap : Heap) (scope : Address) : Option String := do
  let frame ← heap.frame? scope
  let bindings ← frame.bindings.dump?
  return bindings ++ (if frame.enclosing.isSome then " -> ..." else "")

/-- The bindings of a frame and of the frames around it as a text. -/
def dumpChain? (heap : Heap) (scope : Address) : Option String := do
  let texts ← (heap.chain scope).mapM fun scope =>
    (heap.frame? scope).bind fun frame => frame.bindings.dump?
  return "<Environment chain: " ++ " -> ".intercalate texts ++ ">"

end Heap

end LoxLang
