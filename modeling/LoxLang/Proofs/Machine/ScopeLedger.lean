/-
**What operations on scopes amount to.**

Whoever holds scopes may make new ones within them, bind names in them, give names another value, and
look names up.  What such operations amount to is said here without a heap, from the operations alone: a
ledger keeps, for each scope, the scopes from it outwards, as they were when it was made, and every write
of a value to a name of a scope.  A definition writes to the scope that it is made in, an assignment to
the first scope outwards that something was written to under the name by then, and nothing else writes.

Main definitions:

* `LoxLang.ScopeOp`, `LoxLang.Machine.perform` — operations on scopes, and how a machine performs them;
* `LoxLang.Machine.Performs` — **operations one after another**;
* `LoxLang.ScopeOp.defined` — the names that are defined in a scope, in order of first definition;
* `LoxLang.Ledger`, `LoxLang.Ledger.ofOps` — the ledger of operations;
* `LoxLang.Ledger.latest?`, `LoxLang.Ledger.find?` — what was written last, and where a name is found.

Main results:

* `LoxLang.ScopeOp.defined_define` — a definition of another name puts it behind the others;
* `LoxLang.Ledger.latest?_write`, `LoxLang.Ledger.chain_make` — the ledger after a write, and after making
  a scope.
-/

import LoxLang.Machine.Evaluation

set_option relaxedAutoImplicit false
set_option autoImplicit false

namespace LoxLang

/-! ### Operations -/

/-- An operation on scopes. -/
inductive ScopeOp where
  /-- Make a scope without bindings, within another one or within none. -/
  | make (outer : Option Address)
  | define (scope : Address) (name : String) (value : Value)
  | assign (scope : Address) (name : Token) (value : Value)
  | get (scope : Address) (name : Token)
  | find (scope : Address) (name : String)
  | contains (scope : Address) (name : String)

/-- What an operation answers that does not fail. -/
inductive ScopeAnswer where
  | made (scope : Address)
  | done
  | value (value : Value)
  | found (scope : Option Address)
  | contained (bound : Bool)

namespace ScopeOp

/-- The scopes that the operation names are on the heap. -/
def On (heap : Heap) : ScopeOp → Prop
  | .make outer => ∀ scope ∈ outer, scope < heap.next
  | .define scope _ _ => scope < heap.next
  | .assign scope _ _ => scope < heap.next
  | .get scope _ => scope < heap.next
  | .find scope _ => scope < heap.next
  | .contains scope _ => scope < heap.next

instance (heap : Heap) : (op : ScopeOp) → Decidable (op.On heap)
  | .make outer => inferInstanceAs (Decidable (∀ scope ∈ outer, scope < heap.next))
  | .define scope _ _ => inferInstanceAs (Decidable (scope < heap.next))
  | .assign scope _ _ => inferInstanceAs (Decidable (scope < heap.next))
  | .get scope _ => inferInstanceAs (Decidable (scope < heap.next))
  | .find scope _ => inferInstanceAs (Decidable (scope < heap.next))
  | .contains scope _ => inferInstanceAs (Decidable (scope < heap.next))

/-- The name that the operation defines in a scope. -/
def defines? (scope : Address) : ScopeOp → Option String
  | .define other name _ => if other = scope then some name else none
  | _ => none

/-- The names that operations define in a scope, each where it is defined first. -/
def defined (ops : List ScopeOp) (scope : Address) : List String :=
  (ops.filterMap (defines? scope)).eraseDups

theorem eraseDups_concat (names : List String) (name : String) :
    (names ++ [name]).eraseDups =
      if name ∈ names then names.eraseDups else names.eraseDups ++ [name] := by
  rw [List.eraseDups_append]
  unfold List.removeAll
  split
  · next h =>
      rw [List.filter_cons_of_neg (by simpa using h)]
      exact List.append_nil _
  · next h =>
      rw [List.filter_cons_of_pos (by simpa using h)]
      rfl

/-- **The names in order of first definition.**  A name that is defined in a scope for the first time
comes behind the others, and one that is defined again keeps its place. -/
theorem defined_define (ops : List ScopeOp) (scope other : Address) (name : String) (value : Value) :
    defined (ops ++ [.define other name value]) scope =
      if other = scope ∧ name ∉ defined ops scope then defined ops scope ++ [name]
      else defined ops scope := by
  have hmem : name ∈ defined ops scope ↔ name ∈ ops.filterMap (defines? scope) := List.mem_eraseDups
  by_cases ho : other = scope
  · have hlast : (ops ++ [ScopeOp.define other name value]).filterMap (defines? scope) =
        ops.filterMap (defines? scope) ++ [name] := by
      simp [defines?, ho]
    unfold defined at hmem ⊢
    rw [hlast, eraseDups_concat]
    simp only [hmem, ho, true_and, ite_not]
  · simp [defined, defines?, ho]

/-- Nothing but a definition adds to the names. -/
theorem defined_concat {ops : List ScopeOp} {op : ScopeOp} {scope : Address}
    (h : op.defines? scope = none) : defined (ops ++ [op]) scope = defined ops scope := by
  unfold defined
  rw [List.filterMap_append, List.filterMap_cons, h, List.filterMap_nil, List.append_nil]

end ScopeOp

namespace Machine

/-- Perform an operation, with its scope as the current one. -/
def perform (m : Machine) : ScopeOp → Outcome ScopeAnswer
  | .make outer => .ok (.made m.heap.next) (m.allocate ⟨[], outer⟩)
  | .define scope name value => .ok .done ((m.entering scope).define name value)
  | .assign scope name value => (assign name value (m.entering scope)).map fun _ => .done
  | .get scope name => (lookup name (m.entering scope)).map .value
  | .find scope name => .ok (.found (m.heap.find? scope name)) m
  | .contains scope name => .ok (.contained (m.heap.binds name scope)) m

/-- The operations are performed one after another.  Each names scopes that are there, and whoever
performs them goes on after one that fails. -/
inductive Performs (m : Machine) : List ScopeOp → Machine → Prop where
  | start : Performs m [] m
  | answered {ops : List ScopeOp} {m' m'' : Machine} {op : ScopeOp} {answer : ScopeAnswer}
      (h : Performs m ops m') (ho : op.On m'.heap) (ha : m'.perform op = .ok answer m'') :
      Performs m (ops ++ [op]) m''
  | failed {ops : List ScopeOp} {m' m'' : Machine} {op : ScopeOp} {failure : Failure}
      (h : Performs m ops m') (ho : op.On m'.heap) (hf : m'.perform op = .failed failure m'') :
      Performs m (ops ++ [op]) m''

end Machine

/-! ### Ledgers -/

/-- A value was written to a name of a scope. -/
structure ScopeWrite where
  scope : Address
  name : String
  value : Value

/-- What operations on scopes amount to. -/
structure Ledger where
  /-- For each scope, itself and the scopes around it, from the inside out. -/
  chains : List (List Address)
  /-- The writes, first to last. -/
  writes : List ScopeWrite

namespace Ledger

/-- Nothing was done. -/
def empty : Ledger := ⟨[], []⟩

/-- A scope and the scopes around it. -/
def chain (l : Ledger) (scope : Address) : List Address := l.chains[scope]?.getD []

/-- The values written to a name of a scope, first to last. -/
def written (l : Ledger) (scope : Address) (name : String) : List Value :=
  l.writes.filterMap fun write =>
    if write.scope = scope ∧ write.name = name then some write.value else none

/-- The value written last. -/
def latest? (l : Ledger) (scope : Address) (name : String) : Option Value :=
  (l.written scope name).getLast?

/-- Something was written to the name. -/
def binds (l : Ledger) (name : String) (scope : Address) : Bool := (l.latest? scope name).isSome

/-- The first scope outwards that something was written to under the name. -/
def find? (l : Ledger) (scope : Address) (name : String) : Option Address :=
  (l.chain scope).find? (l.binds name)

/-- A value is written to a name of a scope. -/
def write (l : Ledger) (scope : Address) (name : String) (value : Value) : Ledger :=
  { l with writes := l.writes ++ [⟨scope, name, value⟩] }

/-- A scope is made, within one that is there or within none. -/
def make (l : Ledger) (outer : Option Address) : Ledger :=
  { l with chains := l.chains ++ [l.chains.length :: outer.elim [] l.chain] }

/-- The ledger after an operation. -/
def take (l : Ledger) : ScopeOp → Ledger
  | .make outer => l.make outer
  | .define scope name value => l.write scope name value
  | .assign scope name value =>
      match l.find? scope name.lexeme with
      | some found => l.write found name.lexeme value
      | none => l
  | .get _ _ => l
  | .find _ _ => l
  | .contains _ _ => l

/-- The ledger of operations one after another. -/
def ofOps (ops : List ScopeOp) : Ledger := ops.foldl take empty

theorem ofOps_concat (ops : List ScopeOp) (op : ScopeOp) :
    ofOps (ops ++ [op]) = (ofOps ops).take op := by
  unfold ofOps
  rw [List.foldl_append, List.foldl_cons, List.foldl_nil]

variable (l : Ledger) (scope other : Address) (name asked : String) (value : Value)

/-- A write is the last one to its name of its scope, and it says nothing about others. -/
theorem latest?_write :
    (l.write scope name value).latest? other asked =
      if scope = other ∧ name = asked then some value else l.latest? other asked := by
  unfold latest? written write
  rw [List.filterMap_append]
  split
  · next h => simp [h]
  · next h => simp [h]

/-- A scope that is made comes in front of those around the one that it is made within. -/
theorem chain_make (outer : Option Address) :
    (l.make outer).chain scope =
      if scope = l.chains.length then scope :: outer.elim [] l.chain else l.chain scope := by
  unfold make
  dsimp only [chain]
  rcases Nat.lt_trichotomy scope l.chains.length with hlt | heq | hgt
  · rw [if_neg (Nat.ne_of_lt hlt), List.getElem?_append_left hlt]
  · rw [if_pos heq, heq, List.getElem?_concat_length, Option.getD_some]
  · -- Behind the scope that is made there is none, before or after.
    have hlength : (l.chains ++ [l.chains.length :: outer.elim [] l.chain]).length ≤ scope := by
      rw [List.length_append, List.length_singleton]
      exact hgt
    rw [if_neg (Nat.ne_of_gt hgt), List.getElem?_eq_none hlength,
      List.getElem?_eq_none (Nat.le_of_lt hgt)]

end Ledger

end LoxLang
