/-
**Names in scopes.**

A machine that performs operations on scopes keeps a heap that follows their ledger: the way outwards from
a scope is the one that it was made with, a frame binds each of its names to the value that was written
to it last, and it lists its names in the order in which they were defined first.  One operation keeps the
heap so, hence any number of them does, on any number of scopes that stand in one another.  So an inner
definition shadows an outer one from then on, for the scopes inside only; a name has the value that was
written last to the frame where it is found; and an assignment changes the one binding that it finds, or
nothing.

Main definitions:

* `LoxLang.Heap.Follows` — the heap is the one that the ledger describes;
* `LoxLang.Heap.SetsOnly` — a change of one binding;
* `LoxLang.Machine.FirstBinding`, `LoxLang.Machine.Unbound` — where a name is found, or is not;
* `LoxLang.Machine.Shadows` — what operations on a scope come to.

Main results:

* `LoxLang.Heap.Follows.make`, `LoxLang.Heap.Follows.define`, `LoxLang.Heap.Follows.assign` — one
  operation;
* `LoxLang.Machine.Performs.follows` — **the heap follows the ledger of the operations**;
* `LoxLang.Machine.shadows_of_follows` — what operations come to on a heap that follows a ledger;
* `LoxLang.Machine.scopes_shadow` — **scopes shadow one another**.
-/

import LoxLang.Proofs.Machine.Alignment
import LoxLang.Proofs.Machine.ScopeLedger

set_option relaxedAutoImplicit false
set_option autoImplicit false

namespace LoxLang

/-! ### Names, values and chains after a change -/

namespace Heap

/-- The names that the frame at an address binds, in their order. -/
def names (heap : Heap) (scope : Address) : List String :=
  (heap.frame? scope).elim [] fun frame => frame.bindings.names

section

variable (heap : Heap) (scope other : Address) (name asked : String) (value : Value)

theorem binds_eq_isSome : heap.binds name scope = (heap.own? scope name).isSome := by
  unfold binds own?
  cases heap.frame? scope with
  | none => rfl
  | some frame => rfl

theorem mem_names_iff : name ∈ heap.names scope ↔ heap.binds name scope = true := by
  unfold names binds
  cases heap.frame? scope with
  | none => simp
  | some frame => exact Bindings.mem_names_iff name frame.bindings

end

variable {heap : Heap} {scope : Address} {name : String}

theorem lt_next_of_binds (h : heap.binds name scope = true) : scope < heap.next := by
  refine Nat.lt_of_not_le fun hle => ?_
  unfold binds at h
  rw [frame?_eq_none_iff.2 hle] at h
  cases h

theorem own?_define (hs : scope < heap.next) (value : Value) (other : Address) (asked : String) :
    (heap.define scope name value).own? other asked =
      if scope = other ∧ name = asked then some value else heap.own? other asked := by
  obtain ⟨frame, hf⟩ := exists_frame? hs
  unfold own?
  rw [frame?_define]
  by_cases ho : scope = other
  · subst ho
    rw [if_pos rfl, hf, Option.map_some, Option.bind_some, Option.bind_some, Bindings.lookup?_set]
    simp only [true_and]
  · rw [if_neg ho, if_neg fun h => ho h.1]

/-- A name that the frame does not bind comes behind those that it binds. -/
theorem names_define (hs : scope < heap.next) (value : Value) (other : Address) :
    (heap.define scope name value).names other =
      if scope = other ∧ name ∉ heap.names other then heap.names other ++ [name]
      else heap.names other := by
  obtain ⟨frame, hf⟩ := exists_frame? hs
  unfold names
  rw [frame?_define]
  by_cases ho : scope = other
  · subst ho
    have hmem := Bindings.mem_names_iff name frame.bindings
    rw [if_pos rfl, hf, Option.map_some, Option.elim_some, Option.elim_some, Bindings.names_set]
    by_cases hb : frame.bindings.binds name = true
    · rw [if_pos hb, if_neg fun h => h.2 (hmem.2 hb)]
    · rw [if_neg hb, if_pos ⟨rfl, mt hmem.1 hb⟩]
  · rw [if_neg ho, if_neg fun h => ho h.1]

/-- The way outwards depends on what is around each frame only. -/
theorem chainFrom_succ (heap : Heap) (more : Nat) (scope : Address) :
    heap.chainFrom (more + 1) scope = ((heap.frame? scope).map Frame.enclosing).elim []
      fun outer => scope :: outer.elim [] (heap.chainFrom more) := by
  rw [chainFrom]
  cases heap.frame? scope with
  | none => rfl
  | some frame =>
      dsimp only [Option.map_some, Option.elim_some]
      cases frame.enclosing with
      | none => rfl
      | some outer => rfl

theorem enclosing_define (value : Value) (other : Address) :
    ((heap.define scope name value).frame? other).map Frame.enclosing =
      (heap.frame? other).map Frame.enclosing := by
  rw [frame?_define]
  split
  · rw [Option.map_map]
    rfl
  · rfl

/-- Binding a name leaves the ways outwards as they are. -/
theorem chain_define (value : Value) (other : Address) :
    (heap.define scope name value).chain other = heap.chain other := by
  unfold chain
  generalize other + 1 = more
  induction more generalizing other with
  | zero => rfl
  | succ more ih => rw [chainFrom_succ, chainFrom_succ, enclosing_define, funext ih]

theorem own?_allocate (outer : Option Address) (other : Address) (asked : String) :
    (heap.allocate ⟨[], outer⟩).own? other asked = heap.own? other asked := by
  unfold own?
  rw [frame?_allocate]
  split
  · next ho =>
      rw [frame?_eq_none_iff.2 (Nat.le_of_eq ho.symm)]
      rfl
  · rfl

theorem names_allocate (outer : Option Address) (other : Address) :
    (heap.allocate ⟨[], outer⟩).names other = heap.names other := by
  unfold names
  rw [frame?_allocate]
  split
  · next ho =>
      rw [frame?_eq_none_iff.2 (Nat.le_of_eq ho.symm)]
      rfl
  · rfl

/-- A new frame is on the way outwards from itself only. -/
theorem Ordered.chainFrom_allocate (h : heap.Ordered) (frame : Frame) (more : Nat) {other : Address}
    (ho : other ≠ heap.next) :
    (heap.allocate frame).chainFrom more other = heap.chainFrom more other := by
  induction more generalizing other with
  | zero => rfl
  | succ more ih =>
      rw [chainFrom, chainFrom, frame?_allocate, if_neg ho]
      cases hf : heap.frame? other with
      | none => rfl
      | some found =>
          dsimp only
          cases he : found.enclosing with
          | none => rfl
          | some outer =>
              -- A frame around an older one is older still, so the new frame is never come to.
              have hlt : outer < heap.next :=
                Nat.lt_trans (h other found outer hf he) (lt_next_of_frame? hf)
              exact congrArg (other :: ·) (ih (Nat.ne_of_lt hlt))

/-- The way outwards from a new frame begins with the frame and goes on from the one around it. -/
theorem Ordered.chain_allocate (h : heap.Ordered) {outer : Option Address}
    (ho : ∀ scope ∈ outer, scope < heap.next) (other : Address) :
    (heap.allocate ⟨[], outer⟩).chain other =
      if other = heap.next then other :: outer.elim [] heap.chain else heap.chain other := by
  by_cases hn : other = heap.next
  · rw [if_pos hn]
    unfold chain
    rw [chainFrom, frame?_allocate, if_pos hn]
    dsimp only
    cases outer with
    | none => rfl
    | some scope =>
        have hlt := ho scope rfl
        -- The room is that of the new frame, which is more than enough for the one around it.
        have hroom : heap.chainFrom other scope = heap.chainFrom (scope + 1) scope :=
          h.chainFrom_eq (hn ▸ hlt) (Nat.lt_succ_self scope)
        dsimp only [Option.elim_some]
        rw [h.chainFrom_allocate _ _ (Nat.ne_of_lt hlt), hroom]
  · rw [if_neg hn]
    exact h.chainFrom_allocate _ _ hn

/-! ### A change of one binding -/

/-- On the later heap the name of the scope has the value, and all else is as it was. -/
structure SetsOnly (heap : Heap) (scope : Address) (name : String) (value : Value) (later : Heap) :
    Prop where
  own? : later.own? scope name = some value
  same : ∀ asked, asked ≠ name → later.own? scope asked = heap.own? scope asked
  chain : later.chain scope = heap.chain scope
  others : ∀ other, other ≠ scope → later.frame? other = heap.frame? other
  next : later.next = heap.next

theorem setsOnly_define (hs : scope < heap.next) (value : Value) :
    heap.SetsOnly scope name value (heap.define scope name value) where
  own? := by rw [own?_define hs, if_pos ⟨rfl, rfl⟩]
  same := by
    intro asked hne
    rw [own?_define hs, if_neg fun h => hne h.2.symm]
  chain := chain_define value scope
  others := by
    intro other hne
    rw [frame?_define, if_neg hne.symm]
  next := next_define heap scope name value

/-! ### Heaps that follow a ledger -/

/-- The heap is what the operations amount to. -/
structure Follows (heap : Heap) (ops : List ScopeOp) : Prop where
  ordered : heap.Ordered
  next : (Ledger.ofOps ops).chains.length = heap.next
  chain : ∀ scope, heap.chain scope = (Ledger.ofOps ops).chain scope
  own? : ∀ scope name, heap.own? scope name = (Ledger.ofOps ops).latest? scope name
  names : ∀ scope, heap.names scope = ScopeOp.defined ops scope

theorem follows_empty : Heap.empty.Follows [] where
  ordered := by
    intro address frame outer hf
    cases hf
  next := rfl
  chain := fun _ => rfl
  own? := fun _ _ => rfl
  names := fun _ => rfl

variable {ops : List ScopeOp} {op : ScopeOp}

theorem Follows.binds (h : heap.Follows ops) (name : String) (scope : Address) :
    heap.binds name scope = (Ledger.ofOps ops).binds name scope := by
  rw [binds_eq_isSome, h.own?]
  rfl

/-- A name is found where the ledger says. -/
theorem Follows.find? (h : heap.Follows ops) (scope : Address) (name : String) :
    heap.find? scope name = (Ledger.ofOps ops).find? scope name := by
  have hbinds : heap.binds name = (Ledger.ofOps ops).binds name := funext fun a => h.binds name a
  unfold Heap.find? Ledger.find?
  rw [h.chain, hbinds]

/-- An operation that makes no scope and writes nothing. -/
theorem Follows.idle (h : heap.Follows ops) (hl : (Ledger.ofOps ops).take op = Ledger.ofOps ops)
    (hd : ∀ scope, op.defines? scope = none) : heap.Follows (ops ++ [op]) := by
  have hledger : Ledger.ofOps (ops ++ [op]) = Ledger.ofOps ops := by rw [Ledger.ofOps_concat, hl]
  constructor
  · exact h.ordered
  · rw [hledger]
    exact h.next
  · intro scope
    rw [hledger]
    exact h.chain scope
  · intro scope name
    rw [hledger]
    exact h.own? scope name
  · intro scope
    rw [ScopeOp.defined_concat (hd scope)]
    exact h.names scope

/-- An operation that writes a value to a name of a scope. -/
theorem Follows.write (h : heap.Follows ops) (hs : scope < heap.next) {value : Value}
    (hl : (Ledger.ofOps ops).take op = (Ledger.ofOps ops).write scope name value)
    (hn : ∀ other, (heap.define scope name value).names other = ScopeOp.defined (ops ++ [op]) other) :
    (heap.define scope name value).Follows (ops ++ [op]) := by
  have hledger : Ledger.ofOps (ops ++ [op]) = (Ledger.ofOps ops).write scope name value := by
    rw [Ledger.ofOps_concat, hl]
  constructor
  · exact ordered_define h.ordered scope name value
  · rw [hledger, next_define]
    exact h.next
  · intro other
    rw [hledger, chain_define]
    exact h.chain other
  · intro other asked
    rw [hledger, own?_define hs, Ledger.latest?_write, h.own?]
  · exact hn

theorem Follows.make (h : heap.Follows ops) {outer : Option Address}
    (ho : ∀ scope ∈ outer, scope < heap.next) :
    (heap.allocate ⟨[], outer⟩).Follows (ops ++ [.make outer]) := by
  have hledger : Ledger.ofOps (ops ++ [.make outer]) = (Ledger.ofOps ops).make outer :=
    Ledger.ofOps_concat ops _
  constructor
  · exact ordered_allocate h.ordered ho
  · rw [hledger, next_allocate, ← h.next]
    exact List.length_append
  · intro scope
    have hchain : heap.chain = (Ledger.ofOps ops).chain := funext h.chain
    rw [hledger, h.ordered.chain_allocate ho, Ledger.chain_make, h.next, hchain]
  · intro scope name
    rw [hledger, own?_allocate]
    exact h.own? scope name
  · intro scope
    rw [names_allocate, h.names]
    exact (ScopeOp.defined_concat rfl).symm

theorem Follows.define (h : heap.Follows ops) (hs : scope < heap.next) (value : Value) :
    (heap.define scope name value).Follows (ops ++ [.define scope name value]) := by
  refine h.write hs rfl fun other => ?_
  rw [names_define hs, ScopeOp.defined_define, h.names]

/-- An assignment binds no new name: the frame where the name is found binds it already. -/
theorem names_define_of_find? {found : Address} (hf : heap.find? scope name = some found)
    (value : Value) (other : Address) : (heap.define found name value).names other = heap.names other := by
  have hbinds := (find?_eq_some hf).2
  rw [names_define (lt_next_of_binds hbinds), if_neg]
  rintro ⟨rfl, hmem⟩
  exact hmem ((heap.mem_names_iff found name).2 hbinds)

theorem Follows.assign (h : heap.Follows ops) {name : Token} {found : Address}
    (hf : heap.find? scope name.lexeme = some found) (value : Value) :
    (heap.define found name.lexeme value).Follows (ops ++ [.assign scope name value]) := by
  have hbinds := (find?_eq_some hf).2
  refine h.write (lt_next_of_binds hbinds) ?_ fun other => ?_
  · -- The ledger finds the name where the heap does, so it writes there.
    rw [h.find?] at hf
    rw [Ledger.take, hf]
  · rw [names_define_of_find? hf, h.names]
    exact (ScopeOp.defined_concat rfl).symm

theorem Follows.assign_of_none (h : heap.Follows ops) {name : Token}
    (hf : heap.find? scope name.lexeme = none) (value : Value) :
    heap.Follows (ops ++ [.assign scope name value]) := by
  refine h.idle ?_ fun _ => rfl
  rw [h.find?] at hf
  rw [Ledger.take, hf]

end Heap

/-! ### Operations one after another -/

namespace Machine

variable {m m₀ : Machine} {ops : List ScopeOp} {scope found : Address} {name : Token} {value : Value}

theorem perform_assign (hf : m.heap.find? scope name.lexeme = some found) :
    m.perform (.assign scope name value) =
      .ok .done { m.entering scope with heap := m.heap.define found name.lexeme value } := by
  simp only [perform, assign_eq, entering, hf]
  rfl

theorem perform_assign_of_none (hf : m.heap.find? scope name.lexeme = none) :
    m.perform (.assign scope name value) =
      .failed (.error ⟨name, .undefinedVariable⟩) (m.entering scope) := by
  simp only [perform, assign_eq, entering, hf]
  rfl

/-- A name that is found has a value there. -/
theorem perform_get (hf : m.heap.find? scope name.lexeme = some found) :
    ∃ value, m.heap.own? found name.lexeme = some value ∧
      m.perform (.get scope name) = .ok (.value value) (m.entering scope) := by
  have hbinds := (Heap.find?_eq_some hf).2
  rw [Heap.binds_eq_isSome] at hbinds
  obtain ⟨value, hvalue⟩ := Option.isSome_iff_exists.1 hbinds
  have hget : m.heap.get? scope name.lexeme = some value := by
    rw [Heap.get?, hf, Option.bind_some, hvalue]
  refine ⟨value, hvalue, ?_⟩
  simp only [perform, lookup, entering, hget]
  rfl

theorem perform_get_of_none (hf : m.heap.find? scope name.lexeme = none) :
    m.perform (.get scope name) =
      .failed (.error ⟨name, .undefinedVariable⟩) (m.entering scope) := by
  have hget : m.heap.get? scope name.lexeme = none := by
    rw [Heap.get?, hf, Option.bind_none]
  simp only [perform, lookup, entering, hget]
  rfl

/-- One operation, whether it answers or fails. -/
theorem follows_perform (h : m.heap.Follows ops) {op : ScopeOp} (ho : op.On m.heap) :
    (m.perform op).Ends (fun _ m' => m'.heap.Follows (ops ++ [op]))
      fun _ m' => m'.heap.Follows (ops ++ [op]) := by
  cases op with
  | make outer => exact h.make ho
  | define scope name value => exact h.define ho value
  | assign scope name value =>
      cases hf : m.heap.find? scope name.lexeme with
      | some found =>
          rw [perform_assign hf]
          exact h.assign hf value
      | none =>
          rw [perform_assign_of_none hf]
          exact h.assign_of_none hf value
  | get scope name =>
      have hidle : m.heap.Follows (ops ++ [.get scope name]) := h.idle rfl fun _ => rfl
      cases hf : m.heap.find? scope name.lexeme with
      | some found =>
          obtain ⟨value, -, hp⟩ := perform_get hf
          rw [hp]
          exact hidle
      | none =>
          rw [perform_get_of_none hf]
          exact hidle
  | find scope name => exact h.idle rfl fun _ => rfl
  | contains scope name => exact h.idle rfl fun _ => rfl

/-- **The heap follows the ledger of the operations**, by induction on how many there were. -/
theorem Performs.follows (h₀ : m₀.heap = Heap.empty) (h : m₀.Performs ops m) :
    m.heap.Follows ops := by
  induction h with
  | start =>
      rw [h₀]
      exact Heap.follows_empty
  | answered _ ho ha ih =>
      have hends := follows_perform ih ho
      rw [ha] at hends
      exact hends
  | failed _ ho hf ih =>
      have hends := follows_perform ih ho
      rw [hf] at hends
      exact hends

/-! ### Shadowing -/

/-- After the operations, the name is bound in the found frame, and in none of those that come before it
on the way outwards from the scope. -/
def FirstBinding (m : Machine) (ops : List ScopeOp) (scope : Address) (name : String)
    (found : Address) : Prop :=
  ∃ inside outside, (Ledger.ofOps ops).chain scope = inside ++ found :: outside ∧
    m.heap.binds name found = true ∧ ∀ around ∈ inside, m.heap.binds name around = false

/-- After the operations, the name is bound in no frame on the way outwards from the scope. -/
def Unbound (m : Machine) (ops : List ScopeOp) (scope : Address) (name : String) : Prop :=
  ∀ around ∈ (Ledger.ofOps ops).chain scope, m.heap.binds name around = false

/-- What an operation on the scope comes to after the operations so far. -/
structure Shadows (m : Machine) (ops : List ScopeOp) (scope : Address) : Prop where
  chain : m.heap.chain scope = (Ledger.ofOps ops).chain scope
  /-- The names of the frame are in order of first definition. -/
  names : m.heap.names scope = ScopeOp.defined ops scope
  /-- A scope that is made within it goes on outwards from it, and changes no binding. -/
  make : ∃ m', m.perform (.make (some scope)) = .ok (.made m.heap.next) m' ∧
    m'.heap.chain m.heap.next = m.heap.next :: m.heap.chain scope ∧
    ∀ other, m'.heap.names other = m.heap.names other ∧
      ∀ name, m'.heap.own? other name = m.heap.own? other name
  contains : ∀ name,
    m.perform (.contains scope name) = .ok (.contained (decide (name ∈ ScopeOp.defined ops scope))) m
  find : ∀ name, ∃ answer, m.perform (.find scope name) = .ok (.found answer) m ∧
    (∀ found, answer = some found ↔ m.FirstBinding ops scope name found) ∧
    (answer = none ↔ m.Unbound ops scope name)
  /-- A name has the value that was written last to the frame where it is found. -/
  get : ∀ (name : Token) (found : Address), m.FirstBinding ops scope name.lexeme found →
    ∃ value, (Ledger.ofOps ops).latest? found name.lexeme = some value ∧
      m.perform (.get scope name) = .ok (.value value) (m.entering scope)
  get_unbound : ∀ name : Token, m.Unbound ops scope name.lexeme ↔
    m.perform (.get scope name) = .failed (.error ⟨name, .undefinedVariable⟩) (m.entering scope)
  define : ∀ (name : String) (value : Value), ∃ m', m.perform (.define scope name value) = .ok .done m' ∧
    m.heap.SetsOnly scope name value m'.heap
  assign : ∀ (name : Token) (value : Value) (found : Address),
    m.FirstBinding ops scope name.lexeme found →
      ∃ m', m.perform (.assign scope name value) = .ok .done m' ∧
        m.heap.SetsOnly found name.lexeme value m'.heap ∧
        ∀ other, m'.heap.names other = m.heap.names other
  assign_unbound : ∀ (name : Token) (value : Value), m.Unbound ops scope name.lexeme ↔
    m.perform (.assign scope name value) =
      .failed (.error ⟨name, .undefinedVariable⟩) (m.entering scope)

theorem find?_eq_some_iff (h : m.heap.Follows ops) {name : String} :
    m.heap.find? scope name = some found ↔ m.FirstBinding ops scope name found := by
  unfold Heap.find? FirstBinding
  rw [List.find?_eq_some_iff_append, h.chain]
  constructor
  · rintro ⟨hb, inside, outside, hc, hn⟩
    exact ⟨inside, outside, hc, hb, fun around ha => by simpa using hn around ha⟩
  · rintro ⟨inside, outside, hc, hb, hn⟩
    exact ⟨hb, inside, outside, hc, fun around ha => by simpa using hn around ha⟩

theorem find?_eq_none_iff (h : m.heap.Follows ops) {name : String} :
    m.heap.find? scope name = none ↔ m.Unbound ops scope name := by
  unfold Heap.find? Unbound
  rw [List.find?_eq_none, h.chain]
  simp only [Bool.not_eq_true]

/-- A machine whose heap follows the ledger does what the ledger says. -/
theorem shadows_of_follows (hf : m.heap.Follows ops) (hs : scope < m.heap.next) :
    m.Shadows ops scope where
  chain := hf.chain scope
  names := hf.names scope
  make := by
    have hon : ∀ outer ∈ some scope, outer < m.heap.next := by
      rintro outer ⟨⟩
      exact hs
    have hmade : (m.heap.allocate ⟨[], some scope⟩).chain m.heap.next =
        m.heap.next :: m.heap.chain scope := by
      rw [hf.ordered.chain_allocate hon, if_pos rfl, Option.elim_some]
    exact ⟨_, rfl, hmade, fun other =>
      ⟨Heap.names_allocate (some scope) other, Heap.own?_allocate (some scope) other⟩⟩
  contains := by
    intro name
    have hbinds : m.heap.binds name scope = decide (name ∈ ScopeOp.defined ops scope) := by
      rw [← hf.names, Bool.eq_iff_iff, decide_eq_true_iff, m.heap.mem_names_iff]
    rw [perform, hbinds]
  find := by
    intro name
    exact ⟨m.heap.find? scope name, rfl, fun found => find?_eq_some_iff hf, find?_eq_none_iff hf⟩
  get := by
    intro name found hfirst
    have hfound := (find?_eq_some_iff hf).2 hfirst
    obtain ⟨value, hvalue, hp⟩ := perform_get hfound
    exact ⟨value, (hf.own? found name.lexeme).symm.trans hvalue, hp⟩
  get_unbound := by
    intro name
    rw [← find?_eq_none_iff hf]
    refine ⟨perform_get_of_none, fun hfails => Option.eq_none_iff_forall_ne_some.2 ?_⟩
    -- Wherever the name were found, it would have a value there.
    intro found hfound
    obtain ⟨value, -, hp⟩ := perform_get hfound
    rw [hp] at hfails
    cases hfails
  define := fun name value => ⟨_, rfl, Heap.setsOnly_define hs value⟩
  assign := by
    intro name value found hfirst
    have hfound := (find?_eq_some_iff hf).2 hfirst
    have hlt := Heap.lt_next_of_binds (Heap.find?_eq_some hfound).2
    exact ⟨_, perform_assign hfound, Heap.setsOnly_define hlt value,
      Heap.names_define_of_find? hfound value⟩
  assign_unbound := by
    intro name value
    rw [← find?_eq_none_iff hf]
    refine ⟨perform_assign_of_none, fun hfails => Option.eq_none_iff_forall_ne_some.2 ?_⟩
    intro found hfound
    rw [perform_assign hfound] at hfails
    cases hfails

/-- **Scopes shadow one another.**  Whatever operations were performed on scopes, from none on: a name is
found in the first frame outwards that binds it and has the value that was written to it there last; a
definition changes the frame of its scope, an assignment the one binding that it finds, and both change
nothing else; where no frame binds the name, looking it up and assigning to it fail and change nothing. -/
theorem scopes_shadow (h₀ : m₀.heap = Heap.empty) (h : m₀.Performs ops m) (hs : scope < m.heap.next) :
    m.Shadows ops scope := shadows_of_follows (h.follows h₀) hs

/-- A machine that did nothing but hold frames, one of them current. -/
def holding (frames : Array Frame) (scope : Address) : Machine :=
  ⟨⟨frames⟩, scope, #[], 0, 0, fun _ => .zero, fun _ => true⟩

def identifier (name : String) : Token := ⟨.identifier, name, none, 1⟩

/-- Two scopes within one: an inner definition comes between two assignments from the same scope, and an
assignment to a name that is bound nowhere fails. -/
def sharingOps : List ScopeOp :=
  [.make none, .make (some 0), .make (some 0), .define 0 "a" (.text "first"),
    .assign 1 (identifier "a") (.text "second"), .define 1 "a" (.text "third"),
    .assign 1 (identifier "a") (.text "fourth"), .assign 2 (identifier "b") (.text "fifth")]

/-- What is left of the operations. -/
def sharing : Machine :=
  holding #[⟨[("a", .text "second")], none⟩, ⟨[("a", .text "fourth")], some 0⟩, ⟨[], some 0⟩] 2

theorem performs_sharing : (holding #[] 0).Performs sharingOps sharing := by
  have h₁ : (holding #[] 0).Performs ([] ++ [.make none]) (holding #[⟨[], none⟩] 0) :=
    .answered .start (by decide) rfl
  have h₂ : (holding #[] 0).Performs (_ ++ [.make (some 0)])
      (holding #[⟨[], none⟩, ⟨[], some 0⟩] 0) := .answered h₁ (by decide) rfl
  have h₃ : (holding #[] 0).Performs (_ ++ [.make (some 0)])
      (holding #[⟨[], none⟩, ⟨[], some 0⟩, ⟨[], some 0⟩] 0) := .answered h₂ (by decide) rfl
  have h₄ : (holding #[] 0).Performs (_ ++ [.define 0 "a" (.text "first")])
      (holding #[⟨[("a", .text "first")], none⟩, ⟨[], some 0⟩, ⟨[], some 0⟩] 0) :=
    .answered h₃ (by decide) rfl
  have h₅ : (holding #[] 0).Performs (_ ++ [.assign 1 (identifier "a") (.text "second")])
      (holding #[⟨[("a", .text "second")], none⟩, ⟨[], some 0⟩, ⟨[], some 0⟩] 1) :=
    .answered h₄ (by decide) rfl
  have h₆ : (holding #[] 0).Performs (_ ++ [.define 1 "a" (.text "third")])
      (holding #[⟨[("a", .text "second")], none⟩, ⟨[("a", .text "third")], some 0⟩, ⟨[], some 0⟩] 1) :=
    .answered h₅ (by decide) rfl
  have h₇ : (holding #[] 0).Performs (_ ++ [.assign 1 (identifier "a") (.text "fourth")])
      (holding #[⟨[("a", .text "second")], none⟩, ⟨[("a", .text "fourth")], some 0⟩, ⟨[], some 0⟩] 1) :=
    .answered h₆ (by decide) rfl
  have h₈ : (holding #[] 0).Performs (_ ++ [.assign 2 (identifier "b") (.text "fifth")]) sharing :=
    .failed h₇ (by decide) rfl
  exact h₈

/-- Both inner scopes see a variable of the name, and not the same one. -/
theorem scopes_shadow_sharing :
    (holding #[] 0).heap = Heap.empty ∧ (holding #[] 0).Performs sharingOps sharing ∧
      2 < sharing.heap.next ∧ sharing.Shadows sharingOps 1 ∧ sharing.Shadows sharingOps 2 ∧
      sharing.perform (.get 1 (identifier "a")) = .ok (.value (.text "fourth")) (sharing.entering 1) ∧
      sharing.perform (.get 2 (identifier "a")) = .ok (.value (.text "second")) (sharing.entering 2) :=
  ⟨rfl, performs_sharing, by decide, scopes_shadow rfl performs_sharing (by decide),
    scopes_shadow rfl performs_sharing (by decide), rfl, rfl⟩

end Machine

end LoxLang
