/-
**Running stays within the reachable scopes.**

Frames are reached from some addresses through the frames around them and through the functions that
they bind.  What a run reads and writes is reachable from the scope that is current, or, in a call, from
the scope of the function and those of the arguments; and all that it makes is new.  So two runs from
states that differ in other frames only, or in the caller's scope, are the same.

The proof compares two runs.  The frames that they may touch are fixed in advance: those that are
reachable in the beginning, and all that are not there yet.  No frame of this region refers to anything
outside of it, and each change keeps that so.

* `LoxLang.Heap.Reach`, `LoxLang.Machine.MayTouch` — what is reachable, and what a run may touch;
* `LoxLang.Region`, `LoxLang.Region.Related`, `LoxLang.Region.Ends` — two runs within a region;
* `LoxLang.Region.confined` — **runs from related states end in related states**;
* `LoxLang.Machine.Local` — what it is to stay within the reachable scopes;
* `LoxLang.Machine.locality` — **statements, expressions and calls are local**.
-/

import LoxLang.Proofs.Machine.Changes
import LoxLang.Proofs.Value.Results

set_option relaxedAutoImplicit false
set_option autoImplicit false

namespace LoxLang

/-! ### References -/

/-- The scope of a function. -/
def Value.scope? : Value → Option Address
  | .closure f => some f.scope
  | _ => none

/-- The scope of a function that is given back. -/
def Completion.scope? : Completion → Option Address
  | .normal => none
  | .returned value => value.scope?

theorem Value.scope?_of_isData {value : Value} (h : value.isData = true) : value.scope? = none := by
  cases value with
  | closure f => simp [isData] at h
  | _ => rfl

theorem Value.scope?_ofLiteral (value : Literal) : (Value.ofLiteral value).scope? = none := by
  cases value <;> rfl

/-- The frame refers to another one, around it or as the scope of a function that it binds. -/
def Frame.RefersTo (frame : Frame) (address : Address) : Prop :=
  frame.enclosing = some address ∨ ∃ binding ∈ frame.bindings, binding.2.scope? = some address

/-- The frames that are reached from some addresses. -/
inductive Heap.Reach (heap : Heap) (roots : Address → Prop) : Address → Prop where
  | root {address : Address} (h : roots address) : Reach heap roots address
  | step {address other : Address} {frame : Frame} (h : Reach heap roots address)
      (hf : heap.frame? address = some frame) (hr : frame.RefersTo other) : Reach heap roots other

/-- What a run may touch that begins with these roots: what is reachable from them, and what is not
there yet. -/
def Machine.MayTouch (m : Machine) (roots : Address → Prop) (address : Address) : Prop :=
  m.heap.Reach roots address ∨ m.heap.next ≤ address

/-! ### Regions -/

/-- What is fixed for two runs: the addresses that they may touch, the heap that the first begins with,
and what was printed before either of them. -/
structure Region where
  inside : Address → Prop
  heap : Heap
  printed₁ : Array String
  printed₂ : Array String

namespace Region

/-- The functions that are at hand have their scopes inside. -/
def Holds (r : Region) (scope? : Option Address) : Prop := ∀ address, scope? = some address → r.inside address

/-- A frame that refers to the inside only. -/
def Confines (r : Region) (frame : Frame) : Prop := ∀ address, frame.RefersTo address → r.inside address

/-- The heaps agree inside, the first has not changed outside, and the inside is closed. -/
structure Matches (r : Region) (heap₁ heap₂ : Heap) : Prop where
  next : heap₁.next = heap₂.next
  fresh : ∀ address, heap₁.next ≤ address → r.inside address
  agree : ∀ address, r.inside address → heap₁.frame? address = heap₂.frame? address
  closed : ∀ address frame, r.inside address → heap₁.frame? address = some frame → r.Confines frame
  outside : ∀ address, ¬ r.inside address → heap₁.frame? address = r.heap.frame? address

/-- The states match, but for the scopes that are current, which are the given ones. -/
structure Related (r : Region) (scope₁ scope₂ : Address) (m₁ m₂ : Machine) : Prop where
  heap : r.Matches m₁.heap m₂.heap
  scope₁ : m₁.scope = scope₁
  scope₂ : m₂.scope = scope₂
  functions : m₁.functions = m₂.functions
  readings : m₁.readings = m₂.readings
  clock : m₁.clock = m₂.clock
  takes : m₁.takes = m₂.takes
  printed : ∃ texts, m₁.printed = r.printed₁ ++ texts ∧ m₂.printed = r.printed₂ ++ texts

variable {r : Region} {heap₁ heap₂ : Heap}

/-! ### Names -/

/-- The chain of a scope inside is inside, and the same on both heaps. -/
theorem Matches.chainFrom (h : r.Matches heap₁ heap₂) (more : Nat) {scope : Address}
    (hs : r.inside scope) :
    heap₁.chainFrom more scope = heap₂.chainFrom more scope ∧
      ∀ address ∈ heap₁.chainFrom more scope, r.inside address := by
  induction more generalizing scope with
  | zero => exact ⟨rfl, nofun⟩
  | succ more ih =>
      have hagree := h.agree scope hs
      simp only [Heap.chainFrom, ← hagree]
      cases hf : heap₁.frame? scope with
      | none => exact ⟨rfl, nofun⟩
      | some frame =>
          dsimp only
          cases he : frame.enclosing with
          | none =>
              refine ⟨rfl, fun address ha => ?_⟩
              rw [List.mem_singleton] at ha
              rw [ha]
              exact hs
          | some outer =>
              have houter : r.inside outer := h.closed scope frame hs hf outer (Or.inl he)
              obtain ⟨hsame, hinside⟩ := ih houter
              refine ⟨congrArg (scope :: ·) hsame, fun address ha => ?_⟩
              rcases List.mem_cons.1 ha with rfl | ha
              · exact hs
              · exact hinside address ha

theorem Matches.binds (h : r.Matches heap₁ heap₂) (name : String) {address : Address}
    (ha : r.inside address) : heap₁.binds name address = heap₂.binds name address := by
  unfold Heap.binds
  rw [h.agree address ha]

/-- **A name is found in the same frame of both heaps.** -/
theorem Matches.find? (h : r.Matches heap₁ heap₂) {scope : Address} (hs : r.inside scope)
    (name : String) : heap₁.find? scope name = heap₂.find? scope name := by
  obtain ⟨hsame, hinside⟩ := h.chainFrom (scope + 1) hs
  unfold Heap.find? Heap.chain
  rw [← hsame]
  generalize heap₁.chainFrom (scope + 1) scope = chain at hinside
  induction chain with
  | nil => rfl
  | cons address chain ih =>
      rw [List.find?_cons, List.find?_cons, h.binds name (hinside address List.mem_cons_self),
        ih fun other ho => hinside other (List.mem_cons_of_mem _ ho)]

theorem Matches.inside_of_find? (h : r.Matches heap₁ heap₂) {scope found : Address}
    (hs : r.inside scope) {name : String} (hf : heap₁.find? scope name = some found) :
    r.inside found :=
  (h.chainFrom (scope + 1) hs).2 found (Heap.find?_eq_some hf).1

/-- **A name has the same value on both heaps.** -/
theorem Matches.get? (h : r.Matches heap₁ heap₂) {scope : Address} (hs : r.inside scope)
    (name : String) : heap₁.get? scope name = heap₂.get? scope name := by
  unfold Heap.get?
  rw [← h.find? hs name]
  cases hf : heap₁.find? scope name with
  | none => rfl
  | some found =>
      have hfound := h.inside_of_find? hs hf
      simp only [Option.bind_some, Heap.own?]
      rw [h.agree found hfound]

/-- A function that is looked up has its scope inside. -/
theorem Matches.holds_of_get? (h : r.Matches heap₁ heap₂) {scope : Address} (hs : r.inside scope)
    {name : String} {value : Value} (hg : heap₁.get? scope name = some value) :
    r.Holds value.scope? := by
  obtain ⟨found, frame, hfound, hframe, hmem⟩ := Heap.get?_eq_some hg
  have hclosed := h.closed found frame (h.inside_of_find? hs hfound) hframe
  intro address ha
  exact hclosed address (Or.inr ⟨_, hmem, ha⟩)

/-! ### Changes -/

/-- Binding a name inside. -/
theorem Matches.define (h : r.Matches heap₁ heap₂) {scope : Address} (hs : r.inside scope)
    (name : String) {value : Value} (hv : r.Holds value.scope?) :
    r.Matches (heap₁.define scope name value) (heap₂.define scope name value) where
  next := by rw [Heap.next_define, Heap.next_define, h.next]
  fresh := by
    rw [Heap.next_define]
    exact h.fresh
  agree address ha := by rw [Heap.frame?_define, Heap.frame?_define, h.agree address ha]
  closed address frame ha hf := by
    rw [Heap.frame?_define] at hf
    split at hf
    · obtain ⟨old, hold, rfl⟩ := Option.map_eq_some_iff.1 hf
      have hclosed := h.closed address old ha hold
      rintro other (he | ⟨binding, hb, hr⟩)
      · exact hclosed other (Or.inl he)
      · rcases Bindings.mem_set hb with hb | hb
        · exact hclosed other (Or.inr ⟨binding, hb, hr⟩)
        · rw [hb] at hr
          exact hv other hr
    · exact h.closed address frame ha hf
  outside address ha := by
    have hne : scope ≠ address := fun he => ha (he ▸ hs)
    rw [Heap.frame?_define, if_neg hne, h.outside address ha]

/-- Adding a frame that refers to the inside only. -/
theorem Matches.allocate (h : r.Matches heap₁ heap₂) {frame : Frame} (hf : r.Confines frame) :
    r.Matches (heap₁.allocate frame) (heap₂.allocate frame) where
  next := by rw [Heap.next_allocate, Heap.next_allocate, h.next]
  fresh address ha := by
    rw [Heap.next_allocate] at ha
    exact h.fresh address (Nat.le_of_succ_le ha)
  agree address ha := by
    rw [Heap.frame?_allocate, Heap.frame?_allocate, h.next, h.agree address ha]
  closed address other ha ho := by
    rw [Heap.frame?_allocate] at ho
    split at ho
    · cases ho
      exact hf
    · exact h.closed address other ha ho
  outside address ha := by
    have hne : address ≠ heap₁.next := fun he => ha (h.fresh address (Nat.le_of_eq he.symm))
    rw [Heap.frame?_allocate, if_neg hne, h.outside address ha]

/-! ### Related states -/

section

variable {c c₁ c₂ : Address} {m₁ m₂ : Machine}

theorem Related.write (h : r.Related c₁ c₂ m₁ m₂) (text : String) :
    r.Related c₁ c₂ (m₁.write text) (m₂.write text) := by
  obtain ⟨texts, hprinted₁, hprinted₂⟩ := h.printed
  refine { h with printed := ⟨texts.push text, ?_, ?_⟩ }
  · unfold Machine.write
    rw [hprinted₁, Array.push_append]
  · unfold Machine.write
    rw [hprinted₂, Array.push_append]

theorem Related.readClock (h : r.Related c₁ c₂ m₁ m₂) :
    m₁.readClock.1 = m₂.readClock.1 ∧ r.Related c₁ c₂ m₁.readClock.2 m₂.readClock.2 := by
  refine ⟨?_, { h with readings := congrArg (· + 1) h.readings }⟩
  unfold Machine.readClock
  rw [h.clock, h.readings]

theorem Related.entering (h : r.Related c₁ c₂ m₁ m₂) (d₁ d₂ : Address) :
    r.Related d₁ d₂ (m₁.entering d₁) (m₂.entering d₂) :=
  { h with scope₁ := rfl, scope₂ := rfl }

theorem Related.allocate (h : r.Related c₁ c₂ m₁ m₂) {frame : Frame} (hf : r.Confines frame) :
    r.Related c₁ c₂ (m₁.allocate frame) (m₂.allocate frame) :=
  { h with heap := h.heap.allocate hf }

/-- The address of the next frame is inside. -/
theorem Related.inside_next (h : r.Related c₁ c₂ m₁ m₂) : r.inside m₁.heap.next :=
  h.heap.fresh _ (Nat.le_refl _)

theorem Related.define (h : r.Related c c m₁ m₂) (hc : r.inside c) (name : String) {value : Value}
    (hv : r.Holds value.scope?) : r.Related c c (m₁.define name value) (m₂.define name value) := by
  refine { h with heap := ?_ }
  unfold Machine.define
  dsimp only
  rw [h.scope₁, h.scope₂]
  exact h.heap.define hc name hv

theorem Related.makeFunction (h : r.Related c c m₁ m₂) (hc : r.inside c) (name : Token)
    (parameters : List Token) (body : List Stmt) :
    r.Related c c (Machine.makeFunction name parameters body m₁)
      (Machine.makeFunction name parameters body m₂) := by
  have hcount : r.Related c c { m₁ with functions := m₁.functions + 1 }
      { m₂ with functions := m₂.functions + 1 } :=
    { h with functions := congrArg (· + 1) h.functions }
  unfold Machine.makeFunction
  dsimp only
  rw [h.scope₁, h.scope₂, h.functions] at *
  refine hcount.define hc name.lexeme ?_
  intro address ha
  cases ha
  exact hc

/-! ### Related ends -/

/-- Two runs end with the same answer or the same failure, in related states, or neither ends. -/
inductive Ends (r : Region) (c₁ c₂ : Address) {α : Type} (held : α → Prop) :
    Outcome α → Outcome α → Prop where
  | ok {value : α} {m₁ m₂ : Machine} (hv : held value) (h : r.Related c₁ c₂ m₁ m₂) :
      Ends r c₁ c₂ held (.ok value m₁) (.ok value m₂)
  | failed {failure : Failure} {m₁ m₂ : Machine} (h : r.Related c₁ c₂ m₁ m₂) :
      Ends r c₁ c₂ held (.failed failure m₁) (.failed failure m₂)
  | outOfFuel : Ends r c₁ c₂ held .outOfFuel .outOfFuel

variable {α β : Type} {held : α → Prop} {held' : β → Prop}

theorem Ends.bind {o₁ o₂ : Outcome α} {next₁ next₂ : α → Machine → Outcome β}
    (h : r.Ends c₁ c₂ held o₁ o₂)
    (hn : ∀ value m₁ m₂, held value → r.Related c₁ c₂ m₁ m₂ →
      r.Ends c₁ c₂ held' (next₁ value m₁) (next₂ value m₂)) :
    r.Ends c₁ c₂ held' (o₁.bind next₁) (o₂.bind next₂) := by
  cases h with
  | ok hv hm => exact hn _ _ _ hv hm
  | failed hm => exact .failed hm
  | outOfFuel => exact .outOfFuel

/-- Each run goes back to the scope it came from. -/
theorem Ends.leaving {o₁ o₂ : Outcome α} {d₁ d₂ : Address} (h : r.Ends d₁ d₂ held o₁ o₂) :
    r.Ends c₁ c₂ held (o₁.leaving c₁) (o₂.leaving c₂) := by
  cases h with
  | ok hv hm => exact .ok hv (hm.entering c₁ c₂)
  | failed hm => exact .failed (hm.entering c₁ c₂)
  | outOfFuel => exact .outOfFuel

theorem Ends.ofExcept {result : Except Failure α} (h : r.Related c₁ c₂ m₁ m₂)
    (hv : ∀ value, result = .ok value → held value) :
    r.Ends c₁ c₂ held (Outcome.ofExcept result m₁) (Outcome.ofExcept result m₂) := by
  cases result with
  | ok value => exact .ok (hv value rfl) h
  | error failure => exact .failed h

/-- The value has its scope inside, if it is a function. -/
def HoldsValue (r : Region) (value : Value) : Prop := r.Holds value.scope?

/-- The value given back has its scope inside, if it is a function. -/
def HoldsCompletion (r : Region) (completion : Completion) : Prop := r.Holds completion.scope?

theorem holdsValue_of_isData {value : Value} (h : value.isData = true) : r.HoldsValue value := by
  unfold HoldsValue Holds
  rw [Value.scope?_of_isData h]
  exact nofun

theorem ends_lookup (h : r.Related c c m₁ m₂) (hc : r.inside c) (name : Token) :
    r.Ends c c r.HoldsValue (Machine.lookup name m₁) (Machine.lookup name m₂) := by
  unfold Machine.lookup
  rw [h.scope₁, h.scope₂, ← h.heap.get? hc name.lexeme]
  cases hg : m₁.heap.get? c name.lexeme with
  | none => exact .failed h
  | some value => exact .ok (h.heap.holds_of_get? hc hg) h

theorem ends_assign (h : r.Related c c m₁ m₂) (hc : r.inside c) (name : Token) {value : Value}
    (hv : r.HoldsValue value) :
    r.Ends c c r.HoldsValue (Machine.assign name value m₁) (Machine.assign name value m₂) := by
  rw [Machine.assign_eq, Machine.assign_eq]
  rw [h.scope₁, h.scope₂, ← h.heap.find? hc name.lexeme]
  cases hf : m₁.heap.find? c name.lexeme with
  | none => exact .failed h
  | some found =>
      have hdefine := h.heap.define (h.heap.inside_of_find? hc hf) name.lexeme hv
      exact .ok hv { h with heap := hdefine, scope₁ := rfl, scope₂ := rfl }

/-- Both outputs take the text, or neither does. -/
theorem ends_print (h : r.Related c₁ c₂ m₁ m₂) (text : String) :
    r.Ends c₁ c₂ r.HoldsCompletion (Machine.print text m₁) (Machine.print text m₂) := by
  unfold Machine.print
  rw [h.takes]
  split
  · exact .ok nofun (h.write text)
  · exact .failed h

end

/-! ### Running -/

open Machine

/-- Running with so much fuel stays inside, whatever is run. -/
structure Confined (r : Region) (fuel : Nat) : Prop where
  evaluate : ∀ e {c m₁ m₂}, r.inside c → r.Related c c m₁ m₂ →
    r.Ends c c r.HoldsValue (Machine.evaluate fuel e m₁) (Machine.evaluate fuel e m₂)
  evaluateAll : ∀ es {c m₁ m₂}, r.inside c → r.Related c c m₁ m₂ →
    r.Ends c c (fun values => ∀ value ∈ values, r.HoldsValue value)
      (Machine.evaluateAll fuel es m₁) (Machine.evaluateAll fuel es m₂)
  apply : ∀ paren callee arguments {c₁ c₂ m₁ m₂}, r.HoldsValue callee →
    (∀ value ∈ arguments, r.HoldsValue value) → r.Related c₁ c₂ m₁ m₂ →
      r.Ends c₁ c₂ r.HoldsValue (Machine.apply fuel paren callee arguments m₁)
        (Machine.apply fuel paren callee arguments m₂)
  invoke : ∀ f arguments {c₁ c₂ m₁ m₂}, r.inside f.scope →
    (∀ value ∈ arguments, r.HoldsValue value) → r.Related c₁ c₂ m₁ m₂ →
      r.Ends c₁ c₂ r.HoldsValue (Machine.invoke fuel f arguments m₁)
        (Machine.invoke fuel f arguments m₂)
  execute : ∀ s {c m₁ m₂}, r.inside c → r.Related c c m₁ m₂ →
    r.Ends c c r.HoldsCompletion (Machine.execute fuel s m₁) (Machine.execute fuel s m₂)
  repeating : ∀ condition body {c m₁ m₂}, r.inside c → r.Related c c m₁ m₂ →
    r.Ends c c r.HoldsCompletion (Machine.repeating fuel condition body m₁)
      (Machine.repeating fuel condition body m₂)
  executeAll : ∀ ss {c m₁ m₂}, r.inside c → r.Related c c m₁ m₂ →
    r.Ends c c r.HoldsCompletion (Machine.executeAll fuel ss m₁) (Machine.executeAll fuel ss m₂)
  executeIn : ∀ scope body {c₁ c₂ m₁ m₂}, r.inside scope → r.Related c₁ c₂ m₁ m₂ →
    r.Ends c₁ c₂ r.HoldsCompletion (Machine.executeIn fuel scope body m₁)
      (Machine.executeIn fuel scope body m₂)

variable {fuel : Nat} {c c₁ c₂ : Address} {m₁ m₂ : Machine}

theorem Confined.evaluate_succ (h : r.Confined fuel) (e : Expr) (hc : r.inside c)
    (hm : r.Related c c m₁ m₂) :
    r.Ends c c r.HoldsValue (Machine.evaluate (fuel + 1) e m₁)
      (Machine.evaluate (fuel + 1) e m₂) := by
  cases e with
  | assign name value =>
      refine (h.evaluate value hc hm).bind fun value m₁ m₂ hv hm => ?_
      exact ends_assign hm hc name hv
  | binary left operator right =>
      refine (h.evaluate left hc hm).bind fun x m₁ m₂ _ hm => ?_
      refine (h.evaluate right hc hm).bind fun y m₁ m₂ _ hm => ?_
      exact .ofExcept hm fun value hv => holdsValue_of_isData (Value.isData_binary hv)
  | call callee paren arguments =>
      refine (h.evaluate callee hc hm).bind fun f m₁ m₂ hf hm => ?_
      refine (h.evaluateAll arguments hc hm).bind fun values m₁ m₂ hvalues hm => ?_
      exact h.apply paren f values hf hvalues hm
  | grouping inner => exact h.evaluate inner hc hm
  | literal value =>
      refine .ok ?_ hm
      unfold HoldsValue Holds
      rw [Value.scope?_ofLiteral]
      exact nofun
  | logical left operator right =>
      refine (h.evaluate left hc hm).bind fun x m₁ m₂ hx hm => ?_
      split
      · exact .ok hx hm
      · exact h.evaluate right hc hm
  | unary operator right =>
      refine (h.evaluate right hc hm).bind fun x m₁ m₂ _ hm => ?_
      exact .ofExcept hm fun value hv => holdsValue_of_isData (Value.isData_unary hv)
  | lookup name => exact ends_lookup hm hc name

theorem Confined.evaluateAll_succ (h : r.Confined fuel) (es : List Expr) (hc : r.inside c)
    (hm : r.Related c c m₁ m₂) :
    r.Ends c c (fun values => ∀ value ∈ values, r.HoldsValue value)
      (Machine.evaluateAll (fuel + 1) es m₁) (Machine.evaluateAll (fuel + 1) es m₂) := by
  cases es with
  | nil => exact .ok (List.forall_mem_nil _) hm
  | cons e es =>
      refine (h.evaluate e hc hm).bind fun x m₁ m₂ hx hm => ?_
      refine (h.evaluateAll es hc hm).bind fun values m₁ m₂ hvalues hm => ?_
      exact .ok (List.forall_mem_cons.2 ⟨hx, hvalues⟩) hm

theorem Confined.apply_succ (h : r.Confined fuel) (paren : Token) (callee : Value)
    (arguments : List Value) (hf : r.HoldsValue callee)
    (ha : ∀ value ∈ arguments, r.HoldsValue value) (hm : r.Related c₁ c₂ m₁ m₂) :
    r.Ends c₁ c₂ r.HoldsValue (Machine.apply (fuel + 1) paren callee arguments m₁)
      (Machine.apply (fuel + 1) paren callee arguments m₂) := by
  have hcheck : r.Ends c₁ c₂ (fun _ => True)
      (Outcome.ofExcept (callee.checkCall paren arguments.length) m₁)
      (Outcome.ofExcept (callee.checkCall paren arguments.length) m₂) :=
    .ofExcept hm fun _ _ => trivial
  refine hcheck.bind fun _ m₁ m₂ _ hm => ?_
  cases callee with
  | closure f => exact h.invoke f arguments (hf f.scope rfl) ha hm
  | native native =>
      cases native
      cases arguments with
      | nil =>
          obtain ⟨hreading, hafter⟩ := hm.readClock
          dsimp only
          rw [hreading]
          exact .ok nofun hafter
      | cons argument arguments => exact .failed hm
  | stub f => exact .ok nofun hm
  | _ => exact .failed hm

theorem Confined.invoke_succ (h : r.Confined fuel) (f : Closure) (arguments : List Value)
    (hf : r.inside f.scope) (ha : ∀ value ∈ arguments, r.HoldsValue value)
    (hm : r.Related c₁ c₂ m₁ m₂) :
    r.Ends c₁ c₂ r.HoldsValue (Machine.invoke (fuel + 1) f arguments m₁)
      (Machine.invoke (fuel + 1) f arguments m₂) := by
  have hframe : r.Confines (callFrame f arguments) := by
    rintro address (he | ⟨binding, hb, hr⟩)
    · cases he
      exact hf
    · rcases Bindings.mem_setAll hb with hb | hb
      · cases hb
      · exact ha binding.2 hb address hr
  have hin := h.executeIn m₁.heap.next f.body hm.inside_next (hm.allocate hframe)
  have hnext : m₂.heap.next = m₁.heap.next := hm.heap.next.symm
  simp only [Machine.invoke, Outcome.map, hnext]
  refine hin.bind fun completion m₁ m₂ hcompletion hm => ?_
  cases completion with
  | normal => exact .ok nofun hm
  | returned value => exact .ok hcompletion hm

theorem Confined.execute_succ (h : r.Confined fuel) (s : Stmt) (hc : r.inside c)
    (hm : r.Related c c m₁ m₂) :
    r.Ends c c r.HoldsCompletion (Machine.execute (fuel + 1) s m₁)
      (Machine.execute (fuel + 1) s m₂) := by
  cases s with
  | block body =>
      -- The new frame refers to the current scope only, which lies inside.
      have hframe : r.Confines m₁.blockFrame := by
        rintro address (he | ⟨binding, hb, -⟩)
        · cases he
          rw [hm.scope₁]
          exact hc
        · cases hb
      have hsame : m₂.blockFrame = m₁.blockFrame := by
        unfold blockFrame
        rw [hm.scope₁, hm.scope₂]
      have hnext : m₂.heap.next = m₁.heap.next := hm.heap.next.symm
      simp only [Machine.execute, hsame, hnext]
      exact h.executeIn m₁.heap.next body hm.inside_next (hm.allocate hframe)
  | expression value => exact (h.evaluate value hc hm).bind fun _ m₁ m₂ _ hm => .ok nofun hm
  | function name parameters body => exact .ok nofun (hm.makeFunction hc name parameters body)
  | branch condition thenBranch elseBranch =>
      refine (h.evaluate condition hc hm).bind fun value m₁ m₂ _ hm => ?_
      split
      · exact h.execute thenBranch hc hm
      · cases elseBranch with
        | none => exact .ok nofun hm
        | some elseBranch => exact h.execute elseBranch hc hm
  | print value =>
      refine (h.evaluate value hc hm).bind fun value m₁ m₂ _ hm => ?_
      have hwritten : r.Ends c c (fun _ => True) (Outcome.ofExcept value.written m₁)
          (Outcome.ofExcept value.written m₂) := .ofExcept hm fun _ _ => trivial
      exact hwritten.bind fun text m₁ m₂ _ hm => ends_print hm text
  | giveBack keyword value =>
      cases value with
      | none => exact .ok nofun hm
      | some value => exact (h.evaluate value hc hm).bind fun value m₁ m₂ hv hm => .ok hv hm
  | declare name initializer =>
      cases initializer with
      | none => exact .ok nofun (hm.define hc name.lexeme nofun)
      | some value =>
          refine (h.evaluate value hc hm).bind fun value m₁ m₂ hv hm => ?_
          exact .ok nofun (hm.define hc name.lexeme hv)
  | loop condition body => exact h.repeating condition body hc hm

theorem Confined.repeating_succ (h : r.Confined fuel) (condition : Expr) (body : Stmt)
    (hc : r.inside c) (hm : r.Related c c m₁ m₂) :
    r.Ends c c r.HoldsCompletion (Machine.repeating (fuel + 1) condition body m₁)
      (Machine.repeating (fuel + 1) condition body m₂) := by
  refine (h.evaluate condition hc hm).bind fun value m₁ m₂ _ hm => ?_
  split
  · refine (h.execute body hc hm).bind fun completion m₁ m₂ hcompletion hm => ?_
    cases completion with
    | normal => exact h.repeating condition body hc hm
    | returned value => exact .ok hcompletion hm
  · exact .ok nofun hm

theorem Confined.executeAll_succ (h : r.Confined fuel) (ss : List Stmt) (hc : r.inside c)
    (hm : r.Related c c m₁ m₂) :
    r.Ends c c r.HoldsCompletion (Machine.executeAll (fuel + 1) ss m₁)
      (Machine.executeAll (fuel + 1) ss m₂) := by
  cases ss with
  | nil => exact .ok nofun hm
  | cons s ss =>
      refine (h.execute s hc hm).bind fun completion m₁ m₂ hcompletion hm => ?_
      cases completion with
      | normal => exact h.executeAll ss hc hm
      | returned value => exact .ok hcompletion hm

/-- The scopes that the two runs come from need not be the same. -/
theorem Confined.executeIn_succ (h : r.Confined fuel) (scope : Address) (body : List Stmt)
    (hs : r.inside scope) (hm : r.Related c₁ c₂ m₁ m₂) :
    r.Ends c₁ c₂ r.HoldsCompletion (Machine.executeIn (fuel + 1) scope body m₁)
      (Machine.executeIn (fuel + 1) scope body m₂) := by
  simp only [Machine.executeIn, hm.scope₁, hm.scope₂]
  exact (h.executeAll body hs (hm.entering scope scope)).leaving

/-- **Runs from related states end in related states.** -/
theorem confined (r : Region) (fuel : Nat) : r.Confined fuel := by
  induction fuel with
  | zero =>
      constructor
      all_goals intros; exact .outOfFuel
  | succ fuel ih =>
      exact ⟨fun e => ih.evaluate_succ e, fun es => ih.evaluateAll_succ es,
        fun paren f arguments => ih.apply_succ paren f arguments,
        fun f arguments => ih.invoke_succ f arguments, fun s => ih.execute_succ s,
        fun condition body => ih.repeating_succ condition body, fun ss => ih.executeAll_succ ss,
        fun scope body => ih.executeIn_succ scope body⟩

end Region

/-! ### Locality -/

namespace Machine

/-- Frames that were there and were not reachable are as they were. -/
def Unchanged (roots : Address → Prop) (m m' : Machine) : Prop :=
  ∀ address, address < m.heap.next → ¬ m.heap.Reach roots address →
    m'.heap.frame? address = m.heap.frame? address

/-- The states are the same as far as can be seen from the roots, make new frames and functions and read
the clock alike, and have outputs that take the same texts. -/
structure AgreeFrom (roots : Address → Prop) (m₁ m₂ : Machine) : Prop where
  frames : ∀ address, m₁.heap.Reach roots address →
    m₁.heap.frame? address = m₂.heap.frame? address
  next : m₁.heap.next = m₂.heap.next
  functions : m₁.functions = m₂.functions
  readings : m₁.readings = m₂.readings
  clock : m₁.clock = m₂.clock
  takes : m₁.takes = m₂.takes

/-- From two states on, the same was printed and made, and the reachable and the new frames are the
same. -/
structure ChangedAlike (roots : Address → Prop) (m₁ m₂ m₁' m₂' : Machine) : Prop where
  frames : ∀ address, m₁.MayTouch roots address →
    m₁'.heap.frame? address = m₂'.heap.frame? address
  next : m₁'.heap.next = m₂'.heap.next
  functions : m₁'.functions = m₂'.functions
  readings : m₁'.readings = m₂'.readings
  printed : ∃ texts, m₁'.printed = m₁.printed ++ texts ∧ m₂'.printed = m₂.printed ++ texts

/-- Runs from two states end alike: with the same answer, with the same failure, or not at all. -/
inductive EndAlike (roots : Address → Prop) (m₁ m₂ : Machine) {α : Type} :
    Outcome α → Outcome α → Prop where
  | ok {value : α} {m₁' m₂' : Machine} (h : ChangedAlike roots m₁ m₂ m₁' m₂') :
      EndAlike roots m₁ m₂ (.ok value m₁') (.ok value m₂')
  | failed {failure : Failure} {m₁' m₂' : Machine} (h : ChangedAlike roots m₁ m₂ m₁' m₂') :
      EndAlike roots m₁ m₂ (.failed failure m₁') (.failed failure m₂')
  | outOfFuel : EndAlike roots m₁ m₂ .outOfFuel .outOfFuel

/-- Running stays within what is reachable from the roots.  The answer may refer to a scope. -/
structure Local {α : Type} (run : Machine → Outcome α) (roots : Machine → Address → Prop)
    (scope? : α → Option Address) : Prop where
  /-- No other frame is changed, however the run ends. -/
  unchanged : ∀ m, (run m).Ends (fun _ m' => Unchanged (roots m) m m')
    (fun _ m' => Unchanged (roots m) m m')
  /-- No other frame is looked at. -/
  alike : ∀ m₁ m₂, roots m₁ = roots m₂ → AgreeFrom (roots m₁) m₁ m₂ →
    EndAlike (roots m₁) m₁ m₂ (run m₁) (run m₂)
  /-- No other frame becomes reachable. -/
  reaches : ∀ m, (run m).Ends
    (fun value m' => ∀ address,
      m'.heap.Reach (fun root => roots m root ∨ scope? value = some root) address →
        m.MayTouch (roots m) address)
    (fun _ m' => ∀ address, m'.heap.Reach (roots m) address → m.MayTouch (roots m) address)

theorem AgreeFrom.refl (roots : Address → Prop) (m : Machine) : AgreeFrom roots m m :=
  ⟨fun _ _ => rfl, rfl, rfl, rfl, rfl, rfl⟩

/-- The region of two runs: what the first may touch. -/
def regionOf (roots : Address → Prop) (m₁ m₂ : Machine) : Region where
  inside := m₁.MayTouch roots
  heap := m₁.heap
  printed₁ := m₁.printed
  printed₂ := m₂.printed

/-- **States that agree are related in the beginning.** -/
theorem AgreeFrom.related {roots : Address → Prop} {m₁ m₂ : Machine} (h : AgreeFrom roots m₁ m₂) :
    (regionOf roots m₁ m₂).Related m₁.scope m₂.scope m₁ m₂ where
  heap :=
    { next := h.next
      fresh := fun _ ha => Or.inr ha
      agree := by
        rintro address (ha | ha)
        · exact h.frames address ha
        · rw [Heap.frame?_eq_none_iff.2 ha, Heap.frame?_eq_none_iff.2 (h.next ▸ ha)]
      closed := by
        rintro address frame (ha | ha) hf other hr
        · exact Or.inl (.step ha hf hr)
        · rw [Heap.frame?_eq_none_iff.2 ha] at hf
          cases hf
      outside := fun _ _ => rfl }
  scope₁ := rfl
  scope₂ := rfl
  functions := h.functions
  readings := h.readings
  clock := h.clock
  takes := h.takes
  printed := ⟨#[], Array.append_empty.symm, Array.append_empty.symm⟩

section

variable {roots : Address → Prop} {m₁ m₂ m₁' m₂' : Machine} {c₁ c₂ : Address}

theorem changedAlike_of_related (h : (regionOf roots m₁ m₂).Related c₁ c₂ m₁' m₂') :
    ChangedAlike roots m₁ m₂ m₁' m₂' :=
  ⟨h.heap.agree, h.heap.next, h.functions, h.readings, h.printed⟩

theorem unchanged_of_related (h : (regionOf roots m₁ m₂).Related c₁ c₂ m₁' m₂') :
    Unchanged roots m₁ m₁' := by
  intro address hlt hn
  refine h.heap.outside address ?_
  rintro (ha | ha)
  · exact hn ha
  · exact Nat.not_le_of_lt hlt ha

/-- What is reachable from inside is inside. -/
theorem mayTouch_of_reach (h : (regionOf roots m₁ m₂).Related c₁ c₂ m₁' m₂')
    {roots' : Address → Prop} (hroots : ∀ address, roots' address → m₁.MayTouch roots address)
    {address : Address} (ha : m₁'.heap.Reach roots' address) : m₁.MayTouch roots address := by
  induction ha with
  | root ha => exact hroots _ ha
  | step _ hf hr ih => exact h.heap.closed _ _ ih hf _ hr

end

/-- A run that stays in every region is local. -/
theorem local_of_confined {α : Type} {run : Machine → Outcome α}
    {roots : Machine → Address → Prop} {scope? : α → Option Address}
    (h : ∀ (r : Region) m₁ m₂, (∀ address, roots m₁ address → r.inside address) →
      roots m₁ = roots m₂ → r.Related m₁.scope m₂.scope m₁ m₂ →
        r.Ends m₁.scope m₂.scope (fun value => r.Holds (scope? value)) (run m₁) (run m₂)) :
    Local run roots scope? := by
  have hends : ∀ m₁ m₂, roots m₁ = roots m₂ → AgreeFrom (roots m₁) m₁ m₂ →
      (regionOf (roots m₁) m₁ m₂).Ends m₁.scope m₂.scope
        (fun value => (regionOf (roots m₁) m₁ m₂).Holds (scope? value)) (run m₁) (run m₂) :=
    fun m₁ m₂ hroots hagree => h _ m₁ m₂ (fun _ ha => Or.inl (.root ha)) hroots hagree.related
  refine ⟨fun m => ?_, fun m₁ m₂ hroots hagree => ?_, fun m => ?_⟩
  · -- A run compared with itself shows what it left unchanged.
    have hself := hends m m rfl (.refl _ m)
    generalize run m = outcome at hself
    cases hself with
    | ok _ hm => exact unchanged_of_related hm
    | failed hm => exact unchanged_of_related hm
    | outOfFuel => trivial
  · -- Two runs that agree on all they can reach go on to agree.
    have hboth := hends m₁ m₂ hroots hagree
    generalize run m₁ = outcome₁ at hboth
    generalize run m₂ = outcome₂ at hboth
    cases hboth with
    | ok _ hm => exact .ok (changedAlike_of_related hm)
    | failed hm => exact .failed (changedAlike_of_related hm)
    | outOfFuel => exact .outOfFuel
  · have hself := hends m m rfl (.refl _ m)
    generalize run m = outcome at hself
    cases hself with
    | ok hv hm =>
        intro address ha
        refine mayTouch_of_reach hm ?_ ha
        rintro root (hr | hr)
        · exact Or.inl (.root hr)
        · exact hv root hr
    | failed hm => exact fun address => mayTouch_of_reach hm fun _ hr => Or.inl (.root hr)
    | outOfFuel => trivial

/-- The scope that is current. -/
def currentScope (m : Machine) (address : Address) : Prop := address = m.scope

/-- The scopes of a function that is called and of those among its arguments. -/
def callScopes (callee : Value) (arguments : List Value) (address : Address) : Prop :=
  callee.scope? = some address ∨ ∃ value ∈ arguments, value.scope? = some address

/-- **Running is local.**  An expression or a statement stays within what is reachable from the scope
that is current; a call of any value, and the running of a function's body, within what is reachable
from the scopes of the function and its arguments, whatever scope it is called from. -/
theorem locality (fuel : Nat) :
    (∀ e, Local (evaluate fuel e) currentScope Value.scope?) ∧
      (∀ s, Local (execute fuel s) currentScope Completion.scope?) ∧
      (∀ paren callee arguments,
        Local (apply fuel paren callee arguments) (fun _ => callScopes callee arguments)
          Value.scope?) ∧
      ∀ f arguments,
        Local (invoke fuel f arguments) (fun _ => callScopes (.closure f) arguments)
          Value.scope? := by
  refine ⟨fun e => ?_, fun s => ?_, fun paren callee arguments => ?_, fun f arguments => ?_⟩
  · refine local_of_confined fun r m₁ m₂ hinside hroots hm => ?_
    have hscope : m₁.scope = m₂.scope := (congrFun hroots m₁.scope).mp rfl
    rw [← hscope] at hm ⊢
    exact (Region.confined r fuel).evaluate e (hinside _ rfl) hm
  · refine local_of_confined fun r m₁ m₂ hinside hroots hm => ?_
    have hscope : m₁.scope = m₂.scope := (congrFun hroots m₁.scope).mp rfl
    rw [← hscope] at hm ⊢
    exact (Region.confined r fuel).execute s (hinside _ rfl) hm
  · refine local_of_confined fun r m₁ m₂ hinside _ hm => ?_
    exact (Region.confined r fuel).apply paren callee arguments (fun _ ha => hinside _ (Or.inl ha))
      (fun value hv _ ha => hinside _ (Or.inr ⟨value, hv, ha⟩)) hm
  · refine local_of_confined fun r m₁ m₂ hinside _ hm => ?_
    exact (Region.confined r fuel).invoke f arguments (hinside _ (Or.inl rfl))
      (fun value hv _ ha => hinside _ (Or.inr ⟨value, hv, ha⟩)) hm

/-- A state with a frame that binds a name and, beside it, one that binds the same name to the given
value. -/
def besideState (beside : Value) (scope : Address) : Machine :=
  { start (fun _ => Binary64.zero) with
    heap := ⟨#[globalFrame, ⟨[("n", .number (.int 1))], some globals⟩,
      ⟨[("n", beside)], some globals⟩]⟩
    scope := scope }

/-- A function of the first of these two frames, which looks the name up. -/
def besideFunction : Closure :=
  ⟨⟨.identifier, "f", none, 1⟩, [],
    [.giveBack ⟨.returnWord, "return", none, 1⟩ (some (.lookup ⟨.identifier, "n", none, 1⟩))], 1, 0⟩

theorem reach_besideState {beside : Value} {scope address : Address}
    (h : (besideState beside scope).heap.Reach (callScopes (.closure besideFunction) []) address) :
    address = 0 ∨ address = 1 := by
  induction h with
  | root h =>
      rcases h with h | ⟨value, hv, -⟩
      · cases h
        exact Or.inr rfl
      · cases hv
  | step _ hf hr ih =>
      rcases ih with rfl | rfl
      · cases hf
        rcases hr with he | ⟨binding, hb, hr⟩
        · cases he
        · rw [List.mem_singleton.1 hb] at hr
          cases hr
      · cases hf
        rcases hr with he | ⟨binding, hb, hr⟩
        · cases he
          exact Or.inl rfl
        · rw [List.mem_singleton.1 hb] at hr
          cases hr

/-- The function gives back the number of its own frame, called from either scope and with anything in
the frame beside it. -/
theorem locality_besideState :
    ∃ m₁ m₂,
      invoke 5 besideFunction [] (besideState .nil 0) = .ok (.number (.int 1)) m₁ ∧
        invoke 5 besideFunction [] (besideState (.bool true) 2) = .ok (.number (.int 1)) m₂ ∧
        ChangedAlike (callScopes (.closure besideFunction) []) (besideState .nil 0)
          (besideState (.bool true) 2) m₁ m₂ := by
  have hagree : AgreeFrom (callScopes (.closure besideFunction) []) (besideState .nil 0)
      (besideState (.bool true) 2) := by
    refine ⟨fun address ha => ?_, rfl, rfl, rfl, rfl, rfl⟩
    rcases reach_besideState ha with rfl | rfl <;> rfl
  have hrun : invoke 5 besideFunction [] (besideState .nil 0) = .ok (.number (.int 1))
      ((besideState .nil 0).allocate (callFrame besideFunction [])) := rfl
  have halike := ((locality 5).2.2.2 besideFunction []).alike _ _ rfl hagree
  rw [hrun] at halike ⊢
  generalize invoke 5 besideFunction [] (besideState (.bool true) 2) = outcome at halike ⊢
  cases halike with
  | ok h => exact ⟨_, _, rfl, rfl, h⟩

end Machine

end LoxLang
