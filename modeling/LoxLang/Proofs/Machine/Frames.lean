/-
**Frames after a change.**

Binding a name changes one frame, at one name; a frame that is added has the next address, and the
others stay.  What a frame binds after a change it bound before, or it is what was bound.

* `LoxLang.Bindings.mem_set`, `LoxLang.Bindings.mem_setAll` — the bindings after a change;
* `LoxLang.Heap.frame?_define`, `LoxLang.Heap.frame?_allocate` — **the frames after a change**;
* `LoxLang.Heap.get?_eq_some` — where a value that is looked up stands.
-/

import LoxLang.Heap

set_option relaxedAutoImplicit false
set_option autoImplicit false

namespace LoxLang

/-! ### Bindings -/

namespace Bindings

theorem mem_set {name : String} {value : Value} {bindings : Bindings} {binding : String × Value}
    (h : binding ∈ bindings.set name value) : binding ∈ bindings ∨ binding.2 = value := by
  induction bindings with
  | nil =>
      rw [set, List.mem_singleton] at h
      exact Or.inr (congrArg Prod.snd h)
  | cons first others ih =>
      obtain ⟨bound, old⟩ := first
      rw [set] at h
      split at h
      · rcases List.mem_cons.1 h with h | h
        · exact Or.inr (congrArg Prod.snd h)
        · exact Or.inl (List.mem_cons_of_mem _ h)
      · rcases List.mem_cons.1 h with h | h
        · rw [h]
          exact Or.inl List.mem_cons_self
        · exact (ih h).imp (List.mem_cons_of_mem _) id

theorem mem_setAll {names : List String} {values : List Value} {bindings : Bindings}
    {binding : String × Value} (h : binding ∈ bindings.setAll names values) :
    binding ∈ bindings ∨ binding.2 ∈ values := by
  induction names generalizing values bindings with
  | nil => exact Or.inl h
  | cons name names ih =>
      cases values with
      | nil => exact Or.inl h
      | cons value values =>
          have hcons : bindings.setAll (name :: names) (value :: values) =
              (bindings.set name value).setAll names values := rfl
          rw [hcons] at h
          rcases ih h with h | h
          · rcases mem_set h with h | h
            · exact Or.inl h
            · rw [h]
              exact Or.inr List.mem_cons_self
          · exact Or.inr (List.mem_cons_of_mem _ h)

/-- Binding names binds no others. -/
theorem mem_names_setAll {names : List String} {values : List Value} {bindings : Bindings}
    {name : String} (h : name ∈ (bindings.setAll names values).names) :
    name ∈ bindings.names ∨ name ∈ names := by
  induction names generalizing values bindings with
  | nil => exact Or.inl h
  | cons first names ih =>
      cases values with
      | nil => exact Or.inl h
      | cons value values =>
          have hcons : bindings.setAll (first :: names) (value :: values) =
              (bindings.set first value).setAll names values := rfl
          rw [hcons] at h
          rcases ih h with h | h
          · rw [names_set] at h
            split at h
            · exact Or.inl h
            · exact (List.mem_append.1 h).imp id fun hm =>
                List.mem_cons.2 (Or.inl (List.mem_singleton.1 hm))
          · exact Or.inr (List.mem_cons_of_mem _ h)

theorem mem_of_lookup? {name : String} {value : Value} {bindings : Bindings}
    (h : bindings.lookup? name = some value) : (name, value) ∈ bindings := by
  induction bindings with
  | nil => cases h
  | cons first others ih =>
      obtain ⟨bound, old⟩ := first
      rw [lookup?] at h
      split at h
      · next hb =>
          cases h
          rw [hb]
          exact List.mem_cons_self
      · exact List.mem_cons_of_mem _ (ih h)

end Bindings

/-! ### The heap -/

namespace Heap

@[simp] theorem next_define (heap : Heap) (scope : Address) (name : String) (value : Value) :
    (heap.define scope name value).next = heap.next := by
  unfold define next
  rw [Array.size_modify]

@[simp] theorem next_allocate (heap : Heap) (frame : Frame) :
    (heap.allocate frame).next = heap.next + 1 := by
  unfold allocate next
  rw [Array.size_push]

theorem frame?_eq_none_iff {heap : Heap} {address : Address} :
    heap.frame? address = none ↔ heap.next ≤ address := by
  unfold frame? next
  exact Array.getElem?_eq_none_iff

/-- The frames after binding a name. -/
theorem frame?_define (heap : Heap) (scope : Address) (name : String) (value : Value)
    (address : Address) :
    (heap.define scope name value).frame? address =
      if scope = address then
        (heap.frame? address).map fun frame =>
          { frame with bindings := frame.bindings.set name value }
      else heap.frame? address := by
  unfold define frame?
  exact Array.getElem?_modify

/-- The frames after adding one. -/
theorem frame?_allocate (heap : Heap) (frame : Frame) (address : Address) :
    (heap.allocate frame).frame? address =
      if address = heap.next then some frame else heap.frame? address := by
  unfold allocate frame? next
  exact Array.getElem?_push

/-- A name that is found is bound in a frame of the chain. -/
theorem find?_eq_some {heap : Heap} {scope found : Address} {name : String}
    (h : heap.find? scope name = some found) :
    found ∈ heap.chain scope ∧ heap.binds name found = true :=
  ⟨List.mem_of_find?_eq_some h, List.find?_some h⟩

/-- A value that is looked up is bound in the frame where its name is found. -/
theorem get?_eq_some {heap : Heap} {scope : Address} {name : String} {value : Value}
    (h : heap.get? scope name = some value) :
    ∃ found frame, heap.find? scope name = some found ∧ heap.frame? found = some frame ∧
      (name, value) ∈ frame.bindings := by
  unfold get? own? at h
  obtain ⟨found, hfound, h₁⟩ := Option.bind_eq_some_iff.1 h
  obtain ⟨frame, hframe, h₂⟩ := Option.bind_eq_some_iff.1 h₁
  exact ⟨found, frame, hfound, hframe, Bindings.mem_of_lookup? h₂⟩

end Heap

end LoxLang
