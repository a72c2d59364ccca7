/-
**Frames that stand on the global one.**

The global frame has no frame around it, every other frame has an older one, and the scope of every
function that is bound is a frame.  On such a heap the way outwards from any frame comes to the global
frame, and to no frame twice.  Bindings of such functions and frames with an older one around them keep
the heap so.

* `LoxLang.Value.Within` — a function whose scope is one of the first frames;
* `LoxLang.Heap.Grounded` — the frames stand on the global one;
* `LoxLang.Heap.Grounded.define`, `LoxLang.Heap.Grounded.allocate` — the changes that keep them so;
* `LoxLang.Heap.Path` — the way outwards from a frame;
* `LoxLang.Heap.Grounded.path_chain` — **the chain of a frame is its way to the global one**.
-/

import LoxLang.Machine.Basic
import LoxLang.Proofs.Machine.Frames
import LoxLang.Proofs.Syntax.Declarations
import LoxLang.Proofs.Value.Results

set_option relaxedAutoImplicit false
set_option autoImplicit false

namespace LoxLang

/-! ### Values and frames -/

/-- A function was declared in one of the first frames, as many as are given, and in its body
declarations stand in lists only. -/
def Value.Within (limit : Nat) : Value → Prop
  | .closure f => f.scope < limit ∧ Stmt.AllPlaced f.body
  | _ => True

variable {limit limit' : Nat} {value : Value}

theorem Value.Within.mono (h : value.Within limit) (hl : limit ≤ limit') : value.Within limit' := by
  cases value with
  | closure f => exact ⟨Nat.lt_of_lt_of_le h.1 hl, h.2⟩
  | _ => trivial

theorem Value.within_of_isData (h : value.isData = true) : value.Within limit := by
  cases value with
  | closure f => cases h
  | _ => trivial

theorem Value.within_ofLiteral (literal : Literal) : (Value.ofLiteral literal).Within limit := by
  cases literal <;> trivial

/-- All functions that a frame binds were declared in the first frames. -/
def Frame.Within (limit : Nat) (frame : Frame) : Prop :=
  ∀ binding ∈ frame.bindings, binding.2.Within limit

theorem Frame.Within.mono {frame : Frame} (h : frame.Within limit) (hl : limit ≤ limit') :
    frame.Within limit' := fun binding hb => (h binding hb).mono hl

namespace Heap

/-- Only the global frame has no frame around it, and all others have an older one.  The functions that
are bound were declared in frames of the heap. -/
structure Grounded (heap : Heap) : Prop where
  global : ∃ frame, heap.frame? Machine.globals = some frame ∧ frame.enclosing = none
  inner : ∀ {address frame}, heap.frame? address = some frame → address ≠ Machine.globals →
    ∃ outer, outer < address ∧ frame.enclosing = some outer
  within : ∀ {address frame}, heap.frame? address = some frame → frame.Within heap.next

variable {heap : Heap}

theorem lt_next_of_frame? {address : Address} {frame : Frame}
    (h : heap.frame? address = some frame) : address < heap.next := by
  refine Nat.lt_of_not_le fun hle => ?_
  rw [frame?_eq_none_iff.2 hle] at h
  cases h

theorem exists_frame? {address : Address} (h : address < heap.next) :
    ∃ frame, heap.frame? address = some frame := by
  refine Option.ne_none_iff_exists'.1 fun hnone => ?_
  exact Nat.not_le_of_lt h (frame?_eq_none_iff.1 hnone)

theorem Grounded.next_pos (h : heap.Grounded) : Machine.globals < heap.next := by
  obtain ⟨frame, hf, -⟩ := h.global
  exact lt_next_of_frame? hf

/-- A frame around another one is older. -/
theorem Grounded.outer_lt (h : heap.Grounded) {address outer : Address} {frame : Frame}
    (hf : heap.frame? address = some frame) (he : frame.enclosing = some outer) :
    outer < address := by
  have hne : address ≠ Machine.globals := by
    rintro rfl
    obtain ⟨global, hg, hn⟩ := h.global
    rw [hf] at hg
    cases hg
    rw [he] at hn
    cases hn
  obtain ⟨other, hlt, hother⟩ := h.inner hf hne
  rw [he] at hother
  cases hother
  exact hlt

theorem Grounded.within_get? (h : heap.Grounded) {scope : Address} {name : String}
    (hg : heap.get? scope name = some value) : value.Within heap.next := by
  obtain ⟨found, frame, -, hf, hb⟩ := get?_eq_some hg
  exact h.within hf _ hb

theorem Grounded.define (h : heap.Grounded) (scope : Address) (name : String)
    (hv : value.Within heap.next) : (heap.define scope name value).Grounded := by
  -- A frame of the later heap has the frame around it that it had before.
  have hold : ∀ {address frame}, (heap.define scope name value).frame? address = some frame →
      ∃ old, heap.frame? address = some old ∧ frame.enclosing = old.enclosing ∧
        frame.Within heap.next := by
    intro address frame hf
    rw [frame?_define] at hf
    split at hf
    · obtain ⟨old, ho, rfl⟩ := Option.map_eq_some_iff.1 hf
      refine ⟨old, ho, rfl, fun binding hb => ?_⟩
      rcases Bindings.mem_set hb with hb | hb
      · exact h.within ho binding hb
      · rw [hb]
        exact hv
    · exact ⟨frame, hf, rfl, h.within hf⟩
  constructor
  · have hnext : Machine.globals < (heap.define scope name value).next := by
      rw [next_define]
      exact h.next_pos
    obtain ⟨frame, hf⟩ := exists_frame? hnext
    obtain ⟨old, ho, he, -⟩ := hold hf
    obtain ⟨global, hg, hn⟩ := h.global
    rw [hg] at ho
    cases ho
    exact ⟨frame, hf, he.trans hn⟩
  · intro address frame hf hne
    obtain ⟨old, ho, he, -⟩ := hold hf
    obtain ⟨outer, hlt, ho⟩ := h.inner ho hne
    exact ⟨outer, hlt, he.trans ho⟩
  · intro address frame hf
    obtain ⟨old, ho, -, hw⟩ := hold hf
    rw [next_define]
    exact hw

theorem Grounded.allocate (h : heap.Grounded) {frame : Frame} {outer : Address}
    (he : frame.enclosing = some outer) (ho : outer < heap.next) (hw : frame.Within heap.next) :
    (heap.allocate frame).Grounded := by
  have hle : heap.next ≤ (heap.allocate frame).next := by
    rw [next_allocate]
    exact Nat.le_succ _
  constructor
  · obtain ⟨global, hg, hn⟩ := h.global
    refine ⟨global, ?_, hn⟩
    rw [frame?_allocate, if_neg (Nat.ne_of_lt h.next_pos), hg]
  · intro address found hf hne
    rw [frame?_allocate] at hf
    split at hf
    · next hnext =>
        cases hf
        exact ⟨outer, hnext ▸ ho, he⟩
    · exact h.inner hf hne
  · intro address found hf
    rw [frame?_allocate] at hf
    split at hf
    · cases hf
      exact hw.mono hle
    · exact (h.within hf).mono hle

/-! ### The way outwards -/

/-- The addresses from a frame outwards, up to a frame that has none around it. -/
inductive Path (heap : Heap) : Address → List Address → Prop where
  | last {address : Address} {frame : Frame} (hf : heap.frame? address = some frame)
      (he : frame.enclosing = none) : Path heap address [address]
  | outward {address outer : Address} {frame : Frame} {others : List Address}
      (hf : heap.frame? address = some frame) (he : frame.enclosing = some outer)
      (ho : Path heap outer others) : Path heap address (address :: others)

/-- The way from a frame gets to older and older frames, and the last is the global one. -/
theorem Path.descends {address : Address} {addresses : List Address} (hp : heap.Path address addresses)
    (h : heap.Grounded) :
    (∀ a ∈ addresses, a ≤ address) ∧ addresses.Pairwise (· > ·) ∧
      addresses.getLast? = some Machine.globals := by
  induction hp with
  | last hf he =>
      refine ⟨List.forall_mem_singleton.2 (Nat.le_refl _), List.pairwise_singleton _ _, ?_⟩
      refine congrArg some (Decidable.byContradiction fun hne => ?_)
      obtain ⟨outer, -, ho⟩ := h.inner hf hne
      rw [he] at ho
      cases ho
  | outward hf he ho ih =>
      obtain ⟨hle, hpairwise, hlast⟩ := ih
      have hbelow := fun a ha => Nat.lt_of_le_of_lt (hle a ha) (h.outer_lt hf he)
      refine ⟨List.forall_mem_cons.2 ⟨Nat.le_refl _, fun a ha => Nat.le_of_lt (hbelow a ha)⟩,
        List.pairwise_cons.2 ⟨hbelow, hpairwise⟩, ?_⟩
      rw [List.getLast?_cons, hlast]
      rfl

theorem Grounded.path_chainFrom (h : heap.Grounded) {more : Nat} {address : Address}
    (hmore : address < more) (hnext : address < heap.next) :
    heap.Path address (heap.chainFrom more address) := by
  induction more generalizing address with
  | zero => exact absurd hmore (Nat.not_lt_zero _)
  | succ more ih =>
      obtain ⟨frame, hf⟩ := exists_frame? hnext
      rw [chainFrom, hf]
      dsimp only
      cases he : frame.enclosing with
      | none => exact .last hf he
      | some outer =>
          have hlt := h.outer_lt hf he
          exact .outward hf he
            (ih (Nat.lt_of_lt_of_le hlt (Nat.le_of_lt_succ hmore)) (Nat.lt_trans hlt hnext))

/-- **The chain of a frame is the whole way outwards.**  It comes to no frame twice, and its end is the
global frame. -/
theorem Grounded.path_chain (h : heap.Grounded) {address : Address} (ha : address < heap.next) :
    heap.Path address (heap.chain address) ∧ (heap.chain address).Nodup ∧
      (heap.chain address).getLast? = some Machine.globals := by
  have hpath := h.path_chainFrom (Nat.lt_succ_self address) ha
  obtain ⟨-, hpairwise, hlast⟩ := hpath.descends h
  exact ⟨hpath, hpairwise.imp Nat.ne_of_gt, hlast⟩

end Heap

end LoxLang
