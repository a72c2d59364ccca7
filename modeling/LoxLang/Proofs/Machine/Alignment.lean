/-
**Heaps that differ by empty frames.**

Two heaps are aligned if the frames of the second are those of the first, in pairs, and some more that
bind nothing, put in between.  Paired frames bind the same names to the same values, but that functions
and frames on the second heap may have empty frames in between them and the frame that they stand in.
Looking a name up passes through frames that bind nothing, so it comes to paired frames on both heaps;
binding a name in paired frames, and adding a pair or another empty frame, keeps the heaps aligned.

* `LoxLang.Heap.Ordered`, `LoxLang.Heap.find?_eq` — looking a name up, frame by frame;
* `LoxLang.Alignment`, `LoxLang.Alignment.Sees` — the pairs and the empty frames in between;
* `LoxLang.Alignment.ValueAlike`, `LoxLang.Alignment.Matches` — aligned values and heaps;
* `LoxLang.Alignment.Matches.find?`, `LoxLang.Alignment.Matches.get?` — **names on aligned heaps**;
* `LoxLang.Alignment.Matches.define`, `LoxLang.Alignment.Matches.allocate`,
  `LoxLang.Alignment.Matches.insert` — the changes that keep heaps aligned.
-/

import Mathlib.Data.List.Forall2
import LoxLang.Proofs.Machine.Grounded
import LoxLang.Proofs.Machine.Locality

set_option relaxedAutoImplicit false
set_option autoImplicit false

namespace LoxLang

/-! ### Answers that may be missing -/

section

variable {α β γ δ : Type} {r : α → β → Prop} {q : γ → δ → Prop} {x : Option α} {y : Option β}

theorem rel_isSome (h : Option.Rel r x y) : x.isSome = y.isSome := by
  cases h <;> rfl

/-- Going on with answers that are related. -/
theorem rel_bind (h : Option.Rel r x y) {f : α → Option γ} {g : β → Option δ}
    (hn : ∀ a b, x = some a → r a b → Option.Rel q (f a) (g b)) :
    Option.Rel q (x.bind f) (y.bind g) := by
  cases h with
  | some hr => exact hn _ _ rfl hr
  | none => exact .none

end

/-! ### Frame by frame -/

namespace Heap

variable {heap : Heap}

/-- Frames stand in older ones. -/
def Ordered (heap : Heap) : Prop :=
  ∀ address frame outer, heap.frame? address = some frame → frame.enclosing = some outer →
    outer < address

/-- The chain of a frame does not depend on the room for it, if that is more than its address. -/
theorem Ordered.chainFrom_eq (h : heap.Ordered) {more more' : Nat} {scope : Address}
    (hm : scope < more) (hm' : scope < more') :
    heap.chainFrom more scope = heap.chainFrom more' scope := by
  induction more generalizing more' scope with
  | zero => exact absurd hm (Nat.not_lt_zero _)
  | succ more ih =>
      cases more' with
      | zero => exact absurd hm' (Nat.not_lt_zero _)
      | succ more' =>
          rw [chainFrom, chainFrom]
          cases hf : heap.frame? scope with
          | none => rfl
          | some frame =>
              dsimp only
              cases he : frame.enclosing with
              | none => rfl
              | some outer =>
                  have hlt : outer < scope := h scope frame outer hf he
                  have hrest : heap.chainFrom more outer = heap.chainFrom more' outer :=
                    ih (Nat.lt_of_lt_of_le hlt (Nat.le_of_lt_succ hm))
                      (Nat.lt_of_lt_of_le hlt (Nat.le_of_lt_succ hm'))
                  exact congrArg (scope :: ·) hrest

/-- **Looking a name up, frame by frame.** -/
theorem Ordered.find?_eq (h : heap.Ordered) {scope : Address} {frame : Frame}
    (hf : heap.frame? scope = some frame) (name : String) :
    heap.find? scope name =
      if frame.bindings.binds name then some scope
      else frame.enclosing.bind fun outer => heap.find? outer name := by
  have hbinds : heap.binds name scope = frame.bindings.binds name := by
    unfold binds
    rw [hf]
  unfold find? chain
  rw [chainFrom, hf]
  dsimp only
  rw [List.find?_cons, hbinds]
  by_cases hb : frame.bindings.binds name = true
  · rw [if_pos hb, hb]
  · rw [if_neg hb, eq_false_of_ne_true hb]
    cases he : frame.enclosing with
    | none => rfl
    | some outer =>
        have hlt : outer < scope := h scope frame outer hf he
        dsimp only [Option.bind_some]
        rw [h.chainFrom_eq hlt (Nat.lt_succ_self outer)]

theorem ordered_define (h : heap.Ordered) (scope : Address) (name : String) (value : Value) :
    (heap.define scope name value).Ordered := by
  intro address frame outer hf he
  rw [frame?_define] at hf
  split at hf
  · obtain ⟨old, hold, rfl⟩ := Option.map_eq_some_iff.1 hf
    exact h address old outer hold he
  · exact h address frame outer hf he

theorem ordered_allocate (h : heap.Ordered) {frame : Frame}
    (ho : ∀ outer, frame.enclosing = some outer → outer < heap.next) :
    (heap.allocate frame).Ordered := by
  intro address found outer hf he
  rw [frame?_allocate] at hf
  split at hf
  · next hnext =>
      cases hf
      rw [hnext]
      exact ho outer he
  · exact h address found outer hf he

end Heap

/-! ### Alignments -/

/-- Which frames of two heaps are paired, and which of the second heap stand empty in another one. -/
structure Alignment where
  same : Address → Address → Prop
  pad : Address → Address → Prop

namespace Alignment

/-- The later alignment has the pairs and the empty frames of the earlier one. -/
structure Extends (w w' : Alignment) : Prop where
  same : ∀ {a b}, w.same a b → w'.same a b
  pad : ∀ {b outer}, w.pad b outer → w'.pad b outer

theorem Extends.refl (w : Alignment) : w.Extends w := ⟨id, id⟩

theorem Extends.trans {w w' w'' : Alignment} (h : w.Extends w') (h' : w'.Extends w'') :
    w.Extends w'' := ⟨fun hs => h'.same (h.same hs), fun hp => h'.pad (h.pad hp)⟩

/-- From the one scope empty frames, or none, lead to what the other is paired with. -/
inductive Sees (w : Alignment) (a : Address) : Address → Prop where
  | same {b : Address} (h : w.same a b) : Sees w a b
  | through {b outer : Address} (hp : w.pad b outer) (h : Sees w a outer) : Sees w a b

/-- The values are the same, but for the scope of a function. -/
inductive ValueAlike (w : Alignment) : Value → Value → Prop where
  | data {value : Value} (h : value.scope? = none) : ValueAlike w value value
  | closure {name : Token} {parameters : List Token} {body : List Stmt} {a b : Address}
      {identity : Nat} (h : w.Sees a b) :
      ValueAlike w (.closure ⟨name, parameters, body, a, identity⟩)
        (.closure ⟨name, parameters, body, b, identity⟩)

/-- The same names are bound to such values, in the same order. -/
def BindingsAlike (w : Alignment) (bindings₁ bindings₂ : Bindings) : Prop :=
  List.Forall₂ (fun b₁ b₂ => b₁.1 = b₂.1 ∧ w.ValueAlike b₁.2 b₂.2) bindings₁ bindings₂

/-- The frames bind the same names, and stand in frames that are the same but for empty ones. -/
structure FrameAlike (w : Alignment) (f₁ f₂ : Frame) : Prop where
  bindings : w.BindingsAlike f₁.bindings f₂.bindings
  enclosing : Option.Rel w.Sees f₁.enclosing f₂.enclosing

/-- The heaps are aligned: their frames are in pairs that are alike, but for empty ones on the second. -/
structure Matches (w : Alignment) (heap₁ heap₂ : Heap) : Prop where
  ordered₁ : heap₁.Ordered
  ordered₂ : heap₂.Ordered
  frames : ∀ {a b}, w.same a b → ∃ f₁ f₂, heap₁.frame? a = some f₁ ∧ heap₂.frame? b = some f₂ ∧
    w.FrameAlike f₁ f₂
  pads : ∀ {b outer}, w.pad b outer → heap₂.frame? b = some ⟨[], some outer⟩
  left_unique : ∀ {a a' b}, w.same a b → w.same a' b → a = a'
  right_unique : ∀ {a b b'}, w.same a b → w.same a b' → b = b'
  apart : ∀ {a b outer}, w.pad b outer → ¬ w.same a b
  covered₁ : ∀ {a}, a < heap₁.next → ∃ b, w.same a b
  covered₂ : ∀ {b}, b < heap₂.next → (∃ a, w.same a b) ∨ ∃ outer, w.pad b outer

variable {w w' : Alignment} {heap₁ heap₂ : Heap} {a b : Address} {value₁ value₂ : Value}

/-! ### Later alignments -/

theorem Sees.mono (h : w.Sees a b) (hw : w.Extends w') : w'.Sees a b := by
  induction h with
  | same h => exact .same (hw.same h)
  | through hp h ih => exact .through (hw.pad hp) ih

theorem ValueAlike.mono (h : w.ValueAlike value₁ value₂) (hw : w.Extends w') :
    w'.ValueAlike value₁ value₂ := by
  cases h with
  | data h => exact .data h
  | closure h => exact .closure (h.mono hw)

theorem BindingsAlike.mono {bindings₁ bindings₂ : Bindings}
    (h : w.BindingsAlike bindings₁ bindings₂) (hw : w.Extends w') :
    w'.BindingsAlike bindings₁ bindings₂ :=
  h.imp fun _ _ hb => ⟨hb.1, hb.2.mono hw⟩

theorem FrameAlike.mono {f₁ f₂ : Frame} (h : w.FrameAlike f₁ f₂) (hw : w.Extends w') :
    w'.FrameAlike f₁ f₂ := by
  obtain ⟨bindings₁, enclosing₁⟩ := f₁
  obtain ⟨bindings₂, enclosing₂⟩ := f₂
  obtain ⟨hbindings, henclosing⟩ := h
  refine ⟨hbindings.mono hw, ?_⟩
  cases henclosing with
  | some hs => exact .some (hs.mono hw)
  | none => exact .none

/-! ### Bindings -/

section

variable {bindings₁ bindings₂ : Bindings}

theorem BindingsAlike.lookup? (h : w.BindingsAlike bindings₁ bindings₂) (name : String) :
    Option.Rel w.ValueAlike (bindings₁.lookup? name) (bindings₂.lookup? name) := by
  induction h with
  | nil => exact .none
  | @cons b₁ b₂ others₁ others₂ hb hothers ih =>
      obtain ⟨bound₁, old₁⟩ := b₁
      obtain ⟨bound₂, old₂⟩ := b₂
      obtain ⟨hname, hvalue⟩ := hb
      dsimp only at hname
      subst hname
      simp only [Bindings.lookup?]
      split
      · exact .some hvalue
      · exact ih

theorem BindingsAlike.binds (h : w.BindingsAlike bindings₁ bindings₂) (name : String) :
    bindings₁.binds name = bindings₂.binds name := by
  unfold Bindings.binds
  exact rel_isSome (h.lookup? name)

theorem BindingsAlike.set (h : w.BindingsAlike bindings₁ bindings₂) (name : String)
    (hv : w.ValueAlike value₁ value₂) :
    w.BindingsAlike (bindings₁.set name value₁) (bindings₂.set name value₂) := by
  induction h with
  | nil => exact .cons ⟨rfl, hv⟩ .nil
  | @cons b₁ b₂ others₁ others₂ hb hothers ih =>
      obtain ⟨bound₁, old₁⟩ := b₁
      obtain ⟨bound₂, old₂⟩ := b₂
      obtain ⟨hname, hvalue⟩ := hb
      dsimp only at hname
      subst hname
      simp only [Bindings.set]
      split
      · exact .cons ⟨rfl, hv⟩ hothers
      · exact .cons ⟨rfl, hvalue⟩ ih

theorem BindingsAlike.setAll (h : w.BindingsAlike bindings₁ bindings₂) (names : List String)
    {values₁ values₂ : List Value} (hvs : List.Forall₂ w.ValueAlike values₁ values₂) :
    w.BindingsAlike (bindings₁.setAll names values₁) (bindings₂.setAll names values₂) := by
  induction names generalizing bindings₁ bindings₂ values₁ values₂ with
  | nil => exact h
  | cons name names ih =>
      cases hvs with
      | nil => exact h
      | cons hv hvs => exact ih (h.set name hv) hvs

end

/-! ### Aligned heaps -/

/-- What is seen is there. -/
theorem Matches.lt_next (h : w.Matches heap₁ heap₂) (hs : w.Sees a b) :
    a < heap₁.next ∧ b < heap₂.next := by
  induction hs with
  | same hs =>
      obtain ⟨f₁, f₂, hf₁, hf₂, -⟩ := h.frames hs
      exact ⟨Heap.lt_next_of_frame? hf₁, Heap.lt_next_of_frame? hf₂⟩
  | through hp _ ih => exact ⟨ih.1, Heap.lt_next_of_frame? (h.pads hp)⟩

/-- **A name is found in paired frames, or in none.**  By induction on the scope of the first heap, and
on the empty frames that lie in between on the second. -/
theorem Matches.find? (h : w.Matches heap₁ heap₂) (hs : w.Sees a b) (name : String) :
    Option.Rel w.same (heap₁.find? a name) (heap₂.find? b name) := by
  induction a using Nat.strongRecOn generalizing b with
  | ind a ih =>
      induction hs with
      | @same b hs =>
          obtain ⟨f₁, f₂, hf₁, hf₂, hbindings, henclosing⟩ := h.frames hs
          rw [h.ordered₁.find?_eq hf₁, h.ordered₂.find?_eq hf₂, hbindings.binds name]
          by_cases hb : f₂.bindings.binds name = true
          · rw [if_pos hb, if_pos hb]
            exact .some hs
          · rw [if_neg hb, if_neg hb]
            refine rel_bind henclosing fun outer₁ outer₂ he hsees => ?_
            exact ih outer₁ (h.ordered₁ a f₁ outer₁ hf₁ he) hsees
      | @through b outer hp hs ihs =>
          rw [h.ordered₂.find?_eq (h.pads hp)]
          exact ihs

theorem Matches.own? (h : w.Matches heap₁ heap₂) (hs : w.same a b) (name : String) :
    Option.Rel w.ValueAlike (heap₁.own? a name) (heap₂.own? b name) := by
  obtain ⟨f₁, f₂, hf₁, hf₂, hbindings, -⟩ := h.frames hs
  unfold Heap.own?
  rw [hf₁, hf₂]
  exact hbindings.lookup? name

/-- **Names have the same values on aligned heaps.** -/
theorem Matches.get? (h : w.Matches heap₁ heap₂) (hs : w.Sees a b) (name : String) :
    Option.Rel w.ValueAlike (heap₁.get? a name) (heap₂.get? b name) := by
  unfold Heap.get?
  exact rel_bind (h.find? hs name) fun _ _ _ hsame => h.own? hsame name

/-! ### Changes -/

/-- Binding a name in paired frames. -/
theorem Matches.define (h : w.Matches heap₁ heap₂) (hs : w.same a b) (name : String)
    (hv : w.ValueAlike value₁ value₂) :
    w.Matches (heap₁.define a name value₁) (heap₂.define b name value₂) where
  ordered₁ := Heap.ordered_define h.ordered₁ a name value₁
  ordered₂ := Heap.ordered_define h.ordered₂ b name value₂
  frames := by
    intro a' b' hs'
    obtain ⟨f₁, f₂, hf₁, hf₂, halike⟩ := h.frames hs'
    rw [Heap.frame?_define, Heap.frame?_define, hf₁, hf₂]
    -- The pairs are one to one, so the other pairs stay as they are.
    by_cases ha : a = a'
    · subst ha
      rw [h.right_unique hs hs', if_pos rfl, if_pos rfl]
      exact ⟨_, _, rfl, rfl, halike.bindings.set name hv, halike.enclosing⟩
    · have hb : b ≠ b' := by
        rintro rfl
        exact ha (h.left_unique hs hs')
      rw [if_neg ha, if_neg hb]
      exact ⟨f₁, f₂, rfl, rfl, halike⟩
  pads := by
    intro b' outer hp
    have hb : b ≠ b' := by
      rintro rfl
      exact h.apart hp hs
    rw [Heap.frame?_define, if_neg hb]
    exact h.pads hp
  left_unique := h.left_unique
  right_unique := h.right_unique
  apart := h.apart
  covered₁ := by
    rw [Heap.next_define]
    exact h.covered₁
  covered₂ := by
    rw [Heap.next_define]
    exact h.covered₂

/-- The alignment with another pair. -/
def pairing (w : Alignment) (a b : Address) : Alignment where
  same a' b' := w.same a' b' ∨ a' = a ∧ b' = b
  pad := w.pad

theorem extends_pairing (w : Alignment) (a b : Address) : w.Extends (w.pairing a b) := ⟨.inl, id⟩

theorem same_pairing (w : Alignment) (a b : Address) : (w.pairing a b).same a b := .inr ⟨rfl, rfl⟩

/-- The alignment with another empty frame. -/
def inserting (w : Alignment) (b outer : Address) : Alignment where
  same := w.same
  pad b' outer' := w.pad b' outer' ∨ b' = b ∧ outer' = outer

theorem extends_inserting (w : Alignment) (b outer : Address) : w.Extends (w.inserting b outer) :=
  ⟨id, .inl⟩

/-- A frame around others is older than the next one. -/
theorem Matches.outer_lt_next (h : w.Matches heap₁ heap₂) {f₁ f₂ : Frame}
    (hf : w.FrameAlike f₁ f₂) :
    (∀ outer, f₁.enclosing = some outer → outer < heap₁.next) ∧
      ∀ outer, f₂.enclosing = some outer → outer < heap₂.next := by
  obtain ⟨bindings₁, enclosing₁⟩ := f₁
  obtain ⟨bindings₂, enclosing₂⟩ := f₂
  obtain ⟨-, henclosing⟩ := hf
  cases henclosing with
  | none => exact ⟨nofun, nofun⟩
  | some hs =>
      refine ⟨fun outer he => ?_, fun outer he => ?_⟩
      · cases he
        exact (h.lt_next hs).1
      · cases he
        exact (h.lt_next hs).2

/-- The frames that are there are not the next one. -/
theorem Matches.ne_next (h : w.Matches heap₁ heap₂) (hs : w.Sees a b) :
    a ≠ heap₁.next ∧ b ≠ heap₂.next :=
  ⟨Nat.ne_of_lt (h.lt_next hs).1, Nat.ne_of_lt (h.lt_next hs).2⟩

/-- **Adding a pair of frames that are alike.** -/
theorem Matches.allocate (h : w.Matches heap₁ heap₂) {f₁ f₂ : Frame} (hf : w.FrameAlike f₁ f₂) :
    (w.pairing heap₁.next heap₂.next).Matches (heap₁.allocate f₁) (heap₂.allocate f₂) where
  ordered₁ := Heap.ordered_allocate h.ordered₁ (h.outer_lt_next hf).1
  ordered₂ := Heap.ordered_allocate h.ordered₂ (h.outer_lt_next hf).2
  frames := by
    intro a b hs
    rw [Heap.frame?_allocate, Heap.frame?_allocate]
    rcases hs with hs | ⟨rfl, rfl⟩
    · obtain ⟨g₁, g₂, hg₁, hg₂, halike⟩ := h.frames hs
      obtain ⟨ha, hb⟩ := h.ne_next (.same hs)
      rw [if_neg ha, if_neg hb]
      exact ⟨g₁, g₂, hg₁, hg₂, halike.mono (w.extends_pairing _ _)⟩
    · rw [if_pos rfl, if_pos rfl]
      exact ⟨f₁, f₂, rfl, rfl, hf.mono (w.extends_pairing _ _)⟩
  pads := by
    intro b outer hp
    have hb : b ≠ heap₂.next := Nat.ne_of_lt (Heap.lt_next_of_frame? (h.pads hp))
    rw [Heap.frame?_allocate, if_neg hb]
    exact h.pads hp
  left_unique := by
    -- The new addresses are paired with each other only, since what was paired before lies below them.
    intro a a' b hs hs'
    rcases hs with hs | ⟨rfl, rfl⟩
    · rcases hs' with hs' | ⟨rfl, rfl⟩
      · exact h.left_unique hs hs'
      · exact absurd rfl (h.ne_next (.same hs)).2
    · rcases hs' with hs' | ⟨rfl, -⟩
      · exact absurd rfl (h.ne_next (.same hs')).2
      · rfl
  right_unique := by
    intro a b b' hs hs'
    rcases hs with hs | ⟨rfl, rfl⟩
    · rcases hs' with hs' | ⟨rfl, rfl⟩
      · exact h.right_unique hs hs'
      · exact absurd rfl (h.ne_next (.same hs)).1
    · rcases hs' with hs' | ⟨-, rfl⟩
      · exact absurd rfl (h.ne_next (.same hs')).1
      · rfl
  apart := by
    intro a b outer hp hs
    rcases hs with hs | ⟨-, rfl⟩
    · exact h.apart hp hs
    · exact absurd (Heap.lt_next_of_frame? (h.pads hp)) (Nat.lt_irrefl _)
  covered₁ := by
    intro a ha
    rw [Heap.next_allocate] at ha
    rcases Nat.lt_succ_iff_lt_or_eq.1 ha with ha | rfl
    · obtain ⟨b, hs⟩ := h.covered₁ ha
      exact ⟨b, .inl hs⟩
    · exact ⟨_, w.same_pairing _ _⟩
  covered₂ := by
    intro b hb
    rw [Heap.next_allocate] at hb
    rcases Nat.lt_succ_iff_lt_or_eq.1 hb with hb | rfl
    · rcases h.covered₂ hb with ⟨a, hs⟩ | hp
      · exact .inl ⟨a, .inl hs⟩
      · exact .inr hp
    · exact .inl ⟨_, w.same_pairing _ _⟩

/-- **Adding an empty frame to the second heap.** -/
theorem Matches.insert (h : w.Matches heap₁ heap₂) (hs : w.Sees a b) :
    (w.inserting heap₂.next b).Matches heap₁ (heap₂.allocate ⟨[], some b⟩) where
  ordered₁ := h.ordered₁
  ordered₂ := by
    refine Heap.ordered_allocate h.ordered₂ fun outer he => ?_
    cases he
    exact (h.lt_next hs).2
  frames := by
    intro a' b' hs'
    obtain ⟨f₁, f₂, hf₁, hf₂, halike⟩ := h.frames hs'
    rw [Heap.frame?_allocate, if_neg (h.ne_next (.same hs')).2]
    exact ⟨f₁, f₂, hf₁, hf₂, halike.mono (w.extends_inserting _ _)⟩
  pads := by
    intro b' outer hp
    rw [Heap.frame?_allocate]
    rcases hp with hp | ⟨rfl, rfl⟩
    · rw [if_neg (Nat.ne_of_lt (Heap.lt_next_of_frame? (h.pads hp)))]
      exact h.pads hp
    · rw [if_pos rfl]
  left_unique := h.left_unique
  right_unique := h.right_unique
  apart := by
    intro a' b' outer hp hs'
    rcases hp with hp | ⟨rfl, -⟩
    · exact h.apart hp hs'
    · exact absurd rfl (h.ne_next (.same hs')).2
  covered₁ := h.covered₁
  covered₂ := by
    intro b' hb
    rw [Heap.next_allocate] at hb
    rcases Nat.lt_succ_iff_lt_or_eq.1 hb with hb | rfl
    · rcases h.covered₂ hb with hsame | ⟨outer, hp⟩
      · exact .inl hsame
      · exact .inr ⟨outer, .inl hp⟩
    · exact .inr ⟨b, .inr ⟨rfl, rfl⟩⟩

end Alignment

end LoxLang
