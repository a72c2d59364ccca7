/-
**How frames grow.**

A frame keeps the frame around it and the names that it binds, in their order; new names come behind
them.  Whatever is run binds new names in one of the frames that are there at most, the current one, and
there only those that the statement declares.  An expression declares none and a block declares none, so
neither they nor a call binds a new name in any of these frames.

* `LoxLang.Heap.Grows` — the frames of a later heap;
* `LoxLang.Heap.grows_define`, `LoxLang.Heap.grows_assign`, `LoxLang.Heap.Grows.of_allocate` — one change
  of the heap;
* `LoxLang.Machine.growing` — **what running binds in the frames that are there**.
-/

import LoxLang.Proofs.Machine.Changes
import LoxLang.Proofs.Syntax.Declarations

set_option relaxedAutoImplicit false
set_option autoImplicit false

namespace LoxLang

/-! ### Frames -/

/-- The later frame has the same frame around it and the same names, and the added ones behind them. -/
structure Frame.Extends (frame : Frame) (added : List String) (later : Frame) : Prop where
  enclosing : later.enclosing = frame.enclosing
  names : later.bindings.names = frame.bindings.names ++ added

theorem Frame.Extends.refl (frame : Frame) : frame.Extends [] frame :=
  ⟨rfl, (List.append_nil _).symm⟩

theorem Frame.Extends.trans {f g h : Frame} {added added' : List String} (hg : f.Extends added g)
    (hh : g.Extends added' h) : f.Extends (added ++ added') h :=
  ⟨hh.enclosing.trans hg.enclosing, by rw [hh.names, hg.names, List.append_assoc]⟩

/-- A frame with a name bound in it. -/
theorem Frame.extends_set (frame : Frame) (name : String) (value : Value) :
    ∃ added, frame.Extends added { frame with bindings := frame.bindings.set name value } ∧
      (∀ other ∈ added, other = name) ∧ (frame.bindings.binds name = true → added = []) := by
  cases hb : frame.bindings.binds name with
  | true =>
      refine ⟨[], ⟨rfl, ?_⟩, List.forall_mem_nil _, fun _ => rfl⟩
      rw [Bindings.names_set, if_pos hb, List.append_nil]
  | false =>
      refine ⟨[name], ⟨rfl, ?_⟩, List.forall_mem_singleton.2 rfl, nofun⟩
      rw [Bindings.names_set, hb, if_neg Bool.false_ne_true]

namespace Heap

variable {scope : Address} {declared declared' : List String} {heap heap' heap'' : Heap}

/-- The frames that are there keep what is around them and the names that they bind.  Only the given
scope binds new names, and only declared ones. -/
def Grows (scope : Address) (declared : List String) (heap heap' : Heap) : Prop :=
  ∀ address frame, heap.frame? address = some frame → ∃ later added,
    heap'.frame? address = some later ∧ frame.Extends added later ∧
      ∀ name ∈ added, address = scope ∧ name ∈ declared

theorem Grows.refl (heap : Heap) : heap.Grows scope declared heap :=
  fun _ frame hf => ⟨frame, [], hf, .refl frame, List.forall_mem_nil _⟩

theorem Grows.trans (h : heap.Grows scope declared heap')
    (h' : heap'.Grows scope declared heap'') : heap.Grows scope declared heap'' := by
  intro address frame hf
  obtain ⟨later, added, hl, he, hn⟩ := h address frame hf
  obtain ⟨last, added', hl', he', hn'⟩ := h' address later hl
  exact ⟨last, added ++ added', hl', he.trans he', List.forall_mem_append.2 ⟨hn, hn'⟩⟩

theorem Grows.mono (h : heap.Grows scope declared heap') (hd : declared ⊆ declared') :
    heap.Grows scope declared' heap' := by
  intro address frame hf
  obtain ⟨later, added, hl, he, hn⟩ := h address frame hf
  exact ⟨later, added, hl, he, fun name hm => ⟨(hn name hm).1, hd (hn name hm).2⟩⟩

/-- A frame that is not the scope keeps its names. -/
theorem Grows.of_ne (h : heap.Grows scope declared heap') {address : Address} {frame : Frame}
    (hf : heap.frame? address = some frame) (hne : address ≠ scope) :
    ∃ later, heap'.frame? address = some later ∧ frame.Extends [] later := by
  obtain ⟨later, added, hl, he, hn⟩ := h address frame hf
  obtain rfl : added = [] := List.eq_nil_iff_forall_not_mem.2 fun name hm => hne (hn name hm).1
  exact ⟨later, hl, he⟩

/-- Binding a name in the scope. -/
theorem grows_define (heap : Heap) (scope : Address) {name : String} (value : Value)
    (hd : name ∈ declared) : heap.Grows scope declared (heap.define scope name value) := by
  intro address frame hf
  rw [frame?_define, hf]
  split
  · next he =>
      obtain ⟨added, hext, hadded, -⟩ := frame.extends_set name value
      refine ⟨_, added, rfl, hext, fun other ho => ⟨he.symm, ?_⟩⟩
      rw [hadded other ho]
      exact hd
  · exact ⟨frame, [], rfl, .refl frame, List.forall_mem_nil _⟩

/-- **Assigning binds no new name**: the frame that is found binds the name already. -/
theorem grows_assign {found : Address} {name : String} (value : Value)
    (hf : heap.find? scope name = some found) :
    heap.Grows scope [] (heap.define found name value) := by
  have hbinds := (find?_eq_some hf).2
  intro address frame ha
  rw [frame?_define, ha]
  split
  · next he =>
      subst he
      unfold binds at hbinds
      rw [ha] at hbinds
      obtain ⟨added, hext, -, hnone⟩ := frame.extends_set name value
      obtain rfl := hnone hbinds
      exact ⟨_, [], rfl, hext, List.forall_mem_nil _⟩
  · exact ⟨frame, [], rfl, .refl frame, List.forall_mem_nil _⟩

/-- **What is bound in a new frame is bound in none of the others.** -/
theorem Grows.of_allocate {frame : Frame}
    (h : (heap.allocate frame).Grows heap.next declared heap') : heap.Grows scope [] heap' := by
  intro address old ho
  have hne : address ≠ heap.next := by
    rintro rfl
    rw [frame?_eq_none_iff.2 (Nat.le_refl _)] at ho
    cases ho
  have hold : (heap.allocate frame).frame? address = some old := by
    rw [frame?_allocate, if_neg hne, ho]
  obtain ⟨later, hl, he⟩ := h.of_ne hold hne
  exact ⟨later, [], hl, he, List.forall_mem_nil _⟩

end Heap

/-! ### Runs -/

namespace Machine

variable {α β : Type} {scope : Address} {declared declared' : List String} {m : Machine}

/-- However the run ends, the frames of the heap have grown, by declared names in the given scope only;
and the current scope is the same. -/
def GrowsOn (scope : Address) (declared : List String) (m : Machine) (outcome : Outcome α) : Prop :=
  outcome.Ends (fun _ m' => m'.scope = m.scope ∧ m.heap.Grows scope declared m'.heap)
    fun _ m' => m'.scope = m.scope ∧ m.heap.Grows scope declared m'.heap

theorem growsOn_refl (value : α) (m : Machine) : GrowsOn scope declared m (.ok value m) :=
  ⟨rfl, .refl m.heap⟩

theorem growsOn_ofExcept (result : Except Failure α) (m : Machine) :
    GrowsOn scope declared m (Outcome.ofExcept result m) :=
  .ofExcept (fun _ _ => ⟨rfl, .refl m.heap⟩) fun _ _ => ⟨rfl, .refl m.heap⟩

theorem GrowsOn.bind {outcome : Outcome α} {next : α → Machine → Outcome β}
    (h : GrowsOn m.scope declared m outcome)
    (hn : ∀ value m', GrowsOn m'.scope declared m' (next value m')) :
    GrowsOn m.scope declared m (outcome.bind next) := by
  refine Outcome.Ends.bind h fun value m' ⟨hs, hg⟩ => ?_
  have hnext := hn value m'
  rw [hs] at hnext
  exact hnext.imp (fun _ _ hm => ⟨hm.1.trans hs, hg.trans hm.2⟩)
    fun _ _ hm => ⟨hm.1.trans hs, hg.trans hm.2⟩

theorem GrowsOn.mono {outcome : Outcome α} (h : GrowsOn scope declared m outcome)
    (hd : declared ⊆ declared') : GrowsOn scope declared' m outcome :=
  h.imp (fun _ _ hm => ⟨hm.1, hm.2.mono hd⟩) fun _ _ hm => ⟨hm.1, hm.2.mono hd⟩

/-- Where no name is declared, any might be. -/
theorem GrowsOn.of_nil {outcome : Outcome α} (h : GrowsOn scope [] m outcome) :
    GrowsOn scope declared m outcome := h.mono (List.nil_subset _)

/-- A run in a frame of its own. -/
theorem GrowsOn.of_allocate {frame : Frame} {outcome : Outcome α}
    (h : GrowsOn m.heap.next declared (m.allocate frame) outcome) : GrowsOn m.scope [] m outcome :=
  h.imp (fun _ _ hm => ⟨hm.1, hm.2.of_allocate⟩) fun _ _ hm => ⟨hm.1, hm.2.of_allocate⟩

theorem growsOn_lookup (name : Token) (m : Machine) : GrowsOn scope [] m (lookup name m) := by
  unfold lookup
  split
  · exact growsOn_refl _ m
  · exact ⟨rfl, .refl m.heap⟩

theorem growsOn_assign (name : Token) (value : Value) (m : Machine) :
    GrowsOn m.scope [] m (assign name value m) := by
  rw [assign_eq]
  split
  · next found hf => exact ⟨rfl, Heap.grows_assign value hf⟩
  · exact ⟨rfl, .refl m.heap⟩

/-- Running with so much fuel binds new names in the current scope only, and there those that are
declared. -/
structure Growing (fuel : Nat) : Prop where
  evaluate : ∀ e m, GrowsOn m.scope [] m (Machine.evaluate fuel e m)
  evaluateAll : ∀ es m, GrowsOn m.scope [] m (Machine.evaluateAll fuel es m)
  apply : ∀ paren callee arguments m,
    GrowsOn m.scope [] m (Machine.apply fuel paren callee arguments m)
  invoke : ∀ f arguments m, GrowsOn m.scope [] m (Machine.invoke fuel f arguments m)
  execute : ∀ s m, GrowsOn m.scope s.declared m (Machine.execute fuel s m)
  repeating : ∀ condition body m,
    GrowsOn m.scope body.declared m (Machine.repeating fuel condition body m)
  executeAll : ∀ ss m, GrowsOn m.scope (Stmt.declaredAll ss) m (Machine.executeAll fuel ss m)
  executeIn : ∀ scope body m,
    GrowsOn scope (Stmt.declaredAll body) m (Machine.executeIn fuel scope body m)

variable {fuel : Nat}

theorem Growing.evaluate_succ (h : Growing fuel) (e : Expr) (m : Machine) :
    GrowsOn m.scope [] m (Machine.evaluate (fuel + 1) e m) := by
  cases e with
  | assign name value =>
      exact (h.evaluate value m).bind fun value m => growsOn_assign name value m
  | binary left operator right =>
      refine (h.evaluate left m).bind fun x m => ?_
      exact (h.evaluate right m).bind fun y m => growsOn_ofExcept _ m
  | call callee paren arguments =>
      refine (h.evaluate callee m).bind fun c m => ?_
      exact (h.evaluateAll arguments m).bind fun values m => h.apply paren c values m
  | grouping inner => exact h.evaluate inner m
  | literal value => exact growsOn_refl _ m
  | logical left operator right =>
      refine (h.evaluate left m).bind fun x m => ?_
      split
      · exact growsOn_refl _ m
      · exact h.evaluate right m
  | unary operator right => exact (h.evaluate right m).bind fun x m => growsOn_ofExcept _ m
  | lookup name => exact growsOn_lookup name m

theorem Growing.evaluateAll_succ (h : Growing fuel) (es : List Expr) (m : Machine) :
    GrowsOn m.scope [] m (Machine.evaluateAll (fuel + 1) es m) := by
  cases es with
  | nil => exact growsOn_refl _ m
  | cons e es =>
      refine (h.evaluate e m).bind fun value m => ?_
      exact (h.evaluateAll es m).bind fun values m => growsOn_refl _ m

theorem Growing.apply_succ (h : Growing fuel) (paren : Token) (callee : Value)
    (arguments : List Value) (m : Machine) :
    GrowsOn m.scope [] m (Machine.apply (fuel + 1) paren callee arguments m) := by
  refine (growsOn_ofExcept _ m).bind fun _ m => ?_
  cases callee with
  | closure f => exact h.invoke f arguments m
  | native native =>
      cases native
      cases arguments with
      | nil => exact ⟨rfl, .refl m.heap⟩
      | cons argument arguments => exact ⟨rfl, .refl m.heap⟩
  | stub f => exact growsOn_refl _ m
  | _ => exact ⟨rfl, .refl m.heap⟩

theorem Growing.invoke_succ (h : Growing fuel) (f : Closure) (arguments : List Value)
    (m : Machine) : GrowsOn m.scope [] m (Machine.invoke (fuel + 1) f arguments m) := by
  have hin := (h.executeIn m.heap.next f.body (m.allocate (callFrame f arguments))).of_allocate
  exact hin.bind fun completion m => growsOn_refl _ m

theorem Growing.execute_succ (h : Growing fuel) (s : Stmt) (m : Machine) :
    GrowsOn m.scope s.declared m (Machine.execute (fuel + 1) s m) := by
  cases s with
  | block body => exact (h.executeIn m.heap.next body (m.allocate m.blockFrame)).of_allocate
  | expression value => exact (h.evaluate value m).bind fun _ m => growsOn_refl _ m
  | function name parameters body =>
      exact ⟨rfl, Heap.grows_define m.heap m.scope _ (List.mem_singleton_self _)⟩
  | branch condition thenBranch elseBranch =>
      refine GrowsOn.bind (h.evaluate condition m).of_nil fun value m => ?_
      cases elseBranch with
      | none =>
          split
          · exact h.execute thenBranch m
          · exact growsOn_refl _ m
      | some elseBranch =>
          split
          · exact (h.execute thenBranch m).mono (List.subset_append_left _ _)
          · exact (h.execute elseBranch m).mono (List.subset_append_right _ _)
  | print value =>
      refine (h.evaluate value m).bind fun value m => ?_
      exact (growsOn_ofExcept _ m).bind fun text m =>
        .print (fun _ => ⟨rfl, .refl m.heap⟩) fun _ => ⟨rfl, .refl m.heap⟩
  | giveBack keyword value =>
      cases value with
      | none => exact growsOn_refl _ m
      | some value => exact (h.evaluate value m).bind fun value m => growsOn_refl _ m
  | declare name initializer =>
      cases initializer with
      | none => exact ⟨rfl, Heap.grows_define m.heap m.scope _ (List.mem_singleton_self _)⟩
      | some value =>
          refine GrowsOn.bind (h.evaluate value m).of_nil fun value m => ?_
          exact ⟨rfl, Heap.grows_define m.heap m.scope _ (List.mem_singleton_self _)⟩
  | loop condition body => exact h.repeating condition body m

theorem Growing.repeating_succ (h : Growing fuel) (condition : Expr) (body : Stmt) (m : Machine) :
    GrowsOn m.scope body.declared m (Machine.repeating (fuel + 1) condition body m) := by
  refine GrowsOn.bind (h.evaluate condition m).of_nil fun value m => ?_
  split
  · refine (h.execute body m).bind fun completion m => ?_
    cases completion with
    | normal => exact h.repeating condition body m
    | returned value => exact growsOn_refl _ m
  · exact growsOn_refl _ m

theorem Growing.executeAll_succ (h : Growing fuel) (ss : List Stmt) (m : Machine) :
    GrowsOn m.scope (Stmt.declaredAll ss) m (Machine.executeAll (fuel + 1) ss m) := by
  cases ss with
  | nil => exact growsOn_refl _ m
  | cons s ss =>
      refine GrowsOn.bind ((h.execute s m).mono (List.subset_append_left _ _)) fun completion m => ?_
      cases completion with
      | normal => exact (h.executeAll ss m).mono (List.subset_append_right _ _)
      | returned value => exact growsOn_refl _ m

theorem Growing.executeIn_succ (h : Growing fuel) (scope : Address) (body : List Stmt)
    (m : Machine) :
    GrowsOn scope (Stmt.declaredAll body) m (Machine.executeIn (fuel + 1) scope body m) :=
  Outcome.Ends.leaving (h.executeAll body (m.entering scope)) (fun _ _ hm => ⟨rfl, hm.2⟩)
    fun _ _ hm => ⟨rfl, hm.2⟩

/-- **Whatever is run binds new names in the current scope only, and there those that it declares.** -/
theorem growing (fuel : Nat) : Growing fuel := by
  induction fuel with
  | zero =>
      constructor
      all_goals intros; trivial
  | succ fuel ih =>
      exact ⟨ih.evaluate_succ, ih.evaluateAll_succ, ih.apply_succ, ih.invoke_succ,
        ih.execute_succ, ih.repeating_succ, ih.executeAll_succ, ih.executeIn_succ⟩

theorem growsOn_executeEachAfter (fuel : Nat) (last : Completion) (program : List Stmt)
    (m : Machine) :
    GrowsOn m.scope (Stmt.declaredAll program) m (executeEachAfter fuel last program m) := by
  induction program generalizing last m with
  | nil => exact growsOn_refl _ m
  | cons s ss ih =>
      refine GrowsOn.bind (((growing fuel).execute s m).mono (List.subset_append_left _ _)) ?_
      exact fun completion m => (ih completion m).mono (List.subset_append_right _ _)

/-- The statements of a program bind the names that they declare, in the current scope. -/
theorem growsOn_executeEach (fuel : Nat) (program : List Stmt) (m : Machine) :
    GrowsOn m.scope (Stmt.declaredAll program) m (executeEach fuel program m) :=
  growsOn_executeEachAfter fuel .normal program m

end Machine

end LoxLang
