/-
**What running changes.**

Whatever is run, the state changes in a few ways only, one at a time: a text is printed, the clock is
read, a function is counted, a name is bound in some frame, a frame is added, another scope is made
current.  And whenever something ends, with a value or with a failure, the scope is the one that it
began with.

* `LoxLang.Outcome.Ends` — what holds of a run however it ends, with its rules for going on;
* `LoxLang.Machine.Change`, `LoxLang.Machine.Leads` — one change, and all those that a run makes;
* `LoxLang.Machine.leading` — **every run makes changes only, and goes back to its scope**;
* `LoxLang.Machine.Leads.printed`, `LoxLang.Machine.Leads.next_le` — what was printed stays, and so do
  the frames.
-/

import LoxLang.Machine.Evaluation
import LoxLang.Proofs.Machine.Frames
import Mathlib.Logic.Relation

set_option relaxedAutoImplicit false
set_option autoImplicit false

namespace LoxLang

/-! ### However a run ends -/

namespace Outcome

variable {α β : Type}

/-- A value and the state with it have the one property, a failure and the state with it the other. -/
def Ends (P : α → Machine → Prop) (Q : Failure → Machine → Prop) : Outcome α → Prop
  | .ok value m => P value m
  | .failed failure m => Q failure m
  | .outOfFuel => True

variable {P P' : α → Machine → Prop} {Q Q' : Failure → Machine → Prop} {R : β → Machine → Prop}

/-- The properties may be weakened. -/
theorem Ends.imp {outcome : Outcome α} (h : outcome.Ends P Q)
    (hP : ∀ value m, P value m → P' value m) (hQ : ∀ failure m, Q failure m → Q' failure m) :
    outcome.Ends P' Q' := by
  cases outcome with
  | ok value m => exact hP value m h
  | failed failure m => exact hQ failure m h
  | outOfFuel => trivial

/-- What is known of an outcome in two ways is known at once. -/
theorem Ends.and {outcome : Outcome α} (h : outcome.Ends P Q) (h' : outcome.Ends P' Q') :
    outcome.Ends (fun value m => P value m ∧ P' value m)
      fun failure m => Q failure m ∧ Q' failure m := by
  cases outcome with
  | ok value m => exact ⟨h, h'⟩
  | failed failure m => exact ⟨h, h'⟩
  | outOfFuel => trivial

/-- Going on keeps the failures, and goes on from the values. -/
theorem Ends.bind {outcome : Outcome α} {next : α → Machine → Outcome β} (h : outcome.Ends P Q)
    (hn : ∀ value m, P value m → (next value m).Ends R Q) : (outcome.bind next).Ends R Q := by
  cases outcome with
  | ok value m => exact hn value m h
  | failed failure m => exact h
  | outOfFuel => trivial

/-- Going back to a scope, however the run ended. -/
theorem Ends.leaving {outcome : Outcome α} {scope : Address} (h : outcome.Ends P Q)
    (hP : ∀ value m, P value m → P' value (m.entering scope))
    (hQ : ∀ failure m, Q failure m → Q' failure (m.entering scope)) :
    (outcome.leaving scope).Ends P' Q' := by
  cases outcome with
  | ok value m => exact hP value m h
  | failed failure m => exact hQ failure m h
  | outOfFuel => trivial

/-- An operation that leaves the state alone ends in the state that it began in. -/
theorem Ends.ofExcept {result : Except Failure α} {m : Machine}
    (hP : ∀ value, result = .ok value → P value m)
    (hQ : ∀ failure, result = .error failure → Q failure m) :
    (Outcome.ofExcept result m).Ends P Q := by
  cases result with
  | ok value => exact hP value rfl
  | error failure => exact hQ failure rfl

/-- A text is printed if the output takes it, and else the machine breaks down. -/
theorem Ends.print {P : Completion → Machine → Prop} {text : String} {m : Machine}
    (hP : m.takes text = true → P .normal (m.write text))
    (hQ : m.takes text = false → Q (.breakdown .unwritable) m) :
    (Machine.print text m).Ends P Q := by
  cases ht : m.takes text with
  | true =>
      rw [Machine.print_of_takes ht]
      exact hP ht
  | false =>
      rw [Machine.print_of_not_takes ht]
      exact hQ ht

theorem Ends.of_ok {outcome : Outcome α} {value : α} {m : Machine} (h : outcome.Ends P Q)
    (ho : outcome = .ok value m) : P value m := by
  rw [ho] at h
  exact h

theorem Ends.of_failed {outcome : Outcome α} {failure : Failure} {m : Machine}
    (h : outcome.Ends P Q) (ho : outcome = .failed failure m) : Q failure m := by
  rw [ho] at h
  exact h

end Outcome

namespace Machine

/-! ### Changes -/

/-- One change of the state. -/
inductive Change : Machine → Machine → Prop where
  | write (m : Machine) {text : String} (ht : m.takes text = true) : Change m (m.write text)
  | readClock (m : Machine) : Change m m.readClock.2
  | count (m : Machine) : Change m { m with functions := m.functions + 1 }
  | bind (m : Machine) (scope : Address) (name : String) (value : Value) :
      Change m { m with heap := m.heap.define scope name value }
  | allocate (m : Machine) (frame : Frame) : Change m (m.allocate frame)
  | enter (m : Machine) (scope : Address) : Change m (m.entering scope)

/-- Changes lead from the one state to the other, and the scope is the same in the end. -/
structure Leads (m m' : Machine) : Prop where
  changes : Relation.ReflTransGen Change m m'
  scope : m'.scope = m.scope

theorem Leads.refl (m : Machine) : Leads m m := ⟨.refl, rfl⟩

theorem Leads.trans {m₁ m₂ m₃ : Machine} (h : Leads m₁ m₂) (h' : Leads m₂ m₃) : Leads m₁ m₃ :=
  ⟨h.changes.trans h'.changes, h'.scope.trans h.scope⟩

/-- However the run ends, changes lead from the state to the one then. -/
def LeadsOn {α : Type} (m : Machine) (outcome : Outcome α) : Prop :=
  outcome.Ends (fun _ m' => Leads m m') (fun _ m' => Leads m m')

section

variable {α β : Type} {m : Machine}

theorem LeadsOn.trans {m' : Machine} {outcome : Outcome α} (hm : Leads m m')
    (h : LeadsOn m' outcome) : LeadsOn m outcome :=
  Outcome.Ends.imp h (fun _ _ => hm.trans) (fun _ _ => hm.trans)

/-- Changes, and then the changes of what goes on. -/
theorem LeadsOn.bind {outcome : Outcome α} {next : α → Machine → Outcome β}
    (h : LeadsOn m outcome) (hn : ∀ value m', LeadsOn m' (next value m')) :
    LeadsOn m (outcome.bind next) :=
  Outcome.Ends.bind h fun value m' hm => (hn value m').trans hm

theorem leadsOn_ofExcept (result : Except Failure α) (m : Machine) :
    LeadsOn m (Outcome.ofExcept result m) :=
  .ofExcept (fun _ _ => .refl m) fun _ _ => .refl m

end

theorem leads_define (m : Machine) (name : String) (value : Value) :
    Leads m (m.define name value) := ⟨.single (.bind m m.scope name value), rfl⟩

theorem leads_allocate (m : Machine) (frame : Frame) : Leads m (m.allocate frame) :=
  ⟨.single (.allocate m frame), rfl⟩

/-- A function is counted, and then bound to its name. -/
theorem leads_makeFunction (name : Token) (parameters : List Token) (body : List Stmt)
    (m : Machine) : Leads m (makeFunction name parameters body m) :=
  Leads.trans ⟨.single (.count m), rfl⟩ (leads_define _ _ _)

theorem leadsOn_lookup (name : Token) (m : Machine) : LeadsOn m (lookup name m) := by
  unfold lookup
  split
  · exact .refl m
  · exact .refl m

theorem leadsOn_assign (name : Token) (value : Value) (m : Machine) :
    LeadsOn m (assign name value m) := by
  rw [assign_eq]
  split
  · exact ⟨.single (.bind m _ name.lexeme value), rfl⟩
  · exact .refl m

/-- A text that is refused changes nothing. -/
theorem leadsOn_print (text : String) (m : Machine) : LeadsOn m (print text m) :=
  .print (fun ht => ⟨.single (.write m ht), rfl⟩) fun _ => .refl m

/-! ### Runs -/

/-- Running with so much fuel makes changes only, whatever is run. -/
structure Leading (fuel : Nat) : Prop where
  evaluate : ∀ e m, LeadsOn m (Machine.evaluate fuel e m)
  evaluateAll : ∀ es m, LeadsOn m (Machine.evaluateAll fuel es m)
  apply : ∀ paren callee arguments m, LeadsOn m (Machine.apply fuel paren callee arguments m)
  invoke : ∀ f arguments m, LeadsOn m (Machine.invoke fuel f arguments m)
  execute : ∀ s m, LeadsOn m (Machine.execute fuel s m)
  repeating : ∀ condition body m, LeadsOn m (Machine.repeating fuel condition body m)
  executeAll : ∀ ss m, LeadsOn m (Machine.executeAll fuel ss m)
  executeIn : ∀ scope body m, LeadsOn m (Machine.executeIn fuel scope body m)

variable {fuel : Nat}

theorem Leading.evaluate_succ (h : Leading fuel) (e : Expr) (m : Machine) :
    LeadsOn m (Machine.evaluate (fuel + 1) e m) := by
  cases e with
  | assign name value =>
      exact (h.evaluate value m).bind fun value m => leadsOn_assign name value m
  | binary left operator right =>
      refine (h.evaluate left m).bind fun x m => ?_
      exact (h.evaluate right m).bind fun y m => leadsOn_ofExcept _ m
  | call callee paren arguments =>
      refine (h.evaluate callee m).bind fun c m => ?_
      exact (h.evaluateAll arguments m).bind fun values m => h.apply paren c values m
  | grouping inner => exact h.evaluate inner m
  | literal value => exact .refl m
  | logical left operator right =>
      refine (h.evaluate left m).bind fun x m => ?_
      split
      · exact .refl m
      · exact h.evaluate right m
  | unary operator right =>
      exact (h.evaluate right m).bind fun x m => leadsOn_ofExcept _ m
  | lookup name => exact leadsOn_lookup name m

theorem Leading.evaluateAll_succ (h : Leading fuel) (es : List Expr) (m : Machine) :
    LeadsOn m (Machine.evaluateAll (fuel + 1) es m) := by
  cases es with
  | nil => exact .refl m
  | cons e es =>
      refine (h.evaluate e m).bind fun value m => ?_
      exact (h.evaluateAll es m).bind fun values m => .refl m

theorem Leading.apply_succ (h : Leading fuel) (paren : Token) (callee : Value)
    (arguments : List Value) (m : Machine) :
    LeadsOn m (Machine.apply (fuel + 1) paren callee arguments m) := by
  refine (leadsOn_ofExcept _ m).bind fun _ m => ?_
  cases callee with
  | closure f => exact h.invoke f arguments m
  | native native =>
      cases native
      cases arguments with
      | nil => exact ⟨.single (.readClock m), rfl⟩
      | cons argument arguments => exact .refl m
  | _ => exact .refl m

/-- A call adds its frame, and its body is left again. -/
theorem Leading.invoke_succ (h : Leading fuel) (f : Closure) (arguments : List Value)
    (m : Machine) : LeadsOn m (Machine.invoke (fuel + 1) f arguments m) := by
  have hin := (h.executeIn m.heap.next f.body (m.allocate (callFrame f arguments))).trans
    (leads_allocate m (callFrame f arguments))
  exact hin.bind fun completion m => .refl m

/-- One step of a statement; only a block opens a frame. -/
theorem Leading.execute_succ (h : Leading fuel) (s : Stmt) (m : Machine) :
    LeadsOn m (Machine.execute (fuel + 1) s m) := by
  cases s with
  | block body =>
      exact (h.executeIn m.heap.next body (m.allocate m.blockFrame)).trans (leads_allocate m _)
  | expression value => exact (h.evaluate value m).bind fun _ m => .refl m
  | function name parameters body => exact leads_makeFunction name parameters body m
  | branch condition thenBranch elseBranch =>
      refine (h.evaluate condition m).bind fun value m => ?_
      split
      · exact h.execute thenBranch m
      · cases elseBranch with
        | none => exact .refl m
        | some elseBranch => exact h.execute elseBranch m
  | print value =>
      refine (h.evaluate value m).bind fun value m => ?_
      exact (leadsOn_ofExcept _ m).bind fun text m => leadsOn_print text m
  | giveBack keyword value =>
      cases value with
      | none => exact .refl m
      | some value => exact (h.evaluate value m).bind fun value m => .refl m
  | declare name initializer =>
      cases initializer with
      | none => exact leads_define m name.lexeme .nil
      | some value =>
          exact (h.evaluate value m).bind fun value m => leads_define m name.lexeme value
  | loop condition body => exact h.repeating condition body m

theorem Leading.repeating_succ (h : Leading fuel) (condition : Expr) (body : Stmt) (m : Machine) :
    LeadsOn m (Machine.repeating (fuel + 1) condition body m) := by
  refine (h.evaluate condition m).bind fun value m => ?_
  split
  · refine (h.execute body m).bind fun completion m => ?_
    cases completion with
    | normal => exact h.repeating condition body m
    | returned value => exact .refl m
  · exact .refl m

theorem Leading.executeAll_succ (h : Leading fuel) (ss : List Stmt) (m : Machine) :
    LeadsOn m (Machine.executeAll (fuel + 1) ss m) := by
  cases ss with
  | nil => exact .refl m
  | cons s ss =>
      refine (h.execute s m).bind fun completion m => ?_
      cases completion with
      | normal => exact h.executeAll ss m
      | returned value => exact .refl m

/-- The scope of the body is left however the body ends. -/
theorem Leading.executeIn_succ (h : Leading fuel) (scope : Address) (body : List Stmt)
    (m : Machine) : LeadsOn m (Machine.executeIn (fuel + 1) scope body m) := by
  have hback : ∀ m', Leads (m.entering scope) m' → Leads m (m'.entering m.scope) := by
    intro m' hm
    have hin : Relation.ReflTransGen Change m m' := .head (.enter m scope) hm.changes
    exact ⟨hin.tail (.enter m' m.scope), rfl⟩
  exact Outcome.Ends.leaving (h.executeAll body (m.entering scope)) (fun _ => hback)
    fun _ => hback

/-- **Every run makes changes only, and goes back to its scope.** -/
theorem leading (fuel : Nat) : Leading fuel := by
  induction fuel with
  | zero =>
      constructor
      all_goals intros; trivial
  | succ fuel ih =>
      exact ⟨ih.evaluate_succ, ih.evaluateAll_succ, ih.apply_succ, ih.invoke_succ,
        ih.execute_succ, ih.repeating_succ, ih.executeAll_succ, ih.executeIn_succ⟩

theorem leadsOn_executeEachAfter (fuel : Nat) (last : Completion) (program : List Stmt)
    (m : Machine) : LeadsOn m (executeEachAfter fuel last program m) := by
  induction program generalizing last m with
  | nil => exact .refl m
  | cons s ss ih => exact ((leading fuel).execute s m).bind fun completion m => ih completion m

theorem leadsOn_executeEach (fuel : Nat) (program : List Stmt) (m : Machine) :
    LeadsOn m (executeEach fuel program m) :=
  leadsOn_executeEachAfter fuel .normal program m

/-! ### What stays -/

/-- One change adds a text at most. -/
theorem Change.printed {m m' : Machine} (h : Change m m') :
    m.printed.toList <+: m'.printed.toList := by
  cases h with
  | write =>
      unfold Machine.write
      rw [Array.toList_push]
      exact List.prefix_append _ _
  | _ => exact List.prefix_refl _

/-- **What was printed stays printed.** -/
theorem Leads.printed {m m' : Machine} (h : Leads m m') :
    m.printed.toList <+: m'.printed.toList := by
  obtain ⟨hchanges, -⟩ := h
  induction hchanges with
  | refl => exact List.prefix_refl _
  | tail _ hc ih => exact ih.trans hc.printed

/-- One change adds a frame at most. -/
theorem Change.next_le {m m' : Machine} (h : Change m m') : m.heap.next ≤ m'.heap.next := by
  cases h with
  | bind scope name value => exact Nat.le_of_eq (Heap.next_define m.heap scope name value).symm
  | allocate frame =>
      have hnext := Heap.next_allocate m.heap frame
      exact Nat.le_of_lt (Nat.lt_of_succ_le (Nat.le_of_eq hnext.symm))
  | _ => exact Nat.le_refl _

/-- **The output takes the same texts throughout.** -/
theorem Leads.takes {m m' : Machine} (h : Leads m m') : m'.takes = m.takes := by
  obtain ⟨hchanges, -⟩ := h
  induction hchanges with
  | refl => rfl
  | tail _ hc ih =>
      cases hc
      all_goals exact ih

/-- **Frames stay on the heap.** -/
theorem Leads.next_le {m m' : Machine} (h : Leads m m') : m.heap.next ≤ m'.heap.next := by
  obtain ⟨hchanges, -⟩ := h
  induction hchanges with
  | refl => exact Nat.le_refl _
  | tail _ hc ih => exact Nat.le_trans ih hc.next_le

end Machine

end LoxLang
