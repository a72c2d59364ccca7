/-
**Sessions that come about.**

A session comes about from a new one by running source texts, by executing programs, and by forgetting
the reports, in any order and whatever each of them comes to.  What holds of the machine of a new
session and is kept by every program, however it ends, holds of the machines of all these sessions.  The
scope that is current is such a thing: whatever is run goes back to the scope that it began with.

* `LoxLang.ReadSomewhere` — the programs that source texts are read as;
* `LoxLang.Session.Reached` — the sessions that come about, by programs that are allowed;
* `LoxLang.Session.Reached.machine` — **what every program keeps**;
* `LoxLang.Machine.ScopeRestored` — the scope is the same at the end of a run;
* `LoxLang.Session.scope_restored` — **the scope is always restored**.
-/

import LoxLang.Proofs.Machine.Changes
import LoxLang.Session

set_option relaxedAutoImplicit false
set_option autoImplicit false

namespace LoxLang

/-- Some source text is read as the program, be it with reports or without. -/
def ReadSomewhere (program : List Stmt) : Prop := ∃ source, (read source).program = .ok program

namespace Session

variable {clock : Nat → Binary64} {takes : String → Bool} {Allowed : List Stmt → Prop} {s : Session}

/-- The session comes about from a new one with the given clock and output.  Source texts are run whatever
they are; of other programs only those that are allowed are executed. -/
inductive Reached (clock : Nat → Binary64) (takes : String → Bool) (Allowed : List Stmt → Prop) :
    Session → Prop
  | start : Reached clock takes Allowed (start clock takes)
  | run {s : Session} (h : Reached clock takes Allowed s) (fuel : Nat) (source : String) :
      Reached clock takes Allowed (s.run fuel source).1
  | interpret {s : Session} (h : Reached clock takes Allowed s) (fuel : Nat) {program : List Stmt}
      (hp : Allowed program) : Reached clock takes Allowed (s.interpret fuel program).1
  | reset {s : Session} (h : Reached clock takes Allowed s) : Reached clock takes Allowed s.reset

/-- The property is kept by the program, however it ends. -/
def KeptBy (P : Machine → Prop) (program : List Stmt) : Prop :=
  ∀ fuel m, P m → (Machine.executeEach fuel program m).Ends (fun _ => P) fun _ => P

variable {P : Machine → Prop}

theorem machine_interpret {program : List Stmt} (hk : KeptBy P program) (fuel : Nat)
    (h : P s.machine) : P (s.interpret fuel program).1.machine := by
  have hends := hk fuel s.machine h
  unfold interpret
  cases ho : Machine.executeEach fuel program s.machine with
  | ok last machine => exact hends.of_ok ho
  | failed failure machine =>
      cases failure with
      | error error => exact hends.of_failed ho
      | breakdown problem => exact hends.of_failed ho
  | outOfFuel => exact h

theorem machine_run (hk : ∀ program, ReadSomewhere program → KeptBy P program) (fuel : Nat)
    (source : String) (h : P s.machine) : P (s.run fuel source).1.machine := by
  unfold run
  dsimp only
  cases hp : (read source).program with
  | error fault => exact h
  | ok program =>
      dsimp only
      split
      · exact h
      · exact machine_interpret (hk program ⟨source, hp⟩) fuel h

/-- **What every program keeps holds of the machines of all sessions**, by induction on how the session
comes about. -/
theorem Reached.machine (h : Reached clock takes Allowed s) (hstart : P (Machine.start clock takes))
    (hread : ∀ program, ReadSomewhere program → KeptBy P program)
    (hallowed : ∀ program, Allowed program → KeptBy P program) : P s.machine := by
  induction h with
  | start => exact hstart
  | run _ fuel source ih => exact machine_run hread fuel source ih
  | interpret _ fuel hp ih => exact machine_interpret (hallowed _ hp) fuel ih
  | reset _ ih => exact ih

end Session

/-! ### Scopes -/

/-- However the run ends, the scope is the one that it began with. -/
def Machine.ScopeRestored {α : Type} (m : Machine) (outcome : Outcome α) : Prop :=
  outcome.Ends (fun _ m' => m'.scope = m.scope) fun _ m' => m'.scope = m.scope

theorem Machine.LeadsOn.scopeRestored {α : Type} {m : Machine} {outcome : Outcome α}
    (h : LeadsOn m outcome) : m.ScopeRestored outcome :=
  h.imp (fun _ _ hl => hl.scope) fun _ _ hl => hl.scope

namespace Session

theorem keptBy_scope (scope : Address) (program : List Stmt) :
    KeptBy (fun m => m.scope = scope) program := by
  rintro fuel m rfl
  exact (Machine.leadsOn_executeEach fuel program m).scopeRestored

/-- **The scope is always restored.**  An expression, a statement, statements in a scope of their own,
and a call end in the scope that they began with, whether with a value, with a return or with a failure.
So in every session, after programs of any outcome, the global scope is current. -/
theorem scope_restored :
    (∀ (fuel : Nat) (m : Machine),
      (∀ e, m.ScopeRestored (Machine.evaluate fuel e m)) ∧
        (∀ s, m.ScopeRestored (Machine.execute fuel s m)) ∧
        (∀ scope body, m.ScopeRestored (Machine.executeIn fuel scope body m)) ∧
        (∀ paren callee arguments,
          m.ScopeRestored (Machine.apply fuel paren callee arguments m)) ∧
        ∀ f arguments, m.ScopeRestored (Machine.invoke fuel f arguments m)) ∧
      ∀ {clock : Nat → Binary64} {takes : String → Bool} {s : Session},
        Reached clock takes (fun _ => True) s →
        s.machine.scope = Machine.globals := by
  refine ⟨fun fuel m => ?_, fun h => ?_⟩
  · have hleads := Machine.leading fuel
    exact ⟨fun e => (hleads.evaluate e m).scopeRestored, fun s => (hleads.execute s m).scopeRestored,
      fun scope body => (hleads.executeIn scope body m).scopeRestored,
      fun paren callee arguments => (hleads.apply paren callee arguments m).scopeRestored,
      fun f arguments => (hleads.invoke f arguments m).scopeRestored⟩
  · exact h.machine (P := fun m => m.scope = Machine.globals) rfl
      (fun program _ => keptBy_scope _ program) fun program _ => keptBy_scope _ program

/-- A function that returns out of nested blocks of a loop, and one that fails within nested blocks. -/
def nestedExits : String :=
  "fun f() \x7bwhile (true) \x7b\x7breturn 1;\x7d\x7d\x7d " ++
    "fun g() \x7b\x7b\x7bnil + f();\x7d\x7d\x7d \x7bg();\x7d"

/-- Behind the error the global scope is current. -/
theorem scope_restored_nestedExits :
    Reached (fun _ => Binary64.zero) (fun _ => true) (fun _ => True)
        ((start fun _ => Binary64.zero).run 40 nestedExits).1 ∧
      ((start fun _ => Binary64.zero).run 40 nestedExits).1.diagnostics.messages =
        ["[line 1] Error: Operands of '+' must be two numbers or two strings."] ∧
      ((start fun _ => Binary64.zero).run 40 nestedExits).1.machine.scope = Machine.globals := by
  have hreached : Reached (fun _ => Binary64.zero) (fun _ => true) (fun _ => True)
      ((start fun _ => Binary64.zero).run 40 nestedExits).1 := .run .start 40 nestedExits
  have hmessages : ((start fun _ => Binary64.zero).run 40 nestedExits).1.diagnostics.messages =
      ["[line 1] Error: Operands of '+' must be two numbers or two strings."] := by decide +kernel
  exact ⟨hreached, hmessages, scope_restored.2 hreached⟩

end Session

end LoxLang
