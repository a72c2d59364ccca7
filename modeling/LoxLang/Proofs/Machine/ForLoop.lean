/-
**The meaning of `for` statements.**

A `for` statement is read as a loop with blocks around it: one around the initializer and the loop, one
around the body and the increment.  What it means is said here directly: the initializer runs once, in a
scope that is opened for it; then the condition is tested and the body and the increment are run, again
and again, all of them in that scope; and a return of the body leaves at once.  The tree that is read
comes to the same endings, up to the empty frames of the block around body and increment: since a body is
never a declaration, nothing is bound in them, so they cannot be told from the scope around them, even by
functions that keep them.

* `LoxLang.Tests`, `LoxLang.Steps`, `LoxLang.Round`, `LoxLang.Iterates`, `LoxLang.ForLoops` — **the direct
  meaning**;
* `LoxLang.Alignment.round_right`, `LoxLang.Alignment.round_left` — body and increment in their block;
* `LoxLang.Alignment.iterates_right`, `LoxLang.Alignment.loop_left` — the loop around them;
* `LoxLang.Parser.ForClauses` — the clauses that are read;
* `LoxLang.Parser.forStatement_meaning` — **a `for` statement means what its clauses say**.
-/

import LoxLang.Proofs.Machine.AlignedRuns
import LoxLang.Proofs.Machine.Growth

set_option relaxedAutoImplicit false
set_option autoImplicit false

namespace LoxLang

/-! ### The direct meaning -/

/-- The test of a condition comes to the ending; a condition that is left out is true. -/
inductive Tests : Option Expr → Machine → Ending Bool → Prop where
  | absent {m : Machine} : Tests none m (.ok true m)
  | value {e : Expr} {m m' : Machine} {value : Value} (h : Evaluates e m (.ok value m')) :
      Tests (some e) m (.ok value.isTruthy m')
  | fails {e : Expr} {m m' : Machine} {failure : Failure} (h : Evaluates e m (.failed failure m')) :
      Tests (some e) m (.failed failure m')

/-- The increment comes to the ending; one that is left out does nothing. -/
inductive Steps : Option Expr → Machine → Ending Unit → Prop where
  | absent {m : Machine} : Steps none m (.ok () m)
  | value {e : Expr} {m m' : Machine} {value : Value} (h : Evaluates e m (.ok value m')) :
      Steps (some e) m (.ok () m')
  | fails {e : Expr} {m m' : Machine} {failure : Failure} (h : Evaluates e m (.failed failure m')) :
      Steps (some e) m (.failed failure m')

/-- The body and behind it the increment come to the ending. -/
inductive Round (increment : Option Expr) (body : Stmt) (m : Machine) : Ending Completion → Prop where
  | completed {m₁ m₂ : Machine} (hb : Executes body m (.ok .normal m₁))
      (hs : Steps increment m₁ (.ok () m₂)) : Round increment body m (.ok .normal m₂)
  /-- The increment stays unevaluated behind a return. -/
  | returned {m₁ : Machine} {value : Value} (hb : Executes body m (.ok (.returned value) m₁)) :
      Round increment body m (.ok (.returned value) m₁)
  | bodyFails {m₁ : Machine} {failure : Failure} (hb : Executes body m (.failed failure m₁)) :
      Round increment body m (.failed failure m₁)
  | stepFails {m₁ m₂ : Machine} {failure : Failure} (hb : Executes body m (.ok .normal m₁))
      (hs : Steps increment m₁ (.failed failure m₂)) : Round increment body m (.failed failure m₂)

/-- The rounds, with the test of the condition before each of them, come to the ending. -/
inductive Iterates (condition increment : Option Expr) (body : Stmt) :
    Machine → Ending Completion → Prop where
  | ends {m m₁ : Machine} (ht : Tests condition m (.ok false m₁)) :
      Iterates condition increment body m (.ok .normal m₁)
  | again {m m₁ m₂ : Machine} {ending : Ending Completion} (ht : Tests condition m (.ok true m₁))
      (hr : Round increment body m₁ (.ok .normal m₂))
      (h : Iterates condition increment body m₂ ending) :
      Iterates condition increment body m ending
  | returned {m m₁ m₂ : Machine} {value : Value} (ht : Tests condition m (.ok true m₁))
      (hr : Round increment body m₁ (.ok (.returned value) m₂)) :
      Iterates condition increment body m (.ok (.returned value) m₂)
  | roundFails {m m₁ m₂ : Machine} {failure : Failure} (ht : Tests condition m (.ok true m₁))
      (hr : Round increment body m₁ (.failed failure m₂)) :
      Iterates condition increment body m (.failed failure m₂)
  | testFails {m m₁ : Machine} {failure : Failure} (ht : Tests condition m (.failed failure m₁)) :
      Iterates condition increment body m (.failed failure m₁)

/-- The `for` statement with these clauses comes to the ending.  A scope is opened only for an
initializer, which runs once in it, and is left however the rounds end. -/
inductive ForLoops : Option Stmt → Option Expr → Option Expr → Stmt → Machine →
    Ending Completion → Prop where
  | bare {condition increment : Option Expr} {body : Stmt} {m : Machine} {ending : Ending Completion}
      (h : Iterates condition increment body m ending) :
      ForLoops none condition increment body m ending
  | opened {first : Stmt} {condition increment : Option Expr} {body : Stmt} {m m₁ : Machine}
      {ending : Ending Completion} (hf : Executes first (m.opening [] [] m.scope) (.ok .normal m₁))
      (h : Iterates condition increment body m₁ ending) :
      ForLoops (some first) condition increment body m (ending.leaving m.scope)
  | firstFails {first : Stmt} {condition increment : Option Expr} {body : Stmt} {m m₁ : Machine}
      {failure : Failure} (hf : Executes first (m.opening [] [] m.scope) (.failed failure m₁)) :
      ForLoops (some first) condition increment body m (.failed failure (m₁.entering m.scope))

/-! ### The tree that is read -/

/-- The body of the loop: the body that was read, and the increment behind it in a block. -/
def loopBody (increment : Option Expr) (body : Stmt) : Stmt :=
  match increment with
  | none => body
  | some step => .block [body, .expression step]

/-- The condition of the loop. -/
def loopCondition (condition : Option Expr) : Expr := condition.getD (.literal (.bool true))

theorem forLoop_none (condition increment : Option Expr) (body : Stmt) :
    forLoop none condition increment body =
      .loop (loopCondition condition) (loopBody increment body) := by
  cases increment <;> rfl

theorem forLoop_some (first : Stmt) (condition increment : Option Expr) (body : Stmt) :
    forLoop (some first) condition increment body =
      .block [first, .loop (loopCondition condition) (loopBody increment body)] := by
  cases increment <;> rfl

/-- The test of a condition is its value. -/
theorem tests_ok_iff {condition : Option Expr} {m m₁ : Machine} {b : Bool} :
    Tests condition m (.ok b m₁) ↔
      ∃ value, Evaluates (loopCondition condition) m (.ok value m₁) ∧ value.isTruthy = b := by
  constructor
  · intro h
    cases h with
    | absent => exact ⟨.bool true, .literal, rfl⟩
    | value h => exact ⟨_, h, rfl⟩
  · rintro ⟨value, h, rfl⟩
    cases condition with
    | none =>
        cases h
        exact .absent
    | some e => exact .value h

theorem tests_failed_iff {condition : Option Expr} {m m₁ : Machine} {failure : Failure} :
    Tests condition m (.failed failure m₁) ↔
      Evaluates (loopCondition condition) m (.failed failure m₁) := by
  constructor
  · intro h
    cases h with
    | fails h => exact h
  · intro h
    cases condition with
    | none => cases h
    | some e => exact .fails h

/-- The statement may stand in the first clause: it is a declaration of a variable, or an expression. -/
def Stmt.OpensLoop (s : Stmt) : Prop :=
  (∃ name value, s = .declare name value) ∨ ∃ value, s = .expression value

theorem Stmt.OpensLoop.not_returned {s : Stmt} (h : s.OpensLoop) {m m' : Machine} {value : Value} :
    ¬ Executes s m (.ok (.returned value) m') := by
  rcases h with ⟨name, value, rfl⟩ | ⟨value, rfl⟩
  · intro h
    cases h
  · intro h
    cases h

namespace Alignment

variable {w : Alignment} {c₁ c₂ d₁ d₂ : Address} {m₁ m₂ : Machine} {condition increment : Option Expr}
  {body : Stmt} {ending₁ ending₂ : Ending Completion}

/-! ### Rounds -/

/-- Both runs go back to scopes of which the one is seen from the other. -/
theorem EndAlike.leaving (h : w.EndAlike d₁ d₂ CompletionAlike ending₁ ending₂)
    (hs : w.Sees c₁ c₂) :
    w.EndAlike c₁ c₂ CompletionAlike (ending₁.leaving c₁) (ending₂.leaving c₂) := by
  cases h with
  | ok hw hv hm => exact .ok hw hv (hm.entering (hs.mono hw))
  | failed hw hm => exact .failed hw (hm.entering (hs.mono hw))

/-- Only the second run leaves an empty frame. -/
theorem EndAlike.leaving_right (h : w.EndAlike c₁ d₂ CompletionAlike ending₁ ending₂)
    (hs : w.Sees c₁ c₂) : w.EndAlike c₁ c₂ CompletionAlike ending₁ (ending₂.leaving c₂) := by
  cases h with
  | ok hw hv hm => exact .ok hw hv { hm with sees := hs.mono hw, scope₂ := rfl }
  | failed hw hm => exact .failed hw { hm with sees := hs.mono hw, scope₂ := rfl }

/-- A body that declares nothing may run in a scope that is only seen from the other. -/
theorem same_of_declared (hd : body.declared = []) : body.declared ≠ [] → w.same c₁ c₂ :=
  fun hne => absurd hd hne

theorem inner_right {step : Expr} (hd : body.declared = []) (hm : w.Related c₁ c₂ m₁ m₂)
    (h : Round (some step) body m₁ ending₁) :
    ∃ ending₂, ExecutesAll [body, .expression step] m₂ ending₂ ∧
      w.EndAlike c₁ c₂ CompletionAlike ending₁ ending₂ := by
  cases h with
  | completed hb hs =>
      obtain ⟨_, hb₂, halike⟩ := hm.executes_right (same_of_declared hd) hb
      cases halike with
      | ok hw hlast hm =>
          cases hlast
          cases hs with
          | value hs =>
              obtain ⟨_, hs₂, halike⟩ := hm.evaluates_right hs
              cases halike with
              | ok hw' _ hm =>
                  exact ⟨_, .cons hb₂ (.cons (.expression hs₂) .nil), .ok (hw.trans hw') .normal hm⟩
  | returned hb =>
      obtain ⟨_, hb₂, halike⟩ := hm.executes_right (same_of_declared hd) hb
      cases halike with
      | ok hw hlast hm =>
          cases hlast with
          | returned hv => exact ⟨_, .returns hb₂, .ok hw (.returned hv) hm⟩
  | bodyFails hb =>
      obtain ⟨_, hb₂, halike⟩ := hm.executes_right (same_of_declared hd) hb
      cases halike with
      | failed hw hm => exact ⟨_, .fails hb₂, .failed hw hm⟩
  | stepFails hb hs =>
      obtain ⟨_, hb₂, halike⟩ := hm.executes_right (same_of_declared hd) hb
      cases halike with
      | ok hw hlast hm =>
          cases hlast
          cases hs with
          | fails hs =>
              obtain ⟨_, hs₂, halike⟩ := hm.evaluates_right hs
              cases halike with
              | failed hw' hm =>
                  exact ⟨_, .cons hb₂ (.fails (.expressionFails hs₂)), .failed (hw.trans hw') hm⟩

theorem inner_left {step : Expr} (hd : body.declared = []) (hm : w.Related c₁ c₂ m₁ m₂)
    (h : ExecutesAll [body, .expression step] m₂ ending₂) :
    ∃ ending₁, Round (some step) body m₁ ending₁ ∧
      w.EndAlike c₁ c₂ CompletionAlike ending₁ ending₂ := by
  -- The block holds two statements, the body and the increment, and the second may be left out by a
  -- return or a failure of the first.
  cases h with
  | cons hb hs =>
      obtain ⟨_, hb₁, halike⟩ := hm.executes_left (same_of_declared hd) hb
      cases halike with
      | ok hw hlast hm =>
          cases hlast
          cases hs with
          | cons hs hnil =>
              cases hs with
              | expression hs =>
                  cases hnil
                  obtain ⟨_, hs₁, halike⟩ := hm.evaluates_left hs
                  cases halike with
                  | ok hw' _ hm =>
                      exact ⟨_, .completed hb₁ (.value hs₁), .ok (hw.trans hw') .normal hm⟩
          | returns hs => cases hs
          | fails hs =>
              cases hs with
              | expressionFails hs =>
                  obtain ⟨_, hs₁, halike⟩ := hm.evaluates_left hs
                  cases halike with
                  | failed hw' hm =>
                      exact ⟨_, .stepFails hb₁ (.fails hs₁), .failed (hw.trans hw') hm⟩
  | returns hb =>
      obtain ⟨_, hb₁, halike⟩ := hm.executes_left (same_of_declared hd) hb
      cases halike with
      | ok hw hlast hm =>
          cases hlast with
          | returned hv => exact ⟨_, .returned hb₁, .ok hw (.returned hv) hm⟩
  | fails hb =>
      obtain ⟨_, hb₁, halike⟩ := hm.executes_left (same_of_declared hd) hb
      cases halike with
      | failed hw hm => exact ⟨_, .bodyFails hb₁, .failed hw hm⟩

/-- Without an increment a round is the body. -/
theorem round_none_iff {m : Machine} {ending : Ending Completion} :
    Round none body m ending ↔ Executes body m ending := by
  constructor
  · intro h
    cases h with
    | completed hb hs =>
        cases hs
        exact hb
    | returned hb => exact hb
    | bodyFails hb => exact hb
    | stepFails hb hs => cases hs
  · intro h
    cases ending with
    | failed failure m' => exact .bodyFails h
    | ok last m' =>
        cases last with
        | normal => exact .completed h .absent
        | returned value => exact .returned h

/-- **A round is what the body of the loop does**, in an empty frame if there is an increment. -/
theorem round_right (hd : body.declared = []) (hm : w.Related c₁ c₂ m₁ m₂)
    (h : Round increment body m₁ ending₁) :
    ∃ ending₂, Executes (loopBody increment body) m₂ ending₂ ∧
      w.EndAlike c₁ c₂ CompletionAlike ending₁ ending₂ := by
  cases increment with
  | none => exact hm.executes_right (same_of_declared hd) (round_none_iff.1 h)
  | some step =>
      -- Only the tree opens a frame here.  Nothing is declared in it, so it need not be paired.
      obtain ⟨ending₂, hall, halike⟩ := inner_right hd hm.insert h
      have hw : w.Extends (w.inserting m₂.heap.next c₂) := w.extends_inserting _ _
      refine ⟨ending₂.leaving m₂.scope, .block hall, ?_⟩
      rw [hm.scope₂]
      exact (halike.leaving_right (hm.sees.mono hw)).of_extends hw

theorem round_left (hd : body.declared = []) (hm : w.Related c₁ c₂ m₁ m₂)
    (h : Executes (loopBody increment body) m₂ ending₂) :
    ∃ ending₁, Round increment body m₁ ending₁ ∧
      w.EndAlike c₁ c₂ CompletionAlike ending₁ ending₂ := by
  cases increment with
  | none =>
      obtain ⟨ending₁, hb, halike⟩ := hm.executes_left (same_of_declared hd) h
      exact ⟨ending₁, round_none_iff.2 hb, halike⟩
  | some step =>
      cases h with
      | block hall =>
          obtain ⟨ending₁, hround, halike⟩ := inner_left hd hm.insert hall
          have hw : w.Extends (w.inserting m₂.heap.next c₂) := w.extends_inserting _ _
          refine ⟨ending₁, hround, ?_⟩
          rw [hm.scope₂]
          exact (halike.leaving_right (hm.sees.mono hw)).of_extends hw

/-! ### Rounds again and again -/

/-- The condition of the loop tests what the condition tests. -/
theorem loopCondition_right (hm : w.Related c₁ c₂ m₁ m₂) {b : Bool} {m : Machine}
    (h : Tests condition m₁ (.ok b m)) :
    ∃ value m' w', Evaluates (loopCondition condition) m₂ (.ok value m') ∧ value.isTruthy = b ∧
      w.Extends w' ∧ w'.Related c₁ c₂ m m' := by
  obtain ⟨value, hc, rfl⟩ := tests_ok_iff.1 h
  obtain ⟨_, hc₂, halike⟩ := hm.evaluates_right hc
  cases halike with
  | ok hw hv hm => exact ⟨_, _, _, hc₂, hv.isTruthy_eq.symm, hw, hm⟩

/-- **The loop comes to what the rounds come to**, by induction on the rounds. -/
theorem iterates_right (hd : body.declared = []) (h : Iterates condition increment body m₁ ending₁) :
    ∀ {w : Alignment} {c₁ c₂ m₂}, w.Related c₁ c₂ m₁ m₂ →
      ∃ ending₂, Executes (.loop (loopCondition condition) (loopBody increment body)) m₂ ending₂ ∧
        w.EndAlike c₁ c₂ CompletionAlike ending₁ ending₂ := by
  induction h with
  | ends ht =>
      intro w c₁ c₂ m₂ hm
      obtain ⟨_, _, _, hc, htruth, hw, hm⟩ := loopCondition_right hm ht
      exact ⟨_, .loopEnds hc htruth, .ok hw .normal hm⟩
  | again ht hr h ih =>
      intro w c₁ c₂ m₂ hm
      obtain ⟨_, _, _, hc, htruth, hw, hm⟩ := loopCondition_right hm ht
      obtain ⟨_, hr₂, halike⟩ := round_right hd hm hr
      cases halike with
      | ok hw' hlast hm =>
          cases hlast
          obtain ⟨_, h₂, halike⟩ := ih hm
          exact ⟨_, .loopAgain hc htruth hr₂ h₂, halike.of_extends (hw.trans hw')⟩
  | returned ht hr =>
      intro w c₁ c₂ m₂ hm
      obtain ⟨_, _, _, hc, htruth, hw, hm⟩ := loopCondition_right hm ht
      obtain ⟨_, hr₂, halike⟩ := round_right hd hm hr
      cases halike with
      | ok hw' hlast hm =>
          cases hlast with
          | returned hv =>
              exact ⟨_, .loopReturns hc htruth hr₂, .ok (hw.trans hw') (.returned hv) hm⟩
  | roundFails ht hr =>
      intro w c₁ c₂ m₂ hm
      obtain ⟨_, _, _, hc, htruth, hw, hm⟩ := loopCondition_right hm ht
      obtain ⟨_, hr₂, halike⟩ := round_right hd hm hr
      cases halike with
      | failed hw' hm => exact ⟨_, .loopBodyFails hc htruth hr₂, .failed (hw.trans hw') hm⟩
  | testFails ht =>
      intro w c₁ c₂ m₂ hm
      obtain ⟨_, hc, halike⟩ := hm.evaluates_right (tests_failed_iff.1 ht)
      cases halike with
      | failed hw hm => exact ⟨_, .loopConditionFails hc, .failed hw hm⟩

theorem loopCondition_left (hm : w.Related c₁ c₂ m₁ m₂) {value : Value} {m : Machine} {b : Bool}
    (h : Evaluates (loopCondition condition) m₂ (.ok value m)) (ht : value.isTruthy = b) :
    ∃ m' w', Tests condition m₁ (.ok b m') ∧ w.Extends w' ∧ w'.Related c₁ c₂ m' m := by
  obtain ⟨_, h₁, halike⟩ := hm.evaluates_left h
  cases halike with
  | ok hw hv hm => exact ⟨_, _, tests_ok_iff.2 ⟨_, h₁, hv.isTruthy_eq.trans ht⟩, hw, hm⟩

/-- **The rounds come to what the loop comes to**, by induction along the rounds of the loop. -/
theorem loop_left (hd : body.declared = [])
    (h : Executes (.loop (loopCondition condition) (loopBody increment body)) m₂ ending₂) :
    ∀ {w : Alignment} {c₁ c₂ m₁}, w.Related c₁ c₂ m₁ m₂ →
      ∃ ending₁, Iterates condition increment body m₁ ending₁ ∧
        w.EndAlike c₁ c₂ CompletionAlike ending₁ ending₂ := by
  induction h using Machine.loop_induction with
  | ends hc ht =>
      intro w c₁ c₂ m₁ hm
      obtain ⟨_, _, htest, hw, hm⟩ := loopCondition_left hm hc ht
      exact ⟨_, .ends htest, .ok hw .normal hm⟩
  | again hc ht hb h ih =>
      intro w c₁ c₂ m₁ hm
      obtain ⟨_, _, htest, hw, hm⟩ := loopCondition_left hm hc ht
      obtain ⟨_, hround, halike⟩ := round_left hd hm hb
      cases halike with
      | ok hw' hlast hm =>
          cases hlast
          -- The states behind the round are aligned, with the frame of the round besides.
          obtain ⟨_, hrest, halike⟩ := ih hm
          exact ⟨_, .again htest hround hrest, halike.of_extends (hw.trans hw')⟩
  | returns hc ht hb =>
      intro w c₁ c₂ m₁ hm
      obtain ⟨_, _, htest, hw, hm⟩ := loopCondition_left hm hc ht
      obtain ⟨_, hround, halike⟩ := round_left hd hm hb
      cases halike with
      | ok hw' hlast hm =>
          cases hlast with
          | returned hv => exact ⟨_, .returned htest hround, .ok (hw.trans hw') (.returned hv) hm⟩
  | bodyFails hc ht hb =>
      intro w c₁ c₂ m₁ hm
      obtain ⟨_, _, htest, hw, hm⟩ := loopCondition_left hm hc ht
      obtain ⟨_, hround, halike⟩ := round_left hd hm hb
      cases halike with
      | failed hw' hm => exact ⟨_, .roundFails htest hround, .failed (hw.trans hw') hm⟩
  | conditionFails hc =>
      intro w c₁ c₂ m₁ hm
      obtain ⟨_, h₁, halike⟩ := hm.evaluates_left hc
      cases halike with
      | failed hw hm => exact ⟨_, .testFails (tests_failed_iff.2 h₁), .failed hw hm⟩

/-! ### The scope of the initializer -/

/-- Both runs open a scope. -/
theorem Related.opening (hm : w.Related c₁ c₂ m₁ m₂) :
    (w.pairing m₁.heap.next m₂.heap.next).Related m₁.heap.next m₂.heap.next
      (m₁.opening [] [] m₁.scope) (m₂.opening [] [] m₂.scope) := by
  have hframe : w.FrameAlike ⟨[], some m₁.scope⟩ ⟨[], some m₂.scope⟩ := by
    refine ⟨.nil, .some ?_⟩
    rw [hm.scope₁, hm.scope₂]
    exact hm.sees
  exact (hm.allocate hframe).entering (.same (w.same_pairing _ _))

theorem executesAll_singleton_iff {s : Stmt} {m : Machine} {ending : Ending Completion} :
    ExecutesAll [s] m ending ↔ Executes s m ending := by
  constructor
  · intro h
    cases h with
    | cons h hs =>
        cases hs
        exact h
    | returns h => exact h
    | fails h => exact h
  · intro h
    cases ending with
    | failed failure m' => exact .fails h
    | ok last m' =>
        cases last with
        | normal => exact .cons h .nil
        | returned value => exact .returns h

/-- **The tree comes to what the statement comes to.** -/
theorem forLoops_right {first : Option Stmt} (hd : body.declared = [])
    (hm : w.Related c₁ c₂ m₁ m₂) (h : ForLoops first condition increment body m₁ ending₁) :
    ∃ ending₂, Executes (forLoop first condition increment body) m₂ ending₂ ∧
      w.EndAlike c₁ c₂ CompletionAlike ending₁ ending₂ := by
  have hw : w.Extends (w.pairing m₁.heap.next m₂.heap.next) := w.extends_pairing _ _
  have hsame : (w.pairing m₁.heap.next m₂.heap.next).same m₁.heap.next m₂.heap.next :=
    w.same_pairing _ _
  cases h with
  | bare h =>
      rw [forLoop_none]
      exact iterates_right hd h hm
  | @opened first _ _ _ _ n₁ ending hf h =>
      -- The frames of the initializer are a pair, since it may declare a variable there.
      obtain ⟨_, hf₂, halike⟩ := hm.opening.executes_right (fun _ => hsame) hf
      cases halike with
      | ok hw' hlast hn =>
          cases hlast
          obtain ⟨ending₂, hloop, halike⟩ := iterates_right hd h hn
          rw [forLoop_some]
          refine ⟨_, .block (.cons hf₂ (executesAll_singleton_iff.2 hloop)), ?_⟩
          rw [hm.scope₁, hm.scope₂]
          exact ((halike.of_extends hw').leaving (hm.sees.mono hw)).of_extends hw
  | firstFails hf =>
      obtain ⟨_, hf₂, halike⟩ := hm.opening.executes_right (fun _ => hsame) hf
      cases halike with
      | failed hw' hn =>
          rw [forLoop_some]
          refine ⟨_, .block (.fails hf₂), ?_⟩
          rw [hm.scope₁, hm.scope₂]
          exact .failed (hw.trans hw') (hn.entering (hm.sees.mono (hw.trans hw')))

/-- **The statement comes to what the tree comes to.** -/
theorem forLoops_left {first : Option Stmt} (hfirst : IfAny Stmt.OpensLoop first)
    (hd : body.declared = []) (hm : w.Related c₁ c₂ m₁ m₂)
    (h : Executes (forLoop first condition increment body) m₂ ending₂) :
    ∃ ending₁, ForLoops first condition increment body m₁ ending₁ ∧
      w.EndAlike c₁ c₂ CompletionAlike ending₁ ending₂ := by
  have hw : w.Extends (w.pairing m₁.heap.next m₂.heap.next) := w.extends_pairing _ _
  have hsame : (w.pairing m₁.heap.next m₂.heap.next).same m₁.heap.next m₂.heap.next :=
    w.same_pairing _ _
  cases first with
  | none =>
      rw [forLoop_none] at h
      obtain ⟨ending₁, hiterates, halike⟩ := loop_left hd h hm
      exact ⟨ending₁, .bare hiterates, halike⟩
  | some first =>
      rw [forLoop_some] at h
      cases h with
      | block h =>
          cases h with
          | cons hf hs =>
              obtain ⟨_, hf₁, halike⟩ := hm.opening.executes_left (fun _ => hsame) hf
              cases halike with
              | ok hw' hlast hn =>
                  cases hlast
                  obtain ⟨_, hiterates, halike⟩ :=
                    loop_left hd (executesAll_singleton_iff.1 hs) hn
                  refine ⟨_, .opened hf₁ hiterates, ?_⟩
                  rw [hm.scope₁, hm.scope₂]
                  exact ((halike.of_extends hw').leaving (hm.sees.mono hw)).of_extends hw
          -- The rules for a statement have no initializer that returns; none is read.
          | returns hf => exact absurd hf (hfirst first rfl).not_returned
          | fails hf =>
              obtain ⟨_, hf₁, halike⟩ := hm.opening.executes_left (fun _ => hsame) hf
              cases halike with
              | failed hw' hn =>
                  refine ⟨_, .firstFails hf₁, ?_⟩
                  rw [hm.scope₁, hm.scope₂]
                  exact .failed (hw.trans hw') (hn.entering (hm.sees.mono (hw.trans hw')))

end Alignment

/-! ### Statements that are read -/

namespace Parser

/-- The clauses of a `for` statement, read one behind the other, each from where the one before it
ended. -/
inductive ForClauses (fuel : Nat) (s : ParserState) :
    Option Stmt → Option Expr → Option Expr → Stmt → ParserState → Prop where
  | read {opening semicolon closing : Token} {first : Option Stmt}
      {condition increment : Option Expr} {body : Stmt} {s₁ s₂ s₃ s₄ s₅ s₆ t : ParserState}
      (hopening : expect .leftParen .parenAfterFor s = .ok opening s₁)
      (hfirst : forInitializer fuel s₁ = .ok first s₂)
      (hcondition : optionalExpression fuel .semicolon s₂ = .ok condition s₃)
      (hsemicolon : expect .semicolon .semicolonAfterLoopCondition s₃ = .ok semicolon s₄)
      (hincrement : optionalExpression fuel .rightParen s₄ = .ok increment s₅)
      (hclosing : expect .rightParen .parenAfterForClauses s₅ = .ok closing s₆)
      (hbody : statement fuel s₆ = .ok body t) : ForClauses fuel s first condition increment body t

/-- A `for` statement is read as the loop of its clauses. -/
theorem forStatement_eq_ok_iff {fuel : Nat} {s t : ParserState} {tree : Stmt} :
    forStatement (fuel + 1) s = .ok tree t ↔
      ∃ first condition increment body, ForClauses fuel s first condition increment body t ∧
        tree = forLoop first condition increment body := by
  constructor
  · intro h
    rw [forStatement] at h
    obtain ⟨_, _, hopening, h₁⟩ := bind_eq_ok.1 h
    obtain ⟨first, _, hfirst, h₂⟩ := bind_eq_ok.1 h₁
    obtain ⟨condition, _, hcondition, h₃⟩ := bind_eq_ok.1 h₂
    obtain ⟨_, _, hsemicolon, h₄⟩ := bind_eq_ok.1 h₃
    obtain ⟨increment, _, hincrement, h₅⟩ := bind_eq_ok.1 h₄
    obtain ⟨_, _, hclosing, h₆⟩ := bind_eq_ok.1 h₅
    obtain ⟨body, _, hbody, h₇⟩ := bind_eq_ok.1 h₆
    cases h₇
    exact ⟨first, condition, increment, body,
      .read hopening hfirst hcondition hsemicolon hincrement hclosing hbody, rfl⟩
  · rintro ⟨first, condition, increment, body, h, rfl⟩
    cases h with
    | read hopening hfirst hcondition hsemicolon hincrement hclosing hbody =>
        rw [forStatement]
        refine bind_eq_ok.2 ⟨_, _, hopening, bind_eq_ok.2 ⟨_, _, hfirst, ?_⟩⟩
        refine bind_eq_ok.2 ⟨_, _, hcondition, bind_eq_ok.2 ⟨_, _, hsemicolon, ?_⟩⟩
        refine bind_eq_ok.2 ⟨_, _, hincrement, bind_eq_ok.2 ⟨_, _, hclosing, ?_⟩⟩
        exact bind_eq_ok.2 ⟨_, _, hbody, rfl⟩

theorem opensLoop_forInitializer (fuel : Nat) :
    Builds (IfAny Stmt.OpensLoop) (forInitializer fuel) := by
  cases fuel with
  | zero => exact builds_outOfFuel
  | succ fuel =>
      rw [forInitializer]
      refine builds_bind fun found => ?_
      cases found with
      | some semicolon => exact builds_pure ifAny_none
      | none =>
          refine builds_bind fun found => ?_
          cases found with
          | some word =>
              have hvariable : Builds Stmt.OpensLoop (variableDeclaration fuel) :=
                builds_bind fun _ => builds_bind fun _ => builds_bind fun _ =>
                  builds_pure (.inl ⟨_, _, rfl⟩)
              exact hvariable.bind fun s hs => builds_pure (ifAny_some hs)
          | none =>
              have hexpression : Builds Stmt.OpensLoop (expressionStatement fuel) :=
                builds_bind fun _ => builds_bind fun _ => builds_pure (.inr ⟨_, rfl⟩)
              exact hexpression.bind fun s hs => builds_pure (ifAny_some hs)

/-- A body is no declaration, and declares nothing in its scope. -/
theorem ForClauses.declared {fuel : Nat} {s t : ParserState} {first : Option Stmt}
    {condition increment : Option Expr} {body : Stmt}
    (h : ForClauses fuel s first condition increment body t) : body.declared = [] := by
  cases h with
  | read _ _ _ _ _ _ hbody =>
      obtain ⟨hname, hplaced⟩ :=
        inherited_placed.builds_statement (fun _ => builds_any _) fuel _ _ _ hbody
      rw [Stmt.declared_eq_toList hplaced, hname]
      rfl

theorem ForClauses.opensLoop {fuel : Nat} {s t : ParserState} {first : Option Stmt}
    {condition increment : Option Expr} {body : Stmt}
    (h : ForClauses fuel s first condition increment body t) : IfAny Stmt.OpensLoop first := by
  cases h with
  | read _ hfirst _ _ _ _ _ => exact opensLoop_forInitializer fuel _ _ _ hfirst

end Parser

/-! ### The meaning of a statement -/

/-- The tree declares nothing: a block is around the initializer. -/
theorem declared_forLoop {first : Option Stmt} {condition increment : Option Expr} {body : Stmt}
    (hd : body.declared = []) : (forLoop first condition increment body).declared = [] := by
  cases first with
  | some first =>
      rw [forLoop_some]
      rfl
  | none =>
      rw [forLoop_none]
      cases increment with
      | none => exact hd
      | some step => rfl

namespace Machine

/-- The ending is the direct one but for empty frames.  The frames of the state before are paired with
themselves, so they bind the same names to the same values afterwards, and so do the frames that were
added, in pairs; every other frame of the second heap is empty. -/
def EndsAlike (m : Machine) (direct ending : Ending Completion) : Prop :=
  (Alignment.identity m.heap.next).EndAlike m.scope m.scope Alignment.CompletionAlike direct ending

/-- Whatever is run behind the endings ends alike as well. -/
theorem EndsAlike.execute {m m₁ m₂ : Machine} {last₁ last₂ : Completion} (hm : m.Linked)
    (h : m.EndsAlike (.ok last₁ m₁) (.ok last₂ m₂)) (fuel : Nat) (s : Stmt) :
    (Alignment.identity m.heap.next).Ends m.scope m.scope Alignment.CompletionAlike
      (Machine.execute fuel s m₁) (Machine.execute fuel s m₂) := by
  cases h with
  | ok hw _ hrelated =>
      have hs : (Alignment.identity m.heap.next).same m.scope m.scope := ⟨rfl, hm.scope⟩
      exact ((Alignment.aligned fuel).execute s hrelated fun _ => hw.same hs).of_extends hw

/-- **The block around body and increment leaves an empty frame.** -/
theorem frame?_loopBody {increment : Option Expr} {body : Stmt} (hd : body.declared = [])
    {step : Expr} (hi : increment = some step) (fuel : Nat) (m : Machine) :
    (Machine.execute fuel (loopBody increment body) m).Ends
      (fun _ m' => m'.heap.frame? m.heap.next = some ⟨[], some m.scope⟩)
      fun _ m' => m'.heap.frame? m.heap.next = some ⟨[], some m.scope⟩ := by
  subst hi
  cases fuel with
  | zero => trivial
  | succ fuel =>
      have hall : Stmt.declaredAll [body, .expression step] = [] := by
        rw [Stmt.declaredAll, List.flatMap_cons, hd]
        rfl
      have hgrows := (growing fuel).executeIn m.heap.next [body, .expression step]
        (m.allocate m.blockFrame)
      rw [hall] at hgrows
      -- A frame that began without names and got none has none.
      have hempty : ∀ m' : Machine, (m.allocate m.blockFrame).heap.Grows m.heap.next [] m'.heap →
          m'.heap.frame? m.heap.next = some ⟨[], some m.scope⟩ := by
        intro m' hm
        have hnew : (m.allocate m.blockFrame).heap.frame? m.heap.next = some m.blockFrame :=
          (Heap.frame?_allocate ..).trans (if_pos rfl)
        obtain ⟨⟨bindings, enclosing⟩, added, hf, ⟨henclosing, hnames⟩, hadded⟩ :=
          hm m.heap.next _ hnew
        obtain rfl : added = [] :=
          List.eq_nil_iff_forall_not_mem.2 fun name hmem => List.not_mem_nil (hadded name hmem).2
        dsimp only at henclosing hnames
        rw [hf, henclosing, List.map_eq_nil_iff.1 hnames]
        rfl
      exact hgrows.imp (fun _ m' hm => hempty m' hm.2) fun _ m' hm => hempty m' hm.2

end Machine

namespace Parser

/-- **A `for` statement means what its clauses say.**  From a state whose scopes are there, what is read
and what the clauses say come to the same endings, or both to none; whatever is run behind them ends
alike.  The names of the initializer are gone, and the block around body and increment binds none. -/
theorem forStatement_meaning {fuel : Nat} {s t : ParserState} {tree : Stmt}
    (h : forStatement fuel s = .ok tree t) :
    ∃ less first condition increment body, fuel = less + 1 ∧
      ForClauses less s first condition increment body t ∧
      (∀ m direct, m.Linked → ForLoops first condition increment body m direct →
        ∃ ending, Settles (fun more => Machine.execute more tree m) ending ∧
          m.EndsAlike direct ending) ∧
      (∀ m ending more, m.Linked → Machine.execute more tree m = Ending.outcome ending →
        ∃ direct, ForLoops first condition increment body m direct ∧ m.EndsAlike direct ending) ∧
      (∀ m last₁ last₂ m₁ m₂, m.Linked →
        ForLoops first condition increment body m (.ok last₁ m₁) →
        Settles (fun more => Machine.execute more tree m) (.ok last₂ m₂) → ∀ more behind,
          (Alignment.identity m.heap.next).Ends m.scope m.scope Alignment.CompletionAlike
            (Machine.execute more behind m₁) (Machine.execute more behind m₂)) ∧
      (∀ more m, Machine.GrowsOn m.scope [] m (Machine.execute more tree m)) ∧
      ∀ step, increment = some step → ∀ more m,
        (Machine.execute more (loopBody increment body) m).Ends
          (fun _ m' => m'.heap.frame? m.heap.next = some ⟨[], some m.scope⟩)
          fun _ m' => m'.heap.frame? m.heap.next = some ⟨[], some m.scope⟩ := by
  cases fuel with
  | zero => cases h
  | succ less =>
      obtain ⟨first, condition, increment, body, hclauses, rfl⟩ := forStatement_eq_ok_iff.1 h
      have hd : body.declared = [] := hclauses.declared
      -- What the clauses come to, the tree comes to; the sequel of both needs this again.
      have hends : ∀ m direct, m.Linked → ForLoops first condition increment body m direct →
          ∃ ending, Settles
              (fun more => Machine.execute more (forLoop first condition increment body) m) ending ∧
            m.EndsAlike direct ending := by
        intro m direct hm hdirect
        obtain ⟨ending, hexecutes, halike⟩ := Alignment.forLoops_right hd hm.related hdirect
        exact ⟨ending, hexecutes.settles, halike⟩
      refine ⟨less, first, condition, increment, body, rfl, hclauses, hends, ?_, ?_, ?_, ?_⟩
      · intro m ending more hm hrun
        exact Alignment.forLoops_left hclauses.opensLoop hd hm.related
          (Machine.exists_execute_eq_iff.1 ⟨more, hrun⟩)
      · intro m last₁ last₂ m₁ m₂ hm hdirect hsettles more behind
        obtain ⟨ending, hsettles', halike⟩ := hends m _ hm hdirect
        rw [hsettles'.unique hsettles] at halike
        exact halike.execute hm more behind
      · intro more m
        have hgrows := (Machine.growing more).execute (forLoop first condition increment body) m
        rw [declared_forLoop hd] at hgrows
        exact hgrows
      · intro step hi more m
        exact Machine.frame?_loopBody hd hi more m

/-- The tokens behind the keyword in `for (var go = true; go; go = false) print go;`. -/
def onceTokens : List Token :=
  [⟨.leftParen, "(", none, 1⟩, ⟨.varWord, "var", none, 1⟩, ⟨.identifier, "go", none, 1⟩,
    ⟨.equal, "=", none, 1⟩, ⟨.trueWord, "true", none, 1⟩, ⟨.semicolon, ";", none, 1⟩,
    ⟨.identifier, "go", none, 1⟩, ⟨.semicolon, ";", none, 1⟩, ⟨.identifier, "go", none, 1⟩,
    ⟨.equal, "=", none, 1⟩, ⟨.falseWord, "false", none, 1⟩, ⟨.rightParen, ")", none, 1⟩,
    ⟨.printWord, "print", none, 1⟩, ⟨.identifier, "go", none, 1⟩, ⟨.semicolon, ";", none, 1⟩,
    ⟨.endOfSource, "", none, 1⟩]

/-- The statement that they are read as. -/
def onceTree : Stmt :=
  forLoop (some (.declare ⟨.identifier, "go", none, 1⟩ (some (.literal (.bool true)))))
    (some (.lookup ⟨.identifier, "go", none, 1⟩))
    (some (.assign ⟨.identifier, "go", none, 1⟩ (.literal (.bool false))))
    (.print (.lookup ⟨.identifier, "go", none, 1⟩))

/-- The clauses that are read come to an ending from a new state, which printed the variable once. -/
theorem forStatement_meaning_once :
    forStatement 20 (ParserState.start onceTokens) =
        .ok onceTree (ParserState.start [⟨.endOfSource, "", none, 1⟩]) ∧
      (Machine.start fun _ => .zero).Linked ∧
      ∃ less first condition increment body m,
        ForClauses less (ParserState.start onceTokens) first condition increment body
          (ParserState.start [⟨.endOfSource, "", none, 1⟩]) ∧
        ForLoops first condition increment body (Machine.start fun _ => .zero) (.ok .normal m) ∧
        m.printed = #["true"] := by
  have hread : forStatement 20 (ParserState.start onceTokens) =
      .ok onceTree (ParserState.start [⟨.endOfSource, "", none, 1⟩]) := by
    cbv
  have hlinked : (Machine.start fun _ => .zero).Linked := (Machine.grounded_start _ _).linked
  have hrun : ∃ m, Machine.execute 20 onceTree (Machine.start fun _ => .zero) = .ok .normal m ∧
      m.printed = #["true"] := ⟨_, rfl, by decide +kernel⟩
  obtain ⟨less, first, condition, increment, body, -, hclauses, -, hdirect, -⟩ :=
    forStatement_meaning hread
  obtain ⟨m, hexecute, hprinted⟩ := hrun
  obtain ⟨direct, hloops, halike⟩ := hdirect _ (.ok .normal m) 20 hlinked hexecute
  cases halike with
  | ok hw hlast hm =>
      cases hlast
      exact ⟨hread, hlinked, less, first, condition, increment, body, _, hclauses, hloops,
        hm.printed.trans hprinted⟩

end Parser

end LoxLang
