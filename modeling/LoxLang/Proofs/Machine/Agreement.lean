/-
**The evaluator agrees with the natural semantics.**

Whatever ending the evaluator comes to is derived by the rules, by induction on the fuel; and from some
amount of fuel on the evaluator comes to every ending that they derive, by induction on the derivation.
So there is at most one such ending, and none exactly if no fuel suffices.

* `LoxLang.Outcome.Derived`, `LoxLang.Machine.derives` — **endings of the evaluator are derived**;
* `LoxLang.Settles` — a run that comes to the same ending from some amount of fuel on;
* `LoxLang.Evaluates.settles`, `LoxLang.Executes.settles` — **derived endings are come to**;
* `LoxLang.Machine.loop_induction` — induction along the rounds of a loop;
* `LoxLang.Machine.natural_semantics` — both together.
-/

import LoxLang.Machine.Evaluation
import LoxLang.Proofs.Machine.NaturalSemantics

set_option relaxedAutoImplicit false
set_option autoImplicit false

namespace LoxLang

variable {α β : Type}

/-- The outcome of a run that comes to the ending. -/
def Ending.outcome : Ending α → Outcome α
  | .ok value m => .ok value m
  | .failed failure m => .failed failure m

theorem Ending.outcome_inj {ending ending' : Ending α} (h : ending.outcome = ending'.outcome) :
    ending = ending' := by
  cases ending <;> cases ending' <;> cases h <;> rfl

theorem Ending.outcome_leaving (ending : Ending α) (scope : Address) :
    (ending.leaving scope).outcome = ending.outcome.leaving scope := by
  cases ending <;> rfl

theorem Ending.outcome_ne (ending : Ending α) : ending.outcome ≠ .outOfFuel := by
  cases ending <;> exact nofun

/-! ### From the evaluator to the rules -/

/-- The run comes to an ending with the property, if the fuel suffices. -/
def Outcome.Derived (P : Ending α → Prop) (outcome : Outcome α) : Prop :=
  ∀ ending, outcome = Ending.outcome ending → P ending

namespace Outcome

variable {P : Ending α → Prop} {R : Ending β → Prop}

theorem derived_ok {value : α} {m : Machine} (h : P (.ok value m)) :
    (Outcome.ok value m).Derived P := by
  intro ending he
  obtain rfl : Ending.ok value m = ending := Ending.outcome_inj he
  exact h

theorem derived_failed {failure : Failure} {m : Machine} (h : P (.failed failure m)) :
    (Outcome.failed failure m).Derived P := by
  intro ending he
  obtain rfl : Ending.failed failure m = ending := Ending.outcome_inj he
  exact h

theorem derived_outOfFuel : (Outcome.outOfFuel : Outcome α).Derived P := fun ending he =>
  absurd he.symm ending.outcome_ne

/-- A failure is the end of the whole, and a value is where it goes on. -/
theorem Derived.bind {outcome : Outcome α} {next : α → Machine → Outcome β}
    (h : outcome.Derived P) (hfailed : ∀ failure m, P (.failed failure m) → R (.failed failure m))
    (hok : ∀ value m, P (.ok value m) → (next value m).Derived R) :
    (outcome.bind next).Derived R := by
  cases outcome with
  | ok value m => exact hok value m (h (.ok value m) rfl)
  | failed failure m => exact derived_failed (hfailed failure m (h (.failed failure m) rfl))
  | outOfFuel => exact derived_outOfFuel

/-- The result of an operation that leaves the state alone. -/
theorem derived_ofExcept {result : Except Failure α} {m : Machine}
    (hok : ∀ value, result = .ok value → P (.ok value m))
    (hfailed : ∀ failure, result = .error failure → P (.failed failure m)) :
    (Outcome.ofExcept result m).Derived P := by
  cases result with
  | ok value => exact derived_ok (hok value rfl)
  | error failure => exact derived_failed (hfailed failure rfl)

theorem Derived.leaving {outcome : Outcome α} {scope : Address} (h : outcome.Derived P) :
    (outcome.leaving scope).Derived fun ending =>
      ∃ inner, P inner ∧ ending = inner.leaving scope := by
  cases outcome with
  | ok value m => exact derived_ok ⟨_, h (.ok value m) rfl, rfl⟩
  | failed failure m => exact derived_failed ⟨_, h (.failed failure m) rfl, rfl⟩
  | outOfFuel => exact derived_outOfFuel

end Outcome

namespace Machine

open Outcome

/-- With so much fuel, whatever the evaluator comes to is derived.  The induction on the fuel goes
through all parts of a program at once. -/
structure Derives (fuel : Nat) : Prop where
  evaluate : ∀ e m, (Machine.evaluate fuel e m).Derived (Evaluates e m)
  evaluateAll : ∀ es m, (Machine.evaluateAll fuel es m).Derived (EvaluatesAll es m)
  apply : ∀ paren callee arguments m,
    (Machine.apply fuel paren callee arguments m).Derived (Calls paren callee arguments m)
  invoke : ∀ paren c arguments m, arguments.length = c.parameters.length →
    (Machine.invoke fuel c arguments m).Derived (Calls paren (.closure c) arguments m)
  execute : ∀ s m, (Machine.execute fuel s m).Derived (Executes s m)
  repeating : ∀ condition body m,
    (Machine.repeating fuel condition body m).Derived (Executes (.loop condition body) m)
  executeAll : ∀ ss m, (Machine.executeAll fuel ss m).Derived (ExecutesAll ss m)
  executeIn : ∀ scope body m, (Machine.executeIn fuel scope body m).Derived fun ending =>
    ∃ inner, ExecutesAll body (m.entering scope) inner ∧ ending = inner.leaving m.scope

variable {fuel : Nat}

theorem Derives.evaluate_succ (h : Derives fuel) (e : Expr) (m : Machine) :
    (Machine.evaluate (fuel + 1) e m).Derived (Evaluates e m) := by
  cases e with
  | assign name right =>
      simp only [Machine.evaluate]
      refine (h.evaluate right m).bind (fun _ _ => .assignFails) fun value m' hv => ?_
      rw [assign_eq]
      cases hf : m'.heap.find? m'.scope name.lexeme with
      | some found => exact derived_ok (.assign hv hf)
      | none => exact derived_failed (.assignUnbound hv hf)
  | binary left operator right =>
      simp only [Machine.evaluate]
      refine (h.evaluate left m).bind (fun _ _ => .binaryLeftFails) fun x m₁ hx => ?_
      refine (h.evaluate right m₁).bind (fun _ _ => .binaryRightFails hx) fun y m₂ hy => ?_
      exact derived_ofExcept (fun _ => .binary hx hy) fun _ => .binaryRefuses hx hy
  | call callee paren arguments =>
      simp only [Machine.evaluate]
      refine (h.evaluate callee m).bind (fun _ _ => .callCalleeFails) fun c m₁ hc => ?_
      refine (h.evaluateAll arguments m₁).bind (fun _ _ => .callArgumentFails hc)
        fun values m₂ ha => ?_
      exact fun ending he => .call hc ha (h.apply paren c values m₂ ending he)
  | grouping inner =>
      simp only [Machine.evaluate]
      exact fun ending he => .grouping (h.evaluate inner m ending he)
  | literal value => exact derived_ok .literal
  | logical left operator right =>
      simp only [Machine.evaluate]
      refine (h.evaluate left m).bind (fun _ _ => .logicalFails) fun x m₁ hx => ?_
      unfold decides
      -- Every other operator decides as a conjunction does.
      by_cases ho : operator.kind = .orWord
      · rw [if_pos ho]
        cases ht : x.isTruthy with
        | true => exact derived_ok (.orDecided ho hx ht)
        | false =>
            exact fun ending he => .orUndecided ho hx ht (h.evaluate right m₁ ending he)
      · rw [if_neg ho]
        cases ht : x.isTruthy with
        | true =>
            exact fun ending he => .andUndecided ho hx ht (h.evaluate right m₁ ending he)
        | false => exact derived_ok (.andDecided ho hx ht)
  | unary operator right =>
      simp only [Machine.evaluate]
      refine (h.evaluate right m).bind (fun _ _ => .unaryFails) fun x m' hx => ?_
      exact derived_ofExcept (fun _ => .unary hx) fun _ => .unaryRefuses hx
  | lookup name =>
      simp only [Machine.evaluate, Machine.lookup]
      cases hv : m.heap.get? m.scope name.lexeme with
      | some value => exact derived_ok (.lookup hv)
      | none => exact derived_failed (.lookupUnbound hv)

theorem Derives.evaluateAll_succ (h : Derives fuel) (es : List Expr) (m : Machine) :
    (Machine.evaluateAll (fuel + 1) es m).Derived (EvaluatesAll es m) := by
  cases es with
  | nil => exact derived_ok .nil
  | cons e es =>
      simp only [Machine.evaluateAll]
      refine (h.evaluate e m).bind (fun _ _ => .headFails) fun value m₁ hv => ?_
      refine (h.evaluateAll es m₁).bind (fun _ _ => .tailFails hv) fun values m₂ hs => ?_
      exact derived_ok (.cons hv hs)

theorem Derives.apply_succ (h : Derives fuel) (paren : Token) (callee : Value)
    (arguments : List Value) (m : Machine) :
    (Machine.apply (fuel + 1) paren callee arguments m).Derived
      (Calls paren callee arguments m) := by
  simp only [Machine.apply]
  -- The check comes first: what is no function has no arity.
  cases hf : callee.isFunction with
  | false =>
      simp only [Value.checkCall, hf, Bool.false_eq_true, if_false, Outcome.ofExcept,
        Outcome.bind_failed]
      exact derived_failed (.notCallable hf)
  | true =>
      obtain ⟨expected, ha⟩ : ∃ expected, callee.arity = .ok expected := by
        cases callee <;> first | exact ⟨_, rfl⟩ | cases hf
      by_cases hn : arguments.length = expected
      · simp only [Value.checkCall, hf, if_true, ha, hn, Outcome.ofExcept, Outcome.bind_ok]
        cases callee with
        | closure c =>
            cases ha
            exact h.invoke paren c arguments m hn
        | native native =>
            cases native
            cases ha
            cases arguments with
            | nil => exact derived_ok .clock
            | cons value values => cases hn
        | stub f =>
            cases ha
            exact derived_ok (.stub hn)
        | _ => cases hf
      · simp only [Value.checkCall, hf, if_true, ha, hn, if_false, Outcome.ofExcept,
          Outcome.bind_failed]
        exact derived_failed (.arity ha hn)

theorem Derives.invoke_succ (h : Derives fuel) (paren : Token) (c : Closure)
    (arguments : List Value) (m : Machine) (hn : arguments.length = c.parameters.length) :
    (Machine.invoke (fuel + 1) c arguments m).Derived (Calls paren (.closure c) arguments m) := by
  simp only [Machine.invoke, Outcome.map]
  -- The body ends in its own frame, and what is left of that is the ending in the scope of the caller.
  refine (h.executeIn _ _ _).bind ?_ ?_
  · rintro failure m' ⟨inner, hbody, he⟩
    cases inner with
    | ok last m'' => cases he
    | failed failure' m'' =>
        cases he
        exact .bodyFails hn hbody
  · rintro last m' ⟨inner, hbody, he⟩
    cases inner with
    | ok last' m'' =>
        cases he
        cases last with
        | normal => exact derived_ok (.completed hn hbody)
        | returned value => exact derived_ok (.returned hn hbody)
    | failed failure' m'' => cases he

theorem Derives.execute_succ (h : Derives fuel) (s : Stmt) (m : Machine) :
    (Machine.execute (fuel + 1) s m).Derived (Executes s m) := by
  cases s with
  | block body =>
      simp only [Machine.execute]
      intro ending he
      obtain ⟨inner, hbody, rfl⟩ := h.executeIn _ _ _ ending he
      exact .block hbody
  | expression e =>
      simp only [Machine.execute]
      refine (h.evaluate e m).bind (fun _ _ => .expressionFails) fun value m' hv => ?_
      exact derived_ok (.expression hv)
  | function name parameters body => exact derived_ok .function
  | branch condition thenBranch elseBranch =>
      simp only [Machine.execute]
      refine (h.evaluate condition m).bind (fun _ _ => .branchFails) fun value m' hc => ?_
      cases ht : value.isTruthy with
      | true => exact fun ending he => .branchThen hc ht (h.execute thenBranch m' ending he)
      | false =>
          cases elseBranch with
          | none => exact derived_ok (.branchSkipped hc ht)
          | some elseBranch =>
              exact fun ending he => .branchElse hc ht (h.execute elseBranch m' ending he)
  | print e =>
      simp only [Machine.execute]
      refine (h.evaluate e m).bind (fun _ _ => .printFails) fun value m' hv => ?_
      cases ht : value.written with
      | ok text =>
          simp only [Outcome.ofExcept, Outcome.bind_ok]
          cases hw : m'.takes text with
          | true =>
              rw [print_of_takes hw]
              exact derived_ok (.print hv ht hw)
          | false =>
              rw [print_of_not_takes hw]
              exact derived_failed (.printUntaken hv ht hw)
      | error failure => exact derived_failed (.printRefuses hv ht)
  | giveBack keyword e =>
      cases e with
      | none => exact derived_ok .returnNil
      | some e =>
          simp only [Machine.execute]
          refine (h.evaluate e m).bind (fun _ _ => .returnFails) fun value m' hv => ?_
          exact derived_ok (.returnValue hv)
  | declare name e =>
      cases e with
      | none => exact derived_ok .declareNil
      | some e =>
          simp only [Machine.execute]
          refine (h.evaluate e m).bind (fun _ _ => .declareFails) fun value m' hv => ?_
          exact derived_ok (.declare hv)
  | loop condition body =>
      simp only [Machine.execute]
      exact h.repeating condition body m

theorem Derives.repeating_succ (h : Derives fuel) (condition : Expr) (body : Stmt) (m : Machine) :
    (Machine.repeating (fuel + 1) condition body m).Derived (Executes (.loop condition body) m) := by
  simp only [Machine.repeating]
  refine (h.evaluate condition m).bind (fun _ _ => .loopConditionFails) fun value m₁ hc => ?_
  cases ht : value.isTruthy with
  | true =>
      simp only [if_true]
      refine (h.execute body m₁).bind (fun _ _ => .loopBodyFails hc ht) fun last m₂ hb => ?_
      cases last with
      | normal => exact fun ending he => .loopAgain hc ht hb (h.repeating condition body m₂ ending he)
      | returned result => exact derived_ok (.loopReturns hc ht hb)
  | false => exact derived_ok (.loopEnds hc ht)

theorem Derives.executeAll_succ (h : Derives fuel) (ss : List Stmt) (m : Machine) :
    (Machine.executeAll (fuel + 1) ss m).Derived (ExecutesAll ss m) := by
  cases ss with
  | nil => exact derived_ok .nil
  | cons s ss =>
      simp only [Machine.executeAll]
      refine (h.execute s m).bind (fun _ _ => .fails) fun last m' hs => ?_
      cases last with
      | normal => exact fun ending he => .cons hs (h.executeAll ss m' ending he)
      | returned value => exact derived_ok (.returns hs)

theorem Derives.executeIn_succ (h : Derives fuel) (scope : Address) (body : List Stmt)
    (m : Machine) :
    (Machine.executeIn (fuel + 1) scope body m).Derived fun ending =>
      ∃ inner, ExecutesAll body (m.entering scope) inner ∧ ending = inner.leaving m.scope := by
  simp only [Machine.executeIn]
  exact (h.executeAll body (m.entering scope)).leaving

/-- **Whatever the evaluator comes to is derived.** -/
theorem derives (fuel : Nat) : Derives fuel := by
  induction fuel with
  | zero =>
      constructor
      all_goals intros; exact derived_outOfFuel
  | succ fuel ih =>
      exact ⟨ih.evaluate_succ, ih.evaluateAll_succ, ih.apply_succ, ih.invoke_succ,
        ih.execute_succ, ih.repeating_succ, ih.executeAll_succ, ih.executeIn_succ⟩

end Machine

/-! ### From the rules to the evaluator -/

/-- From some amount of fuel on the run comes to the ending. -/
def Settles (run : Nat → Outcome α) (ending : Ending α) : Prop :=
  ∃ enough, ∀ fuel, enough ≤ fuel → run fuel = ending.outcome

variable {run : Nat → Outcome α} {ending ending' : Ending α}

/-- A run that does not depend on the fuel. -/
theorem settles_of_eq {outcome : Outcome α} (h : outcome = ending.outcome) :
    Settles (fun _ => outcome) ending := ⟨0, fun _ _ => h⟩

/-- Every step into a part takes one of the fuel. -/
theorem settles_of_succ (h : Settles (fun fuel => run (fuel + 1)) ending) : Settles run ending := by
  obtain ⟨enough, hrun⟩ := h
  refine ⟨enough + 1, fun fuel hf => ?_⟩
  obtain ⟨more, rfl⟩ : ∃ more, fuel = more + 1 := ⟨fuel - 1, by omega⟩
  exact hrun more (by omega)

theorem Settles.succ (h : Settles run ending) : Settles (fun fuel => run (fuel + 1)) ending := by
  obtain ⟨enough, hrun⟩ := h
  exact ⟨enough, fun fuel hf => hrun (fuel + 1) (by omega)⟩

/-- **A run has one ending only.** -/
theorem Settles.unique (h : Settles run ending) (h' : Settles run ending') : ending = ending' := by
  obtain ⟨enough, hrun⟩ := h
  obtain ⟨enough', hrun'⟩ := h'
  -- With the larger of the two amounts the run has come to both endings.
  have hfuel := hrun (max enough enough') (Nat.le_max_left _ _)
  rw [hrun' _ (Nat.le_max_right _ _)] at hfuel
  exact (Ending.outcome_inj hfuel).symm

theorem Settles.bind {next : Nat → α → Machine → Outcome β} {value : α} {m : Machine}
    {after : Ending β} (h : Settles run (.ok value m))
    (hn : Settles (fun fuel => next fuel value m) after) :
    Settles (fun fuel => (run fuel).bind (next fuel)) after := by
  obtain ⟨enough, hrun⟩ := h
  obtain ⟨enough', hnext⟩ := hn
  refine ⟨max enough enough', fun fuel hf => ?_⟩
  have hvalue := hrun fuel (by omega)
  dsimp only
  rw [hvalue]
  exact hnext fuel (by omega)

theorem Settles.bind_failed {next : Nat → α → Machine → Outcome β} {failure : Failure}
    {m : Machine} (h : Settles run (.failed failure m)) :
    Settles (fun fuel => (run fuel).bind (next fuel)) (.failed failure m) := by
  obtain ⟨enough, hrun⟩ := h
  refine ⟨enough, fun fuel hf => ?_⟩
  have hfailure := hrun fuel hf
  dsimp only
  rw [hfailure]
  rfl

theorem Settles.leaving (h : Settles run ending) (scope : Address) :
    Settles (fun fuel => (run fuel).leaving scope) (ending.leaving scope) := by
  obtain ⟨enough, hrun⟩ := h
  refine ⟨enough, fun fuel hf => ?_⟩
  dsimp only
  rw [hrun fuel hf, ← Ending.outcome_leaving]

namespace Machine

variable {paren : Token} {arguments : List Value} {m : Machine}

/-- A call that passes its check goes on with the value that is called. -/
theorem checkCall_eq_ok (callee : Value) {expected : Nat} (ha : callee.arity = .ok expected)
    (hn : arguments.length = expected) : callee.checkCall paren arguments.length = .ok () := by
  have hf : callee.isFunction = true := by
    cases callee <;> first | rfl | cases ha
  unfold Value.checkCall
  rw [if_pos hf, ha]
  exact if_pos hn

/-- The body of a function, run in its frame. -/
theorem settles_apply {c : Closure} {inner : Ending Completion}
    (hn : arguments.length = c.parameters.length)
    (h : Settles (fun fuel => Machine.executeAll fuel c.body
      (m.opening (c.parameters.map Token.lexeme) arguments c.scope)) inner)
    {ending : Ending Value}
    (he : (inner.outcome.leaving m.scope).map callValue = ending.outcome) :
    Settles (fun fuel => Machine.apply fuel paren (.closure c) arguments m) ending := by
  refine settles_of_succ ?_
  simp only [Machine.apply, checkCall_eq_ok (.closure c) rfl hn, Outcome.ofExcept,
    Outcome.bind_ok]
  refine settles_of_succ ?_
  simp only [Machine.invoke]
  refine settles_of_succ ?_
  simp only [Machine.executeIn]
  obtain ⟨enough, hrun⟩ := h
  refine ⟨enough, fun fuel hf => ?_⟩
  rw [← he, ← hrun fuel hf]
  rfl

end Machine

mutual

/-- **A derived ending of an expression is come to.** -/
theorem Evaluates.settles : ∀ {e : Expr} {m : Machine} {ending : Ending Value},
    Evaluates e m ending → Settles (fun fuel => Machine.evaluate fuel e m) ending
  | _, _, _, .literal => settles_of_succ (settles_of_eq rfl)
  | _, _, _, .grouping h => settles_of_succ h.settles
  | _, _, _, .lookup h => by
      refine settles_of_succ ?_
      simp only [Machine.evaluate, Machine.lookup, h]
      exact settles_of_eq rfl
  | _, _, _, .lookupUnbound h => by
      refine settles_of_succ ?_
      simp only [Machine.evaluate, Machine.lookup, h]
      exact settles_of_eq rfl
  | _, _, _, .assign h hfound => by
      refine settles_of_succ (h.settles.bind (settles_of_eq ?_))
      rw [Machine.assign_eq, hfound]
      rfl
  | _, _, _, .assignUnbound h hfound => by
      refine settles_of_succ (h.settles.bind (settles_of_eq ?_))
      rw [Machine.assign_eq, hfound]
      rfl
  | _, _, _, .assignFails h => settles_of_succ h.settles.bind_failed
  | _, _, _, .binary hx hy h => by
      refine settles_of_succ (hx.settles.bind (hy.settles.bind (settles_of_eq ?_)))
      rw [h]
      rfl
  | _, _, _, .binaryRefuses hx hy h => by
      refine settles_of_succ (hx.settles.bind (hy.settles.bind (settles_of_eq ?_)))
      rw [h]
      rfl
  | _, _, _, .binaryLeftFails hx => settles_of_succ hx.settles.bind_failed
  | _, _, _, .binaryRightFails hx hy => settles_of_succ (hx.settles.bind hy.settles.bind_failed)
  | _, _, _, .unary hx h => by
      refine settles_of_succ (hx.settles.bind (settles_of_eq ?_))
      rw [h]
      rfl
  | _, _, _, .unaryRefuses hx h => by
      refine settles_of_succ (hx.settles.bind (settles_of_eq ?_))
      rw [h]
      rfl
  | _, _, _, .unaryFails hx => settles_of_succ hx.settles.bind_failed
  | _, _, _, .orDecided ho hx ht => by
      refine settles_of_succ (hx.settles.bind ?_)
      simp only [Machine.decides, ho, ht, if_true]
      exact settles_of_eq rfl
  | _, _, _, .orUndecided ho hx ht hy => by
      refine settles_of_succ (hx.settles.bind ?_)
      simp only [Machine.decides, ho, ht, Bool.false_eq_true, if_true, if_false]
      exact hy.settles
  | _, _, _, .andDecided ho hx ht => by
      refine settles_of_succ (hx.settles.bind ?_)
      simp only [Machine.decides, ho, ht, if_false, Bool.not_false, if_true]
      exact settles_of_eq rfl
  | _, _, _, .andUndecided ho hx ht hy => by
      refine settles_of_succ (hx.settles.bind ?_)
      simp only [Machine.decides, ho, ht, Bool.not_true, Bool.false_eq_true, if_false]
      exact hy.settles
  | _, _, _, .logicalFails hx => settles_of_succ hx.settles.bind_failed
  | _, _, _, .call hc ha h => settles_of_succ (hc.settles.bind (ha.settles.bind h.settles))
  | _, _, _, .callCalleeFails hc => settles_of_succ hc.settles.bind_failed
  | _, _, _, .callArgumentFails hc ha =>
      settles_of_succ (hc.settles.bind ha.settles.bind_failed)

theorem EvaluatesAll.settles : ∀ {es : List Expr} {m : Machine} {ending : Ending (List Value)},
    EvaluatesAll es m ending → Settles (fun fuel => Machine.evaluateAll fuel es m) ending
  | _, _, _, .nil => settles_of_succ (settles_of_eq rfl)
  | _, _, _, .cons h hs => settles_of_succ (h.settles.bind (hs.settles.bind (settles_of_eq rfl)))
  | _, _, _, .headFails h => settles_of_succ h.settles.bind_failed
  | _, _, _, .tailFails h hs => settles_of_succ (h.settles.bind hs.settles.bind_failed)

theorem Calls.settles : ∀ {paren : Token} {callee : Value} {arguments : List Value} {m : Machine}
    {ending : Ending Value}, Calls paren callee arguments m ending →
      Settles (fun fuel => Machine.apply fuel paren callee arguments m) ending
  | _, _, _, _, _, .notCallable h => by
      refine settles_of_succ ?_
      simp only [Machine.apply, Value.checkCall, h, Bool.false_eq_true, if_false]
      exact settles_of_eq rfl
  | _, callee, _, _, _, .arity h hne => by
      -- What has an arity is a function, so the check gets as far as the number of arguments.
      have hf : callee.isFunction = true := by
        cases callee <;> first | rfl | cases h
      refine settles_of_succ ?_
      simp only [Machine.apply, Value.checkCall, hf, if_true, h, hne, if_false]
      exact settles_of_eq rfl
  | _, _, _, _, _, .returned hn h => Machine.settles_apply hn h.settles rfl
  | _, _, _, _, _, .completed hn h => Machine.settles_apply hn h.settles rfl
  | _, _, _, _, _, .bodyFails hn h => Machine.settles_apply hn h.settles rfl
  | _, _, _, _, _, .clock => settles_of_succ (settles_of_eq rfl)
  | _, _, _, _, _, .stub hn => by
      refine settles_of_succ ?_
      simp only [Machine.apply, Machine.checkCall_eq_ok (.stub _) rfl hn]
      exact settles_of_eq rfl

/-- **A derived ending of a statement is come to.** -/
theorem Executes.settles : ∀ {s : Stmt} {m : Machine} {ending : Ending Completion},
    Executes s m ending → Settles (fun fuel => Machine.execute fuel s m) ending
  | _, _, _, .expression h => settles_of_succ (h.settles.bind (settles_of_eq rfl))
  | _, _, _, .expressionFails h => settles_of_succ h.settles.bind_failed
  | _, _, _, .print h ht hw => by
      refine settles_of_succ (h.settles.bind (settles_of_eq ?_))
      rw [ht]
      exact Machine.print_of_takes hw
  | _, _, _, .printUntaken h ht hw => by
      refine settles_of_succ (h.settles.bind (settles_of_eq ?_))
      rw [ht]
      exact Machine.print_of_not_takes hw
  | _, _, _, .printRefuses h ht => by
      refine settles_of_succ (h.settles.bind (settles_of_eq ?_))
      rw [ht]
      rfl
  | _, _, _, .printFails h => settles_of_succ h.settles.bind_failed
  | _, _, _, .declareNil => settles_of_succ (settles_of_eq rfl)
  | _, _, _, .declare h => settles_of_succ (h.settles.bind (settles_of_eq rfl))
  | _, _, _, .declareFails h => settles_of_succ h.settles.bind_failed
  | _, _, _, .function => settles_of_succ (settles_of_eq rfl)
  | _, _, _, .block h => settles_of_succ (settles_of_succ (h.settles.leaving _))
  | _, _, _, .branchThen hc ht h => by
      refine settles_of_succ (hc.settles.bind ?_)
      simp only [ht, if_true]
      exact h.settles
  | _, _, _, .branchElse hc ht h => by
      refine settles_of_succ (hc.settles.bind ?_)
      simp only [ht, Bool.false_eq_true, if_false]
      exact h.settles
  | _, _, _, .branchSkipped hc ht => by
      refine settles_of_succ (hc.settles.bind ?_)
      simp only [ht, Bool.false_eq_true, if_false]
      exact settles_of_eq rfl
  | _, _, _, .branchFails hc => settles_of_succ hc.settles.bind_failed
  | _, _, _, .returnNil => settles_of_succ (settles_of_eq rfl)
  | _, _, _, .returnValue h => settles_of_succ (h.settles.bind (settles_of_eq rfl))
  | _, _, _, .returnFails h => settles_of_succ h.settles.bind_failed
  | _, _, _, .loopEnds hc ht => by
      refine settles_of_succ (settles_of_succ (hc.settles.bind ?_))
      simp only [ht, Bool.false_eq_true, if_false]
      exact settles_of_eq rfl
  | _, _, _, .loopAgain hc ht hb h => by
      refine settles_of_succ (settles_of_succ (hc.settles.bind ?_))
      simp only [ht, if_true]
      -- The other rounds are run with one of the fuel less.
      exact hb.settles.bind (h.settles.succ)
  | _, _, _, .loopReturns hc ht hb => by
      refine settles_of_succ (settles_of_succ (hc.settles.bind ?_))
      simp only [ht, if_true]
      exact hb.settles.bind (settles_of_eq rfl)
  | _, _, _, .loopBodyFails hc ht hb => by
      refine settles_of_succ (settles_of_succ (hc.settles.bind ?_))
      simp only [ht, if_true]
      exact hb.settles.bind_failed
  | _, _, _, .loopConditionFails hc =>
      settles_of_succ (settles_of_succ hc.settles.bind_failed)

theorem ExecutesAll.settles : ∀ {ss : List Stmt} {m : Machine} {ending : Ending Completion},
    ExecutesAll ss m ending → Settles (fun fuel => Machine.executeAll fuel ss m) ending
  | _, _, _, .nil => settles_of_succ (settles_of_eq rfl)
  | _, _, _, .cons h hs => settles_of_succ (h.settles.bind hs.settles)
  | _, _, _, .returns h => settles_of_succ (h.settles.bind (settles_of_eq rfl))
  | _, _, _, .fails h => settles_of_succ h.settles.bind_failed

end

/-! ### Both together -/

namespace Machine

theorem exists_evaluate_eq_iff {e : Expr} {m : Machine} {ending : Ending Value} :
    (∃ fuel, evaluate fuel e m = ending.outcome) ↔ Evaluates e m ending := by
  constructor
  · rintro ⟨fuel, h⟩
    exact (derives fuel).evaluate e m ending h
  · intro h
    obtain ⟨enough, hrun⟩ := h.settles
    exact ⟨enough, hrun enough (Nat.le_refl _)⟩

theorem exists_execute_eq_iff {s : Stmt} {m : Machine} {ending : Ending Completion} :
    (∃ fuel, execute fuel s m = ending.outcome) ↔ Executes s m ending := by
  constructor
  · rintro ⟨fuel, h⟩
    exact (derives fuel).execute s m ending h
  · intro h
    obtain ⟨enough, hrun⟩ := h.settles
    exact ⟨enough, hrun enough (Nat.le_refl _)⟩

/-- **Induction along the rounds of a loop.**  The fuel gets less from round to round. -/
theorem loop_induction {condition : Expr} {body : Stmt}
    {motive : ∀ m ending, Executes (.loop condition body) m ending → Prop}
    (ends : ∀ {m m₁ value} (hc : Evaluates condition m (.ok value m₁))
      (ht : value.isTruthy = false), motive m _ (.loopEnds hc ht))
    (again : ∀ {m m₁ m₂ value ending} (hc : Evaluates condition m (.ok value m₁))
      (ht : value.isTruthy = true) (hb : Executes body m₁ (.ok .normal m₂))
      (h : Executes (.loop condition body) m₂ ending), motive m₂ ending h →
        motive m ending (.loopAgain hc ht hb h))
    (returns : ∀ {m m₁ m₂ value result} (hc : Evaluates condition m (.ok value m₁))
      (ht : value.isTruthy = true) (hb : Executes body m₁ (.ok (.returned result) m₂)),
        motive m _ (.loopReturns hc ht hb))
    (bodyFails : ∀ {m m₁ m₂ value failure} (hc : Evaluates condition m (.ok value m₁))
      (ht : value.isTruthy = true) (hb : Executes body m₁ (.failed failure m₂)),
        motive m _ (.loopBodyFails hc ht hb))
    (conditionFails : ∀ {m m₁ failure} (hc : Evaluates condition m (.failed failure m₁)),
      motive m _ (.loopConditionFails hc))
    {m : Machine} {ending : Ending Completion} (h : Executes (.loop condition body) m ending) :
    motive m ending h := by
  -- The rules derive statements and expressions together, which gives no induction on rounds: the
  -- fuel of the evaluator counts them.
  have hrounds : ∀ fuel m, (repeating fuel condition body m).Derived fun ending =>
      ∃ h, motive m ending h := by
    intro fuel
    induction fuel with
    | zero => exact fun m => Outcome.derived_outOfFuel
    | succ fuel ih =>
        intro m
        simp only [repeating]
        refine ((derives fuel).evaluate condition m).bind (fun _ _ hc => ⟨_, conditionFails hc⟩)
          fun value m₁ hc => ?_
        cases ht : value.isTruthy with
        | false => exact Outcome.derived_ok ⟨_, ends hc ht⟩
        | true =>
            simp only [if_true]
            refine ((derives fuel).execute body m₁).bind (fun _ _ hb => ⟨_, bodyFails hc ht hb⟩)
              fun last m₂ hb => ?_
            cases last with
            | normal =>
                intro ending he
                obtain ⟨h, hmore⟩ := ih m₂ ending he
                exact ⟨_, again hc ht hb h hmore⟩
            | returned result => exact Outcome.derived_ok ⟨_, returns hc ht hb⟩
  obtain ⟨fuel, hrun⟩ := exists_execute_eq_iff.2 h
  cases fuel with
  | zero => exact absurd hrun.symm ending.outcome_ne
  | succ fuel =>
      simp only [execute] at hrun
      exact (hrounds fuel m ending hrun).2

/-- A run comes to an ending or runs out of fuel. -/
theorem eq_outOfFuel_of_forall {outcome : Outcome α} (h : ∀ ending, outcome ≠ Ending.outcome ending) :
    outcome = .outOfFuel := by
  cases outcome with
  | ok value m => exact absurd rfl (h (.ok value m))
  | failed failure m => exact absurd rfl (h (.failed failure m))
  | outOfFuel => rfl

/-- **The evaluator agrees with the natural semantics.**  From any state, an expression or a statement
comes to an ending with some fuel exactly if the rules derive it, and then with any larger amount too.
They derive one ending at most, and none exactly if no fuel suffices. -/
theorem natural_semantics :
    (∀ e m ending, (∃ fuel, evaluate fuel e m = ending.outcome) ↔ Evaluates e m ending) ∧
      (∀ s m ending, (∃ fuel, execute fuel s m = ending.outcome) ↔ Executes s m ending) ∧
      (∀ e m ending, Evaluates e m ending → Settles (fun fuel => evaluate fuel e m) ending) ∧
      (∀ s m ending, Executes s m ending → Settles (fun fuel => execute fuel s m) ending) ∧
      (∀ e m ending ending', Evaluates e m ending → Evaluates e m ending' → ending = ending') ∧
      (∀ s m ending ending', Executes s m ending → Executes s m ending' → ending = ending') ∧
      (∀ e m, (∀ fuel, evaluate fuel e m = .outOfFuel) ↔ ∀ ending, ¬ Evaluates e m ending) ∧
      ∀ s m, (∀ fuel, execute fuel s m = .outOfFuel) ↔ ∀ ending, ¬ Executes s m ending := by
  refine ⟨fun _ _ _ => exists_evaluate_eq_iff, fun _ _ _ => exists_execute_eq_iff,
    fun _ _ _ h => h.settles, fun _ _ _ h => h.settles,
    fun _ _ _ _ h h' => h.settles.unique h'.settles,
    fun _ _ _ _ h h' => h.settles.unique h'.settles, fun e m => ⟨?_, ?_⟩, fun s m => ⟨?_, ?_⟩⟩
  · intro hnone ending h
    obtain ⟨fuel, hrun⟩ := exists_evaluate_eq_iff.2 h
    exact ending.outcome_ne (hrun.symm.trans (hnone fuel))
  · intro hnone fuel
    exact eq_outOfFuel_of_forall fun ending he => hnone ending (exists_evaluate_eq_iff.1 ⟨fuel, he⟩)
  · intro hnone ending h
    obtain ⟨fuel, hrun⟩ := exists_execute_eq_iff.2 h
    exact ending.outcome_ne (hrun.symm.trans (hnone fuel))
  · intro hnone fuel
    exact eq_outOfFuel_of_forall fun ending he => hnone ending (exists_execute_eq_iff.1 ⟨fuel, he⟩)

/-- The name of an assignment. -/
def assignedName : Token := ⟨.identifier, "x", none, 1⟩

/-- An assignment to a name that is not bound, of a conjunction that its left operand decides; its right
operand would be an error of its own. -/
def decidedRight : Expr :=
  .assign assignedName
    (.logical (.literal .nil) ⟨.andWord, "and", none, 1⟩ (.lookup ⟨.identifier, "y", none, 1⟩))

/-- The variable of a loop, and the parameter of the function that the loop calls. -/
def countedName : Token := ⟨.identifier, "n", none, 1⟩

/-- The function that the loop calls. -/
def stepName : Token := ⟨.identifier, "step", none, 1⟩

/-- A block that counts down from two by calls that print, and ends in the assignment above:
`var n = 2;`, a function `step(n)` of `print n; return n - 1;`, and `while (n > 0) n = step(n);`. -/
def countdown : Stmt :=
  .block [.declare countedName (some (.literal (.number (.int 2)))),
    .function stepName [countedName]
      [.print (.lookup countedName),
        .giveBack ⟨.returnWord, "return", none, 1⟩ (some (.binary (.lookup countedName)
          ⟨.minus, "-", none, 1⟩ (.literal (.number (.int 1)))))],
    .loop (.binary (.lookup countedName) ⟨.greater, ">", none, 1⟩ (.literal (.number (.int 0))))
      (.expression (.assign countedName (.call (.lookup stepName) ⟨.rightParen, ")", none, 1⟩
        [.lookup countedName]))),
    .expression decidedRight]

/-- The rules derive that the right operand stays unevaluated and the assignment is the error, so the
evaluator comes to it; and the evaluator comes to the end of the block, so the rules derive it, with what
was printed, the scope before the block, and no other ending. -/
theorem natural_semantics_countdown :
    (∃ fuel, evaluate fuel decidedRight (start fun _ => .zero) =
        .failed (.error ⟨assignedName, .undefinedVariable⟩) (start fun _ => .zero)) ∧
      (∀ ending, Evaluates decidedRight (start fun _ => .zero) ending →
        ending = .failed (.error ⟨assignedName, .undefinedVariable⟩) (start fun _ => .zero)) ∧
      ∃ m, Executes countdown (start fun _ => .zero)
          (.failed (.error ⟨assignedName, .undefinedVariable⟩) m) ∧
        m.printed = #["2", "1"] ∧ m.scope = (start fun _ => .zero).scope ∧
        (∀ ending, Executes countdown (start fun _ => .zero) ending →
          ending = .failed (.error ⟨assignedName, .undefinedVariable⟩) m) ∧
        Settles (fun fuel => execute fuel countdown (start fun _ => .zero))
          (.failed (.error ⟨assignedName, .undefinedVariable⟩) m) := by
  obtain ⟨hevaluate, hexecute, -, hsettles, hunique, huniqueStmt, -, -⟩ := natural_semantics
  have hright : Evaluates decidedRight (start fun _ => .zero)
      (.failed (.error ⟨assignedName, .undefinedVariable⟩) (start fun _ => .zero)) :=
    .assignUnbound (.andDecided (by decide) .literal rfl) (by decide +kernel)
  have hends : (match execute 20 countdown (start fun _ => .zero) with
      | .failed failure m =>
          decide (failure = .error ⟨assignedName, .undefinedVariable⟩ ∧
            m.printed = #["2", "1"] ∧ m.scope = (start fun _ => .zero).scope)
      | .ok _ _ => false
      | .outOfFuel => false) = true := by decide +kernel
  refine ⟨(hevaluate _ _ _).2 hright, fun ending h => hunique _ _ _ _ h hright, ?_⟩
  split at hends
  · next failure m hrun =>
      obtain ⟨rfl, hprinted, hscope⟩ := of_decide_eq_true hends
      have hblock := (hexecute _ _ (.failed _ m)).1 ⟨20, hrun⟩
      exact ⟨m, hblock, hprinted, hscope, fun ending h => huniqueStmt _ _ _ _ h hblock,
        hsettles _ _ _ hblock⟩
  · cases hends
  · cases hends

end Machine

end LoxLang
