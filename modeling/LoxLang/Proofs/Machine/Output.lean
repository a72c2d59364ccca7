/-
**Outputs that refuse texts.**

An output need not take every text.  On such an output whatever is run does the same as on one that takes
every text, up to the first text that is refused: there the machine breaks down, and the text is what the
other run prints next.  So an output that takes what a program prints is as good as one that takes
everything.

* `LoxLang.Machine.unlimited`, `LoxLang.Outcome.unlimited` — the same with an output that takes every
  text;
* `LoxLang.Machine.Limited` — a run, and the same run with such an output;
* `LoxLang.Machine.limiting` — **the runs are the same up to a text that is refused**;
* `LoxLang.Machine.executeEach_unlimited` — **an output that takes what is printed**.
-/

import LoxLang.Proofs.Machine.Changes

set_option relaxedAutoImplicit false
set_option autoImplicit false

namespace LoxLang

variable {α β : Type}

/-! ### Outputs that take every text -/

/-- The state with an output that takes every text. -/
def Machine.unlimited (m : Machine) : Machine := { m with takes := fun _ => true }

/-- The outcome with an output that takes every text. -/
def Outcome.unlimited : Outcome α → Outcome α
  | .ok value m => .ok value m.unlimited
  | .failed failure m => .failed failure m.unlimited
  | .outOfFuel => .outOfFuel

/-- An operation that leaves the state alone does not see the output. -/
theorem Outcome.ofExcept_unlimited (result : Except Failure α) (m : Machine) :
    Outcome.ofExcept result m.unlimited = (Outcome.ofExcept result m).unlimited := by
  cases result <;> rfl

namespace Machine

theorem lookup_unlimited (name : Token) (m : Machine) :
    lookup name m.unlimited = (lookup name m).unlimited := by
  have hget : m.unlimited.heap.get? m.unlimited.scope name.lexeme =
      m.heap.get? m.scope name.lexeme := rfl
  unfold lookup
  rw [hget]
  split <;> rfl

/-- Names are bound without a look at the output. -/
theorem assign_unlimited (name : Token) (value : Value) (m : Machine) :
    assign name value m.unlimited = (assign name value m).unlimited := by
  have hfind : m.unlimited.heap.find? m.unlimited.scope name.lexeme =
      m.heap.find? m.scope name.lexeme := rfl
  rw [assign_eq, assign_eq, hfind]
  split <;> rfl

/-- What is printed is printed there as well. -/
theorem print_unlimited (text : String) (m : Machine) :
    print text m.unlimited = .ok .normal (m.write text).unlimited := rfl

/-! ### What stays along a run -/

/-- The output takes the same texts, and what was printed stays. -/
structure Prolongs (m m' : Machine) : Prop where
  takes : m'.takes = m.takes
  printed : m.printed.toList <+: m'.printed.toList

theorem Prolongs.refl (m : Machine) : m.Prolongs m := ⟨rfl, List.prefix_refl _⟩

theorem Prolongs.trans {m₁ m₂ m₃ : Machine} (h : m₁.Prolongs m₂) (h' : m₂.Prolongs m₃) :
    m₁.Prolongs m₃ := ⟨h'.takes.trans h.takes, h.printed.trans h'.printed⟩

theorem prolongs_write (m : Machine) (text : String) : m.Prolongs (m.write text) := by
  refine ⟨rfl, ?_⟩
  unfold write
  rw [Array.toList_push]
  exact List.prefix_append _ _

theorem Prolongs.entering {m m' : Machine} (h : m.Prolongs m') (scope : Address) :
    m.Prolongs (m'.entering scope) := ⟨h.takes, h.printed⟩

theorem prolongs_allocate (m : Machine) (frame : Frame) : m.Prolongs (m.allocate frame) :=
  ⟨rfl, List.prefix_refl _⟩

/-- However the run ends, the output takes the same texts, and what was printed stays. -/
def ProlongsOn (m : Machine) (outcome : Outcome α) : Prop :=
  outcome.Ends (fun _ => m.Prolongs) fun _ => m.Prolongs

/-- A run from a later state prolongs what was printed before. -/
theorem ProlongsOn.trans {m m' : Machine} {outcome : Outcome α} (hm : m.Prolongs m')
    (h : m'.ProlongsOn outcome) : m.ProlongsOn outcome :=
  Outcome.Ends.imp h (fun _ _ => hm.trans) fun _ _ => hm.trans

/-- A run that makes changes only takes nothing back of what was printed. -/
theorem LeadsOn.prolongsOn {m : Machine} {outcome : Outcome α} (h : LeadsOn m outcome) :
    m.ProlongsOn outcome :=
  Outcome.Ends.imp h (fun _ _ hm => ⟨hm.takes, hm.printed⟩) fun _ _ hm => ⟨hm.takes, hm.printed⟩

/-! ### Two runs -/

/-- Both runs begin in the state, the second with an output that takes every text.  They are the same, or
the first ends at a text that is refused, and the second prints this text next. -/
inductive Limited (m : Machine) : Outcome α → Outcome α → Prop where
  | same {outcome : Outcome α} (h : m.ProlongsOn outcome) : Limited m outcome outcome.unlimited
  | refused {m' : Machine} {text : String} {outcome : Outcome α} (hm : m.Prolongs m')
      (ht : m.takes text = false) (hp : (m'.write text).ProlongsOn outcome) :
      Limited m (.failed (.breakdown .unwritable) m') outcome.unlimited

variable {m m₁ m₂ : Machine} {outcome outcome' : Outcome α}

/-- A run that changes the same with either output. -/
theorem limited_of_eq (h : LeadsOn m outcome) (he : outcome' = outcome.unlimited) :
    Limited m outcome outcome' := he ▸ .same h.prolongsOn

theorem limited_ok {value : α} (m : Machine) :
    Limited m (.ok value m) (.ok value m.unlimited) := limited_of_eq (.refl m) rfl

theorem limited_failed (failure : Failure) (m : Machine) :
    Limited m (.failed failure m : Outcome α) (.failed failure m.unlimited) :=
  limited_of_eq (.refl m) rfl

theorem limited_outOfFuel (m : Machine) : Limited m (.outOfFuel : Outcome α) .outOfFuel :=
  limited_of_eq trivial rfl

theorem limited_ofExcept (result : Except Failure α) (m : Machine) :
    Limited m (Outcome.ofExcept result m) (Outcome.ofExcept result m.unlimited) :=
  limited_of_eq (leadsOn_ofExcept result m) (Outcome.ofExcept_unlimited result m)

/-- The only step that differs: a text that is refused ends the first run, and the second prints it. -/
theorem limited_print (text : String) (m : Machine) :
    Limited m (print text m) (print text m.unlimited) := by
  have hprinted : (m.write text).ProlongsOn (.ok Completion.normal (m.write text)) := .refl _
  rw [print_unlimited]
  cases ht : m.takes text with
  | true =>
      rw [print_of_takes ht]
      exact .same (hprinted.trans (prolongs_write m text))
  | false =>
      rw [print_of_not_takes ht]
      exact .refused (.refl m) ht hprinted

/-- Runs from a later state are runs from the state. -/
theorem Limited.of_prolongs (hm : m₁.Prolongs m₂) (h : Limited m₂ outcome outcome') :
    Limited m₁ outcome outcome' := by
  cases h with
  | same h => exact .same (h.trans hm)
  | refused hm' ht hp => exact .refused (hm.trans hm') (hm.takes ▸ ht) hp

/-- The second run is one that keeps what was printed, but for its output. -/
theorem Limited.exists_prolongsOn (h : Limited m outcome outcome') :
    ∃ second : Outcome α, outcome' = second.unlimited ∧ m.ProlongsOn second := by
  cases h with
  | same h => exact ⟨_, rfl, h⟩
  | @refused m' text _ hm _ hp =>
      exact ⟨_, rfl, hp.trans (hm.trans (prolongs_write m' text))⟩

/-- Behind runs that are the same the next ones start alike; behind a text that is refused the first run
has ended, and the second may go on as it likes. -/
theorem Limited.bind {next : α → Machine → Outcome β} (h : Limited m outcome outcome')
    (hn : ∀ value m', Limited m' (next value m') (next value m'.unlimited)) :
    Limited m (outcome.bind next) (outcome'.bind next) := by
  cases h with
  | same h =>
      cases outcome with
      | ok value m' => exact (hn value m').of_prolongs h
      | failed failure m' => exact .same h
      | outOfFuel => exact .same trivial
  | @refused m' text second hm ht hp =>
      -- The first run is over, and the second goes on behind the text.
      obtain ⟨last, hl, hlast⟩ : ∃ last : Outcome β,
          second.unlimited.bind next = last.unlimited ∧ (m'.write text).ProlongsOn last := by
        cases second with
        | ok value m'' =>
            obtain ⟨last, hl, hlast⟩ := (hn value m'').exists_prolongsOn
            exact ⟨last, hl, hlast.trans hp⟩
        | failed failure m'' => exact ⟨.failed failure m'', rfl, hp⟩
        | outOfFuel => exact ⟨.outOfFuel, rfl, trivial⟩
      rw [hl]
      exact .refused hm ht hlast

/-- Going back to a scope does not touch the output. -/
theorem Limited.leaving (h : Limited m outcome outcome') (scope : Address) :
    Limited m (outcome.leaving scope) (outcome'.leaving scope) := by
  have hback : ∀ {m : Machine} {outcome : Outcome α}, m.ProlongsOn outcome →
      m.ProlongsOn (outcome.leaving scope) := fun h =>
    Outcome.Ends.leaving h (fun _ _ hm => hm.entering scope) fun _ _ hm => hm.entering scope
  have hcomm : ∀ outcome : Outcome α,
      outcome.unlimited.leaving scope = (outcome.leaving scope).unlimited := by
    rintro (_ | _ | _) <;> rfl
  cases h with
  | same h =>
      rw [hcomm]
      exact .same (hback h)
  | @refused m' text second hm ht hp =>
      have hprinted : ((m'.entering scope).write text).Prolongs (m'.write text) :=
        ⟨rfl, List.prefix_refl _⟩
      rw [hcomm]
      exact .refused (hm.entering scope) ht (hback (hp.trans hprinted))

/-! ### Runs -/

/-- With so much fuel, the runs are the same up to a text that is refused, whatever is run. -/
structure Limiting (fuel : Nat) : Prop where
  evaluate : ∀ e m, Limited m (Machine.evaluate fuel e m) (Machine.evaluate fuel e m.unlimited)
  evaluateAll : ∀ es m,
    Limited m (Machine.evaluateAll fuel es m) (Machine.evaluateAll fuel es m.unlimited)
  apply : ∀ paren callee arguments m, Limited m (Machine.apply fuel paren callee arguments m)
    (Machine.apply fuel paren callee arguments m.unlimited)
  invoke : ∀ f arguments m, Limited m (Machine.invoke fuel f arguments m)
    (Machine.invoke fuel f arguments m.unlimited)
  execute : ∀ s m, Limited m (Machine.execute fuel s m) (Machine.execute fuel s m.unlimited)
  repeating : ∀ condition body m, Limited m (Machine.repeating fuel condition body m)
    (Machine.repeating fuel condition body m.unlimited)
  executeAll : ∀ ss m,
    Limited m (Machine.executeAll fuel ss m) (Machine.executeAll fuel ss m.unlimited)
  executeIn : ∀ scope body m, Limited m (Machine.executeIn fuel scope body m)
    (Machine.executeIn fuel scope body m.unlimited)

variable {fuel : Nat}

theorem Limiting.evaluate_succ (h : Limiting fuel) (e : Expr) (m : Machine) :
    Limited m (Machine.evaluate (fuel + 1) e m) (Machine.evaluate (fuel + 1) e m.unlimited) := by
  cases e with
  | assign name value =>
      exact (h.evaluate value m).bind fun value m =>
        limited_of_eq (leadsOn_assign name value m) (assign_unlimited name value m)
  | binary left operator right =>
      refine (h.evaluate left m).bind fun x m => ?_
      exact (h.evaluate right m).bind fun y m => limited_ofExcept _ m
  | call callee paren arguments =>
      refine (h.evaluate callee m).bind fun c m => ?_
      exact (h.evaluateAll arguments m).bind fun values m => h.apply paren c values m
  | grouping inner => exact h.evaluate inner m
  | literal value => exact limited_ok m
  | logical left operator right =>
      refine (h.evaluate left m).bind fun x m => ?_
      split
      · exact limited_ok m
      · exact h.evaluate right m
  | unary operator right => exact (h.evaluate right m).bind fun x m => limited_ofExcept _ m
  | lookup name => exact limited_of_eq (leadsOn_lookup name m) (lookup_unlimited name m)

theorem Limiting.evaluateAll_succ (h : Limiting fuel) (es : List Expr) (m : Machine) :
    Limited m (Machine.evaluateAll (fuel + 1) es m)
      (Machine.evaluateAll (fuel + 1) es m.unlimited) := by
  cases es with
  | nil => exact limited_ok m
  | cons e es =>
      refine (h.evaluate e m).bind fun value m => ?_
      exact (h.evaluateAll es m).bind fun values m => limited_ok m

theorem Limiting.apply_succ (h : Limiting fuel) (paren : Token) (callee : Value)
    (arguments : List Value) (m : Machine) :
    Limited m (Machine.apply (fuel + 1) paren callee arguments m)
      (Machine.apply (fuel + 1) paren callee arguments m.unlimited) := by
  refine (limited_ofExcept _ m).bind fun _ m => ?_
  cases callee with
  | closure f => exact h.invoke f arguments m
  | native native =>
      cases native
      cases arguments with
      | nil =>
          have hread : Leads m m.readClock.2 := ⟨.single (.readClock m), rfl⟩
          exact limited_of_eq hread rfl
      | cons argument arguments => exact limited_failed _ m
  | stub f => exact limited_ok m
  | _ => exact limited_failed _ m

theorem Limiting.invoke_succ (h : Limiting fuel) (f : Closure) (arguments : List Value)
    (m : Machine) :
    Limited m (Machine.invoke (fuel + 1) f arguments m)
      (Machine.invoke (fuel + 1) f arguments m.unlimited) := by
  have hin := (h.executeIn m.heap.next f.body (m.allocate (callFrame f arguments))).of_prolongs
    (prolongs_allocate m _)
  exact hin.bind fun completion m => limited_ok m

/-- One step of a statement: only `print` meets the output. -/
theorem Limiting.execute_succ (h : Limiting fuel) (s : Stmt) (m : Machine) :
    Limited m (Machine.execute (fuel + 1) s m) (Machine.execute (fuel + 1) s m.unlimited) := by
  cases s with
  | block body =>
      exact (h.executeIn m.heap.next body (m.allocate m.blockFrame)).of_prolongs
        (prolongs_allocate m _)
  | expression value => exact (h.evaluate value m).bind fun _ m => limited_ok m
  | function name parameters body =>
      exact limited_of_eq (leads_makeFunction name parameters body m) rfl
  | branch condition thenBranch elseBranch =>
      refine (h.evaluate condition m).bind fun value m => ?_
      split
      · exact h.execute thenBranch m
      · cases elseBranch with
        | none => exact limited_ok m
        | some elseBranch => exact h.execute elseBranch m
  | print value =>
      refine (h.evaluate value m).bind fun value m => ?_
      exact (limited_ofExcept _ m).bind fun text m => limited_print text m
  | giveBack keyword value =>
      cases value with
      | none => exact limited_ok m
      | some value =>
          exact (h.evaluate value m).bind fun value m => limited_ok m
  | declare name initializer =>
      cases initializer with
      | none => exact limited_of_eq (leads_define m name.lexeme .nil) rfl
      | some value =>
          exact (h.evaluate value m).bind fun value m =>
            limited_of_eq (leads_define m name.lexeme value) rfl
  | loop condition body => exact h.repeating condition body m

theorem Limiting.repeating_succ (h : Limiting fuel) (condition : Expr) (body : Stmt)
    (m : Machine) :
    Limited m (Machine.repeating (fuel + 1) condition body m)
      (Machine.repeating (fuel + 1) condition body m.unlimited) := by
  refine (h.evaluate condition m).bind fun value m => ?_
  split
  · refine (h.execute body m).bind fun completion m => ?_
    cases completion with
    | normal => exact h.repeating condition body m
    | returned value => exact limited_ok m
  · exact limited_ok m

theorem Limiting.executeAll_succ (h : Limiting fuel) (ss : List Stmt) (m : Machine) :
    Limited m (Machine.executeAll (fuel + 1) ss m)
      (Machine.executeAll (fuel + 1) ss m.unlimited) := by
  cases ss with
  | nil => exact limited_ok m
  | cons s ss =>
      refine (h.execute s m).bind fun completion m => ?_
      cases completion with
      | normal => exact h.executeAll ss m
      | returned value => exact limited_ok m

theorem Limiting.executeIn_succ (h : Limiting fuel) (scope : Address) (body : List Stmt)
    (m : Machine) :
    Limited m (Machine.executeIn (fuel + 1) scope body m)
      (Machine.executeIn (fuel + 1) scope body m.unlimited) := by
  have hbody := (h.executeAll body (m.entering scope)).leaving m.scope
  exact hbody.of_prolongs ((Prolongs.refl m).entering scope)

/-- **The runs are the same up to a text that is refused**, by induction on the fuel. -/
theorem limiting (fuel : Nat) : Limiting fuel := by
  induction fuel with
  | zero =>
      constructor
      all_goals intros; exact limited_outOfFuel _
  | succ fuel ih =>
      exact ⟨ih.evaluate_succ, ih.evaluateAll_succ, ih.apply_succ, ih.invoke_succ,
        ih.execute_succ, ih.repeating_succ, ih.executeAll_succ, ih.executeIn_succ⟩

/-- The statements at the top, one behind the other. -/
theorem limited_executeEach (fuel : Nat) (program : List Stmt) (m : Machine) :
    Limited m (executeEach fuel program m) (executeEach fuel program m.unlimited) := by
  have hafter : ∀ last m, Limited m (executeEachAfter fuel last program m)
      (executeEachAfter fuel last program m.unlimited) := by
    induction program with
    | nil => exact fun _ m => limited_ok m
    | cons s ss ih =>
        exact fun last m => ((limiting fuel).execute s m).bind fun completion m => ih completion m
  exact hafter .normal m

/-- The output takes every text that the run prints. -/
def TakesPrinted (m : Machine) (outcome : Outcome α) : Prop :=
  outcome.Ends (fun _ m' => ∀ text ∈ m'.printed.toList.drop m.printed.size, m.takes text = true)
    fun _ m' => ∀ text ∈ m'.printed.toList.drop m.printed.size, m.takes text = true

/-- The text that is refused is among those that the second run prints. -/
theorem mem_printed_of_prolongs {m' m'' : Machine} {text : String} (hm : m.Prolongs m')
    (hp : (m'.write text).Prolongs m'') : text ∈ m''.printed.toList.drop m.printed.size := by
  obtain ⟨more, hmore⟩ := hm.printed
  obtain ⟨rest, hrest⟩ := hp.printed
  unfold write at hrest
  rw [← hrest, Array.toList_push, ← hmore, List.append_assoc, List.append_assoc,
    ← Array.length_toList, List.drop_left]
  simp

/-- **An output that takes what a program prints is as good as one that takes everything.** -/
theorem executeEach_unlimited {fuel : Nat} {program : List Stmt} {m : Machine}
    (hends : executeEach fuel program m.unlimited ≠ .outOfFuel)
    (htakes : m.TakesPrinted (executeEach fuel program m.unlimited)) :
    executeEach fuel program m.unlimited = (executeEach fuel program m).unlimited := by
  have hlimited := limited_executeEach fuel program m
  generalize executeEach fuel program m = outcome at hlimited ⊢
  generalize executeEach fuel program m.unlimited = outcome' at hlimited hends htakes ⊢
  cases hlimited with
  | same h => rfl
  | @refused m' text second hm ht hp =>
      -- The second run prints the text that the first is refused, so the output takes it.
      have htaken : m.takes text = true := by
        cases second with
        | ok value m'' =>
            have hmem : text ∈ m''.printed.toList.drop m.printed.size :=
              mem_printed_of_prolongs hm hp
            exact htakes text hmem
        | failed failure m'' =>
            have hmem : text ∈ m''.printed.toList.drop m.printed.size :=
              mem_printed_of_prolongs hm hp
            exact htakes text hmem
        | outOfFuel => exact absurd rfl hends
      rw [ht] at htaken
      cases htaken

end Machine

end LoxLang
