/-
**Programs do not go wrong.**

An expression or a statement of which every operator is one, run in a state in which the bodies of all
functions are such statements, ends with a value or with an error of the program, and the bodies of all
functions are such statements still.  It never meets an operator that is unknown, and the machine breaks
down only if the output does not take a text that is to be printed.

* `LoxLang.Value.WellFormed`, `LoxLang.Machine.WellFormed` — values and states of running programs;
* `LoxLang.Machine.Refused` — the one breakdown that is left, for which the output is the reason;
* `LoxLang.Machine.Sound` — how a run ends that does not go wrong, with its rules for going on;
* `LoxLang.Machine.safe` — **no run of well-formed programs goes wrong**;
* `LoxLang.Machine.executeEach_ofProgram`, `LoxLang.Machine.executeEach_of_takes` — programs at the top.
-/

import LoxLang.Proofs.Machine.Changes
import LoxLang.Proofs.Syntax.WellFormed
import LoxLang.Proofs.Value.Results

set_option relaxedAutoImplicit false
set_option autoImplicit false

namespace LoxLang

/-! ### Values and states -/

/-- The value is there, and if it is a function of a program, its body is well formed. -/
def Value.WellFormed : Value → Prop
  | .absent => False
  | .closure f => Stmt.AllWellFormed f.body
  | _ => True

/-- Data has no body. -/
theorem Value.wellFormed_of_isData {value : Value} (h : value.isData = true) :
    value.WellFormed := by
  cases value with
  | bool b => trivial
  | number n => trivial
  | text s => trivial
  | _ => cases h

theorem Value.wellFormed_ofLiteral (value : Literal) : (Value.ofLiteral value).WellFormed := by
  cases value <;> trivial

/-- What a return gives back, if it is one, is well formed. -/
def Completion.WellFormed (completion : Completion) : Prop :=
  ∀ value, completion = .returned value → value.WellFormed

theorem Completion.wellFormed_normal : Completion.normal.WellFormed := by
  intro value hv
  cases hv

theorem Completion.wellFormed_returned {value : Value} (h : value.WellFormed) :
    (Completion.returned value).WellFormed := by
  rintro other ho
  cases ho
  exact h

/-- All values that a frame binds are well formed. -/
def Frame.WellFormed (frame : Frame) : Prop := ∀ binding ∈ frame.bindings, binding.2.WellFormed

namespace Machine

/-- All values that are bound are well formed. -/
def WellFormed (m : Machine) : Prop :=
  ∀ address frame, m.heap.frame? address = some frame → frame.WellFormed

variable {m : Machine}

/-- Binding a well-formed value in any frame keeps the state well formed. -/
theorem WellFormed.bind (h : m.WellFormed) (scope : Address) (name : String) {value : Value}
    (hv : value.WellFormed) :
    WellFormed { m with heap := m.heap.define scope name value } := by
  intro address frame hf
  dsimp only at hf
  rw [Heap.frame?_define] at hf
  split at hf
  · obtain ⟨old, hold, rfl⟩ := Option.map_eq_some_iff.1 hf
    intro binding hb
    rcases Bindings.mem_set hb with hb | hb
    · exact h address old hold binding hb
    · rw [hb]
      exact hv
  · exact h address frame hf

theorem WellFormed.define (h : m.WellFormed) (name : String) {value : Value}
    (hv : value.WellFormed) : (m.define name value).WellFormed :=
  h.bind m.scope name hv

theorem WellFormed.allocate (h : m.WellFormed) {frame : Frame} (hf : frame.WellFormed) :
    (m.allocate frame).WellFormed := by
  intro address found ha
  unfold Machine.allocate at ha
  dsimp only at ha
  rw [Heap.frame?_allocate] at ha
  split at ha
  · cases ha
    exact hf
  · exact h address found ha

/-- A function is well formed if its body is, and its frame is one of the state. -/
theorem WellFormed.makeFunction (h : m.WellFormed) (name : Token) (parameters : List Token)
    {body : List Stmt} (hb : Stmt.AllWellFormed body) :
    (makeFunction name parameters body m).WellFormed := by
  have hcounted : WellFormed { m with functions := m.functions + 1 } := h
  exact hcounted.define name.lexeme hb

theorem wellFormed_blockFrame (m : Machine) : m.blockFrame.WellFormed := by
  intro binding hb
  cases hb

/-- The frame of a call binds its arguments. -/
theorem wellFormed_callFrame (f : Closure) {arguments : List Value}
    (h : ∀ value ∈ arguments, value.WellFormed) : (callFrame f arguments).WellFormed := by
  intro binding hb
  rcases Bindings.mem_setAll hb with hb | hb
  · cases hb
  · exact h _ hb

/-- A new state binds the native functions, which have no body. -/
theorem wellFormed_start (clock : Nat → Binary64) (takes : String → Bool) :
    (start clock takes).WellFormed := by
  have hempty : WellFormed { start clock takes with heap := Heap.empty } := by
    intro address frame hf
    cases hf
  refine hempty.allocate fun binding hb => ?_
  obtain ⟨native, -, rfl⟩ := List.mem_map.1 hb
  trivial

/-! ### Runs that do not go wrong -/

/-- The failure is that the output does not take the text of a value. -/
def Refused (m : Machine) (failure : Failure) : Prop :=
  failure = .breakdown .unwritable ∧
    ∃ (value : Value) (text : String), value.written = .ok text ∧ m.takes text = false

/-- The run ends with an answer that has the property, with an error of the program, or at a text that
the output does not take, and in each case in a well-formed state. -/
def Sound {α : Type} (P : α → Prop) (outcome : Outcome α) : Prop :=
  outcome.Ends (fun value m => P value ∧ m.WellFormed) fun failure m =>
    (failure.OfProgram ∨ m.Refused failure) ∧ m.WellFormed

variable {α β : Type} {P : α → Prop} {Q : β → Prop}

theorem sound_ok {value : α} (hv : P value) (hm : m.WellFormed) : Sound P (.ok value m) := ⟨hv, hm⟩

/-- If a run does not go wrong and nothing after it does, neither do the two together. -/
theorem Sound.bind {outcome : Outcome α} {next : α → Machine → Outcome β} (h : Sound P outcome)
    (hn : ∀ value m, P value → m.WellFormed → Sound Q (next value m)) :
    Sound Q (outcome.bind next) :=
  Outcome.Ends.bind h fun value m hv => hn value m hv.1 hv.2

/-- An operation that fails by the program only does not go wrong. -/
theorem sound_ofExcept {result : Except Failure α} (hm : m.WellFormed)
    (hP : ∀ value, result = .ok value → P value)
    (hQ : ∀ failure, result = .error failure → failure.OfProgram) :
    Sound P (Outcome.ofExcept result m) :=
  .ofExcept (fun value hv => ⟨hP value hv, hm⟩) fun failure hf => ⟨.inl (hQ failure hf), hm⟩

/-- A name has a well-formed value, or it is reported as unbound. -/
theorem sound_lookup (name : Token) (hm : m.WellFormed) :
    Sound Value.WellFormed (lookup name m) := by
  unfold lookup
  split
  · next value hv =>
      obtain ⟨found, frame, -, hf, hb⟩ := Heap.get?_eq_some hv
      exact sound_ok (hm found frame hf _ hb) hm
  · exact ⟨.inl ⟨nofun, nofun⟩, hm⟩

/-- An assignment rebinds a name to a well-formed value, or reports it as unbound. -/
theorem sound_assign (name : Token) {value : Value} (hv : value.WellFormed) (hm : m.WellFormed) :
    Sound Value.WellFormed (assign name value m) := by
  rw [assign_eq]
  split
  · next found _ => exact sound_ok hv (hm.bind found name.lexeme hv)
  · exact ⟨.inl ⟨nofun, nofun⟩, hm⟩

/-- Printing a value fails only if the output does not take its text. -/
theorem sound_print {value : Value} {text : String} (ht : value.written = .ok text)
    (hm : m.WellFormed) : Sound Completion.WellFormed (print text m) :=
  .print (fun _ => ⟨Completion.wellFormed_normal, hm⟩) fun hrefused =>
    ⟨.inr ⟨rfl, value, text, ht, hrefused⟩, hm⟩

/-- Running with so much fuel does not go wrong, whatever well-formed thing is run. -/
structure Safe (fuel : Nat) : Prop where
  evaluate : ∀ e m, e.WellFormed → m.WellFormed →
    Sound Value.WellFormed (Machine.evaluate fuel e m)
  evaluateAll : ∀ es m, Expr.AllWellFormed es → m.WellFormed →
    Sound (fun values => ∀ value ∈ values, value.WellFormed) (Machine.evaluateAll fuel es m)
  apply : ∀ paren callee arguments m, callee.WellFormed → (∀ value ∈ arguments, value.WellFormed) →
    m.WellFormed → Sound Value.WellFormed (Machine.apply fuel paren callee arguments m)
  invoke : ∀ f arguments m, Stmt.AllWellFormed f.body → (∀ value ∈ arguments, value.WellFormed) →
    m.WellFormed → Sound Value.WellFormed (Machine.invoke fuel f arguments m)
  execute : ∀ s m, s.WellFormed → m.WellFormed →
    Sound Completion.WellFormed (Machine.execute fuel s m)
  repeating : ∀ condition body m, condition.WellFormed → body.WellFormed → m.WellFormed →
    Sound Completion.WellFormed (Machine.repeating fuel condition body m)
  executeAll : ∀ ss m, Stmt.AllWellFormed ss → m.WellFormed →
    Sound Completion.WellFormed (Machine.executeAll fuel ss m)
  executeIn : ∀ scope body m, Stmt.AllWellFormed body → m.WellFormed →
    Sound Completion.WellFormed (Machine.executeIn fuel scope body m)

variable {fuel : Nat}

/-- One step of an expression: an operator of a well-formed tree is one that is known, so it fails by
its operands only. -/
theorem Safe.evaluate_succ (h : Safe fuel) (e : Expr) (m : Machine) (he : e.WellFormed)
    (hm : m.WellFormed) : Sound Value.WellFormed (Machine.evaluate (fuel + 1) e m) := by
  cases e with
  | assign name value =>
      exact (h.evaluate value m he hm).bind fun _ _ hv hm => sound_assign name hv hm
  | binary left operator right =>
      obtain ⟨hl, ho, hr⟩ := he
      refine (h.evaluate left m hl hm).bind fun x m _ hm => ?_
      refine (h.evaluate right m hr hm).bind fun y m _ hm => ?_
      exact sound_ofExcept hm (fun _ hv => Value.wellFormed_of_isData (Value.isData_binary hv))
        fun _ hf => Value.binary_ofProgram ho hf
  | call callee paren arguments =>
      refine (h.evaluate callee m he.1 hm).bind fun c m hc hm => ?_
      exact (h.evaluateAll arguments m he.2 hm).bind fun values m hvs hm =>
        h.apply paren c values m hc hvs hm
  | grouping inner => exact h.evaluate inner m he hm
  | literal value => exact sound_ok (Value.wellFormed_ofLiteral value) hm
  | logical left operator right =>
      refine (h.evaluate left m he.1 hm).bind fun x m hx hm => ?_
      split
      · exact sound_ok hx hm
      · exact h.evaluate right m he.2 hm
  | unary operator right =>
      refine (h.evaluate right m he.2 hm).bind fun x m _ hm => ?_
      exact sound_ofExcept hm (fun _ hv => Value.wellFormed_of_isData (Value.isData_unary hv))
        fun _ hf => Value.unary_ofProgram he.1 hf
  | lookup name => exact sound_lookup name hm

theorem Safe.evaluateAll_succ (h : Safe fuel) (es : List Expr) (m : Machine)
    (hes : Expr.AllWellFormed es) (hm : m.WellFormed) :
    Sound (fun values => ∀ value ∈ values, value.WellFormed)
      (Machine.evaluateAll (fuel + 1) es m) := by
  cases es with
  | nil => exact sound_ok (List.forall_mem_nil _) hm
  | cons e es =>
      refine (h.evaluate e m hes.1 hm).bind fun value m hv hm => ?_
      exact (h.evaluateAll es m hes.2 hm).bind fun values m hvs hm =>
        sound_ok (List.forall_mem_cons.2 ⟨hv, hvs⟩) hm

/-- The check of a call leaves only those that the machine can make. -/
theorem Safe.apply_succ (h : Safe fuel) (paren : Token) (callee : Value) (arguments : List Value)
    (m : Machine) (hc : callee.WellFormed) (hvs : ∀ value ∈ arguments, value.WellFormed)
    (hm : m.WellFormed) :
    Sound Value.WellFormed (Machine.apply (fuel + 1) paren callee arguments m) := by
  have hcheck : Sound
      (fun _ => callee.isFunction = true ∧ callee.arity = .ok arguments.length)
      (Outcome.ofExcept (callee.checkCall paren arguments.length) m) :=
    sound_ofExcept hm (fun _ hv => Value.checkCall_eq_ok hv) fun _ hf => Value.checkCall_ofProgram hf
  refine hcheck.bind fun _ m hcall hm => ?_
  -- What is left behind the check is a function with as many arguments as it takes.
  cases callee with
  | closure f => exact h.invoke f arguments m hc hvs hm
  | native native =>
      cases native
      cases arguments with
      | nil => exact sound_ok trivial hm
      | cons argument arguments => cases hcall.2
  | stub f => exact sound_ok trivial hm
  | _ => cases hcall.1

/-- A call has the value that was returned, or `nil`. -/
theorem wellFormed_callValue {completion : Completion} (h : completion.WellFormed) :
    (callValue completion).WellFormed := by
  cases completion with
  | normal => trivial
  | returned value => exact h value rfl

theorem Safe.invoke_succ (h : Safe fuel) (f : Closure) (arguments : List Value) (m : Machine)
    (hf : Stmt.AllWellFormed f.body) (hvs : ∀ value ∈ arguments, value.WellFormed)
    (hm : m.WellFormed) :
    Sound Value.WellFormed (Machine.invoke (fuel + 1) f arguments m) := by
  have hframe := hm.allocate (wellFormed_callFrame f hvs)
  exact (h.executeIn m.heap.next f.body _ hf hframe).bind fun completion m hc hm =>
    sound_ok (wellFormed_callValue hc) hm

/-- One step of a statement, where the output may refuse what is printed. -/
theorem Safe.execute_succ (h : Safe fuel) (s : Stmt) (m : Machine) (hs : s.WellFormed)
    (hm : m.WellFormed) : Sound Completion.WellFormed (Machine.execute (fuel + 1) s m) := by
  have hnormal := Completion.wellFormed_normal
  cases s with
  | block body => exact h.executeIn m.heap.next body _ hs (hm.allocate m.wellFormed_blockFrame)
  | expression value =>
      exact (h.evaluate value m hs hm).bind fun _ m _ hm => sound_ok hnormal hm
  | function name parameters body =>
      exact sound_ok hnormal (hm.makeFunction name parameters hs)
  | branch condition thenBranch elseBranch =>
      cases elseBranch with
      | none =>
          refine (h.evaluate condition m hs.1 hm).bind fun value m _ hm => ?_
          split
          · exact h.execute thenBranch m hs.2 hm
          · exact sound_ok hnormal hm
      | some elseBranch =>
          refine (h.evaluate condition m hs.1 hm).bind fun value m _ hm => ?_
          split
          · exact h.execute thenBranch m hs.2.1 hm
          · exact h.execute elseBranch m hs.2.2 hm
  | print value =>
      refine (h.evaluate value m hs hm).bind fun value m _ hm => ?_
      -- Every value has a text, so nothing but the evaluation and the output can fail.
      obtain ⟨text, ht⟩ := Value.written_eq_ok value
      rw [ht]
      exact sound_print ht hm
  | giveBack keyword value =>
      cases value with
      | none => exact sound_ok (Completion.wellFormed_returned trivial) hm
      | some value =>
          exact (h.evaluate value m (hs value rfl) hm).bind fun value m hv hm =>
            sound_ok (Completion.wellFormed_returned hv) hm
  | declare name initializer =>
      cases initializer with
      | none => exact sound_ok hnormal (hm.define name.lexeme trivial)
      | some value =>
          exact (h.evaluate value m (hs value rfl) hm).bind fun value m hv hm =>
            sound_ok hnormal (hm.define name.lexeme hv)
  | loop condition body => exact h.repeating condition body m hs.1 hs.2 hm

theorem Safe.repeating_succ (h : Safe fuel) (condition : Expr) (body : Stmt) (m : Machine)
    (hc : condition.WellFormed) (hb : body.WellFormed) (hm : m.WellFormed) :
    Sound Completion.WellFormed (Machine.repeating (fuel + 1) condition body m) := by
  refine (h.evaluate condition m hc hm).bind fun value m _ hm => ?_
  split
  · refine (h.execute body m hb hm).bind fun completion m hv hm => ?_
    cases completion with
    | normal => exact h.repeating condition body m hc hb hm
    | returned value => exact sound_ok hv hm
  · exact sound_ok Completion.wellFormed_normal hm

theorem Safe.executeAll_succ (h : Safe fuel) (ss : List Stmt) (m : Machine)
    (hss : Stmt.AllWellFormed ss) (hm : m.WellFormed) :
    Sound Completion.WellFormed (Machine.executeAll (fuel + 1) ss m) := by
  cases ss with
  | nil => exact sound_ok Completion.wellFormed_normal hm
  | cons s ss =>
      refine (h.execute s m hss.1 hm).bind fun completion m hv hm => ?_
      cases completion with
      | normal => exact h.executeAll ss m hss.2 hm
      | returned value => exact sound_ok hv hm

theorem Safe.executeIn_succ (h : Safe fuel) (scope : Address) (body : List Stmt) (m : Machine)
    (hb : Stmt.AllWellFormed body) (hm : m.WellFormed) :
    Sound Completion.WellFormed (Machine.executeIn (fuel + 1) scope body m) :=
  Outcome.Ends.leaving (h.executeAll body (m.entering scope) hb hm) (fun _ _ hv => hv)
    fun _ _ hf => hf

/-- **No run of well-formed programs goes wrong**, by induction on the fuel. -/
theorem safe (fuel : Nat) : Safe fuel := by
  induction fuel with
  | zero =>
      constructor
      all_goals intros; trivial
  | succ fuel ih =>
      exact ⟨ih.evaluate_succ, ih.evaluateAll_succ, ih.apply_succ, ih.invoke_succ,
        ih.execute_succ, ih.repeating_succ, ih.executeAll_succ, ih.executeIn_succ⟩

theorem sound_executeEachAfter (fuel : Nat) {last : Completion} {program : List Stmt} {m : Machine}
    (hl : last.WellFormed) (hp : Stmt.AllWellFormed program) (hm : m.WellFormed) :
    Sound Completion.WellFormed (executeEachAfter fuel last program m) := by
  induction program generalizing last m with
  | nil => exact sound_ok hl hm
  | cons s ss ih =>
      exact ((safe fuel).execute s m hp.1 hm).bind fun completion m hc hm => ih hc hp.2 hm

/-- **A well-formed program at the top does not go wrong.** -/
theorem sound_executeEach (fuel : Nat) {program : List Stmt} {m : Machine}
    (hp : Stmt.AllWellFormed program) (hm : m.WellFormed) :
    Sound Completion.WellFormed (executeEach fuel program m) :=
  sound_executeEachAfter fuel Completion.wellFormed_normal hp hm

/-- **How a well-formed program ends**: an error is its own, and a breakdown is due to the output. -/
theorem executeEach_ofProgram (fuel : Nat) {program : List Stmt} {m : Machine}
    (hp : Stmt.AllWellFormed program) (hm : m.WellFormed) :
    (executeEach fuel program m).Ends (fun _ _ => True)
      fun failure _ => failure.OfProgram ∨ m.Refused failure := by
  have hends := Outcome.Ends.and (sound_executeEach fuel hp hm)
    (leadsOn_executeEach fuel program m)
  refine hends.imp (fun _ _ _ => trivial) fun failure m' hf => ?_
  obtain ⟨⟨hfailure, -⟩, hleads⟩ := hf
  unfold Refused at hfailure
  rwa [hleads.takes] at hfailure

/-- **An output that takes every text** leaves the errors of the program. -/
theorem executeEach_of_takes (fuel : Nat) {program : List Stmt} {m : Machine}
    (hp : Stmt.AllWellFormed program) (hm : m.WellFormed) (ht : ∀ text, m.takes text = true) :
    (executeEach fuel program m).Ends (fun _ _ => True) fun failure _ => failure.OfProgram := by
  refine (executeEach_ofProgram fuel hp hm).imp (fun _ _ => id) fun failure _ hf => ?_
  rcases hf with hf | ⟨-, -, text, -, hrefused⟩
  · exact hf
  · rw [ht text] at hrefused
    cases hrefused

end Machine

end LoxLang
