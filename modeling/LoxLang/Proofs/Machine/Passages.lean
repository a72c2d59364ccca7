/-
**What frames are made for.**

Every frame but the global one is made for a passage of a program: for the statements of a block, or for
the body of a function with its parameters.  Which passages these are, one behind the other, follows the
run.  The frame of a passage binds the parameters and the declarations that are written directly in it,
and no other names, for as long as anything is run.

* `LoxLang.Passage` — a block, or the body of a function;
* `LoxLang.Machine.evaluatePassages`, `LoxLang.Machine.executePassages` and others — the passages that a
  run makes frames for, in order;
* `LoxLang.Heap.Enters` — the frames of a later heap, and those that were made;
* `LoxLang.Machine.entering_all` — **what the frames of a run bind**.
-/

import LoxLang.Proofs.Machine.Grounded
import LoxLang.Proofs.Machine.Growth

set_option relaxedAutoImplicit false
set_option autoImplicit false

namespace LoxLang

/-! ### Passages -/

/-- A block, or the body of a function with its parameters. -/
structure Passage where
  parameters : List Token
  body : List Stmt

/-- The parameters, and the names of the declarations that are written directly in the passage. -/
def Passage.names (p : Passage) : List String :=
  p.parameters.map Token.lexeme ++ Stmt.declaredNames p.body

/-- What comes behind a value; nothing behind a failure. -/
def Outcome.behind {α : Type} (outcome : Outcome α) (next : α → Machine → List Passage) :
    List Passage :=
  match outcome with
  | .ok value m => next value m
  | .failed _ _ => []
  | .outOfFuel => []

namespace Machine

mutual

/-- The passages that evaluating an expression makes frames for. -/
def evaluatePassages : Nat → Expr → Machine → List Passage
  | 0, _, _ => []
  | fuel + 1, .assign _ value, m => evaluatePassages fuel value m
  | fuel + 1, .binary left _ right, m =>
      evaluatePassages fuel left m ++
        (evaluate fuel left m).behind fun _ m => evaluatePassages fuel right m
  | fuel + 1, .call callee paren arguments, m =>
      evaluatePassages fuel callee m ++
        (evaluate fuel callee m).behind fun callee m =>
          evaluateAllPassages fuel arguments m ++
            (evaluateAll fuel arguments m).behind fun arguments m =>
              applyPassages fuel paren callee arguments m
  | fuel + 1, .grouping inner, m => evaluatePassages fuel inner m
  | _ + 1, .literal _, _ => []
  | fuel + 1, .logical left operator right, m =>
      evaluatePassages fuel left m ++
        (evaluate fuel left m).behind fun left m =>
          if decides operator left then [] else evaluatePassages fuel right m
  | fuel + 1, .unary _ right, m => evaluatePassages fuel right m
  | _ + 1, .lookup _, _ => []

/-- The passages that evaluating expressions makes frames for. -/
def evaluateAllPassages : Nat → List Expr → Machine → List Passage
  | 0, _, _ => []
  | _ + 1, [], _ => []
  | fuel + 1, e :: es, m =>
      evaluatePassages fuel e m ++
        (evaluate fuel e m).behind fun _ m => evaluateAllPassages fuel es m

/-- The passages that calling a value makes frames for. -/
def applyPassages : Nat → Token → Value → List Value → Machine → List Passage
  | 0, _, _, _, _ => []
  | fuel + 1, paren, callee, arguments, m =>
      (Outcome.ofExcept (callee.checkCall paren arguments.length) m).behind fun _ m =>
        match callee with
        | .closure f => invokePassages fuel f arguments m
        | _ => []

/-- The passages that running the body of a function makes frames for: itself, and those within. -/
def invokePassages : Nat → Closure → List Value → Machine → List Passage
  | 0, _, _, _ => []
  | fuel + 1, f, arguments, m =>
      ⟨f.parameters, f.body⟩ ::
        executeInPassages fuel m.heap.next f.body (m.allocate (callFrame f arguments))

/-- The passages that executing a statement makes frames for. -/
def executePassages : Nat → Stmt → Machine → List Passage
  | 0, _, _ => []
  | fuel + 1, .block body, m =>
      ⟨[], body⟩ :: executeInPassages fuel m.heap.next body (m.allocate m.blockFrame)
  | fuel + 1, .expression value, m => evaluatePassages fuel value m
  | _ + 1, .function _ _ _, _ => []
  | fuel + 1, .branch condition thenBranch elseBranch, m =>
      evaluatePassages fuel condition m ++
        (evaluate fuel condition m).behind fun condition m =>
          if condition.isTruthy then executePassages fuel thenBranch m
          else
            match elseBranch with
            | none => []
            | some elseBranch => executePassages fuel elseBranch m
  | fuel + 1, .print value, m => evaluatePassages fuel value m
  | _ + 1, .giveBack _ none, _ => []
  | fuel + 1, .giveBack _ (some value), m => evaluatePassages fuel value m
  | _ + 1, .declare _ none, _ => []
  | fuel + 1, .declare _ (some value), m => evaluatePassages fuel value m
  | fuel + 1, .loop condition body, m => repeatingPassages fuel condition body m

/-- The passages that executing a statement again and again makes frames for. -/
def repeatingPassages : Nat → Expr → Stmt → Machine → List Passage
  | 0, _, _, _ => []
  | fuel + 1, condition, body, m =>
      evaluatePassages fuel condition m ++
        (evaluate fuel condition m).behind fun value m =>
          if value.isTruthy then
            executePassages fuel body m ++
              (execute fuel body m).behind fun completion m =>
                match completion with
                | .normal => repeatingPassages fuel condition body m
                | .returned _ => []
          else []

/-- The passages that executing statements makes frames for. -/
def executeAllPassages : Nat → List Stmt → Machine → List Passage
  | 0, _, _ => []
  | _ + 1, [], _ => []
  | fuel + 1, s :: ss, m =>
      executePassages fuel s m ++
        (execute fuel s m).behind fun completion m =>
          match completion with
          | .normal => executeAllPassages fuel ss m
          | .returned _ => []

/-- The passages that statements in a scope of their own make frames for. -/
def executeInPassages : Nat → Address → List Stmt → Machine → List Passage
  | 0, _, _, _ => []
  | fuel + 1, scope, body, m => executeAllPassages fuel body (m.entering scope)

end

/-- The passages that the statements of a program make frames for. -/
def executeEachPassages (fuel : Nat) : List Stmt → Machine → List Passage
  | [], _ => []
  | s :: ss, m =>
      executePassages fuel s m ++
        (execute fuel s m).behind fun _ m => executeEachPassages fuel ss m

/-- A block within a block, and the one behind them. -/
example : executeEachPassages 9 [.block [.block []], .block []] (start fun _ => Binary64.zero) =
    [⟨[], [.block []]⟩, ⟨[], []⟩, ⟨[], []⟩] := rfl

end Machine

/-! ### The frames of passages -/

namespace Heap

variable {scope : Address} {ps qs : List Passage} {heap heap' heap'' : Heap}

/-- Nothing but the given scope binds new names among the frames that are there.  For each of the
passages there is one more frame, which binds names of the passage only. -/
structure Enters (scope : Address) (ps : List Passage) (heap heap' : Heap) : Prop where
  grounded : heap'.Grounded
  grows : ∃ declared, heap.Grows scope declared heap'
  next : heap'.next = heap.next + ps.length
  frames : ∀ i p, ps[i]? = some p → ∃ frame, heap'.frame? (heap.next + i) = some frame ∧
    frame.bindings.names ⊆ p.names

theorem Enters.refl (h : heap.Grounded) : heap.Enters scope [] heap :=
  ⟨h, ⟨[], .refl heap⟩, rfl, nofun⟩

theorem Enters.next_le (h : heap.Enters scope ps heap') : heap.next ≤ heap'.next := by
  rw [h.next]
  exact Nat.le_add_right _ _

/-- The frames of the earlier passages keep their names, as none of them is the scope. -/
theorem Enters.trans (h : heap.Enters scope ps heap') (h' : heap'.Enters scope qs heap'')
    (hs : scope < heap.next) : heap.Enters scope (ps ++ qs) heap'' := by
  obtain ⟨declared, hgrows⟩ := h.grows
  obtain ⟨declared', hgrows'⟩ := h'.grows
  refine ⟨h'.grounded, ⟨declared ++ declared', ?_⟩, ?_, fun i p hi => ?_⟩
  · exact (hgrows.mono (List.subset_append_left _ _)).trans
      (hgrows'.mono (List.subset_append_right _ _))
  · rw [h'.next, h.next, List.length_append, Nat.add_assoc]
  · rcases Nat.lt_or_ge i ps.length with hlt | hge
    · rw [List.getElem?_append_left hlt] at hi
      obtain ⟨frame, hf, hnames⟩ := h.frames i p hi
      have hne : heap.next + i ≠ scope :=
        Nat.ne_of_gt (Nat.lt_of_lt_of_le hs (Nat.le_add_right _ _))
      obtain ⟨later, hl, hext⟩ := hgrows'.of_ne hf hne
      refine ⟨later, hl, ?_⟩
      rw [hext.names, List.append_nil]
      exact hnames
    · rw [List.getElem?_append_right hge] at hi
      obtain ⟨frame, hf, hnames⟩ := h'.frames _ p hi
      rw [h.next, Nat.add_assoc, Nat.add_sub_cancel' hge] at hf
      exact ⟨frame, hf, hnames⟩

/-- A frame is made for a passage, and what is run in it declares names of the passage. -/
theorem Enters.of_allocate {frame : Frame} {p : Passage} {declared : List String}
    (h : (heap.allocate frame).Enters heap.next ps heap')
    (hg : (heap.allocate frame).Grows heap.next declared heap')
    (hp : frame.bindings.names ++ declared ⊆ p.names) : heap.Enters scope (p :: ps) heap' := by
  have hnext : (heap.allocate frame).next = heap.next + 1 := next_allocate heap frame
  refine ⟨h.grounded, ⟨[], hg.of_allocate⟩, ?_, fun i q hi => ?_⟩
  · rw [h.next, hnext, List.length_cons, Nat.add_assoc, Nat.add_comm 1]
  · cases i with
    | zero =>
        cases hi
        have hmade : (heap.allocate frame).frame? heap.next = some frame := by
          rw [frame?_allocate, if_pos rfl]
        obtain ⟨later, added, hl, hext, hadded⟩ := hg heap.next frame hmade
        refine ⟨later, hl, ?_⟩
        rw [hext.names]
        refine fun name hm => hp (List.mem_append.2 ((List.mem_append.1 hm).imp id ?_))
        exact fun ha => (hadded name ha).2
    | succ i =>
        obtain ⟨later, hl, hnames⟩ := h.frames i q hi
        rw [hnext, Nat.add_assoc, Nat.add_comm 1] at hl
        exact ⟨later, hl, hnames⟩

end Heap

/-! ### Runs -/

/-- What a return gives back, if it is one, was declared in the first frames. -/
def Completion.Within (limit : Nat) : Completion → Prop
  | .normal => True
  | .returned value => value.Within limit

namespace Machine

/-- The frames stand on the global one, and the current scope is one of them. -/
structure Grounded (m : Machine) : Prop where
  heap : m.heap.Grounded
  scope : m.scope < m.heap.next

/-- A new state has the global frame alone. -/
theorem grounded_start (clock : Nat → Binary64) (takes : String → Bool) :
    (start clock takes).Grounded := by
  have hframe : ∀ {address frame}, (start clock takes).heap.frame? address = some frame →
      address = globals ∧ frame = globalFrame := by
    intro address frame hf
    unfold start at hf
    rw [Heap.frame?_allocate] at hf
    split at hf
    · next he =>
        cases hf
        exact ⟨he, rfl⟩
    · cases hf
  refine ⟨⟨⟨globalFrame, rfl, rfl⟩, fun hf hne => absurd (hframe hf).1 hne, fun hf => ?_⟩, ?_⟩
  · rw [(hframe hf).2]
    rintro binding hb
    obtain ⟨native, -, rfl⟩ := List.mem_map.1 hb
    trivial
  · exact Nat.lt_succ_self 0

variable {α β : Type} {scope : Address} {P : Nat → α → Prop} {Q : Nat → β → Prop}
  {ps qs : List Passage} {m : Machine}

/-- However the run ends, the current scope is the same and frames were made for the passages.  A value
has the property with the number of frames then. -/
def EntersOn (scope : Address) (P : Nat → α → Prop) (ps : List Passage) (m : Machine)
    (outcome : Outcome α) : Prop :=
  outcome.Ends
    (fun value m' => P m'.heap.next value ∧ m'.scope = m.scope ∧ m.heap.Enters scope ps m'.heap)
    fun _ m' => m'.scope = m.scope ∧ m.heap.Enters scope ps m'.heap

theorem entersOn_refl {value : α} (hm : m.Grounded) (hv : P m.heap.next value) :
    EntersOn scope P [] m (.ok value m) := ⟨hv, rfl, .refl hm.heap⟩

theorem entersOn_ofExcept {result : Except Failure α} (hm : m.Grounded)
    (hP : ∀ value, result = .ok value → P m.heap.next value) :
    EntersOn scope P [] m (Outcome.ofExcept result m) :=
  .ofExcept (fun value hv => ⟨hP value hv, rfl, .refl hm.heap⟩) fun _ _ => ⟨rfl, .refl hm.heap⟩

/-- Frames stay on the heap, so what holds of values with the number of frames must go on holding. -/
theorem EntersOn.bind {outcome : Outcome α} {next : α → Machine → Outcome β}
    {behind : α → Machine → List Passage} (hm : m.Grounded) (h : EntersOn m.scope P ps m outcome)
    (hn : ∀ value m', P m'.heap.next value → m.heap.next ≤ m'.heap.next → m'.Grounded →
      EntersOn m'.scope Q (behind value m') m' (next value m')) :
    EntersOn m.scope Q (ps ++ outcome.behind behind) m (outcome.bind next) := by
  cases outcome with
  | ok value m' =>
      obtain ⟨hv, hs, he⟩ := h
      have hscope : m'.scope < m'.heap.next := by
        rw [hs]
        exact Nat.lt_of_lt_of_le hm.scope he.next_le
      have hnext := hn value m' hv he.next_le ⟨he.grounded, hscope⟩
      rw [hs] at hnext
      exact hnext.imp (fun _ _ h' => ⟨h'.1, h'.2.1.trans hs, he.trans h'.2.2 hm.scope⟩)
        fun _ _ h' => ⟨h'.1.trans hs, he.trans h'.2 hm.scope⟩
  | failed failure m' =>
      rw [Outcome.behind, List.append_nil]
      exact h
  | outOfFuel => trivial

/-- Going on without frames. -/
theorem EntersOn.map {outcome : Outcome α} {next : α → Machine → Outcome β} (hm : m.Grounded)
    (h : EntersOn m.scope P ps m outcome)
    (hn : ∀ value m', P m'.heap.next value → m.heap.next ≤ m'.heap.next → m'.Grounded →
      EntersOn m'.scope Q [] m' (next value m')) :
    EntersOn m.scope Q ps m (outcome.bind next) := by
  have hbind : EntersOn m.scope Q (ps ++ outcome.behind fun _ _ => []) m (outcome.bind next) :=
    EntersOn.bind hm h hn
  have hnil : (outcome.behind fun _ _ => []) = [] := by cases outcome <;> rfl
  rw [hnil, List.append_nil] at hbind
  exact hbind

theorem Grounded.allocate (hm : m.Grounded) {frame : Frame} {outer : Address}
    (he : frame.enclosing = some outer) (ho : outer < m.heap.next) (hw : frame.Within m.heap.next) :
    (m.allocate frame).Grounded := by
  refine ⟨hm.heap.allocate he ho hw, Nat.lt_of_lt_of_le hm.scope ?_⟩
  unfold Machine.allocate
  dsimp only
  rw [Heap.next_allocate]
  exact Nat.le_succ _

theorem lt_next_allocate (m : Machine) (frame : Frame) :
    m.heap.next < (m.allocate frame).heap.next := by
  unfold Machine.allocate
  dsimp only
  rw [Heap.next_allocate]
  exact Nat.lt_succ_self _

/-- A run in a frame that is made for a passage. -/
theorem EntersOn.of_allocate {frame : Frame} {p : Passage} {declared : List String}
    {outcome : Outcome α} (h : EntersOn m.heap.next P ps (m.allocate frame) outcome)
    (hg : GrowsOn m.heap.next declared (m.allocate frame) outcome)
    (hp : frame.bindings.names ++ declared ⊆ p.names) : EntersOn m.scope P (p :: ps) m outcome :=
  (Outcome.Ends.and h hg).imp
    (fun _ _ hb => ⟨hb.1.1, hb.1.2.1, hb.1.2.2.of_allocate hb.2.2 hp⟩)
    fun _ _ hb => ⟨hb.1.1, hb.1.2.of_allocate hb.2.2 hp⟩

theorem entersOn_lookup (name : Token) (hm : m.Grounded) :
    EntersOn scope Value.Within [] m (lookup name m) := by
  unfold lookup
  split
  · next value hv => exact entersOn_refl hm (hm.heap.within_get? hv)
  · exact ⟨rfl, .refl hm.heap⟩

theorem enters_define (hm : m.Grounded) (name : String) {value : Value}
    (hv : value.Within m.heap.next) :
    m.heap.Enters m.scope [] (m.heap.define m.scope name value) :=
  ⟨hm.heap.define m.scope name hv,
    ⟨[name], Heap.grows_define m.heap m.scope value (List.mem_singleton_self name)⟩,
    Heap.next_define .., nofun⟩

theorem entersOn_assign (name : Token) {value : Value} (hm : m.Grounded)
    (hv : value.Within m.heap.next) :
    EntersOn m.scope Value.Within [] m (assign name value m) := by
  rw [assign_eq]
  split
  · next found hf =>
      refine ⟨?_, rfl, hm.heap.define found _ hv, ⟨[], Heap.grows_assign value hf⟩,
        Heap.next_define .., nofun⟩
      dsimp only
      rw [Heap.next_define]
      exact hv
  · exact ⟨rfl, .refl hm.heap⟩

/-- Binding a name ends a statement. -/
theorem entersOn_define (hm : m.Grounded) (name : String) {value : Value}
    (hv : value.Within m.heap.next) :
    EntersOn m.scope Completion.Within [] m (.ok .normal (m.define name value)) :=
  ⟨trivial, rfl, enters_define hm name hv⟩

theorem within_callFrame (f : Closure) {limit : Nat} {arguments : List Value}
    (h : ∀ value ∈ arguments, value.Within limit) : (callFrame f arguments).Within limit := by
  intro binding hb
  rcases Bindings.mem_setAll hb with hb | hb
  · cases hb
  · exact h _ hb

/-- The frame of a call binds parameters only. -/
theorem names_callFrame (f : Closure) (arguments : List Value) :
    (callFrame f arguments).bindings.names ⊆ f.parameters.map Token.lexeme := by
  intro name hm
  rcases Bindings.mem_names_setAll hm with hm | hm
  · cases hm
  · exact hm

theorem within_callValue {completion : Completion} {limit : Nat} (h : completion.Within limit) :
    (callValue completion).Within limit := by
  cases completion with
  | normal => trivial
  | returned value => exact h

/-- Running with so much fuel makes frames for the passages, each of which binds names of its passage
only, if in everything that is run declarations stand in lists only. -/
structure Entering (fuel : Nat) : Prop where
  evaluate : ∀ e m, m.Grounded →
    EntersOn m.scope Value.Within (evaluatePassages fuel e m) m (Machine.evaluate fuel e m)
  evaluateAll : ∀ es m, m.Grounded →
    EntersOn m.scope (fun limit values => ∀ value ∈ values, value.Within limit)
      (evaluateAllPassages fuel es m) m (Machine.evaluateAll fuel es m)
  apply : ∀ paren callee arguments m, m.Grounded → callee.Within m.heap.next →
    (∀ value ∈ arguments, value.Within m.heap.next) →
    EntersOn m.scope Value.Within (applyPassages fuel paren callee arguments m) m
      (Machine.apply fuel paren callee arguments m)
  invoke : ∀ f arguments m, m.Grounded → f.scope < m.heap.next → Stmt.AllPlaced f.body →
    (∀ value ∈ arguments, value.Within m.heap.next) →
    EntersOn m.scope Value.Within (invokePassages fuel f arguments m) m
      (Machine.invoke fuel f arguments m)
  execute : ∀ s m, m.Grounded → s.Placed →
    EntersOn m.scope Completion.Within (executePassages fuel s m) m (Machine.execute fuel s m)
  repeating : ∀ condition body m, m.Grounded → body.Placed →
    EntersOn m.scope Completion.Within (repeatingPassages fuel condition body m) m
      (Machine.repeating fuel condition body m)
  executeAll : ∀ ss m, m.Grounded → Stmt.AllPlaced ss →
    EntersOn m.scope Completion.Within (executeAllPassages fuel ss m) m
      (Machine.executeAll fuel ss m)
  executeIn : ∀ scope body m, m.Grounded → scope < m.heap.next → Stmt.AllPlaced body →
    EntersOn scope Completion.Within (executeInPassages fuel scope body m) m
      (Machine.executeIn fuel scope body m)

variable {fuel : Nat}

theorem Entering.evaluate_succ (h : Entering fuel) (e : Expr) (m : Machine) (hm : m.Grounded) :
    EntersOn m.scope Value.Within (evaluatePassages (fuel + 1) e m) m
      (Machine.evaluate (fuel + 1) e m) := by
  cases e with
  | assign name value =>
      exact (h.evaluate value m hm).map hm fun value m hv _ hm => entersOn_assign name hm hv
  | binary left operator right =>
      refine (h.evaluate left m hm).bind hm fun x m _ _ hm => ?_
      refine (h.evaluate right m hm).map hm fun y m _ _ hm => ?_
      exact entersOn_ofExcept hm fun _ hv => Value.within_of_isData (Value.isData_binary hv)
  | call callee paren arguments =>
      refine (h.evaluate callee m hm).bind hm fun c m hc _ hm => ?_
      refine (h.evaluateAll arguments m hm).bind hm fun values m hvs hle hm => ?_
      exact h.apply paren c values m hm (hc.mono hle) hvs
  | grouping inner => exact h.evaluate inner m hm
  | literal value => exact entersOn_refl hm (Value.within_ofLiteral value)
  | logical left operator right =>
      refine (h.evaluate left m hm).bind hm fun x m hx _ hm => ?_
      split
      · exact entersOn_refl hm hx
      · exact h.evaluate right m hm
  | unary operator right =>
      refine (h.evaluate right m hm).map hm fun x m _ _ hm => ?_
      exact entersOn_ofExcept hm fun _ hv => Value.within_of_isData (Value.isData_unary hv)
  | lookup name => exact entersOn_lookup name hm

theorem Entering.evaluateAll_succ (h : Entering fuel) (es : List Expr) (m : Machine)
    (hm : m.Grounded) :
    EntersOn m.scope (fun limit values => ∀ value ∈ values, value.Within limit)
      (evaluateAllPassages (fuel + 1) es m) m (Machine.evaluateAll (fuel + 1) es m) := by
  cases es with
  | nil => exact entersOn_refl hm (List.forall_mem_nil _)
  | cons e es =>
      refine (h.evaluate e m hm).bind hm fun value m hv _ hm => ?_
      refine (h.evaluateAll es m hm).map hm fun values m hvs hle hm => ?_
      exact entersOn_refl hm (List.forall_mem_cons.2 ⟨hv.mono hle, hvs⟩)

theorem Entering.apply_succ (h : Entering fuel) (paren : Token) (callee : Value)
    (arguments : List Value) (m : Machine) (hm : m.Grounded) (hc : callee.Within m.heap.next)
    (hvs : ∀ value ∈ arguments, value.Within m.heap.next) :
    EntersOn m.scope Value.Within (applyPassages (fuel + 1) paren callee arguments m) m
      (Machine.apply (fuel + 1) paren callee arguments m) := by
  have hcheck : EntersOn m.scope (fun _ _ => True) [] m
      (Outcome.ofExcept (callee.checkCall paren arguments.length) m) :=
    entersOn_ofExcept hm fun _ _ => trivial
  refine hcheck.bind hm fun _ m' _ hle hm' => ?_
  cases callee with
  | closure f =>
      refine h.invoke f arguments m' hm' (Nat.lt_of_lt_of_le hc.1 hle) hc.2 ?_
      exact fun value hv => (hvs value hv).mono hle
  | native native =>
      cases native
      cases arguments with
      | nil => exact ⟨trivial, rfl, .refl hm'.heap⟩
      | cons argument arguments => exact ⟨rfl, .refl hm'.heap⟩
  | stub f => exact entersOn_refl hm' trivial
  | _ => exact ⟨rfl, .refl hm'.heap⟩

theorem Entering.invoke_succ (h : Entering fuel) (f : Closure) (arguments : List Value)
    (m : Machine) (hm : m.Grounded) (hs : f.scope < m.heap.next) (hb : Stmt.AllPlaced f.body)
    (hvs : ∀ value ∈ arguments, value.Within m.heap.next) :
    EntersOn m.scope Value.Within (invokePassages (fuel + 1) f arguments m) m
      (Machine.invoke (fuel + 1) f arguments m) := by
  have hframe : (m.allocate (callFrame f arguments)).Grounded :=
    hm.allocate rfl hs (within_callFrame f hvs)
  have henters := h.executeIn m.heap.next f.body _ hframe (lt_next_allocate m _) hb
  have hgrows := (growing fuel).executeIn m.heap.next f.body (m.allocate (callFrame f arguments))
  rw [Stmt.declaredAll_eq_declaredNames hb] at hgrows
  have hnames : (callFrame f arguments).bindings.names ++ Stmt.declaredNames f.body ⊆
      Passage.names ⟨f.parameters, f.body⟩ :=
    List.append_subset.2 ⟨List.Subset.trans (names_callFrame f arguments) (List.subset_append_left _ _),
      List.subset_append_right _ _⟩
  exact (henters.of_allocate hgrows hnames).map hm fun completion m hc _ hm =>
    entersOn_refl hm (within_callValue hc)

theorem Entering.execute_succ (h : Entering fuel) (s : Stmt) (m : Machine) (hm : m.Grounded)
    (hs : s.Placed) :
    EntersOn m.scope Completion.Within (executePassages (fuel + 1) s m) m
      (Machine.execute (fuel + 1) s m) := by
  cases s with
  | block body =>
      have hframe : (m.allocate m.blockFrame).Grounded :=
        hm.allocate rfl hm.scope (List.forall_mem_nil _)
      have henters := h.executeIn m.heap.next body _ hframe (lt_next_allocate m _) hs
      -- The names that the frame of the block has in the end are those that the block declares.
      have hgrows := (growing fuel).executeIn m.heap.next body (m.allocate m.blockFrame)
      rw [Stmt.declaredAll_eq_declaredNames hs] at hgrows
      exact henters.of_allocate hgrows (List.Subset.refl _)
  | expression value =>
      exact (h.evaluate value m hm).map hm fun _ m _ _ hm => entersOn_refl hm trivial
  | function name parameters body =>
      have hcounted : Grounded { m with functions := m.functions + 1 } := ⟨hm.heap, hm.scope⟩
      exact entersOn_define hcounted name.lexeme ⟨hm.scope, hs⟩
  | branch condition thenBranch elseBranch =>
      refine (h.evaluate condition m hm).bind hm fun value m _ _ hm => ?_
      cases elseBranch with
      | none =>
          dsimp only
          split
          · exact h.execute thenBranch m hm hs.2
          · exact entersOn_refl hm trivial
      | some elseBranch =>
          dsimp only
          split
          · exact h.execute thenBranch m hm hs.1.2
          · exact h.execute elseBranch m hm hs.2.2
  | print value =>
      refine (h.evaluate value m hm).map hm fun value m _ _ hm => ?_
      have htext : EntersOn m.scope (fun _ _ => True) [] m (Outcome.ofExcept value.written m) :=
        entersOn_ofExcept hm fun _ _ => trivial
      exact htext.map hm fun text m _ _ hm =>
        .print (fun _ => ⟨trivial, rfl, .refl hm.heap⟩) fun _ => ⟨rfl, .refl hm.heap⟩
  | giveBack keyword value =>
      cases value with
      | none => exact entersOn_refl hm trivial
      | some value =>
          exact (h.evaluate value m hm).map hm fun value m hv _ hm => entersOn_refl hm hv
  | declare name initializer =>
      cases initializer with
      | none => exact entersOn_define hm name.lexeme trivial
      | some value =>
          exact (h.evaluate value m hm).map hm fun value m hv _ hm =>
            entersOn_define hm name.lexeme hv
  | loop condition body => exact h.repeating condition body m hm hs.2

theorem Entering.repeating_succ (h : Entering fuel) (condition : Expr) (body : Stmt) (m : Machine)
    (hm : m.Grounded) (hb : body.Placed) :
    EntersOn m.scope Completion.Within (repeatingPassages (fuel + 1) condition body m) m
      (Machine.repeating (fuel + 1) condition body m) := by
  refine (h.evaluate condition m hm).bind hm fun value m _ _ hm => ?_
  split
  · refine (h.execute body m hm hb).bind hm fun completion m hc _ hm => ?_
    cases completion with
    | normal => exact h.repeating condition body m hm hb
    | returned value => exact entersOn_refl hm hc
  · exact entersOn_refl hm trivial

theorem Entering.executeAll_succ (h : Entering fuel) (ss : List Stmt) (m : Machine)
    (hm : m.Grounded) (hss : Stmt.AllPlaced ss) :
    EntersOn m.scope Completion.Within (executeAllPassages (fuel + 1) ss m) m
      (Machine.executeAll (fuel + 1) ss m) := by
  cases ss with
  | nil => exact entersOn_refl hm trivial
  | cons s ss =>
      refine (h.execute s m hm hss.1).bind hm fun completion m hc _ hm => ?_
      cases completion with
      | normal => exact h.executeAll ss m hm hss.2
      | returned value => exact entersOn_refl hm hc

theorem Entering.executeIn_succ (h : Entering fuel) (scope : Address) (body : List Stmt)
    (m : Machine) (hm : m.Grounded) (hs : scope < m.heap.next) (hb : Stmt.AllPlaced body) :
    EntersOn scope Completion.Within (executeInPassages (fuel + 1) scope body m) m
      (Machine.executeIn (fuel + 1) scope body m) := by
  have hin : (m.entering scope).Grounded := ⟨hm.heap, hs⟩
  exact Outcome.Ends.leaving (h.executeAll body (m.entering scope) hin hb)
    (fun _ _ h' => ⟨h'.1, rfl, h'.2.2⟩) fun _ _ h' => ⟨rfl, h'.2⟩

/-- **The frames of a run are those of its passages**, by induction on the fuel. -/
theorem entering_all (fuel : Nat) : Entering fuel := by
  induction fuel with
  | zero =>
      constructor
      all_goals intros; trivial
  | succ fuel ih =>
      exact ⟨ih.evaluate_succ, ih.evaluateAll_succ, ih.apply_succ, ih.invoke_succ,
        ih.execute_succ, ih.repeating_succ, ih.executeAll_succ, ih.executeIn_succ⟩

theorem entersOn_executeEachAfter (fuel : Nat) {last : Completion} {program : List Stmt}
    {m : Machine} (hm : m.Grounded) (hl : last.Within m.heap.next) (hp : Stmt.AllPlaced program) :
    EntersOn m.scope Completion.Within (executeEachPassages fuel program m) m
      (executeEachAfter fuel last program m) := by
  induction program generalizing last m with
  | nil => exact entersOn_refl hm hl
  | cons s ss ih =>
      refine ((entering_all fuel).execute s m hm hp.1).bind hm fun completion m hc _ hm => ?_
      exact ih hm hc hp.2

/-- **The frames of a program are those of its passages.** -/
theorem entersOn_executeEach (fuel : Nat) {program : List Stmt} {m : Machine} (hm : m.Grounded)
    (hp : Stmt.AllPlaced program) :
    EntersOn m.scope Completion.Within (executeEachPassages fuel program m) m
      (executeEach fuel program m) :=
  entersOn_executeEachAfter fuel hm trivial hp

end Machine

end LoxLang
