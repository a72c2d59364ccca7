/-
**The names in frames.**

In every session the way outwards from a frame comes to the global frame, the frame around a frame never
changes, and no name goes away.  New names come into the current frame only, by declarations that are
executed there; evaluating an expression brings none, and neither does a block, the body of a loop that is
one, or a call.  So the names of a frame are written directly in the passage that it was made for, and
those of the global frame at the top of the programs, beside the native functions.

* `LoxLang.Machine.Runs` — programs one after another, and the passages that they make frames for;
* `LoxLang.Machine.Framed` — the frames of a heap are those of the passages;
* `LoxLang.Machine.Runs.enters` — what programs one after another do to the frames;
* `LoxLang.Session.frames_framed` — **the frames of all sessions**.
-/

import LoxLang.Proofs.Machine.Passages
import LoxLang.Proofs.Session.Reached
import LoxLang.Proofs.Syntax.Reading

set_option relaxedAutoImplicit false
set_option autoImplicit false

namespace LoxLang

theorem allPlaced_of_readSomewhere {program : List Stmt} (h : ReadSomewhere program) :
    Stmt.AllPlaced program := by
  obtain ⟨source, hr⟩ := h
  obtain ⟨-, t, hp⟩ := read_program_eq_ok_iff.1 hr
  exact Parser.placed_program _ _ _ _ hp

theorem Stmt.declaredNames_append (ss us : List Stmt) :
    declaredNames (ss ++ us) = declaredNames ss ++ declaredNames us := List.filterMap_append

namespace Machine

/-! ### Programs one after another -/

/-- The run ends in the state, with a value or with a failure. -/
def EndsIn {α : Type} (outcome : Outcome α) (m : Machine) : Prop :=
  (∃ value, outcome = .ok value m) ∨ ∃ failure, outcome = .failed failure m

/-- Programs that are read somewhere are executed one after another.  The text is all their statements,
and the passages are those that frames are made for. -/
inductive Runs : Machine → List Stmt → List Passage → Machine → Prop where
  | refl (m : Machine) : Runs m [] [] m
  | program {m m' m'' : Machine} {text : List Stmt} {ps : List Passage} (h : Runs m text ps m')
      {program : List Stmt} (hp : ReadSomewhere program) {fuel : Nat}
      (he : EndsIn (executeEach fuel program m') m'') :
      Runs m (text ++ program) (ps ++ executeEachPassages fuel program m') m''

/-- From every frame the way outwards comes to no frame twice and ends at the global frame.  That one
binds native functions and names that are declared at the top of the text, and behind it there is one
frame for each passage, which binds names of the passage. -/
structure Framed (text : List Stmt) (ps : List Passage) (m : Machine) : Prop where
  path : ∀ address < m.heap.next, m.heap.Path address (m.heap.chain address) ∧
    (m.heap.chain address).Nodup ∧ (m.heap.chain address).getLast? = some globals
  next : m.heap.next = ps.length + 1
  global : ∃ frame, m.heap.frame? globals = some frame ∧
    frame.bindings.names ⊆ Native.all.map Native.name ++ Stmt.declaredNames text
  frames : ∀ i p, ps[i]? = some p → ∃ frame, m.heap.frame? (i + 1) = some frame ∧
    frame.bindings.names ⊆ p.names

variable {clock : Nat → Binary64} {takes : String → Bool} {m m' : Machine} {text : List Stmt} {ps : List Passage}

/-- **Programs one after another make frames for their passages**, and bind the names that they declare
at the top in the current scope, by induction on the programs. -/
theorem Runs.enters (h : Runs m text ps m') (hm : m.Grounded) :
    m'.scope = m.scope ∧ m.heap.Enters m.scope ps m'.heap ∧
      m.heap.Grows m.scope (Stmt.declaredNames text) m'.heap := by
  induction h with
  | refl => exact ⟨rfl, .refl hm.heap, .refl m.heap⟩
  | @program m' m'' text ps h program hp fuel he ih =>
      obtain ⟨hs, henters, hgrows⟩ := ih
      have hplaced := allPlaced_of_readSomewhere hp
      have hm' : m'.Grounded :=
        ⟨henters.grounded, by rw [hs]; exact Nat.lt_of_lt_of_le hm.scope henters.next_le⟩
      have hends := (entersOn_executeEach fuel hm' hplaced).and (growsOn_executeEach fuel program m')
      rw [Stmt.declaredAll_eq_declaredNames hplaced, hs] at hends
      have hlast : m''.scope = m.scope ∧
          m'.heap.Enters m.scope (executeEachPassages fuel program m') m''.heap ∧
          m'.heap.Grows m.scope (Stmt.declaredNames program) m''.heap := by
        rcases he with ⟨value, ho⟩ | ⟨failure, ho⟩
        · obtain ⟨⟨-, hs', he'⟩, -, hg'⟩ := hends.of_ok ho
          exact ⟨hs', he', hg'⟩
        · obtain ⟨⟨hs', he'⟩, -, hg'⟩ := hends.of_failed ho
          exact ⟨hs', he', hg'⟩
      refine ⟨hlast.1, henters.trans hlast.2.1 hm.scope, ?_⟩
      rw [Stmt.declaredNames_append]
      exact (hgrows.mono (List.subset_append_left _ _)).trans
        (hlast.2.2.mono (List.subset_append_right _ _))

theorem Runs.grounded (h : Runs m text ps m') (hm : m.Grounded) : m'.Grounded := by
  obtain ⟨hs, henters, -⟩ := h.enters hm
  refine ⟨henters.grounded, ?_⟩
  rw [hs]
  exact Nat.lt_of_lt_of_le hm.scope henters.next_le

/-- The frames of a machine that comes about from a new one. -/
theorem Runs.framed (h : Runs (start clock takes) text ps m) : m.Framed text ps := by
  obtain ⟨-, henters, hgrows⟩ := h.enters (grounded_start clock takes)
  refine ⟨fun address ha => henters.grounded.path_chain ha, ?_, ?_, fun i p hi => ?_⟩
  · rw [henters.next, Nat.add_comm]
    rfl
  · obtain ⟨later, added, hl, hext, hadded⟩ := hgrows globals globalFrame rfl
    refine ⟨later, hl, ?_⟩
    rw [hext.names]
    intro name hm
    refine List.mem_append.2 ((List.mem_append.1 hm).imp (fun hn => ?_) fun ha => (hadded name ha).2)
    unfold globalFrame Bindings.names at hn
    rw [List.map_map] at hn
    exact hn
  · obtain ⟨frame, hf, hnames⟩ := henters.frames i p hi
    rw [Nat.add_comm] at hf
    exact ⟨frame, hf, hnames⟩

/-- What later programs leave of the frames of a machine that comes about from a new one. -/
theorem Runs.grows {text' : List Stmt} {ps' : List Passage} (h : Runs (start clock takes) text ps m)
    (h' : Runs m text' ps' m') : m.heap.Grows globals (Stmt.declaredNames text') m'.heap := by
  have hm := h.grounded (grounded_start clock takes)
  have hscope : m.scope = globals := (h.enters (grounded_start clock takes)).1
  have hgrows := (h'.enters hm).2.2
  rw [hscope] at hgrows
  exact hgrows

end Machine

/-! ### Sessions -/

namespace Session

open Machine (Runs GrowsOn EntersOn globals)

theorem keptBy_runs (m : Machine) {program : List Stmt} (hp : ReadSomewhere program) :
    KeptBy (fun m' => ∃ text ps, Runs m text ps m') program := by
  rintro fuel m' ⟨text, ps, h⟩
  cases ho : Machine.executeEach fuel program m' with
  | ok last m'' => exact ⟨_, _, h.program hp (.inl ⟨last, ho⟩)⟩
  | failed failure m'' => exact ⟨_, _, h.program hp (.inr ⟨failure, ho⟩)⟩
  | outOfFuel => trivial

/-- A source text that is run has one program executed or none. -/
theorem runs_run (s : Session) (fuel : Nat) (source : String) :
    ∃ text ps, Runs s.machine text ps (s.run fuel source).1.machine :=
  machine_run (fun _ hp => keptBy_runs s.machine hp) fuel source ⟨[], [], .refl s.machine⟩

theorem Reached.runs {clock : Nat → Binary64} {takes : String → Bool} {s : Session}
    (h : Reached clock takes ReadSomewhere s) :
    ∃ text ps, Runs (Machine.start clock takes) text ps s.machine :=
  h.machine ⟨[], [], .refl _⟩ (fun _ hp => keptBy_runs _ hp) fun _ hp => keptBy_runs _ hp

/-- **The frames of all sessions.**

Whatever is run in whatever state, the frames that are there keep the frames around them and their names
in order.  An expression and a call bind no new name in any of them, nor does a block or a loop with a
block as its body, and another statement only in the current one.

Where the frames stand on the global one, every way outwards ends there.  Expressions and statements leave
the frames so, and the frames that they make bind names of the passages that they are made for.

Every session comes about from programs one after another, and each source text that is run goes on with
such programs.  So its frames stand on the global one and bind names of their passages, and later programs
add names to the global frame only. -/
theorem frames_framed :
    (∀ (fuel : Nat) (m : Machine),
      (∀ e, GrowsOn m.scope [] m (Machine.evaluate fuel e m)) ∧
        (∀ paren callee arguments,
          GrowsOn m.scope [] m (Machine.apply fuel paren callee arguments m)) ∧
        (∀ s : Stmt, GrowsOn m.scope s.declared m (Machine.execute fuel s m)) ∧
        (∀ body, GrowsOn m.scope [] m (Machine.execute fuel (.block body) m)) ∧
        ∀ condition body,
          GrowsOn m.scope [] m (Machine.execute fuel (.loop condition (.block body)) m)) ∧
      (∀ {m : Machine}, m.Grounded →
        (∀ address < m.heap.next, m.heap.Path address (m.heap.chain address) ∧
          (m.heap.chain address).Nodup ∧ (m.heap.chain address).getLast? = some globals) ∧
        ∀ fuel,
          (∀ e, EntersOn m.scope Value.Within (Machine.evaluatePassages fuel e m) m
            (Machine.evaluate fuel e m)) ∧
          ∀ s : Stmt, s.Placed →
            EntersOn m.scope Completion.Within (Machine.executePassages fuel s m) m
              (Machine.execute fuel s m)) ∧
      (∀ {clock : Nat → Binary64} {takes : String → Bool} {s : Session},
        Reached clock takes ReadSomewhere s →
          ∃ text ps, Runs (Machine.start clock takes) text ps s.machine) ∧
      (∀ (s : Session) (fuel : Nat) (source : String),
        ∃ text ps, Runs s.machine text ps (s.run fuel source).1.machine) ∧
      ∀ {clock : Nat → Binary64} {takes : String → Bool} {text text' : List Stmt}
        {ps ps' : List Passage} {m m' : Machine},
        Runs (Machine.start clock takes) text ps m → Runs m text' ps' m' →
          m.Grounded ∧ m.Framed text ps ∧ m.heap.Grows globals (Stmt.declaredNames text') m'.heap := by
  refine ⟨fun fuel m => ?_, fun hm => ⟨fun address ha => hm.heap.path_chain ha, fun fuel => ?_⟩,
    fun h => h.runs, runs_run,
    fun h h' => ⟨h.grounded (Machine.grounded_start _ _), h.framed, h.grows h'⟩⟩
  · have hgrowing := Machine.growing fuel
    exact ⟨fun e => hgrowing.evaluate e m,
      fun paren callee arguments => hgrowing.apply paren callee arguments m,
      fun s => hgrowing.execute s m, fun body => hgrowing.execute (.block body) m,
      fun condition body => hgrowing.execute (.loop condition (.block body)) m⟩
  · have hentering := Machine.entering_all fuel
    exact ⟨fun e => hentering.evaluate e _ hm, fun s hs => hentering.execute s _ hm hs⟩

/-- A function with a block in it, and a call of it at the top. -/
def framedSource : String :=
  "fun f(b) \x7bvar c = b; \x7bvar d = c; c = d + 1;\x7d return c;\x7d var a = f(1);"

/-- Its names lie in three frames, and another run keeps them. -/
theorem frames_framed_framedSource :
    Reached (fun _ => Binary64.zero) (fun _ => true) ReadSomewhere
        ((start fun _ => Binary64.zero).run 40 framedSource).1 ∧
      (((start fun _ => Binary64.zero).run 40 framedSource).1.machine.heap.frames.toList.map
        fun frame => frame.bindings.names) = [["clock", "f", "a"], ["b", "c"], ["d"]] ∧
      ∃ text ps, ((start fun _ => Binary64.zero).run 40 framedSource).1.machine.Framed text ps ∧
        ∃ text', ((start fun _ => Binary64.zero).run 40 framedSource).1.machine.heap.Grows globals
          (Stmt.declaredNames text')
          (((start fun _ => Binary64.zero).run 40 framedSource).1.run 40 "f(2);").1.machine.heap := by
  have hreached : Reached (fun _ => Binary64.zero) (fun _ => true) ReadSomewhere
      ((start fun _ => Binary64.zero).run 40 framedSource).1 := .run .start 40 framedSource
  obtain ⟨text, ps, hruns⟩ := frames_framed.2.2.1 hreached
  obtain ⟨text', ps', hruns'⟩ := frames_framed.2.2.2.1
    ((start fun _ => Binary64.zero).run 40 framedSource).1 40 "f(2);"
  obtain ⟨-, hframed, hgrows⟩ := frames_framed.2.2.2.2 hruns hruns'
  exact ⟨hreached, by decide +kernel, text, ps, hframed, text', hgrows⟩

end Session

end LoxLang
