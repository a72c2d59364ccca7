/-
**Runs on heaps that differ by empty frames.**

The same statement or expression, run in two states with aligned heaps, ends the same way with the same
fuel: with values that are alike, or with the same failure, and again in states with aligned heaps, which
printed the same.  Where a statement declares names, the current scopes have to be paired, since the
names are bound there; otherwise the one may be seen from the other through empty frames.

* `LoxLang.Alignment.ValueAlike.binary_eq`, `LoxLang.Alignment.ValueAlike.checkCall_eq` — operators and
  calls do not look at scopes;
* `LoxLang.Alignment.Related`, `LoxLang.Alignment.Ends` — aligned states and runs;
* `LoxLang.Alignment.aligned` — **runs in aligned states end in aligned states**;
* `LoxLang.Machine.Linked.related` — a state is aligned with itself if its scopes are all there;
* `LoxLang.Alignment.Related.evaluates_right`, `LoxLang.Alignment.Related.executes_left` — the same of
  derived endings, in both directions.
-/

import LoxLang.Proofs.Machine.Agreement
import LoxLang.Proofs.Machine.Alignment
import LoxLang.Proofs.Machine.Passages

set_option relaxedAutoImplicit false
set_option autoImplicit false

namespace LoxLang.Alignment

variable {w w' : Alignment}

/-! ### Operators -/

section

variable {x₁ x₂ y₁ y₂ : Value}

theorem ValueAlike.isTruthy_eq (h : w.ValueAlike x₁ x₂) : x₁.isTruthy = x₂.isTruthy := by
  cases h <;> rfl

theorem ValueAlike.written_eq (h : w.ValueAlike x₁ x₂) : x₁.written = x₂.written := by
  cases h <;> rfl

theorem ValueAlike.unary_eq (h : w.ValueAlike x₁ x₂) (operator : Token) :
    x₁.unary operator = x₂.unary operator := by
  cases h with
  | data h => rfl
  | closure h =>
      unfold Value.unary
      split <;> rfl

/-- **A binary operator does not look at the scopes of functions.** -/
theorem ValueAlike.binary_eq (hx : w.ValueAlike x₁ x₂) (hy : w.ValueAlike y₁ y₂)
    (operator : Token) : x₁.binary operator y₁ = x₂.binary operator y₂ := by
  cases hx with
  | data hx =>
      cases hy with
      | data hy => rfl
      | closure hy =>
          unfold Value.binary
          cases x₁ <;> (split <;> rfl)
  | closure hx =>
      cases hy with
      | data hy =>
          unfold Value.binary
          cases y₁ <;> (split <;> rfl)
      | closure hy =>
          unfold Value.binary
          split <;> rfl

theorem ValueAlike.checkCall_eq (h : w.ValueAlike x₁ x₂) (paren : Token) (actual : Nat) :
    x₁.checkCall paren actual = x₂.checkCall paren actual := by
  cases h <;> rfl

theorem valueAlike_of_isData {value : Value} (h : value.isData = true) : w.ValueAlike value value :=
  .data (Value.scope?_of_isData h)

end

/-! ### Aligned states -/

/-- The statements ended the same way, with values that are alike. -/
inductive CompletionAlike (w : Alignment) : Completion → Completion → Prop where
  | normal : CompletionAlike w .normal .normal
  | returned {value₁ value₂ : Value} (h : w.ValueAlike value₁ value₂) :
      CompletionAlike w (.returned value₁) (.returned value₂)

/-- The values are alike, one by one. -/
def ValuesAlike (w : Alignment) : List Value → List Value → Prop := List.Forall₂ w.ValueAlike

/-- The states have aligned heaps, and the given scopes are current.  Everything else is the same. -/
structure Related (w : Alignment) (c₁ c₂ : Address) (m₁ m₂ : Machine) : Prop where
  heap : w.Matches m₁.heap m₂.heap
  sees : w.Sees c₁ c₂
  scope₁ : m₁.scope = c₁
  scope₂ : m₂.scope = c₂
  printed : m₁.printed = m₂.printed
  functions : m₁.functions = m₂.functions
  readings : m₁.readings = m₂.readings
  clock : m₁.clock = m₂.clock
  takes : m₁.takes = m₂.takes

section

variable {c₁ c₂ d₁ d₂ : Address} {m₁ m₂ : Machine}

theorem Related.write (h : w.Related c₁ c₂ m₁ m₂) (text : String) :
    w.Related c₁ c₂ (m₁.write text) (m₂.write text) :=
  { h with printed := congrArg (·.push text) h.printed }

theorem Related.readClock (h : w.Related c₁ c₂ m₁ m₂) :
    m₁.readClock.1 = m₂.readClock.1 ∧ w.Related c₁ c₂ m₁.readClock.2 m₂.readClock.2 := by
  refine ⟨?_, { h with readings := congrArg (· + 1) h.readings }⟩
  unfold Machine.readClock
  rw [h.clock, h.readings]

theorem Related.entering (h : w.Related c₁ c₂ m₁ m₂) (hs : w.Sees d₁ d₂) :
    w.Related d₁ d₂ (m₁.entering d₁) (m₂.entering d₂) :=
  { h with sees := hs, scope₁ := rfl, scope₂ := rfl }

theorem Related.define (h : w.Related c₁ c₂ m₁ m₂) (hs : w.same c₁ c₂) (name : String)
    {value₁ value₂ : Value} (hv : w.ValueAlike value₁ value₂) :
    w.Related c₁ c₂ (m₁.define name value₁) (m₂.define name value₂) := by
  refine { h with heap := ?_ }
  unfold Machine.define
  dsimp only
  rw [h.scope₁, h.scope₂]
  exact h.heap.define hs name hv

theorem Related.assign (h : w.Related c₁ c₂ m₁ m₂) (hs : w.same d₁ d₂) (name : String)
    {value₁ value₂ : Value} (hv : w.ValueAlike value₁ value₂) :
    w.Related c₁ c₂ { m₁ with heap := m₁.heap.define d₁ name value₁ }
      { m₂ with heap := m₂.heap.define d₂ name value₂ } :=
  { h with heap := h.heap.define hs name hv }

theorem Related.makeFunction (h : w.Related c₁ c₂ m₁ m₂) (hs : w.same c₁ c₂) (name : Token)
    (parameters : List Token) (body : List Stmt) :
    w.Related c₁ c₂ (Machine.makeFunction name parameters body m₁)
      (Machine.makeFunction name parameters body m₂) := by
  have hcount : w.Related c₁ c₂ { m₁ with functions := m₁.functions + 1 }
      { m₂ with functions := m₂.functions + 1 } :=
    { h with functions := congrArg (· + 1) h.functions }
  unfold Machine.makeFunction
  dsimp only
  rw [h.scope₁, h.scope₂, h.functions] at *
  exact hcount.define hs name.lexeme (.closure h.sees)

/-- Frames that are alike, added to both heaps, and paired. -/
theorem Related.allocate (h : w.Related c₁ c₂ m₁ m₂) {f₁ f₂ : Frame} (hf : w.FrameAlike f₁ f₂) :
    (w.pairing m₁.heap.next m₂.heap.next).Related c₁ c₂ (m₁.allocate f₁) (m₂.allocate f₂) :=
  { h with
    heap := h.heap.allocate hf
    sees := h.sees.mono (w.extends_pairing _ _) }

/-- An empty frame that only the second run adds and makes current. -/
theorem Related.insert (h : w.Related c₁ c₂ m₁ m₂) :
    (w.inserting m₂.heap.next c₂).Related c₁ m₂.heap.next m₁ (m₂.opening [] [] m₂.scope) :=
  { h with
    heap := by
      rw [h.scope₂]
      exact h.heap.insert h.sees
    sees := .through (.inr ⟨rfl, rfl⟩) (h.sees.mono (w.extends_inserting _ _))
    scope₂ := rfl }

/-! ### Aligned ends -/

/-- Two runs end with answers that are alike or with the same failure, in aligned states, or neither ends
with the fuel. -/
inductive Ends (w : Alignment) (c₁ c₂ : Address) {α : Type} (alike : Alignment → α → α → Prop) :
    Outcome α → Outcome α → Prop where
  | ok {w' : Alignment} {value₁ value₂ : α} {m₁ m₂ : Machine} (hw : w.Extends w')
      (hv : alike w' value₁ value₂) (hm : w'.Related c₁ c₂ m₁ m₂) :
      Ends w c₁ c₂ alike (.ok value₁ m₁) (.ok value₂ m₂)
  | failed {w' : Alignment} {failure : Failure} {m₁ m₂ : Machine} (hw : w.Extends w')
      (hm : w'.Related c₁ c₂ m₁ m₂) :
      Ends w c₁ c₂ alike (.failed failure m₁) (.failed failure m₂)
  | outOfFuel : Ends w c₁ c₂ alike .outOfFuel .outOfFuel

variable {α β : Type} {alike : Alignment → α → α → Prop} {alike' : Alignment → β → β → Prop}

theorem Ends.of_extends {o₁ o₂ : Outcome α} (hw : w.Extends w') (h : w'.Ends c₁ c₂ alike o₁ o₂) :
    w.Ends c₁ c₂ alike o₁ o₂ := by
  cases h with
  | ok hw' hv hm => exact .ok (hw.trans hw') hv hm
  | failed hw' hm => exact .failed (hw.trans hw') hm
  | outOfFuel => exact .outOfFuel

theorem ends_ok (hm : w.Related c₁ c₂ m₁ m₂) {value₁ value₂ : α} (hv : alike w value₁ value₂) :
    w.Ends c₁ c₂ alike (.ok value₁ m₁) (.ok value₂ m₂) := .ok (.refl w) hv hm

theorem ends_failed (hm : w.Related c₁ c₂ m₁ m₂) (failure : Failure) :
    w.Ends c₁ c₂ alike (.failed failure m₁) (.failed failure m₂) := .failed (.refl w) hm

/-- Going on from answers that are alike, on a later alignment. -/
theorem Ends.bind {o₁ o₂ : Outcome α} {next₁ next₂ : α → Machine → Outcome β}
    (h : w.Ends c₁ c₂ alike o₁ o₂)
    (hn : ∀ w' value₁ value₂ m₁ m₂, w.Extends w' → alike w' value₁ value₂ →
      w'.Related c₁ c₂ m₁ m₂ → w'.Ends c₁ c₂ alike' (next₁ value₁ m₁) (next₂ value₂ m₂)) :
    w.Ends c₁ c₂ alike' (o₁.bind next₁) (o₂.bind next₂) := by
  cases h with
  | ok hw hv hm => exact (hn _ _ _ _ _ hw hv hm).of_extends hw
  | failed hw hm => exact .failed hw hm
  | outOfFuel => exact .outOfFuel

/-- Each run goes back to the scope it came from. -/
theorem Ends.leaving {o₁ o₂ : Outcome α} (h : w.Ends d₁ d₂ alike o₁ o₂) (hs : w.Sees c₁ c₂) :
    w.Ends c₁ c₂ alike (o₁.leaving c₁) (o₂.leaving c₂) := by
  cases h with
  | ok hw hv hm => exact .ok hw hv (hm.entering (hs.mono hw))
  | failed hw hm => exact .failed hw (hm.entering (hs.mono hw))
  | outOfFuel => exact .outOfFuel

theorem ends_ofExcept {result : Except Failure α} (hm : w.Related c₁ c₂ m₁ m₂)
    (hv : ∀ value, result = .ok value → alike w value value) :
    w.Ends c₁ c₂ alike (Outcome.ofExcept result m₁) (Outcome.ofExcept result m₂) := by
  cases result with
  | ok value => exact ends_ok hm (hv value rfl)
  | error failure => exact ends_failed hm failure

theorem ends_lookup (hm : w.Related c₁ c₂ m₁ m₂) (name : Token) :
    w.Ends c₁ c₂ ValueAlike (Machine.lookup name m₁) (Machine.lookup name m₂) := by
  have hget := hm.heap.get? hm.sees name.lexeme
  unfold Machine.lookup
  rw [hm.scope₁, hm.scope₂]
  generalize m₁.heap.get? c₁ name.lexeme = found₁ at hget ⊢
  generalize m₂.heap.get? c₂ name.lexeme = found₂ at hget ⊢
  cases hget with
  | some hv => exact ends_ok hm hv
  | none => exact ends_failed hm _

theorem ends_assign (hm : w.Related c₁ c₂ m₁ m₂) (name : Token) {value₁ value₂ : Value}
    (hv : w.ValueAlike value₁ value₂) :
    w.Ends c₁ c₂ ValueAlike (Machine.assign name value₁ m₁) (Machine.assign name value₂ m₂) := by
  have hfind := hm.heap.find? hm.sees name.lexeme
  rw [← hm.scope₁, ← hm.scope₂] at hfind
  rw [Machine.assign_eq, Machine.assign_eq]
  generalize m₁.heap.find? m₁.scope name.lexeme = found₁ at hfind ⊢
  generalize m₂.heap.find? m₂.scope name.lexeme = found₂ at hfind ⊢
  cases hfind with
  | some hs => exact ends_ok (hm.assign hs name.lexeme hv) hv
  | none => exact ends_failed hm _

/-- Both outputs take the text, or neither does. -/
theorem ends_print (hm : w.Related c₁ c₂ m₁ m₂) (text : String) :
    w.Ends c₁ c₂ CompletionAlike (Machine.print text m₁) (Machine.print text m₂) := by
  unfold Machine.print
  rw [hm.takes]
  split
  · exact ends_ok (hm.write text) .normal
  · exact ends_failed hm _

end

/-! ### Runs -/

/-- With so much fuel, whatever is run in aligned states ends in aligned states.  The induction on the fuel
goes through all parts of a program at once. -/
structure Aligned (fuel : Nat) : Prop where
  evaluate : ∀ {w : Alignment} {c₁ c₂ m₁ m₂} e, w.Related c₁ c₂ m₁ m₂ →
    w.Ends c₁ c₂ ValueAlike (Machine.evaluate fuel e m₁) (Machine.evaluate fuel e m₂)
  evaluateAll : ∀ {w : Alignment} {c₁ c₂ m₁ m₂} es, w.Related c₁ c₂ m₁ m₂ →
    w.Ends c₁ c₂ ValuesAlike (Machine.evaluateAll fuel es m₁) (Machine.evaluateAll fuel es m₂)
  apply : ∀ {w : Alignment} {c₁ c₂ m₁ m₂} paren {callee₁ callee₂ arguments₁ arguments₂},
    w.Related c₁ c₂ m₁ m₂ → w.ValueAlike callee₁ callee₂ →
      w.ValuesAlike arguments₁ arguments₂ →
      w.Ends c₁ c₂ ValueAlike (Machine.apply fuel paren callee₁ arguments₁ m₁)
        (Machine.apply fuel paren callee₂ arguments₂ m₂)
  invoke : ∀ {w : Alignment} {c₁ c₂ a b m₁ m₂} name parameters body identity
    {arguments₁ arguments₂}, w.Related c₁ c₂ m₁ m₂ → w.Sees a b →
      w.ValuesAlike arguments₁ arguments₂ →
      w.Ends c₁ c₂ ValueAlike
        (Machine.invoke fuel ⟨name, parameters, body, a, identity⟩ arguments₁ m₁)
        (Machine.invoke fuel ⟨name, parameters, body, b, identity⟩ arguments₂ m₂)
  execute : ∀ {w : Alignment} {c₁ c₂ m₁ m₂} s, w.Related c₁ c₂ m₁ m₂ →
    (s.declared ≠ [] → w.same c₁ c₂) →
      w.Ends c₁ c₂ CompletionAlike (Machine.execute fuel s m₁) (Machine.execute fuel s m₂)
  repeating : ∀ {w : Alignment} {c₁ c₂ m₁ m₂} condition body, w.Related c₁ c₂ m₁ m₂ →
    (body.declared ≠ [] → w.same c₁ c₂) →
      w.Ends c₁ c₂ CompletionAlike (Machine.repeating fuel condition body m₁)
        (Machine.repeating fuel condition body m₂)
  executeAll : ∀ {w : Alignment} {c₁ c₂ m₁ m₂} ss, w.Related c₁ c₂ m₁ m₂ →
    (Stmt.declaredAll ss ≠ [] → w.same c₁ c₂) →
      w.Ends c₁ c₂ CompletionAlike (Machine.executeAll fuel ss m₁) (Machine.executeAll fuel ss m₂)
  executeIn : ∀ {w : Alignment} {c₁ c₂ d₁ d₂ m₁ m₂} body, w.Related d₁ d₂ m₁ m₂ →
    w.same c₁ c₂ →
      w.Ends d₁ d₂ CompletionAlike (Machine.executeIn fuel c₁ body m₁)
        (Machine.executeIn fuel c₂ body m₂)

variable {fuel : Nat} {c₁ c₂ d₁ d₂ : Address} {m₁ m₂ : Machine}

theorem Aligned.evaluate_succ (h : Aligned fuel) (e : Expr) (hm : w.Related c₁ c₂ m₁ m₂) :
    w.Ends c₁ c₂ ValueAlike (Machine.evaluate (fuel + 1) e m₁)
      (Machine.evaluate (fuel + 1) e m₂) := by
  cases e with
  | assign name right =>
      simp only [Machine.evaluate]
      exact (h.evaluate right hm).bind fun w' x₁ x₂ _ _ _ hx hm => ends_assign hm name hx
  | binary left operator right =>
      simp only [Machine.evaluate]
      refine (h.evaluate left hm).bind fun w₁ x₁ x₂ _ _ _ hx hm => ?_
      refine (h.evaluate right hm).bind fun w₂ y₁ y₂ _ _ hw hy hm => ?_
      -- The left operands are alike still, on the alignment that the right ones led to.
      rw [(hx.mono hw).binary_eq hy]
      exact ends_ofExcept hm fun _ hv => valueAlike_of_isData (Value.isData_binary hv)
  | call callee paren arguments =>
      simp only [Machine.evaluate]
      refine (h.evaluate callee hm).bind fun w₁ x₁ x₂ _ _ _ hx hm => ?_
      refine (h.evaluateAll arguments hm).bind fun w₂ vs₁ vs₂ _ _ hw hvs hm => ?_
      exact h.apply paren hm (hx.mono hw) hvs
  | grouping inner =>
      simp only [Machine.evaluate]
      exact h.evaluate inner hm
  | literal value =>
      simp only [Machine.evaluate]
      exact ends_ok hm (.data (Value.scope?_ofLiteral value))
  | logical left operator right =>
      simp only [Machine.evaluate]
      refine (h.evaluate left hm).bind fun w₁ x₁ x₂ _ _ _ hx hm => ?_
      have hdecides : Machine.decides operator x₁ = Machine.decides operator x₂ := by
        unfold Machine.decides
        rw [hx.isTruthy_eq]
      rw [hdecides]
      split
      · exact ends_ok hm hx
      · exact h.evaluate right hm
  | unary operator right =>
      simp only [Machine.evaluate]
      refine (h.evaluate right hm).bind fun w₁ x₁ x₂ _ _ _ hx hm => ?_
      rw [hx.unary_eq]
      exact ends_ofExcept hm fun _ hv => valueAlike_of_isData (Value.isData_unary hv)
  | lookup name =>
      simp only [Machine.evaluate]
      exact ends_lookup hm name

theorem Aligned.evaluateAll_succ (h : Aligned fuel) (es : List Expr)
    (hm : w.Related c₁ c₂ m₁ m₂) :
    w.Ends c₁ c₂ ValuesAlike (Machine.evaluateAll (fuel + 1) es m₁)
      (Machine.evaluateAll (fuel + 1) es m₂) := by
  cases es with
  | nil =>
      simp only [Machine.evaluateAll]
      exact ends_ok hm .nil
  | cons e es =>
      simp only [Machine.evaluateAll]
      refine (h.evaluate e hm).bind fun w₁ x₁ x₂ _ _ _ hx hm => ?_
      refine (h.evaluateAll es hm).bind fun w₂ vs₁ vs₂ _ _ hw hvs hm => ?_
      exact ends_ok hm (.cons (hx.mono hw) hvs)

theorem Aligned.apply_succ (h : Aligned fuel) (paren : Token) {callee₁ callee₂ : Value}
    {arguments₁ arguments₂ : List Value} (hm : w.Related c₁ c₂ m₁ m₂)
    (hc : w.ValueAlike callee₁ callee₂) (ha : w.ValuesAlike arguments₁ arguments₂) :
    w.Ends c₁ c₂ ValueAlike (Machine.apply (fuel + 1) paren callee₁ arguments₁ m₁)
      (Machine.apply (fuel + 1) paren callee₂ arguments₂ m₂) := by
  have hlength : arguments₁.length = arguments₂.length := List.Forall₂.length_eq ha
  have hcheck : w.Ends c₁ c₂ (fun _ _ _ => True)
      (Outcome.ofExcept (callee₂.checkCall paren arguments₂.length) m₁)
      (Outcome.ofExcept (callee₂.checkCall paren arguments₂.length) m₂) :=
    ends_ofExcept hm fun _ _ => trivial
  simp only [Machine.apply, hc.checkCall_eq, hlength]
  refine hcheck.bind fun w' _ _ _ _ hw _ hm => ?_
  cases hc with
  -- The scopes of the two functions need not be paired: a call runs in a frame of its own.
  | closure hs =>
      exact h.invoke _ _ _ _ hm (hs.mono hw) (List.Forall₂.imp (fun _ _ hv => hv.mono hw) ha)
  | data hdata =>
      cases callee₁ with
      | closure f => cases hdata
      | native native =>
          cases native
          cases ha with
          | nil =>
              obtain ⟨hreading, hread⟩ := hm.readClock
              dsimp only
              rw [hreading]
              exact ends_ok hread (.data rfl)
          | cons hv hvs => exact ends_failed hm _
      | stub f => exact ends_ok hm (.data rfl)
      | _ => exact ends_failed hm _

theorem Aligned.invoke_succ (h : Aligned fuel) (name : Token) (parameters : List Token)
    (body : List Stmt) (identity : Nat) {a b : Address} {arguments₁ arguments₂ : List Value}
    (hm : w.Related c₁ c₂ m₁ m₂) (hs : w.Sees a b) (ha : w.ValuesAlike arguments₁ arguments₂) :
    w.Ends c₁ c₂ ValueAlike
      (Machine.invoke (fuel + 1) ⟨name, parameters, body, a, identity⟩ arguments₁ m₁)
      (Machine.invoke (fuel + 1) ⟨name, parameters, body, b, identity⟩ arguments₂ m₂) := by
  simp only [Machine.invoke, Outcome.map]
  have hframe : w.FrameAlike
      (Machine.callFrame ⟨name, parameters, body, a, identity⟩ arguments₁)
      (Machine.callFrame ⟨name, parameters, body, b, identity⟩ arguments₂) :=
    ⟨BindingsAlike.setAll .nil _ ha, .some hs⟩
  refine Ends.of_extends (w.extends_pairing m₁.heap.next m₂.heap.next) ?_
  refine (h.executeIn body (hm.allocate hframe) (w.same_pairing _ _)).bind
    fun w' last₁ last₂ _ _ _ hlast hm => ?_
  cases hlast with
  | normal => exact ends_ok hm (.data rfl)
  | returned hv => exact ends_ok hm hv

theorem Aligned.execute_succ (h : Aligned fuel) (s : Stmt) (hm : w.Related c₁ c₂ m₁ m₂)
    (hd : s.declared ≠ [] → w.same c₁ c₂) :
    w.Ends c₁ c₂ CompletionAlike (Machine.execute (fuel + 1) s m₁)
      (Machine.execute (fuel + 1) s m₂) := by
  cases s with
  | block body =>
      simp only [Machine.execute]
      have hframe : w.FrameAlike m₁.blockFrame m₂.blockFrame := by
        refine ⟨.nil, .some ?_⟩
        rw [hm.scope₁, hm.scope₂]
        exact hm.sees
      exact (h.executeIn body (hm.allocate hframe) (w.same_pairing _ _)).of_extends
        (w.extends_pairing _ _)
  | expression e =>
      simp only [Machine.execute]
      exact (h.evaluate e hm).bind fun w' _ _ _ _ _ _ hm => ends_ok hm .normal
  | function name parameters body =>
      simp only [Machine.execute]
      -- What declares a name is run in frames that are paired.
      exact ends_ok (hm.makeFunction (hd (List.cons_ne_nil _ _)) name parameters body) .normal
  | branch condition thenBranch elseBranch =>
      simp only [Machine.execute]
      refine (h.evaluate condition hm).bind fun w' x₁ x₂ _ _ hw hx hm => ?_
      rw [hx.isTruthy_eq]
      cases elseBranch with
      | none =>
          split
          · exact h.execute thenBranch hm fun hne => hw.same (hd hne)
          · exact ends_ok hm .normal
      | some elseBranch =>
          split
          · exact h.execute thenBranch hm fun hne =>
              hw.same (hd (List.append_ne_nil_of_left_ne_nil hne _))
          · exact h.execute elseBranch hm fun hne =>
              hw.same (hd (List.append_ne_nil_of_right_ne_nil _ hne))
  | print e =>
      simp only [Machine.execute]
      refine (h.evaluate e hm).bind fun w' x₁ x₂ n₁ n₂ _ hx hm => ?_
      rw [hx.written_eq]
      cases x₂.written with
      | ok text => exact ends_print hm text
      | error failure => exact ends_failed hm failure
  | giveBack keyword e =>
      cases e with
      | none => exact ends_ok hm (.returned (.data rfl))
      | some e =>
          simp only [Machine.execute]
          exact (h.evaluate e hm).bind fun w' _ _ _ _ _ hx hm => ends_ok hm (.returned hx)
  | declare name e =>
      have hs : w.same c₁ c₂ := hd (List.cons_ne_nil _ _)
      cases e with
      | none => exact ends_ok (hm.define hs name.lexeme (.data rfl)) .normal
      | some e =>
          simp only [Machine.execute]
          refine (h.evaluate e hm).bind fun w' _ _ _ _ hw hx hm => ?_
          exact ends_ok (hm.define (hw.same hs) name.lexeme hx) .normal
  | loop condition body =>
      simp only [Machine.execute]
      exact h.repeating condition body hm hd

theorem Aligned.repeating_succ (h : Aligned fuel) (condition : Expr) (body : Stmt)
    (hm : w.Related c₁ c₂ m₁ m₂) (hd : body.declared ≠ [] → w.same c₁ c₂) :
    w.Ends c₁ c₂ CompletionAlike (Machine.repeating (fuel + 1) condition body m₁)
      (Machine.repeating (fuel + 1) condition body m₂) := by
  simp only [Machine.repeating]
  refine (h.evaluate condition hm).bind fun w₁ x₁ x₂ _ _ hw₁ hx hm => ?_
  rw [hx.isTruthy_eq]
  split
  · have hd₁ : body.declared ≠ [] → w₁.same c₁ c₂ := fun hne => hw₁.same (hd hne)
    refine (h.execute body hm hd₁).bind fun w₂ last₁ last₂ _ _ hw₂ hlast hm => ?_
    cases hlast with
    | normal => exact h.repeating condition body hm fun hne => hw₂.same (hd₁ hne)
    | returned hv => exact ends_ok hm (.returned hv)
  · exact ends_ok hm .normal

theorem Aligned.executeAll_succ (h : Aligned fuel) (ss : List Stmt) (hm : w.Related c₁ c₂ m₁ m₂)
    (hd : Stmt.declaredAll ss ≠ [] → w.same c₁ c₂) :
    w.Ends c₁ c₂ CompletionAlike (Machine.executeAll (fuel + 1) ss m₁)
      (Machine.executeAll (fuel + 1) ss m₂) := by
  cases ss with
  | nil => exact ends_ok hm .normal
  | cons s ss =>
      simp only [Machine.executeAll]
      have hfirst : s.declared ≠ [] → w.same c₁ c₂ := fun hne =>
        hd (List.append_ne_nil_of_left_ne_nil hne _)
      have hothers : Stmt.declaredAll ss ≠ [] → w.same c₁ c₂ := fun hne =>
        hd (List.append_ne_nil_of_right_ne_nil _ hne)
      refine (h.execute s hm hfirst).bind fun w' last₁ last₂ _ _ hw hlast hm => ?_
      cases hlast with
      | normal => exact h.executeAll ss hm fun hne => hw.same (hothers hne)
      | returned hv => exact ends_ok hm (.returned hv)

theorem Aligned.executeIn_succ (h : Aligned fuel) (body : List Stmt) (hm : w.Related d₁ d₂ m₁ m₂)
    (hs : w.same c₁ c₂) :
    w.Ends d₁ d₂ CompletionAlike (Machine.executeIn (fuel + 1) c₁ body m₁)
      (Machine.executeIn (fuel + 1) c₂ body m₂) := by
  simp only [Machine.executeIn]
  rw [hm.scope₁, hm.scope₂]
  exact (h.executeAll body (hm.entering (.same hs)) fun _ => hs).leaving hm.sees

/-- **Runs in aligned states end in aligned states.** -/
theorem aligned (fuel : Nat) : Aligned fuel := by
  induction fuel with
  | zero =>
      constructor
      all_goals intros; exact .outOfFuel
  | succ fuel ih =>
      exact ⟨fun e hm => ih.evaluate_succ e hm, fun es hm => ih.evaluateAll_succ es hm,
        fun paren _ _ _ _ hm hc ha => ih.apply_succ paren hm hc ha,
        fun name parameters body identity _ _ hm hs ha =>
          ih.invoke_succ name parameters body identity hm hs ha,
        fun s hm hd => ih.execute_succ s hm hd,
        fun condition body hm hd => ih.repeating_succ condition body hm hd,
        fun ss hm hd => ih.executeAll_succ ss hm hd,
        fun body hm hs => ih.executeIn_succ body hm hs⟩

/-! ### Derived endings -/

/-- The endings have answers that are alike or the same failure, in aligned states. -/
inductive EndAlike (w : Alignment) (c₁ c₂ : Address) {α : Type} (alike : Alignment → α → α → Prop) :
    Ending α → Ending α → Prop where
  | ok {w' : Alignment} {value₁ value₂ : α} {m₁ m₂ : Machine} (hw : w.Extends w')
      (hv : alike w' value₁ value₂) (hm : w'.Related c₁ c₂ m₁ m₂) :
      EndAlike w c₁ c₂ alike (.ok value₁ m₁) (.ok value₂ m₂)
  | failed {w' : Alignment} {failure : Failure} {m₁ m₂ : Machine} (hw : w.Extends w')
      (hm : w'.Related c₁ c₂ m₁ m₂) :
      EndAlike w c₁ c₂ alike (.failed failure m₁) (.failed failure m₂)

section

variable {α : Type} {alike : Alignment → α → α → Prop} {ending₁ ending₂ : Ending α}
  {outcome : Outcome α}

theorem EndAlike.of_extends (hw : w.Extends w') (h : w'.EndAlike c₁ c₂ alike ending₁ ending₂) :
    w.EndAlike c₁ c₂ alike ending₁ ending₂ := by
  cases h with
  | ok hw' hv hm => exact .ok (hw.trans hw') hv hm
  | failed hw' hm => exact .failed (hw.trans hw') hm

/-- The other run ends as well. -/
theorem Ends.exists_right (h : w.Ends c₁ c₂ alike ending₁.outcome outcome) :
    ∃ ending₂, outcome = Ending.outcome ending₂ ∧ w.EndAlike c₁ c₂ alike ending₁ ending₂ := by
  cases ending₁ with
  | ok value m =>
      cases h with
      | ok hw hv hm => exact ⟨.ok _ _, rfl, .ok hw hv hm⟩
  | failed failure m =>
      cases h with
      | failed hw hm => exact ⟨.failed _ _, rfl, .failed hw hm⟩

theorem Ends.exists_left (h : w.Ends c₁ c₂ alike outcome ending₂.outcome) :
    ∃ ending₁, outcome = Ending.outcome ending₁ ∧ w.EndAlike c₁ c₂ alike ending₁ ending₂ := by
  cases ending₂ with
  | ok value m =>
      cases h with
      | ok hw hv hm => exact ⟨.ok _ _, rfl, .ok hw hv hm⟩
  | failed failure m =>
      cases h with
      | failed hw hm => exact ⟨.failed _ _, rfl, .failed hw hm⟩

end

theorem Related.evaluates_right (hm : w.Related c₁ c₂ m₁ m₂) {e : Expr} {ending₁ : Ending Value}
    (h : Evaluates e m₁ ending₁) :
    ∃ ending₂, Evaluates e m₂ ending₂ ∧ w.EndAlike c₁ c₂ ValueAlike ending₁ ending₂ := by
  obtain ⟨fuel, hrun⟩ := Machine.exists_evaluate_eq_iff.2 h
  have hends := (aligned fuel).evaluate e hm
  rw [hrun] at hends
  obtain ⟨ending₂, ho, halike⟩ := hends.exists_right
  exact ⟨ending₂, Machine.exists_evaluate_eq_iff.1 ⟨fuel, ho⟩, halike⟩

theorem Related.evaluates_left (hm : w.Related c₁ c₂ m₁ m₂) {e : Expr} {ending₂ : Ending Value}
    (h : Evaluates e m₂ ending₂) :
    ∃ ending₁, Evaluates e m₁ ending₁ ∧ w.EndAlike c₁ c₂ ValueAlike ending₁ ending₂ := by
  obtain ⟨fuel, hrun⟩ := Machine.exists_evaluate_eq_iff.2 h
  have hends := (aligned fuel).evaluate e hm
  rw [hrun] at hends
  obtain ⟨ending₁, ho, halike⟩ := hends.exists_left
  exact ⟨ending₁, Machine.exists_evaluate_eq_iff.1 ⟨fuel, ho⟩, halike⟩

theorem Related.executes_right (hm : w.Related c₁ c₂ m₁ m₂) {s : Stmt}
    (hd : s.declared ≠ [] → w.same c₁ c₂) {ending₁ : Ending Completion}
    (h : Executes s m₁ ending₁) :
    ∃ ending₂, Executes s m₂ ending₂ ∧ w.EndAlike c₁ c₂ CompletionAlike ending₁ ending₂ := by
  obtain ⟨fuel, hrun⟩ := Machine.exists_execute_eq_iff.2 h
  have hends := (aligned fuel).execute s hm hd
  rw [hrun] at hends
  obtain ⟨ending₂, ho, halike⟩ := hends.exists_right
  exact ⟨ending₂, Machine.exists_execute_eq_iff.1 ⟨fuel, ho⟩, halike⟩

theorem Related.executes_left (hm : w.Related c₁ c₂ m₁ m₂) {s : Stmt}
    (hd : s.declared ≠ [] → w.same c₁ c₂) {ending₂ : Ending Completion}
    (h : Executes s m₂ ending₂) :
    ∃ ending₁, Executes s m₁ ending₁ ∧ w.EndAlike c₁ c₂ CompletionAlike ending₁ ending₂ := by
  obtain ⟨fuel, hrun⟩ := Machine.exists_execute_eq_iff.2 h
  have hends := (aligned fuel).execute s hm hd
  rw [hrun] at hends
  obtain ⟨ending₁, ho, halike⟩ := hends.exists_left
  exact ⟨ending₁, Machine.exists_execute_eq_iff.1 ⟨fuel, ho⟩, halike⟩

/-- The alignment of the first frames of a heap with themselves. -/
def identity (limit : Nat) : Alignment where
  same a b := a = b ∧ a < limit
  pad _ _ := False

end LoxLang.Alignment

namespace LoxLang.Machine

/-- The scopes of a state are there: frames stand in older ones, functions were declared in frames of the
heap, and the current scope is one of them. -/
structure Linked (m : Machine) : Prop where
  ordered : m.heap.Ordered
  scopes : ∀ {address frame binding scope}, m.heap.frame? address = some frame →
    binding ∈ frame.bindings → binding.2.scope? = some scope → scope < m.heap.next
  scope : m.scope < m.heap.next

/-- Frames that stand on the global one are linked. -/
theorem Grounded.linked {m : Machine} (h : m.Grounded) : m.Linked where
  ordered _ _ _ hf he := h.heap.outer_lt hf he
  scopes := by
    intro address frame binding scope hf hb hs
    have hwithin := h.heap.within hf binding hb
    cases hv : binding.2 with
    | closure f =>
        rw [hv] at hwithin hs
        cases hs
        exact hwithin.1
    | _ =>
        rw [hv] at hs
        cases hs
  scope := h.scope

/-- **A linked state is aligned with itself.** -/
theorem Linked.related {m : Machine} (h : m.Linked) :
    (Alignment.identity m.heap.next).Related m.scope m.scope m m where
  heap :=
    { ordered₁ := h.ordered
      ordered₂ := h.ordered
      frames := by
        -- Every frame is alike to itself, because the scopes in it are addresses that are paired.
        rintro a b ⟨rfl, ha⟩
        obtain ⟨frame, hf⟩ := Heap.exists_frame? ha
        refine ⟨frame, frame, hf, hf, ?_, ?_⟩
        · refine List.forall₂_same.2 fun binding hb => ⟨rfl, ?_⟩
          cases hv : binding.2 with
          | closure f =>
              have hscope : f.scope < m.heap.next := h.scopes hf hb (by rw [hv]; rfl)
              exact .closure (.same ⟨rfl, hscope⟩)
          | _ => exact .data rfl
        · cases he : frame.enclosing with
          | none => exact .none
          | some outer =>
              exact .some (.same ⟨rfl, Nat.lt_trans (h.ordered a frame outer hf he) ha⟩)
      pads := nofun
      left_unique := fun hs hs' => hs.1.trans hs'.1.symm
      right_unique := fun hs hs' => hs.1.symm.trans hs'.1
      apart := nofun
      covered₁ := fun ha => ⟨_, rfl, ha⟩
      covered₂ := fun hb => .inl ⟨_, rfl, hb⟩ }
  sees := .same ⟨rfl, h.scope⟩
  scope₁ := rfl
  scope₂ := rfl
  printed := rfl
  functions := rfl
  readings := rfl
  clock := rfl
  takes := rfl

end LoxLang.Machine
