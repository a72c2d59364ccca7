/-
**Equality and order of values are coherent.**

Two values are equal if they stand for the same: a number for its value, a text for itself, a function for
its identity, and NaN for nothing.  So equality is symmetric and transitive, tells the kinds of values
apart, and holds of every value and itself but of NaN.  On numbers all comparisons are relations of their
values, in whatever way integers and doubles are mixed, and so they fit together as the relations of a line
do.

* `LoxLang.Value.kind`, `LoxLang.Value.content?` — the kind of a value, and what it stands for;
* `LoxLang.Value.same_iff` — **values are equal if they stand for the same**;
* `LoxLang.Value.Answers`, `LoxLang.Value.Holds` — what an operator answers;
* `LoxLang.Value.Compares`, `LoxLang.Value.answers_of_compares` — the comparisons and their relations;
* `LoxLang.Value.comparisons_coherent` — **the laws of equality and order**.
-/

import LoxLang.Proofs.Number.Order
import LoxLang.Value.Operators

set_option relaxedAutoImplicit false
set_option autoImplicit false

namespace LoxLang

/-! ### What values stand for -/

/-- The kinds of values.  Integers and doubles are of one kind, booleans are not of it, and all functions
are of one kind. -/
inductive ValueKind where
  | absent
  | nil
  | boolean
  | number
  | text
  | function
  deriving DecidableEq

/-- What a value stands for. -/
inductive Content where
  | absent
  | nil
  | bool (b : Bool)
  | number (value : ExtendedRat)
  | text (s : String)
  | closure (identity : Nat)
  | native (f : Native)
  | stub (f : Stub)

namespace Content

/-- The kind of what a value stands for. -/
def kind : Content → ValueKind
  | absent => .absent
  | nil => .nil
  | bool _ => .boolean
  | number _ => .number
  | text _ => .text
  | closure _ => .function
  | native _ => .function
  | stub _ => .function

end Content

namespace Value

/-- The kind of a value. -/
def kind : Value → ValueKind
  | absent => .absent
  | nil => .nil
  | bool _ => .boolean
  | number _ => .number
  | text _ => .text
  | closure _ => .function
  | native _ => .function
  | stub _ => .function

/-- What a value stands for; NaN stands for nothing. -/
def content? : Value → Option Content
  | absent => some .absent
  | nil => some .nil
  | bool b => some (.bool b)
  | number n => n.value?.map .number
  | text s => some (.text s)
  | closure f => some (.closure f.identity)
  | native f => some (.native f)
  | stub f => some (.stub f)

variable {x y z : Value}

theorem content?_eq_none : x.content? = none ↔ x = .number (.double .nan) := by
  cases x with
  | number n => simp [content?, Number.value?_eq_none]
  | _ => simp [content?]

theorem kind_of_content? {c : Content} (h : x.content? = some c) : c.kind = x.kind := by
  cases x with
  | number n =>
      obtain ⟨v, -, rfl⟩ := Option.map_eq_some_iff.1 h
      rfl
  | _ =>
      cases h
      rfl

theorem same_number {m n : Number} :
    m.same n = true ↔ ∃ c, (number m).content? = some c ∧ (number n).content? = some c := by
  rw [Number.same_iff]
  constructor
  · rintro ⟨v, w, hv, hw, rfl⟩
    exact ⟨.number v, by simp [content?, hv], by simp [content?, hw]⟩
  · rintro ⟨c, hm, hn⟩
    obtain ⟨v, hv, rfl⟩ := Option.map_eq_some_iff.1 hm
    obtain ⟨w, hw, hwv⟩ := Option.map_eq_some_iff.1 hn
    cases hwv
    exact ⟨v, v, hv, hw, rfl⟩

/-- **Values are equal if they stand for the same.** -/
theorem same_iff : x.same y = true ↔ ∃ c, x.content? = some c ∧ y.content? = some c := by
  -- Numbers are left out here: a number stands for something only if it is not NaN.
  cases x with
  | number m =>
      cases y with
      | number n => exact same_number
      | _ => simp [same, content?]
  | _ => cases y <;> simp [same, content?, eq_comm]

theorem same_symm (h : x.same y = true) : y.same x = true := by
  obtain ⟨c, hx, hy⟩ := same_iff.1 h
  exact same_iff.2 ⟨c, hy, hx⟩

theorem same_trans (h : x.same y = true) (h' : y.same z = true) : x.same z = true := by
  obtain ⟨c, hx, hy⟩ := same_iff.1 h
  obtain ⟨c', hy', hz⟩ := same_iff.1 h'
  cases hy.symm.trans hy'
  exact same_iff.2 ⟨c, hx, hz⟩

theorem same_self : x.same x = true ↔ x ≠ .number (.double .nan) := by
  rw [same_iff, ne_eq, ← content?_eq_none, ← ne_eq, Option.ne_none_iff_exists']
  simp

theorem kind_eq_of_same (h : x.same y = true) : x.kind = y.kind := by
  obtain ⟨c, hx, hy⟩ := same_iff.1 h
  rw [← kind_of_content? hx, kind_of_content? hy]

/-! ### Answers of operators -/

/-- The operator of a kind answers whether something is so, for two values. -/
def Answers (kind : TokenKind) (left right : Value) (answer : Bool) : Prop :=
  ∀ operator : Token, operator.kind = kind → left.binary operator right = .ok (.bool answer)

/-- The operator of a kind answers that it is so. -/
def Holds (kind : TokenKind) (left right : Value) : Prop := Answers kind left right true

theorem Answers.unique {kind : TokenKind} {answer other : Bool} (h : Answers kind x y answer)
    (h' : Answers kind x y other) : answer = other := by
  have hsame := (h ⟨kind, "", none, 0⟩ rfl).symm.trans (h' ⟨kind, "", none, 0⟩ rfl)
  cases hsame
  rfl

theorem Answers.holds_iff {kind : TokenKind} {answer : Bool} (h : Answers kind x y answer) :
    Holds kind x y ↔ answer = true := by
  refine ⟨fun hh => h.unique hh, fun ha => ?_⟩
  rw [ha] at h
  exact h

theorem answers_equalEqual : Answers .equalEqual x y (x.same y) := by
  intro operator h
  simp [binary, h]

theorem answers_bangEqual : Answers .bangEqual x y !(x.same y) := by
  intro operator h
  simp [binary, h]

theorem holds_equalEqual_iff : Holds .equalEqual x y ↔ x.same y = true :=
  answers_equalEqual.holds_iff

theorem numeric_ofTest (test : Number → Number → Bool) (operator : Token) (m n : Number) :
    numeric (ofTest test) operator (.number m) (.number n) = .ok (.bool (test m n)) := rfl

/-! ### Comparisons of numbers -/

/-- The comparisons of numbers, and how they relate the values. -/
inductive Compares : TokenKind → (ExtendedRat → ExtendedRat → Prop) → Prop where
  | equal : Compares .equalEqual fun v w => v = w
  | less : Compares .less fun v w => v < w
  | lessEqual : Compares .lessEqual fun v w => v ≤ w
  | greater : Compares .greater fun v w => w < v
  | greaterEqual : Compares .greaterEqual fun v w => w ≤ v

/-- **A comparison of two numbers answers how their values are related.** -/
theorem answers_of_compares {kind : TokenKind} {rel : ExtendedRat → ExtendedRat → Prop}
    (h : Compares kind rel) (m n : Number) :
    ∃ answer, Answers kind (.number m) (.number n) answer ∧ (answer = true ↔ m.Related rel n) := by
  cases h with
  | equal => exact ⟨_, answers_equalEqual, Number.same_iff⟩
  | less => exact ⟨m.less n, fun _ h => by simp only [binary, h, numeric_ofTest], Number.less_iff⟩
  | lessEqual =>
      exact ⟨m.lessOrSame n, fun _ h => by simp only [binary, h, numeric_ofTest],
        Number.lessOrSame_iff⟩
  | greater =>
      exact ⟨n.less m, fun _ h => by simp only [binary, h, numeric_ofTest],
        Number.less_iff.trans Number.related_swap.symm⟩
  | greaterEqual =>
      exact ⟨n.lessOrSame m, fun _ h => by simp only [binary, h, numeric_ofTest],
        Number.lessOrSame_iff.trans Number.related_swap.symm⟩

theorem Compares.holds_iff {kind : TokenKind} {rel : ExtendedRat → ExtendedRat → Prop}
    (h : Compares kind rel) {m n : Number} : Holds kind (.number m) (.number n) ↔ m.Related rel n := by
  obtain ⟨answer, ha, hrel⟩ := answers_of_compares h m n
  exact ha.holds_iff.trans hrel

/-- The comparisons of which exactly one holds of two numbers. -/
def orderings : List TokenKind := [.less, .equalEqual, .greater]

/-- Of two numbers the first is less, or they are equal, or the second is less. -/
theorem existsUnique_ordering {m n : Number} (hm : m ≠ .double .nan) (hn : n ≠ .double .nan) :
    ∃! kind, kind ∈ orderings ∧ Holds kind (.number m) (.number n) := by
  obtain ⟨v, hv⟩ := Number.exists_value hm
  obtain ⟨w, hw⟩ := Number.exists_value hn
  have hless : Holds .less (.number m) (.number n) ↔ v < w :=
    Compares.less.holds_iff.trans (Number.related_iff_of_value hv hw)
  have hequal : Holds .equalEqual (.number m) (.number n) ↔ v = w :=
    Compares.equal.holds_iff.trans (Number.related_iff_of_value hv hw)
  have hgreater : Holds .greater (.number m) (.number n) ↔ w < v :=
    Compares.greater.holds_iff.trans (Number.related_iff_of_value hv hw)
  -- Which of the comparisons is left open is told by the values.
  have hcases : ∀ kind, kind ∈ orderings ∧ Holds kind (.number m) (.number n) ↔
      kind = .less ∧ v < w ∨ kind = .equalEqual ∧ v = w ∨ kind = .greater ∧ w < v := by
    intro kind
    simp only [orderings, List.mem_cons, List.not_mem_nil, or_false, or_and_right]
    refine or_congr (and_congr_right ?_) (or_congr (and_congr_right ?_) (and_congr_right ?_))
    · rintro rfl
      exact hless
    · rintro rfl
      exact hequal
    · rintro rfl
      exact hgreater
  simp only [hcases]
  rcases lt_trichotomy v w with h | rfl | h
  · exact ⟨.less, by simp [h], by simp [h.ne, h.not_gt]⟩
  · exact ⟨.equalEqual, by simp, by simp⟩
  · exact ⟨.greater, by simp [h], by simp [h.ne', h.not_gt]⟩

theorem not_holds_of_nan {m n : Number} (h : m = .double .nan ∨ n = .double .nan) {kind : TokenKind}
    (hk : kind ∈ orderings) : ¬ Holds kind (.number m) (.number n) := by
  have hrelated : ∀ rel, ¬ m.Related rel n := fun rel hr => by
    obtain ⟨hm, hn⟩ := hr.ne_nan
    exact h.elim hm hn
  simp only [orderings, List.mem_cons, List.not_mem_nil, or_false] at hk
  rcases hk with rfl | rfl | rfl
  · exact fun hh => hrelated _ (Compares.less.holds_iff.1 hh)
  · exact fun hh => hrelated _ (Compares.equal.holds_iff.1 hh)
  · exact fun hh => hrelated _ (Compares.greater.holds_iff.1 hh)

/-! ### The laws -/

/-- **Equality and order are coherent.**  Two values are equal or not, and inequality is the opposite of
it; equality is symmetric and transitive, holds of every value and itself but of NaN, and never holds
across kinds.  The comparisons of two numbers say how their values are related; so they mirror one another,
to be less is transitive, and of two numbers that are not NaN exactly one is so: the first is less, they are
equal, or it is greater. -/
theorem comparisons_coherent :
    (∀ x y, ∃ answer, Answers .equalEqual x y answer ∧ Answers .bangEqual x y !answer) ∧
      (∀ x y, Holds .equalEqual x y → Holds .equalEqual y x) ∧
      (∀ x y z, Holds .equalEqual x y → Holds .equalEqual y z → Holds .equalEqual x z) ∧
      (∀ x, Holds .equalEqual x x ↔ x ≠ .number (.double .nan)) ∧
      (∀ x y, Holds .equalEqual x y → x.kind = y.kind) ∧
      (∀ kind rel, Compares kind rel → ∀ m n : Number, ∃ answer,
        Answers kind (.number m) (.number n) answer ∧ (answer = true ↔ m.Related rel n)) ∧
      ∀ m n : Number,
        (Holds .greater (.number m) (.number n) ↔ Holds .less (.number n) (.number m)) ∧
        (Holds .lessEqual (.number m) (.number n) ↔
          Holds .less (.number m) (.number n) ∨ Holds .equalEqual (.number m) (.number n)) ∧
        (Holds .greaterEqual (.number m) (.number n) ↔ Holds .lessEqual (.number n) (.number m)) ∧
        (∀ k : Number, Holds .less (.number m) (.number n) → Holds .less (.number n) (.number k) →
          Holds .less (.number m) (.number k)) ∧
        (m ≠ .double .nan → n ≠ .double .nan →
          ∃! kind, kind ∈ orderings ∧ Holds kind (.number m) (.number n)) ∧
        (m = .double .nan ∨ n = .double .nan →
          ∀ kind ∈ orderings, ¬ Holds kind (.number m) (.number n)) := by
  refine ⟨fun x y => ⟨_, answers_equalEqual, answers_bangEqual⟩, ?_, ?_, ?_, ?_,
    fun _ _ hc m n => answers_of_compares hc m n, fun m n => ⟨?_, ?_, ?_, ?_, ?_, ?_⟩⟩
  · intro x y h
    exact holds_equalEqual_iff.2 (same_symm (holds_equalEqual_iff.1 h))
  · intro x y z h h'
    exact holds_equalEqual_iff.2
      (same_trans (holds_equalEqual_iff.1 h) (holds_equalEqual_iff.1 h'))
  · intro x
    rw [holds_equalEqual_iff, same_self]
  · intro x y h
    exact kind_eq_of_same (holds_equalEqual_iff.1 h)
  · -- From here on, numbers are compared as the values that they stand for.
    rw [Compares.greater.holds_iff, Compares.less.holds_iff]
    exact Number.related_swap
  · rw [Compares.lessEqual.holds_iff, Compares.less.holds_iff, Compares.equal.holds_iff]
    exact Number.related_le_iff
  · rw [Compares.greaterEqual.holds_iff, Compares.lessEqual.holds_iff]
    exact Number.related_swap
  · intro k h h'
    rw [Compares.less.holds_iff] at h h' ⊢
    exact h.trans (fun _ _ _ => lt_trans) h'
  · exact existsUnique_ordering
  · exact fun h kind hk => not_holds_of_nan h hk

/-- A double that has no neighbour at a distance of one above it. -/
def wide : Number := .double (.ofDecimal false (2 ^ 53) 0)

/-- The double above it. -/
def wider : Number := .double (.ofDecimal false (2 ^ 53 + 2) 0)

/-- The integer between two doubles is told from both of them; all zeros are equal; and NaN is not even
equal to itself. -/
theorem comparisons_coherent_between :
    (Holds .less (.number wide) (.number (.int (2 ^ 53 + 1))) ∧
        Holds .less (.number (.int (2 ^ 53 + 1))) (.number wider) ∧
        Holds .less (.number wide) (.number wider) ∧
        Holds .greater (.number wider) (.number wide) ∧
        ∃! kind, kind ∈ orderings ∧ Holds kind (.number (.int (2 ^ 53 + 1))) (.number wide)) ∧
      (Holds .equalEqual (.number (.double (.neg .zero))) (.number (.int 0)) ∧
        Holds .equalEqual (.number (.int 0)) (.number (.double .zero)) ∧
        Holds .equalEqual (.number (.double (.neg .zero))) (.number (.double .zero)) ∧
        Holds .equalEqual (.number (.double .zero)) (.number (.double (.neg .zero)))) ∧
      ∀ kind ∈ orderings, ¬ Holds kind (.number (.double .nan)) (.number (.double .nan)) := by
  obtain ⟨-, hsymm, htrans, -, -, -, horder⟩ := comparisons_coherent
  have hbelow : Holds .less (.number wide) (.number (.int (2 ^ 53 + 1))) :=
    Compares.less.holds_iff.2 (Number.less_iff.1 (by decide +kernel))
  have habove : Holds .less (.number (.int (2 ^ 53 + 1))) (.number wider) :=
    Compares.less.holds_iff.2 (Number.less_iff.1 (by decide +kernel))
  have hminus : Holds .equalEqual (.number (.double (.neg .zero))) (.number (.int 0)) :=
    holds_equalEqual_iff.2 (by decide +kernel)
  have hplus : Holds .equalEqual (.number (.int 0)) (.number (.double .zero)) :=
    holds_equalEqual_iff.2 (by decide +kernel)
  have hwide := (horder wide (.int (2 ^ 53 + 1))).2.2.2.1 wider hbelow habove
  refine ⟨⟨hbelow, habove, hwide, (horder wider wide).1.2 hwide, ?_⟩,
    ⟨hminus, hplus, htrans _ _ _ hminus hplus, hsymm _ _ (htrans _ _ _ hminus hplus)⟩, ?_⟩
  · exact (horder (.int (2 ^ 53 + 1)) wide).2.2.2.2.1 (by decide) (by decide +kernel)
  · exact (horder (.double .nan) (.double .nan)).2.2.2.2.2 (.inl rfl)

end Value

end LoxLang
