/-
**A node is checked against its row of the table.**

What the values of a node have to be is said here without an order: a field that holds one value admits
it if it has the shape of the field, or is left out and may be; a field that holds a sequence admits a list,
or a text for its characters, of which every item has the shape.  Which fault a node has is said by the
first value that is not admitted, and in a sequence by its first item that is not.  Both together decide the
check of a node, field by field.

* `LoxLang.Decided`, `LoxLang.First` — results with all their values and faults, and first faults of lists;
* `LoxLang.HasShape`, `LoxLang.Tree.Lists` — shapes and sequences;
* `LoxLang.Field.Holds`, `LoxLang.Field.Faulty` — what a field may hold, and what is wrong otherwise;
* `LoxLang.NodeKind.Conforms`, `LoxLang.NodeKind.Faulty` — a node and its row;
* `LoxLang.NodeKind.decided_build` — **the check of a node**.
-/

import LoxLang.Syntax.Construction

set_option relaxedAutoImplicit false
set_option autoImplicit false

namespace LoxLang

/-! ### Results and their faults -/

section

variable {ε α β γ : Type}

/-- The result is a value exactly under a condition, and it is the given one; and these are its faults. -/
structure Decided (result : Except ε β) (good : Prop) (kept : β) (bad : ε → Prop) : Prop where
  ok : ∀ value, result = .ok value ↔ good ∧ value = kept
  error : ∀ fault, result = .error fault ↔ bad fault

/-- The first of the items that is not good is bad in this way. -/
inductive First (good : α → Prop) (bad : α → ε → Prop) : List α → ε → Prop where
  | here {item : α} {rest : List α} {fault : ε} (h : bad item fault) :
      First good bad (item :: rest) fault
  | later {item : α} {rest : List α} {fault : ε} (h : good item) (hrest : First good bad rest fault) :
      First good bad (item :: rest) fault

namespace Decided

variable {result : Except ε β} {good good' : Prop} {kept : β} {bad bad' : ε → Prop}

theorem of_ok (h : good) (hbad : ∀ fault, ¬ bad fault) : Decided (.ok kept) good kept bad where
  ok value := by simp [h, eq_comm]
  error fault := by simp [hbad]

theorem of_error {found : ε} (h : ¬ good) (hbad : ∀ fault, bad fault ↔ found = fault) :
    Decided (.error found) good kept bad where
  ok value := by simp [h]
  error fault := by simp [hbad]

theorem congr (h : Decided result good kept bad) (hgood : good ↔ good')
    (hbad : ∀ fault, bad fault ↔ bad' fault) : Decided result good' kept bad' where
  ok value := by rw [h.ok, hgood]
  error fault := by rw [h.error, hbad]

theorem map (h : Decided result good kept bad) (f : β → γ) :
    Decided (result.map f) good (f kept) bad := by
  cases result with
  | ok value =>
      obtain ⟨hgood, rfl⟩ := (h.ok value).1 rfl
      exact of_ok hgood fun fault hb => nomatch (h.error fault).2 hb
  | error found =>
      refine of_error (fun hgood => nomatch (h.ok kept).2 ⟨hgood, rfl⟩) fun fault => ?_
      rw [← h.error, Except.error.injEq]

/-- What follows a result is reached only if that is good. -/
theorem bind {kept' : γ} {next : β → Except ε γ} (h : Decided result good kept bad)
    (hnext : Decided (next kept) good' kept' bad') :
    Decided (result.bind next) (good ∧ good') kept' fun fault => bad fault ∨ good ∧ bad' fault := by
  cases result with
  | ok value =>
      obtain ⟨hgood, rfl⟩ := (h.ok value).1 rfl
      have hbad : ∀ fault, ¬ bad fault := fun fault hb => nomatch (h.error fault).2 hb
      exact hnext.congr (by simp [hgood]) (by simp [hgood, hbad])
  | error found =>
      have hgood : ¬ good := fun hgood => nomatch (h.ok kept).2 ⟨hgood, rfl⟩
      refine of_error (by simp [hgood]) fun fault => ?_
      rw [← Except.error.injEq, h.error]
      simp [hgood]

end Decided

section

variable {good : α → Prop} {bad : α → ε → Prop}

theorem first_nil_iff {fault : ε} : First good bad [] fault ↔ False := by
  constructor
  · rintro ⟨⟩
  · exact False.elim

theorem first_cons_iff {item : α} {rest : List α} {fault : ε} :
    First good bad (item :: rest) fault ↔
      bad item fault ∨ good item ∧ First good bad rest fault := by
  constructor
  · intro h
    cases h with
    | here h => exact .inl h
    | later h hrest => exact .inr ⟨h, hrest⟩
  · rintro (h | ⟨h, hrest⟩)
    · exact .here h
    · exact .later h hrest

theorem first_append_iff {items others : List α} {fault : ε} :
    First good bad (items ++ others) fault ↔
      First good bad items fault ∨ (∀ item ∈ items, good item) ∧ First good bad others fault := by
  induction items with
  | nil => simp [first_nil_iff]
  | cons item items ih =>
      rw [List.cons_append, first_cons_iff, ih, first_cons_iff, List.forall_mem_cons, and_or_left,
        or_assoc, and_assoc]

theorem first_map_iff {f : γ → α} {items : List γ} {fault : ε} :
    First good bad (items.map f) fault ↔
      First (fun item => good (f item)) (fun item => bad (f item)) items fault := by
  induction items with
  | nil => simp [first_nil_iff]
  | cons item items ih => rw [List.map_cons, first_cons_iff, ih, first_cons_iff]

theorem first_congr {good' : α → Prop} {bad' : α → ε → Prop} {items : List α} {fault : ε}
    (hgood : ∀ item, good item ↔ good' item) (hbad : ∀ item, bad item fault ↔ bad' item fault) :
    First good bad items fault ↔ First good' bad' items fault := by
  induction items with
  | nil => simp [first_nil_iff]
  | cons item items ih => rw [first_cons_iff, ih, first_cons_iff, hgood, hbad]

/-- The checks of all items, one after the other. -/
theorem decided_mapM {check : α → Except ε β} {kept : α → β} {items : List α}
    (h : ∀ item ∈ items, Decided (check item) (good item) (kept item) (bad item)) :
    Decided (items.mapM check) (∀ item ∈ items, good item) (items.map kept)
      (First good bad items) := by
  induction items with
  | nil => exact .of_ok (by simp) (by simp [first_nil_iff])
  | cons item items ih =>
      have hitem := h item List.mem_cons_self
      have hrest := ih fun other ho => h other (List.mem_cons_of_mem _ ho)
      rw [List.mapM_cons]
      refine (hitem.bind (hrest.map (kept item :: ·))).congr ?_ fun fault => first_cons_iff.symm
      rw [List.forall_mem_cons]

end

end

/-! ### Single values -/

/-- The value is there and has the shape. -/
inductive HasShape : Shape → Tree → Prop where
  | object {value : Tree} (h : value ≠ .absent) : HasShape .object value
  | token (found : Token) : HasShape .token (.token found)
  | expr {kind : NodeKind} (fields : List Tree) (h : kind.category = .expr) :
      HasShape .expr (.node kind fields)
  | stmt {kind : NodeKind} (fields : List Tree) (h : kind.category = .stmt) :
      HasShape .stmt (.node kind fields)

theorem fits_iff {shape : Shape} {value : Tree} : value.fits shape = true ↔ HasShape shape value := by
  constructor
  · intro h
    cases shape with
    | object =>
        refine .object ?_
        rintro rfl
        cases h
    | token =>
        cases value with
        | token found => exact .token found
        | _ => cases h
    | expr =>
        cases value with
        | node kind fields => exact .expr fields (eq_of_beq h)
        | _ => cases h
    | stmt =>
        cases value with
        | node kind fields => exact .stmt fields (eq_of_beq h)
        | _ => cases h
  · intro h
    cases h with
    | object h =>
        cases value with
        | absent => exact absurd rfl h
        | _ => rfl
    | token found => rfl
    | expr fields h => exact beq_iff_eq.2 h
    | stmt fields h => exact beq_iff_eq.2 h

theorem HasShape.ne_absent {shape : Shape} {value : Tree} (h : HasShape shape value) :
    value ≠ .absent := by
  rintro rfl
  cases h with
  | object h => exact h rfl

namespace Field

variable {kind : NodeKind} {field : Field} {value : Tree} {fault : ConstructionFault}

/-- A single value that the field admits. -/
def Admits (field : Field) (value : Tree) : Prop :=
  value = .absent ∧ field.optional = true ∨ HasShape field.shape value

/-- Why the field does not admit a single value. -/
inductive Refuses (kind : NodeKind) (field : Field) : Tree → ConstructionFault → Prop where
  | required (h : field.optional = false) : Refuses kind field .absent (.required kind field)
  | wrongShape {value : Tree} (hne : value ≠ .absent) (h : ¬ HasShape field.shape value) :
      Refuses kind field value (.wrongShape kind field value.sort)

theorem refuses_iff :
    field.Refuses kind value fault ↔
      value = .absent ∧ field.optional = false ∧ .required kind field = fault ∨
        value ≠ .absent ∧ ¬ HasShape field.shape value ∧
          .wrongShape kind field value.sort = fault := by
  constructor
  · rintro (h | ⟨hne, h⟩)
    · exact .inl ⟨rfl, h, rfl⟩
    · exact .inr ⟨hne, h, rfl⟩
  · rintro (⟨rfl, h, rfl⟩ | ⟨hne, h, rfl⟩)
    · exact .required h
    · exact .wrongShape hne h

theorem checkOne_of_ne_absent (h : value ≠ .absent) :
    field.checkOne kind value =
      if value.fits field.shape then .ok () else .error (.wrongShape kind field value.sort) := by
  cases value with
  | absent => exact absurd rfl h
  | _ => rfl

/-- **The check of a single value.** -/
theorem decided_checkOne :
    Decided (field.checkOne kind value) (field.Admits value) () (field.Refuses kind value) := by
  by_cases hne : value = .absent
  · subst hne
    have hshape : ¬ HasShape field.shape .absent := fun h => h.ne_absent rfl
    cases ho : field.optional with
    | true =>
        rw [checkOne, ho, if_pos rfl]
        exact .of_ok (.inl ⟨rfl, ho⟩) fun fault => by simp [refuses_iff, ho]
    | false =>
        rw [checkOne, ho, if_neg Bool.false_ne_true]
        exact .of_error (by simp [Admits, ho, hshape]) fun fault => by simp [refuses_iff, ho]
  · rw [checkOne_of_ne_absent hne]
    split
    · next h =>
        have hshape := fits_iff.1 h
        exact .of_ok (.inr hshape) fun fault => by simp [refuses_iff, hne, hshape]
    · next h =>
        have hshape : ¬ HasShape field.shape value := fun hs => h (fits_iff.2 hs)
        exact .of_error (by simp [Admits, hne, hshape]) fun fault => by
          simp [refuses_iff, hne, hshape]

end Field

/-! ### Sequences -/

/-- The value stands for a sequence of items: a list for its own, and a text for its characters, each as a
text. -/
inductive Tree.Lists : Tree → List Tree → Prop where
  | items (items : List Tree) : Lists (.seq items) items
  | characters (text : String) :
      Lists (.leaf (.text text)) (text.toList.map fun c => .leaf (.text (String.singleton c)))

theorem Tree.lists_iff {value : Tree} {items : List Tree} :
    value.Lists items ↔ value.items? = some items := by
  constructor
  · intro h
    cases h with
    | items => rfl
    | characters text => rfl
  · intro h
    cases value with
    | seq found =>
        cases h
        exact .items _
    | leaf literal =>
        cases literal with
        | text text =>
            cases h
            exact .characters text
        | _ => cases h
    | _ => cases h

namespace Field

variable {kind : NodeKind} {field : Field} {value : Tree}

theorem checkEach_eq_mapM (items : List Tree) :
    field.checkEach kind items = (items.mapM (field.checkOne kind)).map fun _ => () := by
  induction items with
  | nil => rfl
  | cons item items ih =>
      rw [checkEach, List.mapM_cons, ih]
      cases field.checkOne kind item with
      | ok _ => cases items.mapM (field.checkOne kind) <;> rfl
      | error fault => rfl

/-- What the field may hold: a value that it admits, or a sequence of values of its shape. -/
inductive Holds (field : Field) : Tree → Prop where
  | single {value : Tree} (hm : field.many = false) (h : field.Admits value) : Holds field value
  | sequence {value : Tree} {items : List Tree} (hm : field.many = true) (hl : value.Lists items)
      (h : ∀ item ∈ items, HasShape field.shape item) : Holds field value

/-- What is wrong with a value for the field: it is refused, or no sequence, or the first item that is not
of the shape is refused. -/
inductive Faulty (kind : NodeKind) (field : Field) : Tree → ConstructionFault → Prop where
  | single {value : Tree} {fault : ConstructionFault} (hm : field.many = false)
      (h : field.Refuses kind value fault) : Faulty kind field value fault
  | notSequence {value : Tree} (hm : field.many = true) (h : ∀ items, ¬ value.Lists items) :
      Faulty kind field value (.notSequence kind field)
  | item {value : Tree} {items : List Tree} {fault : ConstructionFault} (hm : field.many = true)
      (hl : value.Lists items)
      (h : First (HasShape field.shape) (field.Refuses kind) items fault) :
      Faulty kind field value fault

/-- The value as the node keeps it: a sequence by its items. -/
def kept (field : Field) (value : Tree) : Tree :=
  if field.many then .seq (value.items?.getD []) else value

theorem decided_checkEach (hopt : field.optional = false) (items : List Tree) :
    Decided (field.checkEach kind items) (∀ item ∈ items, HasShape field.shape item) ()
      (First (HasShape field.shape) (field.Refuses kind) items) := by
  have hadmits : ∀ item, field.Admits item ↔ HasShape field.shape item := by
    intro item
    simp [Admits, hopt]
  rw [checkEach_eq_mapM]
  refine ((decided_mapM fun item _ => decided_checkOne).map fun _ => ()).congr ?_ fun fault => ?_
  · simp only [hadmits]
  · exact first_congr hadmits fun item => Iff.rfl

theorem holds_single_iff (hm : field.many = false) : field.Holds value ↔ field.Admits value := by
  constructor
  · rintro (⟨-, h⟩ | ⟨hmany, -, -⟩)
    · exact h
    · rw [hm] at hmany
      cases hmany
  · exact .single hm

theorem holds_sequence_iff (hm : field.many = true) :
    field.Holds value ↔ ∃ items, value.Lists items ∧ ∀ item ∈ items, HasShape field.shape item := by
  constructor
  · rintro (⟨hone, -⟩ | ⟨-, hl, h⟩)
    · rw [hm] at hone
      cases hone
    · exact ⟨_, hl, h⟩
  · rintro ⟨items, hl, h⟩
    exact .sequence hm hl h

theorem faulty_single_iff (hm : field.many = false) {fault : ConstructionFault} :
    field.Faulty kind value fault ↔ field.Refuses kind value fault := by
  constructor
  · rintro (⟨-, h⟩ | ⟨hmany, -⟩ | ⟨hmany, -, -⟩)
    · exact h
    · rw [hm] at hmany
      cases hmany
    · rw [hm] at hmany
      cases hmany
  · exact .single hm

theorem faulty_sequence_iff (hm : field.many = true) {fault : ConstructionFault} :
    field.Faulty kind value fault ↔
      (∀ items, ¬ value.Lists items) ∧ .notSequence kind field = fault ∨
        ∃ items, value.Lists items ∧
          First (HasShape field.shape) (field.Refuses kind) items fault := by
  constructor
  · rintro (⟨hone, -⟩ | ⟨-, hnone⟩ | ⟨-, hl, h⟩)
    · rw [hm] at hone
      cases hone
    · exact .inl ⟨hnone, rfl⟩
    · exact .inr ⟨_, hl, h⟩
  · rintro (⟨hnone, rfl⟩ | ⟨items, hl, h⟩)
    · exact .notSequence hm hnone
    · exact .item hm hl h

/-- **The check of a field.**  No field holds a sequence and may be left out. -/
theorem decided_check (hopt : field.many = true → field.optional = false) :
    Decided (field.check kind value) (field.Holds value) (field.kept value)
      (field.Faulty kind value) := by
  unfold check kept
  cases hm : field.many with
  | false =>
      exact (decided_checkOne.map fun _ => value).congr (holds_single_iff hm).symm fun fault =>
        (faulty_single_iff hm).symm
  | true =>
      -- The field may not be left out, so an absent value is looked at as any other.
      rw [if_pos rfl, if_pos rfl, hopt hm, Bool.and_false, if_neg Bool.false_ne_true]
      cases hi : value.items? with
      | none =>
          have hnone : ∀ items, ¬ value.Lists items := by
            intro items hl
            rw [Tree.lists_iff, hi] at hl
            cases hl
          refine .of_error ?_ fun fault => ?_
          · rw [holds_sequence_iff hm]
            rintro ⟨items, hl, -⟩
            exact hnone items hl
          · rw [faulty_sequence_iff hm]
            simp [hnone]
      | some items =>
          have hl : ∀ others, value.Lists others ↔ items = others := by
            intro others
            rw [Tree.lists_iff, hi, Option.some.injEq]
          refine ((decided_checkEach (hopt hm) items).map fun _ => Tree.seq items).congr ?_
            fun fault => ?_
          · rw [holds_sequence_iff hm]
            simp [hl]
          · rw [faulty_sequence_iff hm]
            simp [hl]

end Field

/-! ### Nodes -/

/-- The fields with the values given to them; a value missing at the end is absent, which only a field that
may be left out allows. -/
inductive Slots : List Field → List Tree → List (Field × Tree) → Prop where
  | nil : Slots [] [] []
  | given {field : Field} {fields : List Field} {value : Tree} {values : List Tree}
      {slots : List (Field × Tree)} (h : Slots fields values slots) :
      Slots (field :: fields) (value :: values) ((field, value) :: slots)
  | missing {field : Field} {fields : List Field} {slots : List (Field × Tree)}
      (ho : field.optional = true) (h : Slots fields [] slots) :
      Slots (field :: fields) [] ((field, .absent) :: slots)

namespace Field

theorem slots_of_complete? {fields : List Field} {values complete : List Tree}
    (h : complete? fields values = some complete) : Slots fields values (fields.zip complete) := by
  induction fields generalizing values complete with
  | nil =>
      cases values with
      | nil =>
          cases h
          exact .nil
      | cons value values => cases h
  | cons field fields ih =>
      cases values with
      | nil =>
          rw [complete?] at h
          split at h
          · next ho =>
              obtain ⟨rest, hrest, rfl⟩ := Option.map_eq_some_iff.1 h
              exact .missing ho (ih hrest)
          · cases h
      | cons value values =>
          obtain ⟨rest, hrest, rfl⟩ := Option.map_eq_some_iff.1 h
          exact .given (ih hrest)

theorem complete?_of_slots {fields : List Field} {values : List Tree} {slots : List (Field × Tree)}
    (h : Slots fields values slots) :
    ∃ complete, complete? fields values = some complete ∧ slots = fields.zip complete := by
  induction h with
  | nil => exact ⟨[], rfl, rfl⟩
  | given h ih =>
      obtain ⟨rest, hrest, rfl⟩ := ih
      exact ⟨_ :: rest, by rw [complete?, hrest]; rfl, rfl⟩
  | missing ho h ih =>
      obtain ⟨rest, hrest, rfl⟩ := ih
      exact ⟨.absent :: rest, by rw [complete?, if_pos ho, hrest]; rfl, rfl⟩

/-- The values of fields as a node keeps them. -/
def keptAll : List Field → List Tree → List Tree
  | [], _ => []
  | field :: fields, [] => field.kept .absent :: keptAll fields []
  | field :: fields, value :: values => field.kept value :: keptAll fields values

theorem map_kept_of_slots {fields : List Field} {values : List Tree} {slots : List (Field × Tree)}
    (h : Slots fields values slots) :
    slots.map (fun slot => slot.1.kept slot.2) = keptAll fields values := by
  induction h with
  | nil => rfl
  | given h ih => rw [List.map_cons, ih, keptAll]
  | missing ho h ih => rw [List.map_cons, ih, keptAll]

end Field

namespace NodeKind

variable {kind : NodeKind} {values : List Tree}

/-- The values are what the row of the kind asks for. -/
inductive Conforms (kind : NodeKind) (values : List Tree) : Prop where
  | intro {slots : List (Field × Tree)} (hs : Slots kind.layout values slots)
      (h : ∀ slot ∈ slots, slot.1.Holds slot.2) : Conforms kind values

/-- What is wrong with the values: there are too many or too few of them, or it is what is wrong with the
first that its field may not hold. -/
inductive Faulty (kind : NodeKind) (values : List Tree) : ConstructionFault → Prop where
  | fieldCount (h : ∀ slots, ¬ Slots kind.layout values slots) : Faulty kind values (.fieldCount kind)
  | field {slots : List (Field × Tree)} {fault : ConstructionFault}
      (hs : Slots kind.layout values slots)
      (h : First (fun slot => slot.1.Holds slot.2) (fun slot => slot.1.Faulty kind slot.2) slots
        fault) : Faulty kind values fault

/-- No field of the table holds a sequence and may be left out. -/
theorem optional_of_many {field : Field} (h : field ∈ kind.layout) :
    field.many = true → field.optional = false := by
  cases kind <;> revert field <;> decide

theorem checkFields_eq_mapM (fields : List Field) (values : List Tree) :
    kind.checkFields fields values = (fields.zip values).mapM fun slot => slot.1.check kind slot.2 := by
  induction fields generalizing values with
  | nil => rfl
  | cons field fields ih =>
      cases values with
      | nil => rfl
      | cons value values =>
          rw [checkFields, List.zip_cons_cons, List.mapM_cons, ih]
          cases field.check kind value <;> rfl

/-- **The check of a node**, from its first field to its last. -/
theorem decided_build :
    Decided (kind.build values) (kind.Conforms values)
      (.node kind (Field.keptAll kind.layout values)) (kind.Faulty values) := by
  unfold build
  cases hc : Field.complete? kind.layout values with
  | none =>
      have hnone : ∀ slots, ¬ Slots kind.layout values slots := by
        intro slots hs
        obtain ⟨complete, hcomplete, -⟩ := Field.complete?_of_slots hs
        rw [hcomplete] at hc
        cases hc
      refine .of_error ?_ fun fault => ⟨?_, ?_⟩
      · rintro ⟨hs, -⟩
        exact hnone _ hs
      · rintro (- | ⟨hs, -⟩)
        · rfl
        · exact absurd hs (hnone _)
      · rintro rfl
        exact .fieldCount hnone
  | some complete =>
      have hs := Field.slots_of_complete? hc
      -- The values determine the slots.
      have hsame : ∀ slots, Slots kind.layout values slots → slots = kind.layout.zip complete := by
        intro slots hslots
        obtain ⟨other, hother, rfl⟩ := Field.complete?_of_slots hslots
        rw [hother] at hc
        rw [Option.some.inj hc]
      have hslot : ∀ slot ∈ kind.layout.zip complete, Decided (slot.1.check kind slot.2)
          (slot.1.Holds slot.2) (slot.1.kept slot.2) (slot.1.Faulty kind slot.2) := fun slot hmem =>
        Field.decided_check (optional_of_many (List.of_mem_zip hmem).1)
      have hfields := decided_mapM hslot
      dsimp only
      rw [checkFields_eq_mapM, ← Field.map_kept_of_slots hs]
      refine (hfields.map (Tree.node kind)).congr ⟨.intro hs, ?_⟩ fun fault => ⟨.field hs, ?_⟩
      · rintro ⟨ho, h⟩
        rwa [← hsame _ ho]
      · rintro (hnone | ⟨ho, h⟩)
        · exact absurd hs (hnone _)
        · rwa [← hsame _ ho]

end NodeKind

end LoxLang
