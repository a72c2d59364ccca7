/-
**A tree is built if each of its nodes conforms.**

A tree is built from its leaves up, so the node that is at fault is the first faulty one in the order of
children before parents, from left to right.  Building a value changes nothing that the check of the node
around it looks at; so each node can be judged by the values that it was given.  What is built has the same
fields, with a sequence for each text that stood for one, and every node of it can be printed.

* `LoxLang.Tree.nodes`, `LoxLang.Tree.frozen` — the nodes of a tree in order, and the tree as built;
* `LoxLang.Tree.decided_construct` — **building a tree**, by induction on it;
* `LoxLang.NodeKind.shown_render`, `LoxLang.Tree.nodesShown` — **a node that is built can be printed**;
* `LoxLang.Tree.construct_exact` — both together.
-/

import Mathlib.Data.List.Forall2
import LoxLang.Proofs.Syntax.ConstructionFaults
import LoxLang.Syntax.Printer

set_option relaxedAutoImplicit false
set_option autoImplicit false

namespace LoxLang

/-! ### The nodes of a tree -/

/-- A node before it is checked: its kind and the values it is given. -/
structure RawNode where
  kind : NodeKind
  values : List Tree

namespace RawNode

/-- The values are what the row of the kind asks for. -/
def Conforms (node : RawNode) : Prop := node.kind.Conforms node.values

/-- What is wrong with the values. -/
def Faulty (node : RawNode) (fault : ConstructionFault) : Prop := node.kind.Faulty node.values fault

end RawNode

namespace Tree

mutual

/-- The nodes of a tree: children before parents, from left to right. -/
def nodes : Tree → List RawNode
  | .seq items => nodesAll items
  | .node kind fields => nodesAll fields ++ [⟨kind, fields⟩]
  | _ => []

/-- The nodes of trees, from left to right. -/
def nodesAll : List Tree → List RawNode
  | [] => []
  | tree :: trees => tree.nodes ++ nodesAll trees

end

mutual

/-- The tree as built: a field that is left out is absent, and a text is its characters where it stands for
a sequence. -/
def frozen : Tree → Tree
  | .seq items => .seq (frozenAll items)
  | .node kind fields => .node kind (Field.keptAll kind.layout (frozenAll fields))
  | tree => tree

/-- Trees as built. -/
def frozenAll : List Tree → List Tree
  | [] => []
  | tree :: trees => tree.frozen :: frozenAll trees

end

theorem frozenAll_eq_map (trees : List Tree) : frozenAll trees = trees.map frozen := by
  induction trees with
  | nil => rw [frozenAll, List.map_nil]
  | cons tree trees ih => rw [frozenAll, ih, List.map_cons]

theorem mem_nodesAll {node : RawNode} {trees : List Tree} :
    node ∈ nodesAll trees ↔ ∃ tree ∈ trees, node ∈ tree.nodes := by
  induction trees with
  | nil => simp [nodesAll]
  | cons tree trees ih => simp [nodesAll, ih]

/-! ### What the check of a node looks at -/

section

variable {value : Tree}

theorem frozen_leaf (literal : Literal) : (leaf literal).frozen = .leaf literal := by
  rw [frozen] <;> nofun

theorem frozen_eq_absent : value.frozen = .absent ↔ value = .absent := by
  cases value <;> simp [frozen]

theorem sort_frozen : value.frozen.sort = value.sort := by
  cases value <;> simp [frozen, sort]

theorem hasShape_frozen {shape : Shape} : HasShape shape value.frozen ↔ HasShape shape value := by
  rw [← fits_iff, ← fits_iff]
  cases value <;> simp [frozen, fits]

theorem items?_frozen : value.frozen.items? = value.items?.map fun items => items.map frozen := by
  cases value with
  | seq items => simp [frozen, items?, frozenAll_eq_map]
  | leaf literal =>
      rw [frozen_leaf]
      cases literal with
      | text text => simp [items?, frozen_leaf]
      | _ => rfl
  | _ => simp [frozen, items?]

theorem exists_lists_frozen {p : List Tree → Prop} :
    (∃ others, value.frozen.Lists others ∧ p others) ↔
      ∃ items, value.Lists items ∧ p (items.map frozen) := by
  simp only [lists_iff, items?_frozen, Option.map_eq_some_iff]
  constructor
  · rintro ⟨others, ⟨items, hitems, rfl⟩, h⟩
    exact ⟨items, hitems, h⟩
  · rintro ⟨items, hitems, h⟩
    exact ⟨_, ⟨items, hitems, rfl⟩, h⟩

theorem not_lists_frozen :
    (∀ items, ¬ value.frozen.Lists items) ↔ ∀ items, ¬ value.Lists items := by
  simp [lists_iff, items?_frozen]

end

end Tree

namespace Field

variable {kind : NodeKind} {field : Field} {value : Tree} {fault : ConstructionFault}

theorem admits_frozen : field.Admits value.frozen ↔ field.Admits value := by
  rw [Admits, Admits, Tree.frozen_eq_absent, Tree.hasShape_frozen]

theorem refuses_frozen : field.Refuses kind value.frozen fault ↔ field.Refuses kind value fault := by
  rw [refuses_iff, refuses_iff, ne_eq, Tree.frozen_eq_absent, Tree.hasShape_frozen, Tree.sort_frozen]

theorem holds_frozen : field.Holds value.frozen ↔ field.Holds value := by
  cases hm : field.many with
  | false => rw [holds_single_iff hm, holds_single_iff hm, admits_frozen]
  | true =>
      rw [holds_sequence_iff hm, holds_sequence_iff hm, Tree.exists_lists_frozen]
      simp only [List.forall_mem_map, Tree.hasShape_frozen]

theorem faulty_frozen : field.Faulty kind value.frozen fault ↔ field.Faulty kind value fault := by
  cases hm : field.many with
  | false => rw [faulty_single_iff hm, faulty_single_iff hm, refuses_frozen]
  | true =>
      have hfirst : ∀ items : List Tree,
          First (HasShape field.shape) (field.Refuses kind) (items.map Tree.frozen) fault ↔
            First (HasShape field.shape) (field.Refuses kind) items fault := fun items =>
        first_map_iff.trans (first_congr (fun _ => Tree.hasShape_frozen) fun _ => refuses_frozen)
      rw [faulty_sequence_iff hm, faulty_sequence_iff hm, Tree.not_lists_frozen,
        Tree.exists_lists_frozen]
      simp only [hfirst]

/-- The value of a slot as built. -/
def frozenSlot (slot : Field × Tree) : Field × Tree := (slot.1, slot.2.frozen)

theorem slots_frozen {fields : List Field} {values : List Tree} {others : List (Field × Tree)} :
    Slots fields (values.map Tree.frozen) others ↔
      ∃ slots, Slots fields values slots ∧ slots.map frozenSlot = others := by
  constructor
  · intro h
    generalize hv : values.map Tree.frozen = built at h
    induction h generalizing values with
    | nil =>
        rw [List.map_eq_nil_iff] at hv
        subst hv
        exact ⟨[], .nil, rfl⟩
    | given h ih =>
        obtain ⟨value, rest, rfl, rfl, rfl⟩ := List.map_eq_cons_iff.1 hv
        obtain ⟨slots, hs, rfl⟩ := ih rfl
        exact ⟨_, .given hs, rfl⟩
    | missing ho h ih =>
        rw [List.map_eq_nil_iff] at hv
        subst hv
        obtain ⟨slots, hs, rfl⟩ := ih List.map_nil
        exact ⟨_, .missing ho hs, rfl⟩
  · rintro ⟨slots, hs, rfl⟩
    induction hs with
    | nil => exact .nil
    | given hs ih => exact .given ih
    | missing ho hs ih => exact .missing ho ih

end Field

namespace NodeKind

variable {kind : NodeKind} {values : List Tree} {fault : ConstructionFault}

/-- A node conforms with the values that it is given exactly if it does with these as built. -/
theorem conforms_frozen : kind.Conforms (Tree.frozenAll values) ↔ kind.Conforms values := by
  rw [Tree.frozenAll_eq_map]
  constructor
  · rintro ⟨hbuilt, h⟩
    obtain ⟨slots, hs, rfl⟩ := Field.slots_frozen.1 hbuilt
    refine ⟨hs, fun slot hslot => ?_⟩
    exact Field.holds_frozen.1 (h _ (List.mem_map_of_mem hslot))
  · rintro ⟨hs, h⟩
    refine ⟨Field.slots_frozen.2 ⟨_, hs, rfl⟩, ?_⟩
    rw [List.forall_mem_map]
    exact fun slot hslot => Field.holds_frozen.2 (h slot hslot)

theorem faulty_frozen : kind.Faulty (Tree.frozenAll values) fault ↔ kind.Faulty values fault := by
  have hfirst : ∀ slots : List (Field × Tree),
      First (fun slot => slot.1.Holds slot.2) (fun slot => slot.1.Faulty kind slot.2)
          (slots.map Field.frozenSlot) fault ↔
        First (fun slot => slot.1.Holds slot.2) (fun slot => slot.1.Faulty kind slot.2) slots fault :=
    fun slots => first_map_iff.trans
      (first_congr (fun _ => Field.holds_frozen) fun _ => Field.faulty_frozen)
  rw [Tree.frozenAll_eq_map]
  constructor
  · rintro (hnone | ⟨hbuilt, h⟩)
    · exact .fieldCount fun slots hs => hnone _ (Field.slots_frozen.2 ⟨slots, hs, rfl⟩)
    · obtain ⟨slots, hs, rfl⟩ := Field.slots_frozen.1 hbuilt
      exact .field hs ((hfirst slots).1 h)
  · rintro (hnone | ⟨hs, h⟩)
    · refine .fieldCount fun others hbuilt => ?_
      obtain ⟨slots, hs, -⟩ := Field.slots_frozen.1 hbuilt
      exact hnone slots hs
    · exact .field (Field.slots_frozen.2 ⟨_, hs, rfl⟩) ((hfirst _).2 h)

end NodeKind

/-! ### Building trees -/

namespace Tree

theorem construct_node (kind : NodeKind) (fields : List Tree) :
    (node kind fields).construct = (constructAll fields).bind kind.build := by
  rw [construct]
  cases constructAll fields with
  | ok values => rfl
  | error fault => rfl

theorem constructAll_cons (tree : Tree) (trees : List Tree) :
    constructAll (tree :: trees) =
      tree.construct.bind fun built => (constructAll trees).map (built :: ·) := by
  rw [constructAll]
  cases tree.construct with
  | ok built => rfl
  | error fault => rfl

/-- The tree has no nodes, and is built as it is. -/
theorem decided_of_nodes {tree : Tree} (h : tree.nodes = []) :
    Decided (.ok tree) (∀ node ∈ tree.nodes, node.Conforms) tree
      (First RawNode.Conforms RawNode.Faulty tree.nodes) := by
  rw [h]
  exact .of_ok (by simp) fun fault => by simp [first_nil_iff]

mutual

/-- **Building a tree** comes to its first faulty node, and to the tree as built if there is none. -/
theorem decided_construct : ∀ tree : Tree,
    Decided tree.construct (∀ node ∈ tree.nodes, node.Conforms) tree.frozen
      (First RawNode.Conforms RawNode.Faulty tree.nodes)
  | .absent => decided_of_nodes rfl
  | .leaf _ => decided_of_nodes rfl
  | .token _ => decided_of_nodes rfl
  | .seq items => (decided_constructAll items).map Tree.seq
  | .node kind fields => by
      -- The node itself is judged by the values as built, which it conforms with alike.
      have hnode : Decided (kind.build (frozenAll fields)) (kind.Conforms fields)
          (node kind (Field.keptAll kind.layout (frozenAll fields))) (kind.Faulty fields) :=
        NodeKind.decided_build.congr NodeKind.conforms_frozen fun fault => NodeKind.faulty_frozen
      rw [construct_node]
      refine ((decided_constructAll fields).bind hnode).congr ?_ fun fault => ?_
      · simp [nodes, or_imp, forall_and, RawNode.Conforms]
      · rw [nodes, first_append_iff, first_cons_iff]
        simp [first_nil_iff, RawNode.Faulty]

/-- Building trees, from left to right. -/
theorem decided_constructAll : ∀ trees : List Tree,
    Decided (constructAll trees) (∀ node ∈ nodesAll trees, node.Conforms) (frozenAll trees)
      (First RawNode.Conforms RawNode.Faulty (nodesAll trees))
  | [] => .of_ok (by simp [nodesAll]) fun fault => by simp [nodesAll, first_nil_iff]
  | tree :: trees => by
      rw [constructAll_cons]
      refine ((decided_construct tree).bind
        ((decided_constructAll trees).map (tree.frozen :: ·))).congr ?_ fun fault => ?_
      · simp [nodesAll, or_imp, forall_and]
      · rw [nodesAll, first_append_iff]

end

end Tree

/-! ### Printing what is built -/

section

variable {α β : Type}

/-- The result is not the fault of a value that is no node. -/
def Shown (result : Except PrintFault α) : Prop := ∀ sort, result ≠ .error (.notNode sort)

theorem shown_ok (value : α) : Shown (.ok value) := fun _ h => nomatch h

theorem Shown.bind {result : Except PrintFault α} {next : α → Except PrintFault β}
    (h : Shown result) (hnext : ∀ value, Shown (next value)) : Shown (result >>= next) := by
  cases result with
  | ok value => exact hnext value
  | error fault =>
      rintro sort hsort
      cases hsort
      exact h sort rfl

theorem shown_dumped (text : Option String) : Shown (dumped text) := by
  cases text with
  | some text => exact shown_ok text
  | none => exact fun _ h => nomatch h

end

theorem Literal.shown_render (literal : Literal) : Shown literal.render := by
  cases literal with
  | number n => exact shown_dumped (Literal.number n).dump?
  | stub f => exact shown_dumped (Literal.stub f).dump?
  | _ => exact shown_ok _

theorem Tree.shown_renderAll {trees : List Tree} (h : ∀ tree ∈ trees, Shown tree.render) :
    Shown (Tree.renderAll trees) := by
  induction trees with
  | nil => exact shown_ok []
  | cons tree trees ih =>
      rw [Tree.renderAll]
      refine (h tree List.mem_cons_self).bind fun _ => ?_
      exact (ih fun other ho => h other (List.mem_cons_of_mem _ ho)).bind fun _ => shown_ok _

/-- The values of the shape are nodes. -/
def Shape.OfNodes (shape : Shape) : Prop := shape = .expr ∨ shape = .stmt

namespace Field

/-- The value is what the printer relies on in a node that keeps it in the field. -/
def Serves (field : Field) (kept : Tree) : Prop :=
  if field.many then
    ∃ items, kept = .seq items ∧ (field.shape.OfNodes → Shown (Tree.renderAll items))
  else
    kept = .absent ∧ field.optional = true ∨
      (field.shape.OfNodes → Shown kept.render) ∧
        (field.shape = .token → ∃ found, kept = .token found)

variable {name : String} {shape : Shape} {kept : Tree}

theorem serves_token (h : (one name .token).Serves kept) : ∃ found, kept = .token found := by
  simpa [Serves, one, Shape.OfNodes] using h

theorem serves_tokens (h : (several name .token).Serves kept) : ∃ items, kept = .seq items := by
  simpa [Serves, several, Shape.OfNodes] using h

theorem serves_node (hs : shape.OfNodes) (h : (one name shape).Serves kept) : Shown kept.render := by
  simp only [Serves, one, Bool.false_eq_true, and_false, false_or, if_false] at h
  exact h.1 hs

theorem serves_nodes (hs : shape.OfNodes) (h : (several name shape).Serves kept) :
    ∃ items, kept = .seq items ∧ Shown (Tree.renderAll items) := by
  simp only [Serves, several, if_true] at h
  obtain ⟨items, rfl, hitems⟩ := h
  exact ⟨items, rfl, hitems hs⟩

theorem serves_possible (hs : shape.OfNodes) (h : (possible name shape).Serves kept)
    (hne : kept ≠ .absent) : Shown kept.render := by
  simp only [Serves, possible, hne, Bool.false_eq_true, false_and, false_or, if_false] at h
  exact h.1 hs

end Field

/-- **A node whose values serve its fields can be printed.** -/
theorem NodeKind.shown_render {kind : NodeKind} {kept : List Tree}
    (h : List.Forall₂ Field.Serves kind.layout kept) : Shown (Tree.node kind kept).render := by
  have hexpr : Shape.expr.OfNodes := .inl rfl
  have hstmt : Shape.stmt.OfNodes := .inr rfl
  -- The row of the kind says how many values there are, and the parts are printed from left to right.
  cases kind <;> simp only [layout, List.forall₂_cons_left_iff, List.forall₂_nil_left_iff] at h
  case assign =>
    obtain ⟨_, _, hname, ⟨value, _, hvalue, rfl, rfl⟩, rfl⟩ := h
    obtain ⟨name, rfl⟩ := Field.serves_token hname
    rw [Tree.render]
    exact (Field.serves_node hexpr hvalue).bind fun _ => shown_ok _
  case binary | logical =>
    obtain ⟨left, _, hleft, ⟨_, _, hoperator, ⟨right, _, hright, rfl, rfl⟩, rfl⟩, rfl⟩ := h
    obtain ⟨operator, rfl⟩ := Field.serves_token hoperator
    rw [Tree.render]
    exact (Field.serves_node hexpr hleft).bind fun _ =>
      (Field.serves_node hexpr hright).bind fun _ => shown_ok _
  case call =>
    obtain ⟨callee, _, hcallee, ⟨_, _, hparen, ⟨_, _, hitems, rfl, rfl⟩, rfl⟩, rfl⟩ := h
    obtain ⟨paren, rfl⟩ := Field.serves_token hparen
    obtain ⟨items, rfl, harguments⟩ := Field.serves_nodes hexpr hitems
    rw [Tree.render]
    exact (Field.serves_node hexpr hcallee).bind fun _ => harguments.bind fun _ => shown_ok _
  case grouping | expression | print =>
    obtain ⟨inner, _, hinner, rfl, rfl⟩ := h
    rw [Tree.render]
    exact (Field.serves_node hexpr hinner).bind fun _ => shown_ok _
  case literal =>
    obtain ⟨value, _, -, rfl, rfl⟩ := h
    cases value with
    | leaf literal =>
        rw [Tree.render]
        exact literal.shown_render
    | _ => exact shown_dumped _
  case unary =>
    obtain ⟨_, _, hoperator, ⟨right, _, hright, rfl, rfl⟩, rfl⟩ := h
    obtain ⟨operator, rfl⟩ := Field.serves_token hoperator
    rw [Tree.render]
    exact (Field.serves_node hexpr hright).bind fun _ => shown_ok _
  case lookup =>
    obtain ⟨_, _, hname, rfl, rfl⟩ := h
    obtain ⟨name, rfl⟩ := Field.serves_token hname
    rw [Tree.render]
    exact shown_ok _
  case block =>
    obtain ⟨_, _, hitems, rfl, rfl⟩ := h
    obtain ⟨body, rfl, hbody⟩ := Field.serves_nodes hstmt hitems
    rw [Tree.render]
    exact hbody.bind fun _ => shown_ok _
  case function =>
    obtain ⟨_, _, hname, ⟨_, _, hparameters, ⟨_, _, hitems, rfl, rfl⟩, rfl⟩, rfl⟩ := h
    obtain ⟨name, rfl⟩ := Field.serves_token hname
    obtain ⟨parameters, rfl⟩ := Field.serves_tokens hparameters
    obtain ⟨body, rfl, hbody⟩ := Field.serves_nodes hstmt hitems
    rw [Tree.render]
    exact hbody.bind fun _ => shown_ok _
  case branch =>
    obtain ⟨condition, _, hcondition, ⟨thenBranch, _, hthen, ⟨elseBranch, _, helse, rfl, rfl⟩, rfl⟩,
      rfl⟩ := h
    by_cases habsent : elseBranch = .absent
    · subst habsent
      rw [Tree.render]
      exact (Field.serves_node hexpr hcondition).bind fun _ =>
        (Field.serves_node hstmt hthen).bind fun _ => shown_ok _
    · rw [Tree.render]
      · exact (Field.serves_node hexpr hcondition).bind fun _ =>
          (Field.serves_node hstmt hthen).bind fun _ =>
            (Field.serves_possible hstmt helse habsent).bind fun _ => shown_ok _
      · exact habsent
  case giveBack | declare =>
    obtain ⟨_, _, htoken, ⟨value, _, hvalue, rfl, rfl⟩, rfl⟩ := h
    obtain ⟨token, rfl⟩ := Field.serves_token htoken
    by_cases habsent : value = .absent
    · subst habsent
      exact shown_ok _
    · rw [Tree.render]
      · exact (Field.serves_possible hexpr hvalue habsent).bind fun _ => shown_ok _
      · exact habsent
  case loop =>
    obtain ⟨condition, _, hcondition, ⟨body, _, hbody, rfl, rfl⟩, rfl⟩ := h
    rw [Tree.render]
    exact (Field.serves_node hexpr hcondition).bind fun _ =>
      (Field.serves_node hstmt hbody).bind fun _ => shown_ok _

/-- The node as a tree. -/
def RawNode.tree (node : RawNode) : Tree := .node node.kind node.values

/-- All nodes of the value can be printed as built. -/
def Tree.NodesShown (value : Tree) : Prop := ∀ node ∈ value.nodes, Shown node.tree.frozen.render

namespace Tree

variable {value : Tree}

theorem NodesShown.shown (h : value.NodesShown) {shape : Shape} (hs : HasShape shape value)
    (hshape : shape.OfNodes) : Shown value.frozen.render := by
  cases hs with
  | object _ => simp [Shape.OfNodes] at hshape
  | token _ => simp [Shape.OfNodes] at hshape
  | @expr kind fields _ => exact h ⟨kind, fields⟩ (by simp [nodes])
  | @stmt kind fields _ => exact h ⟨kind, fields⟩ (by simp [nodes])

/-- The items of a sequence have no other nodes than it. -/
theorem NodesShown.of_lists (h : value.NodesShown) {items : List Tree} (hl : value.Lists items)
    {item : Tree} (hi : item ∈ items) : item.NodesShown := by
  intro node hnode
  cases hl with
  | items =>
      refine h node ?_
      rw [nodes]
      exact mem_nodesAll.2 ⟨item, hi, hnode⟩
  | characters text =>
      obtain ⟨c, -, rfl⟩ := List.mem_map.1 hi
      simp [nodes] at hnode

end Tree

namespace Field

variable {field : Field} {value : Tree}

theorem kept_frozen_of_lists (hm : field.many = true) {items : List Tree} (hl : value.Lists items) :
    field.kept value.frozen = .seq (items.map Tree.frozen) := by
  rw [kept, if_pos hm, Tree.items?_frozen, Tree.lists_iff.1 hl, Option.map_some, Option.getD_some]

/-- **What a field may hold serves the printer**, if the nodes in it do. -/
theorem serves_of_holds (h : field.Holds value) (hv : value.NodesShown) :
    field.Serves (field.kept value.frozen) := by
  cases h with
  | single hm h =>
      have hkept : field.kept value.frozen = value.frozen := by
        rw [kept, hm, if_neg Bool.false_ne_true]
      rw [hkept, Serves, hm, if_neg Bool.false_ne_true]
      rcases h with ⟨habsent, ho⟩ | h
      · exact .inl ⟨Tree.frozen_eq_absent.2 habsent, ho⟩
      · refine .inr ⟨hv.shown h, fun htoken => ?_⟩
        rw [htoken] at h
        cases h with
        | token found => exact ⟨found, rfl⟩
  | sequence hm hl h =>
      rw [kept_frozen_of_lists hm hl, Serves, if_pos hm]
      refine ⟨_, rfl, fun hshape => Tree.shown_renderAll ?_⟩
      rw [List.forall_mem_map]
      exact fun item hitem => (hv.of_lists hl hitem).shown (h item hitem) hshape

theorem map_fst_of_slots {fields : List Field} {values : List Tree} {slots : List (Field × Tree)}
    (h : Slots fields values slots) : slots.map Prod.fst = fields := by
  induction h with
  | nil => rfl
  | given h ih => rw [List.map_cons, ih]
  | missing ho h ih => rw [List.map_cons, ih]

theorem mem_of_slots {fields : List Field} {values : List Tree} {slots : List (Field × Tree)}
    (h : Slots fields values slots) {slot : Field × Tree} (hslot : slot ∈ slots) :
    slot.2 = .absent ∨ slot.2 ∈ values := by
  induction h with
  | nil => cases hslot
  | given h ih =>
      rcases List.mem_cons.1 hslot with rfl | hslot
      · exact .inr List.mem_cons_self
      · exact (ih hslot).imp_right (List.mem_cons_of_mem _)
  | missing ho h ih =>
      rcases List.mem_cons.1 hslot with rfl | hslot
      · exact .inl rfl
      · exact ih hslot

end Field

/-- A node that conforms can be printed as built, if the nodes in its values can. -/
theorem RawNode.shown_of_conforms {node : RawNode} (h : node.Conforms)
    (hv : ∀ value ∈ node.values, value.NodesShown) : Shown node.tree.frozen.render := by
  obtain ⟨hs, hholds⟩ := h
  rw [RawNode.tree, Tree.frozen, Tree.frozenAll_eq_map,
    ← Field.map_kept_of_slots (Field.slots_frozen.2 ⟨_, hs, rfl⟩), List.map_map]
  refine NodeKind.shown_render ?_
  rw [← Field.map_fst_of_slots hs, List.forall₂_map_left_iff, List.forall₂_map_right_iff,
    List.forall₂_same]
  intro slot hslot
  refine Field.serves_of_holds (hholds slot hslot) ?_
  rcases Field.mem_of_slots hs hslot with habsent | hmem
  · rw [habsent]
    intro node hnode
    simp [Tree.nodes] at hnode
  · exact hv _ hmem

namespace Tree

mutual

/-- **Every node of a tree of conforming nodes can be printed as built.** -/
theorem nodesShown : ∀ tree : Tree, (∀ node ∈ tree.nodes, node.Conforms) → tree.NodesShown
  | .absent, _ => by simp [NodesShown, nodes]
  | .leaf _, _ => by simp [NodesShown, nodes]
  | .token _, _ => by simp [NodesShown, nodes]
  | .seq items, h => fun node hnode => by
      rw [nodes] at h hnode
      obtain ⟨item, hitem, hmem⟩ := mem_nodesAll.1 hnode
      exact nodesShownAll items h item hitem node hmem
  | .node kind fields, h => fun node hnode => by
      rw [nodes, List.forall_mem_append] at h
      have hfields := nodesShownAll fields h.1
      rw [nodes, List.mem_append, List.mem_singleton] at hnode
      rcases hnode with hnode | rfl
      · obtain ⟨value, hvalue, hmem⟩ := mem_nodesAll.1 hnode
        exact hfields value hvalue node hmem
      · exact RawNode.shown_of_conforms (h.2 _ (List.mem_singleton_self _)) hfields

theorem nodesShownAll : ∀ trees : List Tree, (∀ node ∈ nodesAll trees, node.Conforms) →
    ∀ tree ∈ trees, tree.NodesShown
  | [], _ => by simp
  | tree :: trees, h => by
      rw [nodesAll, List.forall_mem_append] at h
      rw [List.forall_mem_cons]
      exact ⟨nodesShown tree h.1, nodesShownAll trees h.2⟩

end

/-- **Building is exact.**  A tree is built exactly if every node of it conforms, and what is built is the
tree as it is, with sequences for the texts that stand for them; it is refused for what is wrong with the
first node, children before parents, that does not; and a node that is built is never refused by the
printer as no node. -/
theorem construct_exact (tree : Tree) :
    ((∃ built, tree.construct = .ok built) ↔ ∀ node ∈ tree.nodes, node.Conforms) ∧
      (∀ built, tree.construct = .ok built → built = tree.frozen) ∧
      (∀ fault, tree.construct = .error fault ↔
        First RawNode.Conforms RawNode.Faulty tree.nodes fault) ∧
      ∀ kind fields, tree.construct = .ok (.node kind fields) → ∀ sort,
        (node kind fields).render ≠ .error (.notNode sort) := by
  have h := decided_construct tree
  refine ⟨?_, fun built hbuilt => ((h.ok built).1 hbuilt).2, h.error, ?_⟩
  · simp [h.ok]
  · intro kind fields hbuilt
    obtain ⟨hconforms, hfrozen⟩ := (h.ok _).1 hbuilt
    rw [hfrozen]
    -- Only a node is built as a node.
    have hnode : ∃ node : RawNode, node.tree = tree := by
      cases tree with
      | node kind values => exact ⟨⟨kind, values⟩, rfl⟩
      | _ => simp [frozen] at hfrozen
    obtain ⟨node, rfl⟩ := hnode
    exact nodesShown node.tree hconforms node (by simp [RawNode.tree, nodes])

/-- A block with a text for its statements, in which there are none. -/
def emptyBlock : Tree := .node .block [.leaf (.text "")]

/-- A name that is not there, in an operation that has a text for its left operand. -/
def twiceWrong : Tree :=
  .node .binary [.leaf (.text "x"), .token ⟨.plus, "+", none, 1⟩, .node .lookup [.absent]]

/-- The empty text is built as an empty sequence, and of two wrong nodes the child is refused. -/
theorem construct_exact_wrongAndRight :
    emptyBlock.construct = .ok (.node .block [.seq []]) ∧
      (∀ sort, (node .block [.seq []]).render ≠ .error (.notNode sort)) ∧
      twiceWrong.construct = .error (.required .lookup (.one "name" .token)) := by
  obtain ⟨hbuilds, hfrozen, -, hprinted⟩ := construct_exact emptyBlock
  have hconforms : ∀ node ∈ emptyBlock.nodes, node.Conforms := by
    intro node hnode
    cases List.mem_singleton.1 hnode
    refine .intro (.given .nil) ?_
    rw [List.forall_mem_singleton]
    exact .sequence rfl (.characters "") (by simp)
  obtain ⟨built, hbuilt⟩ := hbuilds.2 hconforms
  cases hfrozen built hbuilt
  refine ⟨hbuilt, hprinted _ _ hbuilt, ((construct_exact twiceWrong).2.2.1 _).2 (.here ?_)⟩
  exact .field (.given .nil) (.here (.single rfl (.required rfl)))

end Tree

end LoxLang
