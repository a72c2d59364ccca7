/-
Checking trees.

A tree is built from its leaves up: first the fields of a node, from left to right, and then the
node itself, which checks its fields in order against its row of the table.  So the first fault
found is that of the first faulty node among children before parents, and in that node of its first
faulty field.  A text stands for the sequence of its characters where a sequence is asked for.

Main definitions:

* `LoxLang.ConstructionFault` — why a node cannot be built;
* `LoxLang.Tree.fits` — a single value has a shape;
* `LoxLang.Field.check` — a value checked against a field;
* `LoxLang.NodeKind.build` — a node from the values of its fields;
* `LoxLang.Tree.construct` — the tree as built.
-/

import LoxLang.Syntax.Tree

set_option relaxedAutoImplicit false
set_option autoImplicit false

namespace LoxLang

/-! ### Faults -/

/-- Why a node of some kind cannot be built. -/
inductive ConstructionFault where
  | required (kind : NodeKind) (field : Field)
  | wrongShape (kind : NodeKind) (field : Field) (sort : String)
  | notSequence (kind : NodeKind) (field : Field)
  /-- The number of values is not that of the fields of the kind.  The call that would make the node
  fails, before any field is checked. -/
  | fieldCount (kind : NodeKind)
  deriving DecidableEq, Repr

/-- The wording of a fault.  The checks of fields word theirs; a call with the wrong number of values
never gets to them, and has no wording here. -/
def ConstructionFault.message : ConstructionFault → String
  | .required kind field => s!"{kind.title}.{field.name} is required"
  | .wrongShape kind field sort =>
      s!"{kind.title}.{field.name} must be of type {field.shape.name}, got {sort}"
  | .notSequence kind field =>
      s!"{kind.title}.{field.name} must be a sequence of {field.shape.name}"
  | .fieldCount _ => ""

/-! ### Checking a field -/

/-- The value has the shape; every value is an object. -/
def Tree.fits (shape : Shape) : Tree → Bool
  | .absent => false
  | .leaf _ => shape == .object
  | .seq _ => shape == .object
  | .token _ => shape == .object || shape == .token
  | .node kind _ =>
      match shape with
      | .object => true
      | .expr => kind.category == .expr
      | .stmt => kind.category == .stmt
      | .token => false

/-- Check a single value against a field of a kind. -/
def Field.checkOne (kind : NodeKind) (field : Field) : Tree → Except ConstructionFault Unit
  | .absent => if field.optional then .ok () else .error (.required kind field)
  | value =>
      if value.fits field.shape then .ok () else .error (.wrongShape kind field value.sort)

/-- The items of a value that can stand for a sequence. -/
def Tree.items? : Tree → Option (List Tree)
  | .seq items => some items
  | .leaf (.text text) => some (text.toList.map fun c => .leaf (.text (String.singleton c)))
  | _ => none

/-- Check the values of a sequence against a field of a kind. -/
def Field.checkEach (kind : NodeKind) (field : Field) : List Tree → Except ConstructionFault Unit
  | [] => .ok ()
  | value :: values =>
      match field.checkOne kind value with
      | .ok () => field.checkEach kind values
      | .error fault => .error fault

/-- No value is given. -/
def Tree.isAbsent : Tree → Bool
  | .absent => true
  | _ => false

/-- Check a value against a field of a kind, and answer the value that the node keeps.  A sequence that
may be left out is kept as it is if it is; the table has no such field. -/
def Field.check (kind : NodeKind) (field : Field) (value : Tree) :
    Except ConstructionFault Tree :=
  if field.many then
    if value.isAbsent && field.optional then
      .ok value
    else
      match value.items? with
      | none => .error (.notSequence kind field)
      | some items => (field.checkEach kind items).map fun _ => .seq items
  else
    (field.checkOne kind value).map fun _ => value

/-- The values of all fields, with those that are missing at the end left out; none if there are
too many values, or too few. -/
def Field.complete? : List Field → List Tree → Option (List Tree)
  | [], [] => some []
  | [], _ :: _ => none
  | field :: fields, [] =>
      if field.optional then (Field.complete? fields []).map (.absent :: ·) else none
  | _ :: fields, value :: values => (Field.complete? fields values).map (value :: ·)

/-- Check values against the fields of a kind in order. -/
def NodeKind.checkFields (kind : NodeKind) :
    List Field → List Tree → Except ConstructionFault (List Tree)
  | field :: fields, value :: values =>
      match field.check kind value with
      | .error fault => .error fault
      | .ok kept => (kind.checkFields fields values).map (kept :: ·)
  | _, _ => .ok []

/-- The node of a kind with the given values. -/
def NodeKind.build (kind : NodeKind) (values : List Tree) : Except ConstructionFault Tree :=
  match Field.complete? kind.layout values with
  | none => .error (.fieldCount kind)
  | some complete => (kind.checkFields kind.layout complete).map (.node kind)

/-! ### Building a tree -/

mutual

/-- Build a tree from its leaves up. -/
def Tree.construct : Tree → Except ConstructionFault Tree
  | .seq items => (Tree.constructAll items).map .seq
  | .node kind fields =>
      match Tree.constructAll fields with
      | .error fault => .error fault
      | .ok values => kind.build values
  | tree => .ok tree

/-- Build trees from left to right. -/
def Tree.constructAll : List Tree → Except ConstructionFault (List Tree)
  | [] => .ok []
  | tree :: trees =>
      match tree.construct with
      | .error fault => .error fault
      | .ok built => (Tree.constructAll trees).map (built :: ·)

end

end LoxLang
