/-
  FeatureStudio.Dialog.Parameter: the parameters of the feature dialog.

  A group may be shown while a checkbox is checked.  The checkbox comes first, then the group
  under the condition that it is checked.  With a further test the checkbox is shown only while
  the test holds, and the group also while it does not.
-/
import FeatureStudio.Dialog.Annotations
import FeatureStudio.Enumeration.Basic
import FeatureStudio.Script.Node

namespace FeatureStudio

/-! ## §1. What a query parameter lets the user select. -/

namespace Filter

/-- The standard filter conditions, family and member. -/
def standard : List String :=
  ["BodyType.SOLID", "BodyType.SHEET", "BodyType.WIRE", "BodyType.POINT",
   "BodyType.MATE_CONNECTOR", "BodyType.COMPOSITE",
   "EntityType.VERTEX", "EntityType.EDGE", "EntityType.FACE", "EntityType.BODY",
   "EdgeTopology.ONE_SIDED", "EdgeTopology.TWO_SIDED", "EdgeTopology.LAMINAR",
   "SketchObject.NO", "SketchObject.YES",
   "ConstructionObject.NO", "ConstructionObject.YES",
   "ModifiableEntityOnly.NO", "ModifiableEntityOnly.YES"]

/-- Any vertex, also points of sketches and mate connectors. -/
def vertex : Expr :=
  (((Expr.token "EntityType.VERTEX").either (.token "BodyType.POINT")).either
    (.token "BodyType.MATE_CONNECTOR")).grouped

/-- The vertices of sketches. -/
def sketchVertex : Expr := (Expr.token "EntityType.VERTEX").both (.token "SketchObject.YES")

end Filter

/-! ## §2. Parameters. -/

/-- A parameter of the feature dialog. -/
structure DialogParameter where
  name : String
  declaration : ParameterDeclaration
  label : Option String := none
  hints : Option UiHints := none
  default : Option DefaultValue := none
  description : Option String := none
  filter : Option Expr := none
  maxPicks : Option Nat := none
  /-- The annotation, if it is not made from the rest. -/
  annotations : Option MapLiteral := none

namespace DialogParameter

/-! ## §3. Kinds of parameter. -/

/-- A parameter of the given type. -/
def typed (name typeName : String) : DialogParameter := { name, declaration := .typed typeName }

/-- A checkbox, unchecked by default. -/
def boolean (name : String) : DialogParameter :=
  { typed name "boolean" with
    default := some (.bool false)
    hints := some UiHints.rememberPreviousValue }

/-- The arrow that flips a direction. -/
def flip (name : String) : DialogParameter :=
  { boolean name with hints := some UiHints.oppositeDirection }

/-- The arrow that flips a direction of rotation. -/
def circularFlip (name : String) : DialogParameter :=
  { boolean name with hints := some UiHints.oppositeDirectionCircular }

/-- Adds hints to those that are there. -/
def addHints (p : DialogParameter) (hints : UiHints) : DialogParameter :=
  { p with hints := some (p.hints.getD 0#10 ||| hints) }

/-- A choice among the values of an enumeration, under the enumeration's parameter name. -/
def enumeration (e : Enumeration) : DialogParameter :=
  { typed e.parameterName e.name with hints := some UiHints.rememberPreviousValue }

/-- A choice among the values of an enumeration, shown with its label. -/
def labelledEnumeration (e : Enumeration) : DialogParameter :=
  (enumeration e).addHints UiHints.showLabel

/-- A choice among the values of an enumeration, shown as a row of buttons. -/
def horizontalEnumeration (e : Enumeration) : DialogParameter :=
  (enumeration e).addHints UiHints.horizontalEnum

/-- A length, angle, integer or real. -/
def value (kind : BoundKind) (name : String) : DialogParameter where
  name := name
  declaration := .bounded kind.parameterPredicate kind.defaultBounds
  hints := some UiHints.rememberExpression

/-- A selection of what the filter admits. -/
def query (name : String) (filter : Expr) : DialogParameter :=
  { typed name "Query" with filter := some filter }

/-! ## §4. Options. -/

/-- Replaces the bounds of a value parameter. -/
def withBounds (p : DialogParameter) (bounds : Bounds) : DialogParameter :=
  match p.declaration with
  | .typed _ => p
  | .bounded predicate _ => { p with declaration := .bounded predicate bounds }

/-- The field of `definition` that holds the parameter. -/
def definition (p : DialogParameter) : Expr := .definition p.name

/-- The annotation of the parameter. -/
def annotationLiteral (p : DialogParameter) : MapLiteral :=
  p.annotations.getD
    { label := p.label.getD (Text.nameLabel p.name)
      default := p.default
      hints := p.hints
      filter := p.filter
      maxPicks := p.maxPicks
      description := p.description : ParameterAnnotations }.literal

/-- The parameter as a node. -/
def node (p : DialogParameter) : Node := .uiParameter p.name p.annotationLiteral p.declaration

end DialogParameter

/-! ## §5. Groups shown while a checkbox is checked. -/

/-- A group of parameters with the checkbox that shows it. -/
structure DrivenGroup where
  boolean : DialogParameter
  header : GroupHeader
  test : Option Expr := none
  body : List Node := []

namespace DrivenGroup

/-- The group driven by the parameter `name`, whose label it takes. -/
def ofParameter (name : String) : DrivenGroup where
  boolean := .boolean name
  header := { name := Text.nameLabel name, keepCase := true, driving := some name }

/-- The group under a condition. -/
def groupWhen (g : DrivenGroup) (test : Expr) : Node :=
  IfChain.node { test, body := [.group g.header g.body] }

/-- The checkbox and the group as a node. -/
def node (g : DrivenGroup) : Node :=
  match g.test with
  | none => .sequence "\n" [g.boolean.node, g.groupWhen g.boolean.definition]
  | some test =>
    .sequence ""
      [IfChain.node { test, body := [g.boolean.node] },
        g.groupWhen (test.grouped.negated.either g.boolean.definition)]

end DrivenGroup

end FeatureStudio
