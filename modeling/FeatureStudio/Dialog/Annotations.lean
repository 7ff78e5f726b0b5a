/-
  FeatureStudio.Dialog.Annotations: the annotations of parameters and features.

  Texts are quoted in an annotation; truth values, lists, numbers, filters and descriptions are
  written as they are.  The hints that shape how the dialog shows a parameter are a word of ten
  bits, one for every hint in the order of declaration.
-/
import FeatureStudio.Script.Map
import FeatureStudio.Text.Basic

namespace FeatureStudio

/-! ## §1. Hints. -/

/-- A set of dialog hints. -/
abbrev UiHints := BitVec 10

namespace UiHints

/-- The names of the hints, in the order of their bits. -/
def flags : List String :=
  ["ALWAYS_HIDDEN", "READ_ONLY", "UNCONFIGURABLE", "REMEMBER_PREVIOUS_VALUE", "HORIZONTAL_ENUM",
   "SHOW_LABEL", "SHOW_EXPRESSION", "OPPOSITE_DIRECTION", "OPPOSITE_DIRECTION_CIRCULAR",
   "DISPLAY_SHORT"]

/-- The set of the hint with the given bit. -/
def ofBit (i : Nat) : UiHints := BitVec.twoPow 10 i

def rememberPreviousValue : UiHints := ofBit 3
def horizontalEnum : UiHints := ofBit 4
def showLabel : UiHints := ofBit 5
def oppositeDirection : UiHints := ofBit 7
def oppositeDirectionCircular : UiHints := ofBit 8

/-- The previous value is remembered, expressions included. -/
def rememberExpression : UiHints := rememberPreviousValue ||| ofBit 6

/-- The set with a name: a single hint, or the one for remembered expressions. -/
def ofName? (name : String) : Option UiHints :=
  if name = "REMEMBER_EXPRESSION" then some rememberExpression
  else (flags.findIdx? (· = name)).map ofBit

/-- The names of the hints in the set, in the order of their bits. -/
def names (h : UiHints) : List String :=
  (flags.zipIdx.filter fun (_, i) => h.getLsbD i).map Prod.fst

/-- The set as a list literal. -/
def literal (h : UiHints) : String :=
  "[" ++ ", ".intercalate (h.names.map Text.quote) ++ "]"

end UiHints

/-! ## §2. Defaults. -/

/-- A description as a literal of its own: every line is escaped by itself, and a line break is
`<br>` with the literal continued on the next line. -/
def describe (description : String) : String :=
  "\"" ++ "<br>\" ~\n\t\"".intercalate ((Text.split '\n' description).map Text.escape) ++ "\""

/-- An annotation of texts. -/
def annotationOfPairs (pairs : List (String × String)) : MapLiteral :=
  (MapBuilder.ofPairs (pairs.map fun (key, value) => (key, .token value))).quoteValues.literal

/-! ## §3. Parameters. -/

/-- The default value of a parameter. -/
inductive DefaultValue where
  | bool (b : Bool)
  | text (s : String)
  deriving DecidableEq, Repr

/-- The annotation of a parameter. -/
structure ParameterAnnotations where
  /-- The label in the dialog. -/
  label : String
  default : Option DefaultValue := none
  hints : Option UiHints := none
  filter : Option Expr := none
  maxPicks : Option Nat := none
  /-- Further texts, before the description. -/
  additional : List (String × String) := []
  description : Option String := none

namespace ParameterAnnotations

/-- Adds the default value. -/
def addDefault (m : MapBuilder) : Option DefaultValue → MapBuilder
  | none => m
  | some (.bool b) => m.bare "Default" (.bool b)
  | some (.text s) => m.text "Default" s

/-- Adds the hints; the empty set is not written. -/
def addHints (m : MapBuilder) : Option UiHints → MapBuilder
  | none => m
  | some hints => if hints = 0#10 then m else m.bare "UIHint" (.token hints.literal)

/-- Adds a value that is written as it is. -/
def addBare (m : MapBuilder) (key : String) : Option Expr → MapBuilder
  | none => m
  | some e => m.bare key e

/-- The annotation as a map literal. -/
def literal (a : ParameterAnnotations) : MapLiteral :=
  let m := MapBuilder.quoteValues {}
  let m := addHints (addDefault (m.text "Name" a.label) a.default) a.hints
  let m := addBare m "Filter" a.filter
  let m := addBare m "MaxNumberOfPicks" (a.maxPicks.map fun n => .token (toString n))
  let m := a.additional.foldl (fun m p => m.text p.1 p.2) m
  (addBare m "Description" (a.description.map fun d => .token (describe d))).literal

end ParameterAnnotations

/-! ## §4. Features. -/

/-- The annotation of a feature. -/
structure FeatureAnnotations where
  title : String
  /-- Tags by which the toolbar search finds the feature. -/
  filterTags : List String := []
  /-- Further texts, before the description. -/
  texts : List (String × String) := []
  description : Option String := none

/-- What a further text of a feature is for. -/
inductive FeatureText where
  | manipulatorChangeFunction
  | editingLogicFunction
  | icon
  | descriptionImage
  | tooltipTemplate
  | nameTemplate
  deriving DecidableEq, Repr

/-- The key that the text has. -/
def FeatureText.key : FeatureText → String
  | .manipulatorChangeFunction => "Manipulator Change Function"
  | .editingLogicFunction => "Editing Logic Function"
  | .icon => "Icon"
  | .descriptionImage => "Description Image"
  | .tooltipTemplate => "Tooltip Template"
  | .nameTemplate => "Feature Name Template"

namespace FeatureAnnotations

/-- Adds a further text. -/
def entry (a : FeatureAnnotations) (text : FeatureText) (value : String) : FeatureAnnotations :=
  { a with texts := a.texts ++ [(text.key, value)] }

/-- The annotation as a map literal. -/
def literal (a : FeatureAnnotations) : MapLiteral :=
  let m := (MapBuilder.quoteValues {}).block
  let m := (m.text "Feature Type Name" a.title).text "UIHint" "NO_PREVIEW_PROVIDED"
  let m :=
    if a.filterTags.isEmpty then m
    else
      m.bare "Filter Selector"
        (.token ("[" ++ ", ".intercalate (a.filterTags.map Text.quote) ++ "]"))
  let m := a.texts.foldl (fun m p => m.text p.1 p.2) m
  (ParameterAnnotations.addBare m "Feature Type Description"
    (a.description.map fun d => .token (describe d))).literal

end FeatureAnnotations

end FeatureStudio
