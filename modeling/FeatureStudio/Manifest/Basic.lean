/-
  FeatureStudio.Manifest.Basic: what a manifest says.

  A manifest describes one feature studio: its imports, the documents they may name, enumerations,
  bound specs, lookup functions, the parameters of the dialog and the feature.
-/
import FeatureStudio.Enumeration.Builder
import FeatureStudio.Import
import FeatureStudio.Render.Context

namespace FeatureStudio

/-! ## §1. Sections. -/

/-- The settings of the studio. -/
structure StudioSettings where
  /-- The name of the file. -/
  name : String
  /-- The version of the standard library. -/
  stdVersion : String
  indent : Indent
  deriving DecidableEq, Repr

/-- An import: a studio of the standard library, a studio of a document, or a path. -/
structure ImportEntry where
  studio : Option String
  document : Option String
  path : Option String
  version : Option String
  exported : Bool
  deriving DecidableEq, Repr

/-- A value of an enumeration. -/
structure EnumValueEntry where
  value : String
  /-- The label shown in the dialog. -/
  name : Option String
  /-- What lookup functions return for the value. -/
  lookup : Option String
  hidden : Bool
  /-- Whether the value has a companion predicate, if not as the enumeration says. -/
  predicate : Option Bool
  deriving DecidableEq, Repr

/-- An enumeration. -/
structure EnumEntry where
  name : String
  /-- The field of `definition` that holds it. -/
  parameter : Option String
  predicates : Bool
  predicateTemplate : Option String
  labelled : Bool
  isPrivate : Bool
  /-- Whether there is a custom value, after all others. -/
  custom : Bool
  customLookup : Option String
  values : List EnumValueEntry
  deriving DecidableEq, Repr

/-- A bound spec. -/
structure BoundEntry where
  name : String
  kind : BoundKind
  min : Option Decimal.Binary64
  default : Option Decimal.Binary64
  max : Option Decimal.Binary64
  units : List (MeasureUnit × Decimal.Binary64)
  isPrivate : Bool
  deriving DecidableEq, Repr

/-- A function from the values of an enumeration to their lookup expressions. -/
structure LookupEntry where
  name : String
  enumName : String
  returns : Option String
  deriving DecidableEq, Repr

/-- The feature. -/
structure FeatureEntry where
  title : String
  description : Option String
  filterSelectors : List String
  deriving DecidableEq, Repr

/-! ## §2. Parameters. -/

/-- How the values of an enumeration are offered. -/
inductive ChoiceStyle where
  | dropdown | labeled | horizontal
  deriving DecidableEq, Repr

/-- What the dialog shows beside a parameter. -/
structure ParameterLabels where
  name : Option String
  description : Option String
  deriving DecidableEq, Repr

/-- A parameter, or a group of them.  The last text is the condition under which it is there. -/
inductive ParameterEntry where
  /-- A checkbox, or an arrow that flips a direction. -/
  | boolean (flip : Bool) (name : String) (labels : ParameterLabels) (default : Bool)
      (when : Option String)
  | choice (enumName : String) (labels : ParameterLabels) (default : Option String)
      (style : ChoiceStyle) (when : Option String)
  | value (kind : BoundKind) (name : String) (bounds : Option String) (labels : ParameterLabels)
      (when : Option String)
  | query (name filter : String) (maxPicks : Option Nat) (labels : ParameterLabels)
      (when : Option String)
  | group (name : String) (collapsed : Bool) (parameters : List ParameterEntry)
      (when : Option String)
  /-- A group that the checkbox `name` shows. -/
  | drivenGroup (name : String) (groupName description : Option String) (collapsed : Bool)
      (parameters : List ParameterEntry) (when : Option String)

namespace ParameterEntry

/-- The condition under which the parameter is there. -/
def when : ParameterEntry → Option String
  | .boolean _ _ _ _ w | .choice _ _ _ _ w | .value _ _ _ _ w | .query _ _ _ _ w
  | .group _ _ _ w | .drivenGroup _ _ _ _ _ w => w

mutual

/-- The conditions of a parameter and of those in its group, the group before them. -/
def whens : ParameterEntry → List (Option String)
  | .group _ _ ps w | .drivenGroup _ _ _ _ ps w => w :: allWhens ps
  | .boolean _ _ _ _ w | .choice _ _ _ _ w | .value _ _ _ _ w | .query _ _ _ _ w => [w]

/-- The conditions of several parameters. -/
def allWhens : List ParameterEntry → List (Option String)
  | [] => []
  | p :: rest => p.whens ++ allWhens rest

end

mutual

/-- The number of fields of `definition` that a parameter or group declares. -/
def size : ParameterEntry → Nat
  | .group _ _ ps _ => sizes ps
  | .drivenGroup _ _ _ _ ps _ => 1 + sizes ps
  | .boolean .. | .choice .. | .value .. | .query .. => 1

/-- The number of fields of `definition` that several parameters declare. -/
def sizes : List ParameterEntry → Nat
  | [] => 0
  | p :: rest => p.size + sizes rest

end

end ParameterEntry

/-- The dialog of the feature. -/
structure UiEntry where
  /-- The name of the feature. -/
  name : String
  parameters : List ParameterEntry

/-! ## §3. Manifests. -/

/-- A manifest. -/
structure Manifest where
  studio : StudioSettings
  imports : List ImportEntry
  documents : DocumentTable
  enums : List EnumEntry
  bounds : List BoundEntry
  lookups : List LookupEntry
  ui : Option UiEntry
  feature : Option FeatureEntry

namespace EnumEntry

/-- The tokens of the values, in order. -/
def tokens (e : EnumEntry) : List String :=
  e.values.map (fun v => Text.upper v.value)
    ++ if e.custom then [Enumeration.customToken] else []

/-- Whether some value has the token that `text` is in capitals. -/
def hasValue (e : EnumEntry) (text : String) : Bool := e.tokens.contains (Text.upper text)

/-- The template for the names of companion predicates. -/
def template (e : EnumEntry) : String := e.predicateTemplate.getD NameTemplate.standard

/-- The tokens of the values with a companion predicate. -/
def predicateTokens (e : EnumEntry) : List String :=
  (e.values.filter fun v => v.predicate.getD e.predicates).map (fun v => Text.upper v.value)
    ++ if e.custom && e.predicates then [Enumeration.customToken] else []

/-- The names of the companion predicates; a template that is not well formed gives none. -/
def predicateNames (e : EnumEntry) : List String :=
  e.predicateTokens.filterMap fun token => (NameTemplate.expand e.template e.name token).toOption

end EnumEntry

namespace Manifest

/-- The enumeration of the given name. -/
def enum? (m : Manifest) (name : String) : Option EnumEntry := m.enums.find? (·.name = name)

/-- The bound spec of the given name. -/
def bounds? (m : Manifest) (name : String) : Option BoundEntry := m.bounds.find? (·.name = name)

/-- The names that the studio declares, every enumeration followed by its predicates. -/
def declaredNames (m : Manifest) : List String :=
  m.enums.flatMap (fun e => e.name :: e.predicateNames)
    ++ m.bounds.map BoundEntry.name ++ m.lookups.map LookupEntry.name
    ++ m.ui.toList.map UiEntry.name

/-- The parameters of the dialog. -/
def parameters (m : Manifest) : List ParameterEntry := (m.ui.map UiEntry.parameters).getD []

/-- The documents that imports are looked up in: those that list a studio. -/
def resolver (m : Manifest) : DocumentTable :=
  m.documents.foldl (fun table (document, studios) =>
    studios.foldl (fun table (studio, target) => table.insert document studio target) table) []

end Manifest

end FeatureStudio
