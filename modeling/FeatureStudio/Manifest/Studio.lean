/-
  FeatureStudio.Manifest.Studio: the studio that a manifest describes.

  Declarations come in a fixed order: enumerations, bound specs, the UI predicate, the lookup
  functions and the feature.
-/
import FeatureStudio.Dialog.Parameter
import FeatureStudio.Manifest.Basic
import FeatureStudio.Manifest.Error
import FeatureStudio.Script.Studio

namespace FeatureStudio

/-! ## §1. Imports, enumerations and bounds. -/

/-- The import line. -/
def ImportEntry.importLine (i : ImportEntry) : Import :=
  let target : Import :=
    match i.document, i.path, i.studio with
    | some document, _, some studio =>
      match i.version with
      | some version => (Import.document document studio).withVersion version
      | none => .document document studio
    | none, some path, _ => .path path (i.version.getD emptyVersion)
    | _, _, studio => .std (studio.getD "")
  { target with exported := i.exported }

/-- What is said of a value when the enumeration is put together. -/
def EnumValueEntry.options (v : EnumValueEntry) : ValueOptions where
  label := v.name
  hidden := v.hidden
  lookup := v.lookup.map Expr.token
  predicate := v.predicate

namespace EnumEntry

/-- The enumeration with its values, without the custom one. -/
def builder (e : EnumEntry) : EnumBuilder :=
  e.values.foldl (fun b v => b.add v.value v.options)
    { name := e.name
      parameterName := e.parameter
      exported := !e.isPrivate
      labelled := e.labelled
      predicates := e.predicates
      template := e.template }

/-- The enumeration. -/
def enumeration (e : EnumEntry) : Except ManifestError Enumeration :=
  let built : Except UsageError Enumeration := do
    let b ←
      if e.custom then e.builder.addCustom { lookup := e.customLookup.map Expr.token }
      else .ok e.builder
    b.build
  built.mapError (.unbuildable ("enum '" ++ e.name ++ "'"))

end EnumEntry

/-- The bound spec. -/
def BoundEntry.spec (b : BoundEntry) : BoundSpec :=
  let standard := BoundSpec.standard b.kind b.name
  let spec : BoundSpec :=
    { standard with
      min := b.min.getD standard.min
      default := b.default.getD standard.default
      max := b.max.getD standard.max
      exported := !b.isPrivate }
  b.units.foldl (fun spec (unit, value) => spec.unitDefault unit value) spec

/-! ## §2. Parameters. -/

/-- What parameters can refer to. -/
structure Declared where
  enums : Keyed Enumeration
  bounds : Keyed BoundSpec

namespace Declared

/-- The enumeration of the given name. -/
def enum (d : Declared) (name : String) : Except ManifestError Enumeration :=
  match Keyed.get? d.enums name with
  | some e => .ok e
  | none => .error (.undeclared name)

/-- The bounds of the given name. -/
def boundsOf (d : Declared) (name : String) : Bounds :=
  match Keyed.get? d.bounds name with
  | some spec => .spec spec
  | none => .named name

/-- The test that a condition `Enum.VALUE` states. -/
def condition (d : Declared) (condition : String) : Except ManifestError Expr :=
  let (enumName, value) := (Text.splitOnce '.' condition).getD (condition, "")
  match d.enum enumName with
  | .error error => .error error
  | .ok e =>
    match e.get? value with
    | some m => .ok m.call
    | none => .error (.undeclared condition)

/-- The node under its condition. -/
def guarded (d : Declared) (n : Node) : Option String → Except ManifestError Node
  | none => .ok n
  | some condition => (d.condition condition).map fun test => IfChain.node { test, body := [n] }

end Declared

/-- The parameter with the labels that are given. -/
def ParameterLabels.apply (l : ParameterLabels) (p : DialogParameter) : DialogParameter :=
  { p with label := l.name, description := l.description }

/-- The parameter for a choice among the values of an enumeration. -/
def ChoiceStyle.parameter : ChoiceStyle → Enumeration → DialogParameter
  | .dropdown => .enumeration
  | .labeled => .labelledEnumeration
  | .horizontal => .horizontalEnumeration

mutual

/-- The node of a parameter or group. -/
def ParameterEntry.node (d : Declared) : ParameterEntry → Except ManifestError Node
  | .boolean flip name labels default condition =>
    let p := labels.apply (if flip then .flip name else .boolean name)
    d.guarded { p with default := some (.bool default) : DialogParameter }.node condition
  | .choice enumName labels default style condition => do
    let p := labels.apply (style.parameter (← d.enum enumName))
    let default := default.map fun s => DefaultValue.text (Text.upper s)
    d.guarded { p with default := default : DialogParameter }.node condition
  | .value kind name bounds labels condition =>
    let p := labels.apply (.value kind name)
    let p := match bounds with
      | some bounds => p.withBounds (d.boundsOf bounds)
      | none => p
    d.guarded p.node condition
  | .query name filter maxPicks labels condition =>
    let p := labels.apply (.query name (.token filter))
    d.guarded { p with maxPicks := maxPicks : DialogParameter }.node condition
  | .group name collapsed parameters condition => do
    let body ← parameterNodes d parameters
    d.guarded (.group { name, collapsed } body) condition
  | .drivenGroup name groupName description collapsed parameters condition => do
    let body ← parameterNodes d parameters
    let g := DrivenGroup.ofParameter name
    let header := { g.header with name := groupName.getD g.header.name, collapsed }
    d.guarded { g with boolean := { g.boolean with description }, header, body }.node condition

/-- The nodes of parameters; the first that cannot be made is an error. -/
def parameterNodes (d : Declared) : List ParameterEntry → Except ManifestError (List Node)
  | [] => .ok []
  | p :: rest => do
    let n ← p.node d
    let ns ← parameterNodes d rest
    return n :: ns

end

/-! ## §3. Lookups and the feature. -/

/-- The lookup function. -/
def LookupEntry.function (l : LookupEntry) (d : Declared) : Except ManifestError Function := do
  let e ← d.enum l.enumName
  let f ← (e.lookupFunction l.name).mapError (.unbuildable ("lookup '" ++ l.name ++ "'"))
  return { f with returns := l.returns }

/-- The feature of the given name. -/
def FeatureEntry.feature (f : FeatureEntry) (name : String) : Feature :=
  .ofName name
    { title := f.title
      filterTags := f.filterSelectors
      description := f.description : FeatureAnnotations }.literal

/-! ## §4. The whole. -/

/-- A studio as text. -/
structure RenderedStudio where
  /-- The name of the file. -/
  name : String
  content : String
  diagnostics : List Diagnostic

namespace Manifest

/-- The studio that the manifest describes. -/
def toStudio (m : Manifest) : Except ManifestError Studio := do
  let imported := m.imports.foldl (fun s i => s.addImport i.importLine)
    (Studio.standard m.studio.name)
  let enums ← m.enums.mapM EnumEntry.enumeration
  let specs := m.bounds.map BoundEntry.spec
  let d : Declared :=
    { enums := Keyed.ofList ((m.enums.map EnumEntry.name).zip enums)
      bounds := Keyed.ofList ((m.bounds.map BoundEntry.name).zip specs) }
  let ui ← m.ui.toList.mapM fun ui => do
    return Node.uiPredicate ui.name (← parameterNodes d ui.parameters)
  let lookups ← m.lookups.mapM fun l => l.function d
  let features :=
    match m.ui, m.feature with
    | some ui, some feature => [(feature.feature ui.name).node]
    | _, _ => []
  return { imported with
    body := enums.map Enumeration.node ++ specs.map Node.boundSpec ++ ui
      ++ lookups.map Function.node ++ features }

/-- The context in which the studio is rendered. -/
def context (m : Manifest) : Context where
  stdVersion := m.studio.stdVersion
  indent := m.studio.indent
  documents := m.resolver

/-- The studio as text. -/
def render (m : Manifest) : Except ManifestError RenderedStudio := do
  let studio ← m.toStudio
  let (content, diagnostics) := studio.rendered m.context
  return { name := studio.name, content, diagnostics }

end Manifest

end FeatureStudio
