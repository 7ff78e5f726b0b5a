/-
  FeatureStudio.Manifest.Validation: the rules that a manifest keeps.

  The rules are checked in a fixed order, and the first that is broken is reported: the studio,
  the names, then the declarations section by section.
-/
import FeatureStudio.Manifest.Error
import FeatureStudio.Manifest.Studio

namespace FeatureStudio

open Manifest (Place)
open Manifest.Place (refuse)

/-- Checks one after the other; the first error counts. -/
def checkAll {α : Type} (check : α → Except ManifestError Unit) :
    List α → Except ManifestError Unit
  | [] => .ok ()
  | a :: rest =>
    match check a with
    | .error error => .error error
    | .ok () => checkAll check rest

/-- Refuses unless a condition holds; the error is made only then. -/
@[macro_inline]
def ensure (condition : Bool) (error : ManifestError) : Except ManifestError Unit :=
  if condition then .ok () else .error error

/-! ## §1. Declarations. -/

/-- Checks an import. -/
def ImportEntry.check (i : ImportEntry) (p : Place) : Except ManifestError Unit :=
  let refuse (violation : Violation) := refuse violation (p.find "[[imports]]")
  match i.studio, i.document, i.path with
  | _, some _, some _ => refuse .importAmbiguous
  | none, some _, none => refuse .importWithoutStudio
  | none, none, none => refuse .importWithoutTarget
  | some _, none, none => if i.version.isSome then refuse .importVersioned else .ok ()
  | _, _, _ => .ok ()

/-- Checks the studios that a document lists. -/
def checkDocument (document : String) (studios : Keyed ImportTarget) :
    Except ManifestError Unit :=
  ensure (!(Keyed.keys studios).contains "") (.invalid (.unnamedStudio document) none)

/-- Checks an enumeration. -/
def EnumEntry.check (p : Place) (e : EnumEntry) : Except ManifestError Unit := do
  p.checkName e.name "enum"
  checkAll (p.checkName · "enum parameter") e.parameter.toList
  ensure (!e.values.isEmpty || e.custom)
    (.invalid (.enumWithoutValues e.name) (p.findValue "name" e.name))
  checkAll
    (fun v => do
      (p.enter e.name).checkName v.value "enum value"
      ensure (!(e.custom && Text.sameIgnoringCase v.value Enumeration.customToken))
        (.invalid (.customListed e.name) (p.findValue "value" v.value)))
    e.values
  checkAll
    (fun template =>
      match NameTemplate.expand template e.name Enumeration.customToken with
      | .ok _ => .ok ()
      | .error error =>
        refuse (.template error) (p.findValue "predicate_template" template))
    e.predicateTemplate.toList

/-- The values that a bound spec gives, by their names. -/
def BoundEntry.given (b : BoundEntry) : List (String × Decimal.Binary64) :=
  [("min", b.min), ("default", b.default), ("max", b.max)].filterMap
      (fun (name, value) => value.map fun v => (name, v))
    ++ b.units.map fun (unit, value) => (unit.text, value)

/-- Checks a bound spec. -/
def BoundEntry.check (p : Place) (b : BoundEntry) : Except ManifestError Unit := do
  p.checkName b.name "bound spec"
  let span := p.findValue "name" b.name
  checkAll (fun (name, value) => ensure value.isFinite (.invalid (.notFinite b.name name value) span))
    b.given
  let spec := b.spec
  ensure (spec.min.le spec.default && spec.default.le spec.max)
    (.invalid (.rangeOrder b.name spec.min spec.default spec.max) span)
  checkAll (fun (unit, _) => ensure (b.kind.accepts unit) (.invalid (.unitMismatch unit b.kind) span))
    b.units

/-- The first value of an enumeration without a lookup expression. -/
def EnumEntry.missingLookup? (e : EnumEntry) : Option String :=
  ((e.values.find? (·.lookup.isNone)).map fun v => Text.upper v.value)
    <|> if e.custom && e.customLookup.isNone then some Enumeration.customToken else none

/-- Checks a lookup function. -/
def LookupEntry.check (p : Place) (m : Manifest) (l : LookupEntry) :
    Except ManifestError Unit := do
  p.checkName l.name "lookup"
  checkAll (p.checkName · "return type") l.returns.toList
  match m.enum? l.enumName with
  | none =>
    .error (.unknownEnum l.enumName ("lookup '" ++ l.name ++ "'") (p.findValue "enum" l.enumName))
  | some e =>
    match e.missingLookup? with
    | some token =>
      refuse (.lookupMissing l.name l.enumName token) (p.findValue "name" l.name)
    | none => .ok ()

/-! ## §2. Parameters. -/

/-- Checks a condition `Enum.VALUE`. -/
def checkCondition (p : Place) (m : Manifest) (condition : String) : Except ManifestError Unit :=
  let span := p.findValue "when" condition
  match Text.splitOnce '.' condition with
  | none => refuse (.conditionForm condition) span
  | some (enumName, value) =>
    match m.enum? enumName with
    | none => .error (.unknownEnum enumName ("condition '" ++ condition ++ "'") span)
    | some e => ensure (e.hasValue value) (.invalid (.notAValue value enumName) span)

/-- Checks a choice among the values of an enumeration. -/
def checkChoice (p : Place) (m : Manifest) (enumName : String) (default : Option String) :
    Except ManifestError Unit :=
  match m.enum? enumName with
  | none => .error (.unknownEnum enumName "an enum parameter" (p.findValue "enum" enumName))
  | some e =>
    checkAll
      (fun token =>
        ensure (e.hasValue token)
          (.invalid (.notAValue token enumName) (p.findValue "default" token)))
      default.toList

/-- Checks the bounds that a value parameter names. -/
def checkBounds (p : Place) (m : Manifest) (name : String) (kind : BoundKind) (bounds : String) :
    Except ManifestError Unit :=
  match m.bounds? bounds with
  | some b =>
    ensure (b.kind = kind)
      (.invalid (.kindMismatch name kind bounds b.kind) (p.findValue "bounds" bounds))
  | none => p.checkName bounds "bound spec"

mutual

/-- Checks a parameter; `nested` says whether it stands in a group. -/
def ParameterEntry.check (p : Place) (m : Manifest) (nested : Bool) :
    ParameterEntry → Except ManifestError Unit
  | .boolean _ name _ _ condition | .query name _ _ _ condition => do
    checkAll (checkCondition p m) condition.toList
    p.checkName name "parameter"
  | .choice enumName _ default _ condition => do
    checkAll (checkCondition p m) condition.toList
    checkChoice p m enumName default
  | .value kind name bounds _ condition => do
    checkAll (checkCondition p m) condition.toList
    p.checkName name "parameter"
    checkAll (checkBounds p m name kind) bounds.toList
  | .group _ _ parameters condition => do
    checkAll (checkCondition p m) condition.toList
    ensure (!nested) (.invalid .nestedGroup none)
    checkParameters p m true parameters
  | .drivenGroup name _ _ _ parameters condition => do
    checkAll (checkCondition p m) condition.toList
    p.checkName name "parameter"
    ensure (!nested) (.invalid .nestedGroup none)
    checkParameters p m true parameters

/-- Checks parameters one after the other. -/
def checkParameters (p : Place) (m : Manifest) (nested : Bool) :
    List ParameterEntry → Except ManifestError Unit
  | [] => .ok ()
  | entry :: rest => do
    entry.check p m nested
    checkParameters p m nested rest

end

/-- Checks the dialog. -/
def UiEntry.check (p : Place) (m : Manifest) (ui : UiEntry) : Except ManifestError Unit := do
  p.checkName ui.name "ui predicate"
  checkParameters (p.enter ui.name) m false ui.parameters

/-! ## §3. The whole. -/

/-- The first name that occurs among those before it. -/
def firstRepeated (seen : List String) : List String → Option String
  | [] => none
  | name :: rest => if seen.contains name then some name else firstRepeated (name :: seen) rest

namespace Manifest

/-- Checks that every name is declared once. -/
def checkNames (m : Manifest) (source : String) : Except ManifestError Unit :=
  match firstRepeated [] m.declaredNames with
  | none => .ok ()
  | some name =>
    let first := findValue source "name" name
    .error (.duplicateName name first (first.bind (findValueAfter source "name" name)))

/-- Checks the settings of the studio. -/
def checkStudio (m : Manifest) (p : Place) : Except ManifestError Unit := do
  ensure (!Text.isBlank m.studio.name) (.invalid .blankStudioName (p.find "[studio]"))
  match m.studio.indent with
  | .spaces width =>
    ensure (1 ≤ width && width ≤ 8) (.invalid (.indentWidth width) (p.find "indent"))
  | .tab => .ok ()
  ensure (m.feature.isNone || m.ui.isSome) (.invalid .featureWithoutUi (p.find "[feature]"))

/-- Checks the manifest; the source serves to point to what is wrong. -/
def validate (m : Manifest) (source : String) : Except ManifestError Unit := do
  let p : Place := { source }
  m.checkStudio p
  m.checkNames source
  checkAll (·.check p) m.imports
  checkAll (fun (document, studios) => checkDocument document studios) m.documents
  checkAll (EnumEntry.check p) m.enums
  checkAll (BoundEntry.check p) m.bounds
  checkAll (LookupEntry.check p m) m.lookups
  checkAll (UiEntry.check p m) m.ui.toList

end Manifest

end FeatureStudio
