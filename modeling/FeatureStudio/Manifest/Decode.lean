/-
  FeatureStudio.Manifest.Decode: manifests read from the table of a document.

  Every section is a closed record, so that a misspelt key does not go unnoticed.  Parameters are
  told apart by their `kind` and may have further keys.
-/
import FeatureStudio.Manifest.Basic
import FeatureStudio.Toml.Decoder

namespace FeatureStudio.Manifest

open Toml (Value Entries DecodeError Decoder)
open Toml.Decoder
open Toml.Decoder.Fields

/-! ## §1. Studio, imports and documents. -/

/-- The indentation: a number of spaces or the word `tab`. -/
def indent : Decoder Indent
  | .integer n =>
    if 0 ≤ n && n < 256 then .ok (.spaces n.toNat) else .error (.noForm "IndentConfig")
  | .string "tab" => .ok .tab
  | _ => .error (.noForm "IndentConfig")

def studioSettings : Decoder StudioSettings :=
  record (StudioSettings.mk
    <$> required "name" string
    <*> withDefault "std_version" defaultStdVersion string
    <*> withDefault "indent" Indent.standard indent) "StudioConfig"

def importEntry : Decoder ImportEntry :=
  record (ImportEntry.mk
    <$> optional "studio" string
    <*> optional "document" string
    <*> optional "path" string
    <*> optional "version" string
    <*> withDefault "export" false boolean) "ImportConfig"

/-- Any key. -/
def anyKey (key : String) : Except DecodeError String := .ok key

def importTarget : Decoder ImportTarget :=
  record (ImportTarget.mk
    <$> required "path" string
    <*> required "version" string) "StudioTarget"

/-- The studios of a document. -/
def documentStudios : Decoder (Keyed ImportTarget) :=
  record (withDefault "studios" [] (keyed anyKey importTarget)) "DocumentConfig"

/-! ## §2. Enumerations, bounds and lookups. -/

def enumValueEntry : Decoder EnumValueEntry :=
  record (EnumValueEntry.mk
    <$> required "value" string
    <*> optional "name" string
    <*> optional "lookup" string
    <*> withDefault "hidden" false boolean
    <*> optional "predicate" boolean) "EnumValueConfig"

def enumEntry : Decoder EnumEntry :=
  record (EnumEntry.mk
    <$> required "name" string
    <*> optional "parameter" string
    <*> withDefault "predicates" false boolean
    <*> optional "predicate_template" string
    <*> withDefault "annotations" true boolean
    <*> withDefault "private" false boolean
    <*> withDefault "custom" false boolean
    <*> optional "custom_lookup" string
    <*> withDefault "values" [] (list enumValueEntry)) "EnumConfig"

/-- The words for the kinds of bound spec. -/
def boundKinds : List (String × BoundKind) :=
  [("length", .length), ("angle", .angle), ("integer", .integer), ("real", .real)]

/-- The words for the units. -/
def unitWords : List (String × MeasureUnit) := MeasureUnit.all.map fun u => (u.text, u)

def boundEntry : Decoder BoundEntry :=
  record (BoundEntry.mk
    <$> required "name" string
    <*> required "kind" (choice boundKinds)
    <*> optional "min" number
    <*> optional "default" number
    <*> optional "max" number
    <*> withDefault "units" [] (keyed (word unitWords) number)
    <*> withDefault "private" false boolean) "BoundConfig"

def lookupEntry : Decoder LookupEntry :=
  record (LookupEntry.mk
    <$> required "name" string
    <*> required "enum" string
    <*> optional "returns" string) "LookupConfig"

def featureEntry : Decoder FeatureEntry :=
  record (FeatureEntry.mk
    <$> required "title" string
    <*> optional "description" string
    <*> withDefault "filter_selectors" [] (list string)) "FeatureConfig"

/-! ## §3. Parameters. -/

/-- The words for the styles of a choice. -/
def styleWords : List (String × ChoiceStyle) :=
  [("dropdown", .dropdown), ("labeled", .labeled), ("horizontal", .horizontal)]

/-- A style, as a string or as the only key of a table, with nothing beside it. -/
def style : Decoder ChoiceStyle := fun v =>
  match v, v.entries? with
  | .string s, _ => word styleWords s
  | _, some [(key, value)] => do
    let a ← word styleWords key
    match value with
    | .table [] => return a
    | value => mismatch "unit" value
  | _, some _ => .error (.wrongValue "map" "map with a single key")
  | v, none => mismatch "string or map" v

def booleanFields (flip : Bool) : Fields ParameterEntry :=
  (fun name label description default =>
      ParameterEntry.boolean flip name ⟨label, description⟩ default)
    <$> required "name" string
    <*> optional "display_name" string
    <*> optional "description" string
    <*> withDefault "default" false boolean
    <*> optional "when" string

def choiceFields : Fields ParameterEntry :=
  (fun enumName label description => ParameterEntry.choice enumName ⟨label, description⟩)
    <$> required "enum" string
    <*> optional "display_name" string
    <*> optional "description" string
    <*> optional "default" string
    <*> withDefault "style" .dropdown style
    <*> optional "when" string

def valueFields (kind : BoundKind) : Fields ParameterEntry :=
  (fun name bounds label description =>
      ParameterEntry.value kind name bounds ⟨label, description⟩)
    <$> required "name" string
    <*> optional "bounds" string
    <*> optional "display_name" string
    <*> optional "description" string
    <*> optional "when" string

def queryFields : Fields ParameterEntry :=
  (fun name filter maxPicks label description =>
      ParameterEntry.query name filter maxPicks ⟨label, description⟩)
    <$> required "name" string
    <*> required "filter" string
    <*> optional "max_picks" count
    <*> optional "display_name" string
    <*> optional "description" string
    <*> optional "when" string

def groupFields (parameter : Decoder ParameterEntry) : Fields ParameterEntry :=
  ParameterEntry.group
    <$> required "name" string
    <*> withDefault "collapsed" false boolean
    <*> withDefault "parameters" [] (list parameter)
    <*> optional "when" string

def drivenGroupFields (parameter : Decoder ParameterEntry) : Fields ParameterEntry :=
  ParameterEntry.drivenGroup
    <$> required "name" string
    <*> optional "group_name" string
    <*> optional "description" string
    <*> withDefault "collapsed" false boolean
    <*> withDefault "parameters" [] (list parameter)
    <*> optional "when" string

/-- The kinds of parameter: the word, the name of the record and its fields. -/
def parameterKinds (parameter : Decoder ParameterEntry) :
    List (String × String × Fields ParameterEntry) :=
  [("boolean", "BooleanParameter", booleanFields false),
   ("flip", "BooleanParameter", booleanFields true),
   ("enum", "EnumParameter", choiceFields),
   ("length", "ValueParameter", valueFields .length),
   ("angle", "ValueParameter", valueFields .angle),
   ("integer", "ValueParameter", valueFields .integer),
   ("real", "ValueParameter", valueFields .real),
   ("query", "QueryParameter", queryFields),
   ("group", "GroupParameter", groupFields parameter),
   ("driven_group", "DrivenGroupParameter", drivenGroupFields parameter)]

/-- The record that a kind stands for. -/
def kindFields (parameter : Decoder ParameterEntry) :
    Decoder (String × Fields ParameterEntry)
  | .string s => word (parameterKinds parameter) s
  | v => mismatch "variant identifier" v

/-- A number of elements. -/
def elements (n : Nat) : String := toString n ++ (if n = 1 then " element" else " elements")

/-- A parameter within values nested at most so deep. -/
def parameter : Nat → Decoder ParameterEntry
  | 0, v => mismatch "internally tagged enum ParameterConfig" v
  | depth + 1, v =>
    match v, v.entries? with
    | _, some entries =>
      match entries.lookup "kind" with
      | none => .error (.missingField "kind")
      | some kind => do
        let (_, fields) ← kindFields (parameter depth) kind
        fields.ofTable false (entries.filter (·.1 ≠ "kind"))
    | .array [], none => .error (.missingField "kind")
    | .array (kind :: items), none => do
      let (name, fields) ← kindFields (parameter depth) kind
      let (p, rest) ← fields.ofArray name items
      if rest.isEmpty then return p
      else
        .error (.wrongLength items.length
          (elements (items.length - rest.length) ++ " in sequence"))
    | v, none => mismatch "internally tagged enum ParameterConfig" v

/-! ## §4. The whole. -/

def uiEntry (depth : Nat) : Decoder UiEntry :=
  record (UiEntry.mk
    <$> required "name" string
    <*> withDefault "parameters" [] (list (whole (parameter depth)))) "UiConfig"

/-- The manifest that the entries of a document state. -/
def decode (entries : Entries) : Except DecodeError Manifest :=
  ofTable (Manifest.mk
    <$> required "studio" studioSettings
    <*> withDefault "imports" [] (list importEntry)
    <*> withDefault "documents" [] (keyed anyKey documentStudios)
    <*> withDefault "enums" [] (list enumEntry)
    <*> withDefault "bounds" [] (list boundEntry)
    <*> withDefault "lookups" [] (list lookupEntry)
    <*> optional "ui" (uiEntry (Toml.depths entries))
    <*> optional "feature" featureEntry) true entries

end FeatureStudio.Manifest
