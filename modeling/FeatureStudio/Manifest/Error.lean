/-
  FeatureStudio.Manifest.Error: why a manifest is refused, and where in it the cause stands.

  Errors name their cause.  Those found in a well formed manifest also point to the place in the
  source, as far as it can be found.  A place knows the source text and the names of the
  declarations around it.
-/
import FeatureStudio.Decimal
import FeatureStudio.Dialog.Bounds
import FeatureStudio.Script.Function
import FeatureStudio.Text.Basic
import FeatureStudio.Text.Name
import FeatureStudio.Toml.Decoder

namespace FeatureStudio

open Decimal (Binary64)
open Text (Span)

/-! ## §1. Names that may be declared. -/

namespace Manifest

/-- Words of FeatureScript that are no names. -/
def reservedWords : List String :=
  ["annotation", "as", "break", "case", "catch", "const", "continue", "default", "else", "enum",
   "export", "false", "for", "function", "if", "import", "in", "inf", "is", "new", "operator",
   "precondition", "predicate", "return", "returns", "switch", "throw", "true", "try", "type",
   "typecheck", "undefined", "var", "while"]

/-- Why a text is no name. -/
inductive NameFault where
  | empty
  | reserved
  | badStart
  | badCharacter
  deriving DecidableEq, Repr

/-- What is said of the fault. -/
def NameFault.reason : NameFault → String
  | .empty => "name cannot be empty"
  | .reserved => "name is a FeatureScript reserved word"
  | .badStart => "name must start with a letter or underscore"
  | .badCharacter => "name must contain only letters, numbers, and underscores"

/-- Why a text is no name, if it is none. -/
def nameFault? (name : String) : Option NameFault :=
  match name.toList with
  | [] => some .empty
  | c :: rest =>
    if reservedWords.contains name then some .reserved
    else if !Text.startsIdentifier c then some .badStart
    else if !rest.all Text.isWordChar then some .badCharacter
    else none

end Manifest

/-! ## §2. Errors. -/

open Manifest (NameFault)

/-- A rule that a manifest breaks. -/
inductive Violation where
  | blankStudioName
  | indentWidth (width : Nat)
  | featureWithoutUi
  | importAmbiguous
  | importWithoutStudio
  | importWithoutTarget
  | importVersioned
  | unnamedStudio (document : String)
  | enumWithoutValues (name : String)
  | customListed (name : String)
  | template (error : UsageError)
  | notFinite (bounds value : String) (found : Binary64)
  | rangeOrder (bounds : String) (min default max : Binary64)
  | unitMismatch (unit : MeasureUnit) (kind : BoundKind)
  | lookupMissing (lookup enumName token : String)
  | conditionForm (condition : String)
  | notAValue (value enumName : String)
  | kindMismatch (parameter : String) (kind : BoundKind) (bounds : String) (found : BoundKind)
  | nestedGroup
  | other (message : String)

/-- What is said of the violation. -/
def Violation.message : Violation → String
  | .blankStudioName => "studio name cannot be empty"
  | .indentWidth width => "indent must be 1 to 8 spaces or \"tab\", got " ++ toString width
  | .featureWithoutUi => "[feature] needs a [ui] predicate to call"
  | .importAmbiguous => "an import takes either 'document' or 'path', not both"
  | .importWithoutStudio => "a document import needs the 'studio' to import"
  | .importWithoutTarget => "an import needs a 'studio' or a 'path'"
  | .importVersioned => "std imports always use the studio's std_version"
  | .unnamedStudio document => "document '" ++ document ++ "' lists a studio with an empty name"
  | .enumWithoutValues name => "enum '" ++ name ++ "' has no values"
  | .customListed name => "enum '" ++ name ++ "' sets custom = true and also lists a CUSTOM value"
  | .template error => error.message
  | .notFinite bounds value found =>
    "bound spec '" ++ bounds ++ "' needs a finite " ++ value ++ " value, found " ++ found.text
  | .rangeOrder bounds min default max =>
    "bound spec '" ++ bounds ++ "' needs min <= default <= max, found [" ++ min.text ++ ", "
      ++ default.text ++ ", " ++ max.text ++ "]"
  | .unitMismatch unit kind =>
    "unit '" ++ unit.text ++ "' does not apply to " ++ kind.name ++ " bounds"
  | .lookupMissing lookup enumName token =>
    "lookup '" ++ lookup ++ "' needs a lookup for " ++ enumName ++ "." ++ token
  | .conditionForm condition => "condition '" ++ condition ++ "' must have the form Enum.VALUE"
  | .notAValue value enumName => "'" ++ value ++ "' is not a value of enum '" ++ enumName ++ "'"
  | .kindMismatch parameter kind bounds found =>
    "parameter '" ++ parameter ++ "' is " ++ kind.name ++ " but bound spec '" ++ bounds ++ "' is "
      ++ found.name
  | .nestedGroup => "parameter groups cannot be nested"
  | .other message => message

/-- Why a manifest is refused. -/
inductive ManifestError where
  /-- The file cannot be read. -/
  | unreadable (path : String)
  /-- The text is no document, or the document no manifest. -/
  | malformed (detail : Option Toml.DecodeError)
  | invalid (violation : Violation) (span : Option Span)
  /-- `context` says what the name is for. -/
  | invalidIdentifier (name context : String) (fault : NameFault) (span : Option Span)
  /-- `context` says where the enumeration is named. -/
  | unknownEnum (name context : String) (span : Option Span)
  | duplicateName (name : String) (first second : Option Span)
  | undeclared (name : String)
  /-- What `context` names cannot be put together. -/
  | unbuildable (context : String) (cause : UsageError)

namespace ManifestError

/-- What is said of the error. -/
def message : ManifestError → String
  | .unreadable path => "failed to read '" ++ path ++ "'"
  | .malformed _ => "failed to parse fsgen.toml"
  | .invalid violation _ => violation.message
  | .invalidIdentifier name context _ _ => "invalid " ++ context ++ " name '" ++ name ++ "'"
  | .unknownEnum name context _ => "unknown enum '" ++ name ++ "' referenced by " ++ context
  | .duplicateName name _ _ => "'" ++ name ++ "' is declared more than once"
  | .undeclared name => "'" ++ name ++ "' is not declared in the manifest"
  | .unbuildable context _ => "cannot build " ++ context

/-- The code by which the error can be looked up. -/
def code? : ManifestError → Option String
  | .unreadable _ => none
  | .malformed _ => some "fsgen::parse_error"
  | .invalid .. => some "fsgen::validation_error"
  | .invalidIdentifier .. => some "fsgen::invalid_identifier"
  | .unknownEnum .. => some "fsgen::unknown_enum"
  | .duplicateName .. => some "fsgen::duplicate_name"
  | .undeclared _ => some "fsgen::undeclared"
  | .unbuildable .. => some "fsgen::usage_error"

/-- What can be done about the error. -/
def help? : ManifestError → Option String
  | .unreadable _ => some "run 'fsgen init' to create a starter fsgen.toml"
  | .invalidIdentifier _ _ fault _ =>
    some (fault.reason ++ ". Use only letters, numbers, and underscores, "
      ++ "starting with a letter or underscore.")
  | .unknownEnum .. => some "declare it in an [[enums]] table before referencing it"
  | .duplicateName .. =>
    some ("enums, their value predicates, bound specs, lookups and the UI predicate "
      ++ "share one namespace")
  | .malformed _ | .invalid .. | .undeclared _ | .unbuildable .. => none

/-- A place that may be unknown, with what is said of it. -/
def label (span : Option Span) (text : String) : List (Span × String) :=
  span.toList.map fun s => (s, text)

/-- The places in the source, with what is said of each. -/
def labels : ManifestError → List (Span × String)
  | .invalid violation span => label span violation.message
  | .invalidIdentifier _ _ _ span => label span "invalid identifier"
  | .unknownEnum _ _ span => label span "not declared"
  | .duplicateName _ first second =>
    label first "first declared here" ++ label second "declared again here"
  | .unreadable _ | .malformed _ | .undeclared _ | .unbuildable .. => []

end ManifestError

/-! ## §3. Places. -/

namespace Manifest

open Text (Span)

/-- Where a declaration stands. -/
structure Place where
  source : String
  /-- The names of the declarations around it, from the outside. -/
  path : List String := []

/-! ## §4. Search. -/

/-- The ways in which a value in quotes may be given to a key. -/
def assignments (key value : String) : List String :=
  [key ++ " = \"" ++ value ++ "\"", key ++ "=\"" ++ value ++ "\"",
   key ++ " = '" ++ value ++ "'", key ++ "='" ++ value ++ "'"]

/-- The first occurrence of a text that ends with `value` and one more character; the stretch is
that of `value`. -/
def findBeforeLast (text pattern value : String) : Option Span :=
  let length := Text.byteLength value.toList
  (Text.find text pattern).map fun s => ⟨s.stop - length - 1, length⟩

/-- Where `value` is given to `key`: the first way that occurs counts. -/
def findValue (text key value : String) : Option Span :=
  (assignments key value).findSome? (findBeforeLast text · value)

/-- Where `value` is given to `key` again, after a first time. -/
def findValueAfter (text key value : String) (first : Span) : Option Span :=
  let rest := String.ofList (Text.dropBytes first.stop text.toList)
  (findValue rest key value).map fun s => ⟨first.stop + s.offset, s.length⟩

namespace Place

/-- The place within the declaration `name`. -/
def enter (p : Place) (name : String) : Place := { p with path := p.path ++ [name] }

/-- The names of the declarations around the place. -/
def pathText (p : Place) : String := ".".intercalate p.path

/-- A kind of declaration, with where it stands. -/
def describe (p : Place) (kind : String) : String :=
  if p.path.isEmpty then kind else kind ++ " in '" ++ p.pathText ++ "'"

/-- The first occurrence of a text. -/
def find (p : Place) (needle : String) : Option Span := Text.find p.source needle

/-- Where `value` is given to `key`. -/
def findValue (p : Place) (key value : String) : Option Span :=
  Manifest.findValue p.source key value

/-- Where a name is given, or else where it occurs in quotes. -/
def findName (p : Place) (name : String) : Option Span :=
  p.findValue "name" name <|> findBeforeLast p.source ("\"" ++ name ++ "\"") name

/-! ## §5. Checks. -/

/-- Refuses a violation at a place in the source. -/
def refuse {α : Type} (violation : Violation) (span : Option Span) : Except ManifestError α :=
  .error (.invalid violation span)

/-- Checks a name for a declaration of some kind. -/
def checkName (p : Place) (name kind : String) : Except ManifestError Unit :=
  match nameFault? name with
  | some fault => .error (.invalidIdentifier name (p.describe kind) fault (p.findName name))
  | none => .ok ()

end Place

end Manifest

end FeatureStudio
