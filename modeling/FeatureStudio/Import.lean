/-
  FeatureStudio.Import: import lines of a studio, and the documents that they may name.

  An import points to the standard library, to a fixed path and version, or to a studio of a
  named document that is looked up when the file is written.  A document lists feature studios,
  each with the path and version to import.  Looking up a studio tells an unknown document from
  an unknown studio of a known one.
-/
import FeatureStudio.Keyed

namespace FeatureStudio

/-! ## §1. Documents. -/

/-- Path and version of an import. -/
structure ImportTarget where
  path : String
  version : String
  deriving DecidableEq, Repr

/-- Why a studio of a document was not found. -/
inductive ResolveError where
  | unknownDocument (document : String)
  | unknownStudio (document studio : String)
  deriving DecidableEq, Repr

/-- What is said about a studio that was not found. -/
def ResolveError.message : ResolveError → String
  | .unknownDocument document => "Failed to find document named " ++ document
  | .unknownStudio document studio =>
    "Failed to find feature studio named " ++ studio ++ " in document " ++ document

/-- The path written for a studio that was not found. -/
def ResolveError.placeholder : ResolveError → String
  | .unknownDocument _ => "<INVALID_DOCUMENT_NAME>"
  | .unknownStudio .. => "<INVALID_STUDIO_NAME>"

/-- The version written for a target that has none. -/
def emptyVersion : String := "000000000000000000000000"

/-- Documents by name, each with its studios by name. -/
abbrev DocumentTable := Keyed (Keyed ImportTarget)

namespace DocumentTable

/-- Lists a studio under its document. -/
def insert (table : DocumentTable) (document studio : String) (target : ImportTarget) :
    DocumentTable :=
  Keyed.put table document (Keyed.put ((Keyed.get? table document).getD []) studio target)

/-- The target of a studio of a document; a version that is given replaces the listed one. -/
def resolve (table : DocumentTable) (document studio : String) (version : Option String) :
    Except ResolveError ImportTarget :=
  match Keyed.get? table document with
  | none => .error (.unknownDocument document)
  | some studios =>
    match Keyed.get? studios studio with
    | none => .error (.unknownStudio document studio)
    | some target => .ok { target with version := version.getD target.version }

end DocumentTable

/-! ## §2. Import lines. -/

/-- Where an import points. -/
inductive ImportSource where
  | std (studio : String)
  | path (path version : String)
  | document (document studio : String) (version : Option String)
  deriving DecidableEq, Repr

/-- An import line. -/
structure Import where
  source : ImportSource
  exported : Bool := false
  deriving DecidableEq, Repr

namespace Import

/-- A studio of the standard library. -/
def std (studio : String) : Import := { source := .std studio }

/-- A fixed path and version. -/
def path (path version : String) : Import := { source := .path path version }

/-- A studio of a named document. -/
def document (document studio : String) : Import := { source := .document document studio none }

/-- Pins a document import to a version; other imports stay as they are. -/
def withVersion (i : Import) (version : String) : Import :=
  match i.source with
  | .document document studio _ => { i with source := .document document studio (some version) }
  | _ => i

/-- Whether the import is of the standard library. -/
def isStd (i : Import) : Bool :=
  match i.source with
  | .std _ => true
  | _ => false

end Import

end FeatureStudio
