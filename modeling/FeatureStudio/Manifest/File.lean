/-
  FeatureStudio.Manifest.File: manifests read from text and from files.

  Main statements:
    * `ofText_eq`: a manifest that is read keeps the rules.
-/
import FeatureStudio.Disk.Program
import FeatureStudio.Manifest.Decode
import FeatureStudio.Manifest.Validation
import FeatureStudio.Toml.Document

namespace FeatureStudio

/-! ## §1. Texts. -/

namespace Manifest

/-- The manifest that a text states, whether it keeps the rules or not.  A fault of a document
whose numbers are out of range is put down to them. -/
def ofTextUnchecked (text : String) : Except ManifestError Manifest :=
  match Toml.read? text with
  | none => .error (.malformed none)
  | some entries =>
    (decode entries).mapError fun error =>
      .malformed (if Toml.isStrict entries then some error else none)

/-- The manifest that a text states. -/
def ofText (text : String) : Except ManifestError Manifest :=
  match ofTextUnchecked text with
  | .error error => .error error
  | .ok m =>
    match m.validate text with
    | .error error => .error error
    | .ok () => .ok m

/-- A manifest that is read keeps the rules. -/
theorem ofText_eq {text : String} {m : Manifest} (h : ofText text = .ok m) :
    m.validate text = .ok () := by
  unfold ofText at h
  split at h
  · cases h
  · next m' _ =>
    split at h
    · cases h
    · next hv => cases h; exact hv

end Manifest

/-! ## §2. Files. -/

/-- A manifest with the file it was read from. -/
structure ManifestFile where
  path : String
  content : String
  manifest : Manifest

namespace ManifestFile

/-- The manifest that the bytes of a file state. -/
def ofBytes (path : String) (bytes : Text.Bytes) : Except ManifestError ManifestFile :=
  match Text.decode? bytes with
  | none => .error (.unreadable path)
  | some content => (Manifest.ofText content).map fun manifest => { path, content, manifest }

/-- Reads the manifest in a file. -/
def read (path : String) : DiskProgram (Except ManifestError ManifestFile) :=
  .ask (.read path) fun
    | .error _ => .done (.error (.unreadable path))
    | .ok bytes => .done (ofBytes path bytes)

/-- The directory of the file, in which the studio is written. -/
def directory (f : ManifestFile) : String := (DiskPath.parent? f.path).getD "."

end ManifestFile

end FeatureStudio
