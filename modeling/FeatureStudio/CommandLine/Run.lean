/-
  FeatureStudio.CommandLine.Run: what commands do.

  A new feature starts with a manifest that is named after its title: the words of the title, put
  together.  A title that gives no name leaves the name to be chosen.

  A command that fails prints nothing; what is wrong is a complaint of its own.

  Main statements:
    * `featureName_identifier`: the name of a new feature is always an identifier.
-/
import FeatureStudio.CommandLine.Arguments
import FeatureStudio.Manifest.File
import FeatureStudio.Report
import FeatureStudio.Text.Name

namespace FeatureStudio

/-! ## §1. The manifest that a new feature starts with. -/

namespace Starter

/-- The words of a title: its stretches of ASCII letters and digits, in small letters. -/
def words (title : String) : List String :=
  let marked := title.toList.map fun c => if c.isAlphanum then c.toLower else ' '
  ((Text.pieces ' ' marked).filter fun word => !word.isEmpty).map String.ofList

/-- The name of the feature with the given title. -/
def featureName (title : String) : String :=
  let name := Text.camelCase false ("_".intercalate (words title))
  if Text.isIdentifier name then name else "myFeature"

theorem featureName_identifier (title : String) : Text.isIdentifier (featureName title) := by
  simp only [featureName]
  split
  · assumption
  · decide +kernel

/-- The title as it stands between quotes. -/
def quotedTitle (title : String) : String :=
  String.ofList (title.toList.flatMap fun c => if c = '\\' || c = '"' then ['\\', c] else [c])

/-- The part of the manifest up to the name of the studio. -/
def opening : String := "[studio]\nname = \""

/-- The part between the name of the studio and that of the dialog. -/
def declarations : String :=
  ".fs\"\nstd_version = \"2144\"\n\n"
    ++ "[[enums]]\nname = \"Size\"\npredicates = true\nvalues = [\n"
    ++ "    \x7b value = \"SMALL\", lookup = \"1 * inch\" \x7d,\n"
    ++ "    \x7b value = \"LARGE\", lookup = \"2 * inch\" \x7d,\n"
    ++ "]\n\n"
    ++ "[[lookups]]\nname = \"sizeWidth\"\nenum = \"Size\"\nreturns = \"ValueWithUnits\"\n\n"
    ++ "[ui]\nname = \""

/-- The part between the name of the dialog and the title of the feature. -/
def parameters : String :=
  "\"\nparameters = [\n"
    ++ "    \x7b kind = \"enum\", enum = \"Size\" \x7d,\n"
    ++ "    \x7b kind = \"boolean\", name = \"flipSides\", display_name = \"Flip sides\" \x7d,\n"
    ++ "]\n\n"
    ++ "[feature]\ntitle = \""

/-- The manifest for a feature with the given title. -/
def text (title : String) : String :=
  let name := featureName title
  opening ++ name ++ declarations ++ name ++ parameters ++ quotedTitle title ++ "\"\n"

end Starter

/-! ## §2. Commands. -/

/-- What a command leaves behind. -/
structure CommandResult where
  exitCode : Nat := 0
  /-- What is printed. -/
  output : String := ""
  /-- What is wrong, apart from what is printed. -/
  complaints : List String := []
  deriving DecidableEq, Repr

namespace CommandResult

/-- A command that failed. -/
def failed (message : String) : CommandResult := { exitCode := 1, complaints := [message] }

/-- Arguments that state no command. -/
def misused : CommandResult :=
  { exitCode := 2, complaints := ["usage: fsgen <init|generate|check> [OPTIONS]"] }

/-- A report on the terminal. -/
def ofLines (lines : List ReportLine) : CommandResult where
  output := ReportLine.printedAll lines
  complaints := ReportLine.warnings lines

end CommandResult

namespace Command

/-- Goes on with a manifest and its studio as text, or fails. -/
def withManifest (config : String)
    (next : ManifestFile → RenderedStudio → DiskProgram CommandResult) :
    DiskProgram CommandResult :=
  (ManifestFile.read config).bind fun
    | .error error => .done (.failed error.message)
    | .ok file =>
      match file.manifest.render with
      | .error error => .done (.failed error.message)
      | .ok rendered => next file rendered

/-- Checks a manifest. -/
def runCheck (config : String) (json denyWarnings : Bool) : DiskProgram CommandResult :=
  withManifest config fun file rendered =>
    let report := file.manifest.check rendered config
    let result : CommandResult :=
      if json then { output := report.json.pretty ++ "\n" } else .ofLines report.lines
    .done { result with exitCode := if denyWarnings && !report.warnings.isEmpty then 1 else 0 }

/-- Writes a studio, below the directory of the manifest unless another is given. -/
def runGenerate (config : String) (output : Option String) (dryRun : Bool) :
    DiskProgram CommandResult :=
  withManifest config fun file rendered =>
    (rendered.generate (output.getD file.directory) dryRun).bind fun
      | .error error => .done (.failed error.message)
      | .ok report => .done (.ofLines report.lines)

/-- The lines printed for a manifest that was made. -/
def startedLines (path : String) : List ReportLine :=
  [.text ("Created " ++ path), .blank, .heading "Next steps",
   .text ("  edit " ++ path ++ " to describe your feature"),
   .text ("  fsgen generate --config " ++ path)]

/-- Makes a manifest for the feature with the given title, unless there is one. -/
def startWith (directory title : String) : DiskProgram CommandResult :=
  let path := DiskPath.join directory defaultConfig
  let job : WriteJob := { path, content := Starter.text title, sparing := true }
  job.program.bind fun
    | .error error => .done (.failed error.message)
    | .ok .skipped =>
      .done (.ofLines [.text (path ++ " already exists, leaving it untouched")])
    | .ok _ =>
      (ManifestFile.read path).bind fun
        | .error error => .done (.failed error.message)
        | .ok _ => .done (.ofLines (startedLines path))

/-- Makes a manifest for a feature named after the directory unless a name is given. -/
def runStart (directory : String) : Option String → DiskProgram CommandResult
  | some name => startWith directory name
  | none =>
    .ask (.nameOf directory) fun
      | .error _ => .done (.failed ("Failed to resolve " ++ directory))
      | .ok name => startWith directory name

/-- The version of the program. -/
def versionText : String := "fsgen 0.3.0"

/-- What a command does. -/
def run : Command → DiskProgram CommandResult
  | .version => .done (.ofLines [.text versionText])
  | .start directory name => runStart directory name
  | .generate config output dryRun => runGenerate config output dryRun
  | .check config json denyWarnings => runCheck config json denyWarnings

/-- What the program does with its arguments. -/
def runArguments (arguments : List String) : DiskProgram CommandResult :=
  match ofArguments arguments with
  | some command => command.run
  | none => .done .misused

end Command

end FeatureStudio
