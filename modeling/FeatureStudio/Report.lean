/-
  FeatureStudio.Report: what is said of a manifest that is checked, and of studios that are written.

  A report says what it has to say line by line; a terminal decides how a line looks.  The report
  of a check can be had as a JSON document, too.
-/
import FeatureStudio.Disk.Program
import FeatureStudio.Manifest.Studio
import FeatureStudio.Render.Context
import FeatureStudio.Text.Basic

namespace FeatureStudio

/-! ## §1. Lines. -/

/-- A line of a report. -/
inductive ReportLine where
  | heading (title : String)
  /-- A label with a value, below a heading. -/
  | entry (label value : String)
  /-- A file that was written, below a heading. -/
  | added (path : String)
  | warning (message : String)
  | divider (label : String)
  /-- Text of any number of lines. -/
  | text (content : String)
  | blank
  deriving DecidableEq, Repr

namespace ReportLine

/-- What a terminal prints.  Warnings are not printed with the rest. -/
def printed : ReportLine → String
  | .heading title => title ++ ":\n"
  | .entry label value => "  " ++ label ++ ": " ++ value ++ "\n"
  | .added path => "  + " ++ path ++ "\n"
  | .warning _ => ""
  | .divider label => "── " ++ label ++ " ──\n"
  | .text content => content ++ "\n"
  | .blank => "\n"

/-- What a terminal prints of a report. -/
def printedAll (lines : List ReportLine) : String := String.join (lines.map printed)

/-- The warnings of a report. -/
def warnings (lines : List ReportLine) : List String :=
  lines.filterMap fun
    | .warning message => some message
    | _ => none

/-- Warnings, with a blank line after them. -/
def ofDiagnostics (diagnostics : List Diagnostic) : List ReportLine :=
  diagnostics.map (fun d => .warning d.text) ++ if diagnostics.isEmpty then [] else [.blank]

end ReportLine

/-- A JSON document with whole numbers. -/
inductive Json where
  | null
  | bool (b : Bool)
  | number (n : Int)
  | string (s : String)
  | array (items : List Json)
  | object (fields : List (String × Json))

namespace Json

/-! ## §2. JSON strings. -/

/-- A hexadecimal digit. -/
def hexDigit (n : Nat) : Char := if n < 10 then Char.ofNat (48 + n) else Char.ofNat (87 + n)

/-- How one character is written inside a string. -/
def escapeChar (c : Char) : List Char :=
  match c with
  | '"' => ['\\', '"']
  | '\\' => ['\\', '\\']
  | '\n' => ['\\', 'n']
  | '\r' => ['\\', 'r']
  | '\t' => ['\\', 't']
  | c =>
    if c.toNat = 8 then ['\\', 'b']
    else if c.toNat = 12 then ['\\', 'f']
    else if c.toNat < 32 then
      ['\\', 'u', '0', '0', hexDigit (c.toNat / 16), hexDigit (c.toNat % 16)]
    else [c]

/-- A string in quotes. -/
def quoted (s : String) : String :=
  "\"" ++ String.ofList (s.toList.flatMap escapeChar) ++ "\""

/-! ## §3. JSON documents. -/

/-- Items between brackets, one a line, two spaces deeper than the brackets. -/
def bracketed (opening closing : String) (depth : Nat) (items : List String) : String :=
  if items.isEmpty then opening ++ closing
  else
    let pad := "\n" ++ Text.replicate (depth + 1) "  "
    opening ++ pad ++ ("," ++ pad).intercalate items ++ "\n" ++ Text.replicate depth "  " ++ closing

mutual

/-- The text of a document at a depth of nesting. -/
def prettyAt (depth : Nat) : Json → String
  | .null => "null"
  | .bool b => if b then "true" else "false"
  | .number n => toString n
  | .string s => quoted s
  | .array items => bracketed "[" "]" depth (prettyItems (depth + 1) items)
  | .object fields => bracketed "\x7b" "\x7d" depth (prettyFields (depth + 1) fields)

/-- The texts of the items of an array. -/
def prettyItems (depth : Nat) : List Json → List String
  | [] => []
  | j :: rest => prettyAt depth j :: prettyItems depth rest

/-- The texts of the fields of an object. -/
def prettyFields (depth : Nat) : List (String × Json) → List String
  | [] => []
  | (key, j) :: rest => (quoted key ++ ": " ++ prettyAt depth j) :: prettyFields depth rest

end

/-- The text of a document over several lines. -/
def pretty (j : Json) : String := prettyAt 0 j

end Json

/-! ## §4. What a manifest declares. -/

/-- The report on a manifest. -/
structure CheckReport where
  /-- The path of the manifest. -/
  path : String
  /-- The name of the studio's file. -/
  studio : String
  stdVersion : String
  imports : Nat
  enums : Nat
  bounds : Nat
  lookups : Nat
  parameters : Nat
  warnings : List Diagnostic

/-- The report on a manifest and its studio as text. -/
def Manifest.check (m : Manifest) (r : RenderedStudio) (path : String) : CheckReport where
  path := path
  studio := r.name
  stdVersion := m.studio.stdVersion
  imports := m.imports.length
  enums := m.enums.length
  bounds := m.bounds.length
  lookups := m.lookups.length
  parameters := ParameterEntry.sizes m.parameters
  warnings := r.diagnostics

namespace CheckReport

/-- The numbers of declarations: the name in a document, the label and the number. -/
def counts (r : CheckReport) : List (String × String × Nat) :=
  [("imports", "imports", r.imports),
   ("enums", "enums", r.enums),
   ("bounds", "bound specs", r.bounds),
   ("lookups", "lookups", r.lookups),
   ("parameters", "parameters", r.parameters)]

/-- The report as lines; what there is none of is not mentioned. -/
def lines (r : CheckReport) : List ReportLine :=
  ReportLine.ofDiagnostics r.warnings
    ++ [.text ("✓ " ++ r.path ++ " is valid"), .blank,
        .heading (r.studio ++ " (FeatureScript " ++ r.stdVersion ++ ")")]
    ++ r.counts.filterMap fun (_, label, count) =>
        if 0 < count then some (.entry label (toString count)) else none

/-- A warning as a document. -/
def warningJson (d : Diagnostic) : Json :=
  .object
    [("scope", .string d.scope.name), ("message", .string d.message),
     ("location",
       match d.location with
       | some location => .string location
       | none => .null)]

/-- The report as a document. -/
def json (r : CheckReport) : Json :=
  .object
    [("config_path", .string r.path), ("studio", .string r.studio),
     ("std_version", .string r.stdVersion),
     ("declarations", .object (r.counts.map fun (name, _, count) => (name, .number count))),
     ("warnings", .array (r.warnings.map warningJson))]

end CheckReport

/-! ## §5. Studios written to disk. -/

/-- What has become of a studio. -/
inductive GenerateResult where
  | written
  /-- The file held the studio already. -/
  | unchanged
  /-- The studio is shown instead. -/
  | preview (content : String)
  deriving DecidableEq, Repr

/-- The report on a studio. -/
structure GenerateReport where
  /-- The name of the studio's file. -/
  studio : String
  /-- The path of the file. -/
  path : String
  warnings : List Diagnostic
  result : GenerateResult

/-- The report as lines. -/
def GenerateReport.lines (r : GenerateReport) : List ReportLine :=
  ReportLine.ofDiagnostics r.warnings
    ++ match r.result with
      | .written => [.heading "Generated", .added r.path]
      | .unchanged => [.text (r.path ++ " is up to date")]
      | .preview content =>
        [.divider r.path, .text (Text.trimEnd content), .divider "Summary",
         .text (r.studio ++ " would be generated")]

/-- Why a studio was not written. -/
structure GenerateError where
  path : String
  cause : WriteError
  deriving DecidableEq, Repr

/-- What is said of the failure. -/
def GenerateError.message (e : GenerateError) : String := "Failed to write " ++ e.path

namespace RenderedStudio

/-- The report on the studio. -/
def report (r : RenderedStudio) (path : String) (result : GenerateResult) : GenerateReport where
  studio := r.name
  path := path
  warnings := r.diagnostics
  result := result

/-- Writes the studio below a directory, or shows it. -/
def generate (r : RenderedStudio) (directory : String) (dryRun : Bool) :
    DiskProgram (Except GenerateError GenerateReport) :=
  let path := DiskPath.join directory r.name
  if dryRun then .done (.ok (r.report path (.preview r.content)))
  else
    ({ path, content := r.content } : WriteJob).program.bind fun
      | .error cause => .done (.error ⟨path, cause⟩)
      | .ok .unchanged => .done (.ok (r.report path .unchanged))
      | .ok _ => .done (.ok (r.report path .written))

end RenderedStudio

end FeatureStudio
