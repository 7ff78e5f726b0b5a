/-
  FeatureStudio.Proofs.Render.Imports: import lines, written and read back.

  An import line names a path and a version in two literals.  Which they are depends on the version
  of the standard library and on the documents of the rendering.  Whatever characters they have,
  the line can be read back.

  Main statements:
    * `Import.readLine_line`: an import line says whether it exports, and where it points.
    * `ensures_importLine`, `ensures_importLines`: the lines as they are rendered.
    * `ensures_studio`: a file, with the import lines above its declarations.
-/
import FeatureStudio.Proofs.Render.Dependence
import FeatureStudio.Proofs.Text.Literal
import FeatureStudio.Render.Declaration

namespace FeatureStudio

open Build

/-! ## §1. Targets and lines. -/

/-- Where an import points to.  A studio that is not found has a placeholder for its path. -/
def ImportSource.target (stdVersion : String) (documents : DocumentTable) :
    ImportSource → ImportTarget
  | .std studio => ⟨"onshape/std/" ++ studio, stdVersion ++ ".0"⟩
  | .path file version => ⟨file, version⟩
  | .document name studio version =>
    match documents.resolve name studio version with
    | .ok target => target
    | .error e => ⟨e.placeholder, emptyVersion⟩

namespace Import

/-- The import line, without its line feed. -/
def line (i : Import) (target : ImportTarget) : String :=
  exportText i.exported ++ "import(path : " ++ Text.quote target.path ++ ", version : "
    ++ Text.quote target.version ++ ");"

/-- What follows the word, if the characters begin with it. -/
def behind (word : String) (cs : List Char) : Option (List Char) :=
  if word.toList <+: cs then some (cs.drop word.toList.length) else none

/-- Reads what an import line says behind `export `: the path and the version that its two literals
stand for. -/
def readTarget (cs : List Char) : Option ImportTarget := do
  let cs ← behind "import(path : " cs
  let (path, cs) ← Text.readLiteral cs
  let cs ← behind ", version : " cs
  let (version, cs) ← Text.readLiteral cs
  if cs = ");".toList then some ⟨path, version⟩ else none

/-- Reads an import line: whether it exports, and where it points. -/
def readLine (text : String) : Option (Bool × ImportTarget) :=
  match behind "export " text.toList with
  | some cs => (readTarget cs).map fun target => (true, target)
  | none => (readTarget text.toList).map fun target => (false, target)

theorem behind_append (word : String) (cs : List Char) :
    behind word (word.toList ++ cs) = some cs := by
  unfold behind
  rw [if_pos (List.prefix_append _ _), List.drop_left]

/-- **An import line says whether it exports, and where it points.** -/
theorem readLine_line (i : Import) (target : ImportTarget) :
    readLine (i.line target) = some (i.exported, target) := by
  let rest : List Char := "import(path : ".toList ++ ((Text.quote target.path).toList
    ++ (", version : ".toList ++ ((Text.quote target.version).toList ++ ");".toList)))
  have htarget : readTarget rest = some target := by
    simp only [readTarget, rest, behind_append, Text.readLiteral_quote, Option.bind_eq_bind,
      Option.bind_some, if_true]
  have hline : (i.line target).toList = (exportText i.exported).toList ++ rest := by
    simp only [line, rest, String.toList_append, List.append_assoc]
  unfold readLine
  rw [hline]
  cases i.exported with
  | true =>
      rw [show exportText true = "export " from rfl, behind_append]
      dsimp only
      rw [htarget]
      rfl
  | false =>
      -- a line that does not export begins with another letter
      have hnone : behind "export " rest = none := if_neg fun h => by
        simp [rest] at h
      rw [show (exportText false).toList = [] from rfl, List.nil_append, hnone]
      dsimp only
      rw [htarget]
      rfl

theorem lineFeed_not_mem_line (i : Import) (target : ImportTarget) :
    '\n' ∉ (i.line target).toList := by
  have hexport : '\n' ∉ (exportText i.exported).toList := by
    cases i.exported <;> decide
  unfold line
  simp only [String.toList_append, List.mem_append, not_or]
  exact ⟨⟨⟨⟨⟨hexport, by decide⟩, Text.lineFeed_not_mem_quote _⟩, by decide⟩,
    Text.lineFeed_not_mem_quote _⟩, by decide⟩

end Import

/-! ## §2. Rendering. -/

namespace World

/-- Where an import points to in a rendering. -/
def target (w : World) (source : ImportSource) : ImportTarget :=
  source.target w.stdVersion w.documents

/-- The import lines of a rendering, each on a line of its own. -/
def importLines (w : World) (imports : List Import) : String :=
  String.join (imports.map fun i => i.line (w.target i.source) ++ "\n")

/-- What stands above the declarations of a file: its version, its imports and the banner. -/
def fileHead (w : World) (stdImports imports : List Import) : String :=
  let std := w.importLines stdImports
  let others := w.importLines imports
  "FeatureScript " ++ w.stdVersion ++ ";\n" ++ std
    ++ (if std.isEmpty || others.isEmpty then "" else "\n") ++ others ++ "\n" ++ Render.banner
    ++ "\n\n"

end World

namespace Render

variable {w : World} {s : State}

/-- The value is the same for every indentation, and only named declarations are warned of. -/
def Settled {α : Type} (a : α) (f : Indent → α) (ds : List Diagnostic) : Prop :=
  f = (fun _ => a) ∧ ∀ d ∈ ds, d.location.isSome

theorem ensures_importTarget (source : ImportSource) :
    Ensures w s (fun _ => importTarget source) (Settled (w.target source)) := by
  have hnone : ∀ d ∈ ([] : List Diagnostic), d.location.isSome := fun d hd => by cases hd
  cases source with
  | std studio =>
      refine ensures_get (fun _ => return ⟨"onshape/std/" ++ studio, w.stdVersion ++ ".0"⟩)
        (fun c hc => ?_) (ensures_pure ⟨rfl, hnone⟩)
      rw [hc.stdVersion]
  | path file version => exact ensures_pure ⟨rfl, hnone⟩
  | document name studio version =>
      -- the answer of the table is one value, whatever the context: so the cases are on that value
      have hresolved : ∀ result : Except ResolveError ImportTarget,
          Ensures w s (fun _ => match result with
            | .ok target => return target
            | .error e => do
              warnAt e.message (name ++ "/" ++ studio)
              return ⟨e.placeholder, emptyVersion⟩)
            (Settled (match result with
              | .ok target => target
              | .error e => ⟨e.placeholder, emptyVersion⟩)) := by
        intro result
        cases result with
        | ok target => exact ensures_pure ⟨rfl, hnone⟩
        | error e =>
            refine Ensures.warnedAt (ensures_pure ⟨rfl, fun d hd => ?_⟩)
            rw [List.mem_singleton.mp hd]
            rfl
      exact ensures_get _ (fun c hc => hc.documents ▸ rfl)
        (hresolved (w.documents.resolve name studio version))

/-- An import line at file level. -/
theorem ensures_importLine (i : Import) (hscope : s.scope = .top) :
    Ensures w s (fun _ => importLine i) (Settled (i.line (w.target i.source) ++ "\n")) := by
  refine ensures_scope ?_
  rw [if_neg fun hne => hne hscope]
  refine (ensures_importTarget i.source).map fun t ds ht => ⟨?_, ht.2⟩
  rw [ht.1]
  funext u
  show exportText i.exported ++ _ ++ _ ++ _ ++ _ ++ (");" ++ "\n") = _
  rw [← String.append_assoc]
  rfl

/-- Import lines at file level, one after the other. -/
theorem ensures_importLines (imports : List Import) :
    Ensures w s (fun _ => importLines imports) (Settled (w.importLines imports)) := by
  have hlines : Ensures w s (fun _ => runAll (.inScope .top) (imports.map importLine))
      (Settled (imports.map fun i => i.line (w.target i.source) ++ "\n")) := by
    induction imports with
    | nil => exact ensures_pure ⟨rfl, fun d hd => by cases hd⟩
    | cons i imports ih =>
        have hfirst : Ensures w s (fun _ => run (.inScope .top) (importLine i))
            (Settled (i.line (w.target i.source) ++ "\n")) := Ensures.run (ensures_importLine i rfl)
        refine hfirst.bind fun f ds hf => ih.map fun fs es hfs => ?_
        obtain ⟨rfl, hds⟩ := hf
        obtain ⟨rfl, hes⟩ := hfs
        exact ⟨rfl, fun d hd => (List.mem_append.mp hd).elim (hds d) (hes d)⟩
  refine hlines.map fun fs ds hfs => ?_
  obtain ⟨rfl, hds⟩ := hfs
  exact ⟨rfl, hds⟩

/-- A file at file level: what stands above the declarations, and the declarations. -/
theorem ensures_studio {stdImports imports : List Import} {parts : List Rendering}
    {Q : (Indent → String) → List Diagnostic → Prop} (hscope : s.scope = .top)
    (h : Ensures w s (fun _ => joined { separator := "\n", scope := some .top } parts)
      fun f fs => ∀ ds : List Diagnostic, (∀ d ∈ ds, d.location.isSome) →
        Q (fun u => w.fileHead stdImports imports ++ f u) (ds ++ fs)) :
    Ensures w s (fun _ => studio stdImports imports parts) Q := by
  refine ensures_scope ?_
  rw [if_neg fun hne => hne hscope]
  refine ensures_get (fun _ => do
    let std ← importLines stdImports
    let others ← importLines imports
    let gap := if std.isEmpty || others.isEmpty then "" else "\n"
    let body ← joined { separator := "\n", scope := some .top } parts
    return "FeatureScript " ++ w.stdVersion ++ ";\n" ++ std ++ gap ++ others ++ "\n" ++ banner
      ++ "\n\n" ++ body) (fun c hc => by rw [hc.stdVersion]) ?_
  -- the lines are the same for every indentation, so only the declarations depend on it
  refine (ensures_importLines stdImports).bind fun f ds hf => ?_
  refine (ensures_importLines imports).bind fun g es hg => ?_
  obtain ⟨rfl, hds⟩ := hf
  obtain ⟨rfl, hes⟩ := hg
  refine h.map fun body fs hbody => ?_
  rw [← List.append_assoc]
  exact hbody (ds ++ es) fun d hd => (List.mem_append.mp hd).elim (hds d) (hes d)

end Render

end FeatureStudio
