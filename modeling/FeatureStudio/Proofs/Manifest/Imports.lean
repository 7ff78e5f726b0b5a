/-
  FeatureStudio.Proofs.Manifest.Imports: the imports of a manifest, from its entries to the file.

  An entry names a studio of the standard library, a path, or a studio of a document.  Its import is
  kept where it came first among those of its kind, and has one line in the file, from which its
  target can be read back.

  Main statements:
    * `ImportEntry.declares_importLine`: the import that an entry stands for.
    * `Node.run_studio`: what stands above the declarations of a file.
    * `Manifest.imports_rendered`: the imports of an accepted manifest, read back from its file.
-/
import FeatureStudio.Proofs.Manifest.Diagnostics
import FeatureStudio.Proofs.Render.Independence

namespace FeatureStudio

open Build Render

/-! ## §1. Entries. -/

/-- The import that an entry stands for: of the standard library, at a path, or of a document.  A
path without a version has the empty one, a document may be pinned to one. -/
inductive ImportEntry.Declares : ImportEntry → Import → Prop
  | std {i : ImportEntry} {studio : String} (hdocument : i.document = none) (hpath : i.path = none)
    (hstudio : i.studio = some studio) : Declares i ⟨.std studio, i.exported⟩
  | path {i : ImportEntry} {file : String} (hdocument : i.document = none)
    (hpath : i.path = some file) :
    Declares i ⟨.path file (i.version.getD emptyVersion), i.exported⟩
  | document {i : ImportEntry} {name studio : String} (hdocument : i.document = some name)
    (hpath : i.path = none) (hstudio : i.studio = some studio) :
    Declares i ⟨.document name studio i.version, i.exported⟩

/-- **An entry that keeps the rules has the import that it stands for.** -/
theorem ImportEntry.declares_importLine {i : ImportEntry} (h : i.WellFormed) :
    i.Declares i.importLine := by
  obtain ⟨studio, document, path, version, exported⟩ := i
  cases document with
  | none =>
      cases path with
      | some file => exact .path rfl rfl
      | none =>
          cases studio with
          | some studio => exact .std rfl rfl rfl
          | none => exact absurd h.target (by simp)
  | some name =>
      cases path with
      | some file => exact absurd ⟨rfl, rfl⟩ h.unambiguous
      | none =>
          cases studio with
          | none => exact absurd (h.studio rfl) (by simp)
          | some studio => cases version <;> exact .document rfl rfl rfl

/-- An entry stands for one import only. -/
theorem ImportEntry.Declares.eq_importLine {i : ImportEntry} {j : Import} (h : i.Declares j) :
    j = i.importLine := by
  obtain ⟨studio, document, path, version, exported⟩ := i
  cases h with
  | std hdocument hpath hstudio =>
      cases hdocument
      cases hpath
      cases hstudio
      rfl
  | path hdocument hpath =>
      cases hdocument
      cases hpath
      rfl
  | document hdocument hpath hstudio =>
      cases hdocument
      cases hpath
      cases hstudio
      cases version <;> rfl

/-! ## §2. The file. -/

/-- **What stands above the declarations of a file**, whatever these are. -/
theorem Node.run_studio (stdImports imports : List Import) (body : List Node) (c : Context) :
    ∃ rest, (run (.inScope .top) (Node.studio stdImports imports body).build c).1
      = World.fileHead ⟨c.stdVersion, c.documents, false⟩ stdImports imports ++ rest := by
  let w : World := ⟨c.stdVersion, c.documents, false⟩
  let s : State := c.state.override (.inScope .top)
  -- the rule that asks for nothing is enough to know that the declarations have a text
  have hobeys : (Part.node (.studio stdImports imports body)).Obeys .free w s :=
    Part.obeys_free fun t _ _ _ t' ht' => by rw [State.Alike.eq ht']
  have hparts : Each (LaysPart .free w s) (buildAll body) _ :=
    each_buildAll (composes_nodes w.writable_free body) hobeys (k := some 0) fun n hn => by
      have htop : s.scope = .top := rfl
      simpa [Part.parts, Node.parts, htop] using hn
  have hbody : Lays .free w s (joined { separator := "\n", scope := some .top } (buildAll body)) _ :=
    lays_joined rfl hparts trivial trivial
  have hstudio : Ensures w s (fun _ => Render.studio stdImports imports (buildAll body)) fun f _ =>
      ∃ g : Indent → String, f = fun u => w.fileHead stdImports imports ++ g u :=
    ensures_studio (s := s) rfl (hbody.mono fun g _ _ _ _ => ⟨g, rfl⟩)
  obtain ⟨_, _, hstep, g, rfl⟩ := Ensures.run (o := .inScope .top) (s := c.state) hstudio
  exact ⟨g c.indent, congrArg Prod.fst (hstep c ⟨rfl, rfl, .refl _⟩)⟩

namespace World

theorem isEmpty_importLines (w : World) (imports : List Import) :
    (w.importLines imports).isEmpty = imports.isEmpty := by
  cases imports with
  | nil => rfl
  | cons i rest =>
      unfold importLines
      rw [List.map_cons, String.join_cons, List.isEmpty_cons, Bool.eq_false_iff, ne_eq,
        String.isEmpty_iff]
      intro hempty
      have hfeed := (String.append_eq_empty_iff.mp (String.append_eq_empty_iff.mp hempty).1).2
      exact absurd hfeed (by decide)

/-- The import lines of a rendering, without their line feeds. -/
def linesOf (w : World) (imports : List Import) : List String :=
  imports.map fun i => i.line (w.target i.source)

theorem importLines_eq (w : World) (imports : List Import) :
    w.importLines imports = String.join ((w.linesOf imports).map (· ++ "\n")) := by
  unfold linesOf importLines
  rw [List.map_map]
  rfl

theorem lineFeed_not_mem_linesOf (w : World) (imports : List Import) :
    ∀ line ∈ w.linesOf imports, '\n' ∉ line.toList := by
  intro line hline
  obtain ⟨i, -, rfl⟩ := List.mem_map.mp hline
  exact i.lineFeed_not_mem_line _

/-- Read back, the lines say whether the imports are exported, and where they point. -/
theorem readLine_linesOf (w : World) (imports : List Import) :
    (w.linesOf imports).map Import.readLine
      = imports.map fun i => some (i.exported, w.target i.source) := by
  unfold linesOf
  rw [List.map_map]
  exact List.map_congr_left fun i _ => i.readLine_line _

/-- Above the declarations stand the version, the lines of the standard library, and the other lines
behind a blank line if there are any. -/
theorem fileHead_eq (w : World) {stdImports : List Import} (hne : stdImports ≠ [])
    (imports : List Import) :
    w.fileHead stdImports imports = "FeatureScript " ++ w.stdVersion ++ ";\n"
      ++ String.join ((w.linesOf stdImports).map (· ++ "\n"))
      ++ (if (w.linesOf imports).isEmpty then "" else "\n")
      ++ String.join ((w.linesOf imports).map (· ++ "\n")) ++ "\n" ++ banner ++ "\n\n" := by
  have hstd : stdImports.isEmpty = false := List.isEmpty_eq_false_iff.mpr hne
  have hothers : (w.linesOf imports).isEmpty = imports.isEmpty := List.isEmpty_map
  unfold fileHead
  dsimp only
  rw [isEmpty_importLines, isEmpty_importLines, hstd, Bool.false_or, hothers, importLines_eq,
    importLines_eq]

end World

namespace Manifest

/-- The imports that a manifest stands for. -/
theorem forall₂_declares {m : Manifest} (h : m.Accepted) :
    List.Forall₂ ImportEntry.Declares m.imports (m.imports.map ImportEntry.importLine) := by
  rw [List.forall₂_map_right_iff, List.forall₂_same]
  exact fun i hi => ImportEntry.declares_importLine (h.imports i hi)

/-- What the line of an import says: whether it is exported, and where it points. -/
def said (m : Manifest) (i : Import) : Option (Bool × ImportTarget) :=
  some (i.exported, i.source.target m.studio.stdVersion m.resolver)

/-- What the head of a file says of the imports of its manifest.  There is one line for every import,
of each kind where it came first: those of the standard library with its common part as the first,
then the others behind a blank line if there are any.  Read back, every line says whether the import
is exported, and where it points. -/
structure ImportSection (m : Manifest) (content : String) (imports : List Import)
    (stdLines otherLines : List String) : Prop where
  declares : List.Forall₂ ImportEntry.Declares m.imports imports
  content : ∃ rest, content = "FeatureScript " ++ m.studio.stdVersion ++ ";\n"
    ++ String.join (stdLines.map (· ++ "\n")) ++ (if otherLines.isEmpty then "" else "\n")
    ++ String.join (otherLines.map (· ++ "\n")) ++ "\n" ++ banner ++ rest
  lines : ∀ line ∈ stdLines ++ otherLines, '\n' ∉ line.toList
  common : stdLines.head?.bind Import.readLine
    = some (false, ⟨"onshape/std/common.fs", m.studio.stdVersion ++ ".0"⟩)
  std : stdLines.map Import.readLine
    = ((Import.std "common.fs" :: imports).filter Import.isStd).eraseDups.map m.said
  others : otherLines.map Import.readLine
    = (imports.filter fun i => !i.isStd).eraseDups.map m.said

/-- **The imports of a manifest survive to the file**, if validation accepts the manifest. -/
theorem imports_rendered {m : Manifest} {source : String} (h : m.validate source = .ok ()) :
    ∃ r imports stdLines otherLines, m.render = .ok r ∧
      m.ImportSection r.content imports stdLines otherLines := by
  have hm := (m.validate_ok_iff source).mp h
  obtain ⟨_, s, -, hs⟩ := hm.toStudio_ok
  obtain ⟨enums, ui, lookups, -, -, -, rfl⟩ := (m.toStudio_eq_ok_iff s).mp hs
  let w : World := ⟨m.studio.stdVersion, m.resolver, false⟩
  have hstd : m.imported.stdImports
      = ((Import.std "common.fs" :: m.imports.map ImportEntry.importLine).filter
          Import.isStd).eraseDups := by
    rw [m.imported_eq]
    exact Studio.stdImports_foldl_addImport rfl _
  have hothers : m.imported.imports
      = ((m.imports.map ImportEntry.importLine).filter fun i => !i.isStd).eraseDups := by
    rw [m.imported_eq, Studio.imports_foldl_addImport rfl, List.filter_cons, if_neg (by decide)]
  -- the common part of the standard library comes first, whatever the manifest imports
  obtain ⟨more, hmore⟩ : ∃ more, m.imported.stdImports = Import.std "common.fs" :: more := by
    rw [hstd, List.filter_cons, if_pos (by decide), List.eraseDups_cons]
    exact ⟨_, rfl⟩
  obtain ⟨rest, hrest⟩ := Node.run_studio m.imported.stdImports m.imported.imports
    (m.bodyOf enums ui lookups) m.context
  refine ⟨_, m.imports.map ImportEntry.importLine, w.linesOf m.imported.stdImports,
    w.linesOf m.imported.imports, render_of_toStudio hs, ?_⟩
  refine { declares := forall₂_declares hm, content := ?content, lines := ?lines,
           common := ?common, std := ?std, others := ?others }
  case content =>
    have hne : m.imported.stdImports ≠ [] := hmore ▸ List.cons_ne_nil _ _
    refine ⟨"\n\n" ++ rest, hrest.trans ?_⟩
    show w.fileHead _ _ ++ rest = _
    rw [w.fileHead_eq hne, String.append_assoc]
  case lines =>
    intro line hline
    rcases List.mem_append.mp hline with hline | hline
    · exact w.lineFeed_not_mem_linesOf _ line hline
    · exact w.lineFeed_not_mem_linesOf _ line hline
  case common =>
    rw [hmore, World.linesOf, List.map_cons, List.head?_cons, Option.bind_some,
      Import.readLine_line]
    rfl
  case std =>
    rw [← hstd]
    exact w.readLine_linesOf _
  case others =>
    rw [← hothers]
    exact w.readLine_linesOf _

/-- A manifest with imports of all kinds, some of them again, and with paths that have to be
escaped. -/
def importing : Manifest :=
  { unlisted with
    imports :=
      let none : ImportEntry := ⟨none, none, none, none, false⟩
      [{ none with document := some "parts", studio := some "plate.fs" },
       { none with studio := some "geometry.fs", exported := true },
       { none with path := some "a\"b\\c\n", version := some "0099" },
       { none with document := some "parts", studio := some "plate.fs", version := some "88" },
       { none with studio := some "common.fs" },
       { none with path := some "tools/tube", exported := true },
       { none with document := some "profiles", studio := some "plate.fs" },
       { none with path := some "tools/tube", exported := true, version := some emptyVersion }] }

theorem importing_rendered :
    importing.validate "" = .ok () ∧
      ∃ (r : RenderedStudio) (stdLines otherLines : List String), importing.render = .ok r ∧
      stdLines.map Import.readLine
        = [some (false, ⟨"onshape/std/common.fs", "2144.0"⟩),
           some (true, ⟨"onshape/std/geometry.fs", "2144.0"⟩)] ∧
      otherLines.map Import.readLine
        = [some (false, ⟨"0123", "4567"⟩), some (false, ⟨"a\"b\\c\n", "0099"⟩),
           some (false, ⟨"0123", "88"⟩), some (true, ⟨"tools/tube", emptyVersion⟩),
           some (false, ⟨"<INVALID_DOCUMENT_NAME>", emptyVersion⟩)] := by
  have h : importing.validate "" = .ok () := by rfl
  obtain ⟨r, imports, stdLines, otherLines, hr, hsection⟩ := imports_rendered h
  have himports : imports = importing.imports.map ImportEntry.importLine := by
    have heq := hsection.declares.imp fun _ _ h => h.eq_importLine.symm
    rw [← List.forall₂_map_left_iff, List.forall₂_eq_eq_eq] at heq
    exact heq.symm
  refine ⟨h, r, stdLines, otherLines, hr, hsection.std.trans ?_, hsection.others.trans ?_⟩
  · rw [himports]
    decide +kernel
  · rw [himports]
    decide +kernel

end Manifest

end FeatureStudio
