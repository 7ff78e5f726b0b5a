/-
  FeatureStudio.Proofs.Render.Markers: broken spots can be seen, and are reported.

  A node in a scope where it cannot stand leaves a marker in the text and a warning beside it.
  Wherever the text is put then, into a literal, a level deeper, into a comment, the marker is
  still there.  The bodies of a test predicate are rendered twice, and where they do not differ
  one of them is dropped; but then the other one has as many markers.

  Main statements:
    * `Composed.counted`: markers and violations of a text that is put together.
    * `Node.run_reportsMarkers`: those of a node.
-/
import FeatureStudio.Proofs.Render.TreeComposition
import FeatureStudio.Proofs.Text.Markers

namespace FeatureStudio

open Build Render

/-! ## §1. What is counted. -/

/-- The warning was raised for a node in a scope where it cannot stand. -/
def Diagnostic.IsScopeViolation (d : Diagnostic) : Prop :=
  ∃ expected, d = ⟨d.scope, scopeViolation expected d.scope, none⟩

/-- The number of warnings that name no declaration. -/
def violations (ds : List Diagnostic) : Nat := ds.countP (·.location.isNone)

/-- No text supplied with the parts that are reached has an angle bracket. -/
def Part.Unbracketed (s : State) (p : Part) : Prop :=
  ∀ t q, p.Reaches s t q → (∀ x ∈ q.texts, '<' ∉ x.toList) ∧
    ∀ text sets, q = .node (.snippet text sets) → '<' ∉ (text t).toList

/-- A test predicate is declared in the tree. -/
def Part.DeclaresTests (s : State) (p : Part) : Prop :=
  ∃ t name exported tests,
    p.Reaches s t (.node (.testPredicate name exported tests)) ∧ t.scope = .top

/-- The markers in the text of a node are reported: there are not more of them than violations,
and none only if there is no violation; and where no test predicate is declared there are as many
of them. -/
def Node.ReportsMarkers (n : Node) (o : Overrides) (c : Context) : Prop :=
  ∃ text ds, run o n.build c = (text, c.reported ds)
    ∧ (∀ d ∈ ds, d.location = none ↔ d.IsScopeViolation)
    ∧ Text.occurrences (sentinel "invalid scope") text ≤ violations ds
    ∧ (Text.occurrences (sentinel "invalid scope") text = 0 ↔ violations ds = 0)
    ∧ (¬ (Part.node n).DeclaresTests (c.state.override o) →
      Text.occurrences (sentinel "invalid scope") text = violations ds)

/-! ## §2. Texts that are put together. -/

/-- Texts have no markers of their own.  Where violations are to be counted once, test predicates
have to do without. -/
def Rule.marks (once : Prop) : Rule where
  text s := Marks 0 s.toList
  nested := True
  quoted _ := True
  tested _ ds _ es := once → ds = [] ∧ es = []
  plain h := .plain h
  append h h' := by
    rw [String.toList_append]
    exact h.append h'
  quote h := h.quote
  capital h := h.upperFirst
  placeholder e := by
    rw [← List.append_nil e.placeholder.toList]
    exact .bracket (placeholder_mem e) .nil
  quoted_const _ := trivial
  tested_same _ _ := ⟨rfl, rfl⟩

/-- Markers in characters, next to the number of violations. -/
def Counted (once : Prop) (cs : List Char) (k : Nat) : Prop :=
  ∃ n, Marks n cs ∧ n ≤ k ∧ (n = 0 → k = 0) ∧ (once → n = k)

namespace Counted

variable {once : Prop} {cs ds : List Char} {j k : Nat}

theorem of_marks (h : Marks k cs) : Counted once cs k := ⟨k, h, Nat.le_refl k, id, fun _ => rfl⟩

theorem imp (h : Counted once cs k) (h' : ∀ {n}, Marks n cs → Marks n ds) :
    Counted once ds k := by
  obtain ⟨n, hn, hrest⟩ := h
  exact ⟨n, h' hn, hrest⟩

theorem append (h : Counted once cs j) (h' : Counted once ds k) :
    Counted once (cs ++ ds) (j + k) := by
  obtain ⟨m, hm, hle, hzero, honce⟩ := h
  obtain ⟨n, hn, hle', hzero', honce'⟩ := h'
  refine ⟨m + n, hm.append hn, Nat.add_le_add hle hle', fun hsum => ?_, fun ho => ?_⟩
  · rw [hzero (by omega), hzero' (by omega)]
  · rw [honce ho, honce' ho]

/-- Of two texts with the same markers one may be dropped, unless violations count once. -/
theorem dropped (h : Counted once cs j) (h' : Counted once cs k) (ho : once → j = 0) :
    Counted once cs (j + k) := by
  obtain ⟨m, hm, hle, hzero, honce⟩ := h
  obtain ⟨n, hn, hle', hzero', honce'⟩ := h'
  refine ⟨n, hn, Nat.le_trans hle' (Nat.le_add_left k j), fun hnone => ?_, fun h => ?_⟩
  · have hsame : m = n := hm.countP_tails.symm.trans hn.countP_tails
    rw [hzero (hsame.trans hnone), hzero' hnone]
  · rw [ho h, honce' h, Nat.zero_add]

end Counted

theorem lt_not_mem_unit (u : Indent) : '<' ∉ u.unit.toList := by
  intro h
  rcases Indent.mem_unit h with h | h
  · cases h
  · cases h

/-- The body of a test predicate has the markers of both bodies, or of one of two that are the
same. -/
theorem Counted.testBody {once : Prop} {standard inlined : String} {j k : Nat}
    (h : Counted once standard.toList j) (h' : Counted once inlined.toList k)
    (ho : once → j = 0) :
    Counted once (Render.testBody standard inlined).toList (j + k) := by
  unfold Render.testBody
  split
  · rename_i hsame
    subst hsame
    exact h.dropped h' ho
  · have hcomment : Counted once
        ("/* " ++ Text.onOneLine (Text.trimEnd standard) ++ " */\n").toList j := by
      refine h.imp fun hn => ?_
      rw [String.toList_append, String.toList_append]
      exact (hn.trimEnd.onOneLine.prepend (by decide)).append (.plain (by decide))
    rw [String.toList_append]
    exact hcomment.append h'

/-- The markers in a text that is put together, for every indentation. -/
theorem Composed.counted {once : Prop} {w : World} {f : Indent → String} {ds : List Diagnostic}
    {vs : List Visit} (h : Composed (.marks once) w f ds vs) (u : Indent) :
    Counted once (f u).toList (violations ds) := by
  -- a marker is put where a violation is reported; what is done to texts afterwards makes none
  induction h with
  | text h => exact .of_marks h
  | violation expected found =>
      have hmarker : Marks 1 (sentinel "invalid scope").toList := by
        rw [toList_sentinel, ← List.append_nil scopeMarker]
        exact .bracket scopeMarker_mem .nil
      exact .of_marks hmarker
  | warned scope message location _ ih => exact ih
  | append _ _ ihf ihg =>
      rw [String.toList_append, violations, List.countP_append]
      exact ihf.append ihg
  | nested _ hclose _ _ ih =>
      refine ih.imp fun hn => ?_
      rw [String.toList_append, String.toList_append, Indent.toList_lines_one]
      exact ((hn.indent (lt_not_mem_unit u) true).prepend (by decide)).append hclose
  | quoted _ _ ih => exact ih.imp fun hn => hn.quote
  | apart _ ih =>
      dsimp only
      split
      · refine ih.imp fun hn => ?_
        rw [String.toList_append, String.toList_append]
        exact (hn.prepend (by decide)).append (.plain (by decide))
      · exact ih
  | @tested f g ds es vs ws hr _ _ ihf ihg =>
      rw [violations, List.countP_append]
      refine ihf.testBody ihg fun ho => ?_
      rw [(hr ho).1]
      rfl
  | part _ _ _ _ ih => exact ih

/-- Warnings that name no declaration are violations, and only those. -/
theorem Composed.isScopeViolation_iff {r : Rule} {w : World} {f : Indent → String}
    {ds : List Diagnostic} {vs : List Visit} (h : Composed r w f ds vs) :
    ∀ d ∈ ds, d.location = none ↔ d.IsScopeViolation := by
  induction h with
  | text _ => exact fun d hd => by cases hd
  | violation expected found =>
      intro d hd
      rw [List.mem_singleton.mp hd]
      exact ⟨fun _ => ⟨expected, rfl⟩, fun _ => rfl⟩
  | warned scope message location _ ih =>
      intro d hd
      rcases List.mem_cons.mp hd with rfl | hd
      · refine ⟨fun h => (by cases h), fun h => ?_⟩
        obtain ⟨expected, h⟩ := h
        cases congrArg Diagnostic.location h
      · exact ih d hd
  | append _ _ ihf ihg => exact fun d hd => (List.mem_append.mp hd).elim (ihf d) (ihg d)
  | nested _ _ _ _ ih => exact ih
  | quoted _ _ ih => exact ih
  | apart _ ih => exact ih
  | tested _ _ _ ihf ihg => exact fun d hd => (List.mem_append.mp hd).elim (ihf d) (ihg d)
  | part _ _ _ _ ih => exact ih

/-! ## §3. Nodes. -/

/-- The version of a context and the targets of its documents have no angle brackets. -/
structure Context.Unbracketed (c : Context) : Prop where
  stdVersion : '<' ∉ c.stdVersion.toList
  target : ∀ {document studio : String} {target : ImportTarget},
    c.documents.resolve document studio none = .ok target →
      '<' ∉ target.path.toList ∧ '<' ∉ target.version.toList

theorem Part.Unbracketed.obeys {w : World} {s : State} {p : Part} {once : Prop}
    (h : p.Unbracketed s) (hdepth : w.anyDepth = false) (ho : once → ¬ p.DeclaresTests s) :
    p.Obeys (.marks once) w s := fun t q hq => {
  texts := fun x hx => .plain ((h t q hq).1 x hx)
  nested := fun _ => trivial
  quoted := fun _ _ _ _ _ => trivial
  tested := fun hp hs honce => absurd ⟨t, _, _, _, hp ▸ hq, hs⟩ (ho honce)
  snippet := fun hp => ⟨.plain ((h t q hq).2 _ _ hp), fun t' ht' => by
    rw [hdepth] at ht'
    rw [ht'.eq]⟩ }

/-- **Broken spots are visible exactly when they are reported.**  If no angle bracket is supplied,
neither with the tree nor by the context, the markers in the text of a node stand for the
violations among the warnings it adds.  Nodes that are not of the library are snippets, which raise
none. -/
theorem Node.run_reportsMarkers (n : Node) (o : Overrides) (c : Context) (hc : c.Unbracketed)
    (hn : (Part.node n).Unbracketed (c.state.override o)) : n.ReportsMarkers o c := by
  let w : World := ⟨c.stdVersion, c.documents, false⟩
  let once : Prop := ¬ (Part.node n).DeclaresTests (c.state.override o)
  have hw : w.Writable (.marks once) := ⟨.plain hc.stdVersion, fun h =>
    ⟨.plain (hc.target h).1, .plain (hc.target h).2⟩⟩
  obtain ⟨f, ds, hrun, hf⟩ := n.run_composed hw (hn.obeys rfl id)
  obtain ⟨k, hk, hle, hzero, honce⟩ := hf.counted c.indent
  refine ⟨f c.indent, ds, hrun c ⟨rfl, rfl, .refl _⟩, hf.isScopeViolation_iff, ?_⟩
  rw [hk.occurrences]
  exact ⟨hle, ⟨hzero, fun h => by omega⟩, honce⟩

theorem Part.unbracketed_stdImport (s : State) :
    (Part.node (.importLine ⟨.std "common.fs", false⟩)).Unbracketed s := by
  intro t q hq
  cases hq with
  | refl =>
      refine ⟨fun x hx => ?_, fun _ _ h => by cases h⟩
      rw [List.mem_singleton.mp hx]
      decide
  | step hv => exact absurd hv List.not_mem_nil

/-- An import in a block is a broken spot, and is reported. -/
theorem Node.block_import_reportsMarkers :
    let n : Node := .block false [.importLine ⟨.std "common.fs", false⟩]
    (Part.node n).Unbracketed {} ∧ n.ReportsMarkers {} {}
      ∧ Text.occurrences (sentinel "invalid scope") (run {} n.build {}).1 = 1 := by
  intro n
  have hn : (Part.node n).Unbracketed {} := by
    intro t q hq
    unfold n at hq
    cases hq with
    | refl => exact ⟨fun x hx => absurd hx List.not_mem_nil, fun _ _ h => by cases h⟩
    | step hv hq =>
        cases List.mem_singleton.mp hv
        exact Part.unbracketed_stdImport _ t q hq
  have hc : ({} : Context).Unbracketed := ⟨by decide, fun h => by cases h⟩
  exact ⟨hn, n.run_reportsMarkers {} {} hc hn, by decide⟩

/-- If the version of a context reads like a marker, the text shows one that nothing reports. -/
theorem Node.not_reportsMarkers_of_version :
    ¬ ∀ (n : Node) (o : Overrides) (c : Context),
      (Part.node n).Unbracketed (c.state.override o) → n.ReportsMarkers o c := by
  intro h
  let n : Node := .importLine ⟨.std "common.fs", false⟩
  let c : Context := { stdVersion := sentinel "invalid scope" }
  obtain ⟨text, ds, hrun, -, hle, -⟩ := h n (.inScope .top) c (Part.unbracketed_stdImport _)
  have hmarked :
      Text.occurrences (sentinel "invalid scope") (run (.inScope .top) n.build c).1 = 1 := by
    decide
  have hquiet : (run (.inScope .top) n.build c).2.diagnostics = [] := rfl
  rw [hrun] at hmarked hquiet
  have hds : ds = [] := hquiet
  rw [hmarked, hds] at hle
  exact absurd hle (by decide)

end FeatureStudio
