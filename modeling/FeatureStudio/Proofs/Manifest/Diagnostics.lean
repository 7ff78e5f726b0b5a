/-
  FeatureStudio.Proofs.Manifest.Diagnostics: the warnings of a manifest that keeps the rules.

  The studio of an accepted manifest has its declarations at file level and its parameters in a UI
  predicate, so that all that is left to warn of can be read off the manifest: documents that are
  not listed, and groups that have no parameters.

  Main statements:
    * `Studio.stdImports_foldl_addImport`, `Studio.imports_foldl_addImport`: of every kind, an
      added import is kept where it came first.
    * `ParameterEntry.reports_node`: parameters warn of the empty groups among them.
    * `Manifest.flatMap_importWarnings`: the warnings of the imports.
    * `Manifest.diagnostics_render`: the warnings, in order.
-/
import FeatureStudio.Proofs.Enumeration.Lookup
import FeatureStudio.Proofs.Keyed
import FeatureStudio.Proofs.Manifest.Lowering
import FeatureStudio.Proofs.Render.Warnings
import FeatureStudio.Proofs.Script.Parts

namespace FeatureStudio

open Build Render
open Render (Operand)

/-! ## §1. What is told by the manifest. -/

/-- The document, studio, version and export of an import of a document. -/
def ImportEntry.documentImport? (i : ImportEntry) :
    Option (String × String × Option String × Bool) :=
  match i.document, i.studio with
  | some document, some studio => some (document, studio, i.version, i.exported)
  | _, _ => none

/-- What is said of an import of a document that the table does not list. -/
def unresolvedWarning? (table : DocumentTable) :
    String × String × Option String × Bool → Option Diagnostic
  | (document, studio, version, _) =>
    match table.resolve document studio version with
    | .ok _ => none
    | .error e => some ⟨.top, e.message, some (document ++ "/" ++ studio)⟩

/-- What is said of a group without parameters. -/
def ParameterEntry.emptyGroup? : ParameterEntry → Option Diagnostic
  | .group name _ [] _ => some ⟨.statement, "Parameter group is empty", some name⟩
  | .drivenGroup name groupName _ _ [] _ =>
    some ⟨.statement, "Parameter group is empty",
      some (groupName.getD (Text.nameLabel name))⟩
  | _ => none

namespace Manifest

/-- The warnings for imports: one for every document import, where it came first, that is not
found. -/
def importDiagnostics (m : Manifest) : List Diagnostic :=
  ((m.imports.filterMap ImportEntry.documentImport?).eraseDups).filterMap
    (unresolvedWarning? m.resolver)

/-- The warnings for groups, in the order of the manifest. -/
def groupDiagnostics (m : Manifest) : List Diagnostic :=
  (ParameterEntry.families m.parameters).filterMap ParameterEntry.emptyGroup?

end Manifest

/-! ## §2. Imports. -/

namespace Studio

/-- Imports of one kind that are added one after the other, unless they are there already, are kept
where they came first. -/
theorem kept_foldl_addImport {kept : Studio → List Import} {kind : Import → Bool}
    (hstep : ∀ (s : Studio) (i : Import), kept (s.addImport i)
      = if kind i then if i ∈ kept s then kept s else kept s ++ [i] else kept s)
    {s : Studio} (h : kept s = []) (added : List Import) :
    kept (added.foldl addImport s) = (added.filter kind).eraseDups := by
  induction added using List.reverseRecOn with
  | nil => exact h
  | append_singleton added i ih =>
      rw [List.foldl_append, List.filter_append]
      show kept ((added.foldl addImport s).addImport i) = _
      rw [hstep, ih]
      cases hkind : kind i with
      | true =>
          have hself : [i].filter kind = [i] := by simp [hkind]
          rw [hself, Keyed.eraseDups_append_single, if_pos rfl]
      | false => simp [hkind]

theorem stdImports_addImport (s : Studio) (i : Import) :
    (s.addImport i).stdImports
      = if i.isStd then if i ∈ s.stdImports then s.stdImports else s.stdImports ++ [i]
        else s.stdImports := by
  unfold addImport
  split
  · split <;> rfl
  · split <;> rfl

theorem imports_addImport (s : Studio) (i : Import) :
    (s.addImport i).imports
      = if !i.isStd then if i ∈ s.imports then s.imports else s.imports ++ [i]
        else s.imports := by
  unfold addImport
  cases i.isStd with
  | true => by_cases h : i ∈ s.stdImports <;> simp [h]
  | false => by_cases h : i ∈ s.imports <;> simp [h]

/-- **Imports of the standard library are kept where they came first.** -/
theorem stdImports_foldl_addImport {s : Studio} (h : s.stdImports = []) (added : List Import) :
    (added.foldl addImport s).stdImports = (added.filter Import.isStd).eraseDups :=
  kept_foldl_addImport stdImports_addImport h added

/-- **All other imports are kept where they came first.** -/
theorem imports_foldl_addImport {s : Studio} (h : s.imports = []) (added : List Import) :
    (added.foldl addImport s).imports = (added.filter fun i => !i.isStd).eraseDups :=
  kept_foldl_addImport imports_addImport h added

end Studio

/-- Elements that are told apart by what they are mapped to are dropped before or after that. -/
theorem filterMap_eraseDups {α β : Type} [BEq α] [LawfulBEq α] [BEq β] [LawfulBEq β]
    {f : α → Option β}
    (hinj : ∀ a a' b, f a = some b → f a' = some b → a = a') (as : List α) :
    as.eraseDups.filterMap f = (as.filterMap f).eraseDups := by
  induction as using List.reverseRecOn with
  | nil => rfl
  | append_singleton as a ih =>
      rw [Keyed.eraseDups_append_single, List.filterMap_append]
      cases ha : f a with
      | none =>
          have hnone : [a].filterMap f = [] := by simp [ha]
          rw [hnone, List.append_nil, ← ih]
          split
          · rfl
          · rw [List.filterMap_append, hnone, List.append_nil]
      | some b =>
          have hsome : [a].filterMap f = [b] := by simp [ha]
          -- the element was there before exactly if what it is mapped to was
          have hmem : a ∈ as.eraseDups ↔ b ∈ (as.filterMap f).eraseDups := by
            rw [List.mem_eraseDups, List.mem_eraseDups, List.mem_filterMap]
            refine ⟨fun h => ⟨a, h, ha⟩, ?_⟩
            rintro ⟨a', ha', hb⟩
            rwa [hinj a a' b ha hb]
          rw [hsome, Keyed.eraseDups_append_single, ← ih]
          rw [← ih] at hmem
          simp only [hmem]
          split
          · rfl
          · rw [List.filterMap_append, hsome]

/-- The document, studio, version and export of an import line. -/
def Import.documentImport? (i : Import) : Option (String × String × Option String × Bool) :=
  match i.source with
  | .document document studio version => some (document, studio, version, i.exported)
  | .std _ | .path .. => none

theorem ImportEntry.documentImport?_importLine (i : ImportEntry) :
    i.importLine.documentImport? = i.documentImport? := by
  obtain ⟨studio, document, path, version, exported⟩ := i
  cases studio <;> cases document <;> cases path <;> cases version <;> rfl

theorem Import.documentImport?_injective {i j : Import}
    {d : String × String × Option String × Bool} (hi : i.documentImport? = some d)
    (hj : j.documentImport? = some d) : i = j := by
  obtain ⟨source, exported⟩ := i
  obtain ⟨source', exported'⟩ := j
  cases source <;> cases hi
  cases source' <;> cases hj
  rfl

/-- What an import line warns of. -/
theorem importWarnings_eq (table : DocumentTable) (i : Import) :
    importWarnings table i = (i.documentImport?.bind (unresolvedWarning? table)).toList := by
  obtain ⟨source, exported⟩ := i
  cases source with
  | std studio => rfl
  | path path version => rfl
  | document document studio version =>
      show (match table.resolve document studio version with
        | .ok _ => []
        | .error e => [(⟨.top, e.message, some (document ++ "/" ++ studio)⟩ : Diagnostic)]) = _
      unfold Import.documentImport? unresolvedWarning?
      dsimp only [Option.bind_some]
      cases table.resolve document studio version <;> rfl

namespace Manifest

/-- The imports of a manifest are added behind the common part of the standard library. -/
theorem imported_eq (m : Manifest) :
    m.imported = (Import.std "common.fs" :: m.imports.map ImportEntry.importLine).foldl
      Studio.addImport { name := m.studio.name } := by
  unfold imported
  rw [List.foldl_cons, List.foldl_map]
  rfl

/-- **The warnings of the imports of a studio**, from the manifest. -/
theorem flatMap_importWarnings (m : Manifest) (table : DocumentTable) :
    m.imported.stdImports.flatMap (importWarnings table)
        ++ m.imported.imports.flatMap (importWarnings table)
      = ((m.imports.filterMap ImportEntry.documentImport?).eraseDups).filterMap
          (unresolvedWarning? table) := by
  -- imports of the standard library and of paths are always found, so only documents are left
  have hstd : m.imported.stdImports.flatMap (importWarnings table) = [] := by
    rw [List.flatMap_eq_nil_iff]
    intro i hi
    rw [m.imported_eq, Studio.stdImports_foldl_addImport rfl, List.mem_eraseDups] at hi
    replace hi : i.isStd = true := (List.mem_filter.mp hi).2
    obtain ⟨source, exported⟩ := i
    cases source with
    | std studio => rfl
    | path path version => cases hi
    | document document studio version => cases hi
  have hdocuments : m.imported.imports.filterMap Import.documentImport?
      = (m.imports.filterMap ImportEntry.documentImport?).eraseDups := by
    rw [m.imported_eq, Studio.imports_foldl_addImport rfl,
      filterMap_eraseDups fun _ _ _ => Import.documentImport?_injective]
    congr 1
    rw [List.filter_cons, if_neg (by decide), List.filterMap_filter, List.filterMap_map]
    have hother : ∀ i : Import, (if !i.isStd then i.documentImport? else none)
        = i.documentImport? := by
      rintro ⟨source, exported⟩
      cases source <;> rfl
    refine List.filterMap_congr fun i _ => ?_
    rw [← ImportEntry.documentImport?_importLine]
    exact hother i.importLine
  rw [hstd, List.nil_append, ← hdocuments, List.filterMap_filterMap, List.filterMap_eq_flatMap_toList]
  exact List.flatMap_congr fun i _ => importWarnings_eq table i

end Manifest

/-! ## §3. Annotations. -/

namespace MapBuilder

/-- The values that are present are rendered without any warning. -/
def IsQuiet (m : MapBuilder) : Prop := ∀ p ∈ m.entries, ∀ e ∈ p.2, e.operand.IsQuiet

theorem isQuiet_entry {m : MapBuilder} (h : m.IsQuiet) (key : String) {value : Expr}
    (hv : value.operand.IsQuiet) : (m.entry key value).IsQuiet := by
  intro p hp e he
  rcases Keyed.mem_put hp with hp | rfl
  · exact h p hp e he
  · rwa [← Option.some.inj he]

theorem isQuiet_text {m : MapBuilder} (h : m.IsQuiet) (key value : String) :
    (m.text key value).IsQuiet := isQuiet_entry h key (Operand.isQuiet_token value)

theorem isQuiet_bare {m : MapBuilder} (h : m.IsQuiet) (key : String) {value : Expr}
    (hv : value.operand.IsQuiet) : (m.bare key value).IsQuiet := isQuiet_entry h key hv

theorem isQuiet_addBare {m : MapBuilder} (h : m.IsQuiet) (key : String) {value : Option Expr}
    (hv : ∀ e ∈ value, e.operand.IsQuiet) :
    (ParameterAnnotations.addBare m key value).IsQuiet := by
  cases value with
  | none => exact h
  | some e => exact isQuiet_bare h key (hv e rfl)

theorem isQuiet_addTexts (texts : List (String × String)) : ∀ {m : MapBuilder}, m.IsQuiet →
    (texts.foldl (fun m p => m.text p.1 p.2) m).IsQuiet := by
  induction texts with
  | nil => exact fun h => h
  | cons p texts ih => exact fun h => ih (isQuiet_text h p.1 p.2)

/-- The annotation of such a map warns of nothing. -/
theorem IsQuiet.annotationLine {m : MapBuilder} (h : m.IsQuiet) (c : Context) :
    Quiet c m.literal.annotationLine := by
  have hoperands : ∀ entries : List (String × Expr), (∀ p ∈ entries, p.2.operand.IsQuiet) →
      ∀ p ∈ entryOperands entries, p.2.IsQuiet := by
    intro entries
    induction entries with
    | nil => exact fun _ p hp => absurd hp List.not_mem_nil
    | cons entry entries ih =>
        intro hentries p hp
        rcases List.mem_cons.mp hp with rfl | hp
        · exact hentries entry List.mem_cons_self
        · exact ih (fun q hq => hentries q (List.mem_cons_of_mem _ hq)) p hp
  refine quiet_annotationLine m.style (hoperands m.present fun p hp => ?_) c
  obtain ⟨q, hq, hvalue⟩ := List.mem_filterMap.mp hp
  obtain ⟨e, he, rfl⟩ := Option.map_eq_some_iff.mp hvalue
  exact h q hq e he

end MapBuilder

/-- The annotation of a feature warns of nothing. -/
theorem FeatureAnnotations.quiet_annotationLine (a : FeatureAnnotations) (c : Context) :
    Quiet c a.literal.annotationLine := by
  refine MapBuilder.IsQuiet.annotationLine (MapBuilder.isQuiet_addBare
    (MapBuilder.isQuiet_addTexts _ ?_) _ fun e he => ?_) c
  · have htitle : (({ style := { quoteValues := true, inline := false } } : MapBuilder).text
        "Feature Type Name" a.title |>.text "UIHint" "NO_PREVIEW_PROVIDED").IsQuiet :=
      MapBuilder.isQuiet_text (MapBuilder.isQuiet_text (fun p hp => absurd hp List.not_mem_nil) _ _)
        _ _
    split
    · exact htitle
    · exact MapBuilder.isQuiet_bare htitle _ (Operand.isQuiet_token _)
  · obtain ⟨_, -, rfl⟩ := Option.map_eq_some_iff.mp he
    exact Operand.isQuiet_token _

/-- The annotation of a parameter warns of nothing, if its filter does not. -/
theorem ParameterAnnotations.quiet_annotationLine {a : ParameterAnnotations}
    (h : ∀ e ∈ a.filter, e.operand.IsQuiet) (c : Context) :
    Quiet c a.literal.annotationLine := by
  -- entry by entry: each is a text or a token, or not there
  have hempty : ({ style := { quoteValues := true } } : MapBuilder).IsQuiet :=
    fun p hp => absurd hp List.not_mem_nil
  have hdefault : ∀ {m : MapBuilder} (d : Option DefaultValue), m.IsQuiet →
      (addDefault m d).IsQuiet := by
    intro m d hm
    rcases d with _ | b | s
    · exact hm
    · exact MapBuilder.isQuiet_bare hm _ (Operand.isQuiet_token _)
    · exact MapBuilder.isQuiet_text hm _ _
  have hhints : ∀ {m : MapBuilder} (hints : Option UiHints), m.IsQuiet →
      (addHints m hints).IsQuiet := by
    intro m hints hm
    cases hints with
    | none => exact hm
    | some hints =>
        unfold addHints
        dsimp only
        split
        · exact hm
        · exact MapBuilder.isQuiet_bare hm _ (Operand.isQuiet_token _)
  have htoken : ∀ {α : Type} {o : Option α} {f : α → String},
      ∀ e ∈ o.map fun a => Expr.token (f a), e.operand.IsQuiet := by
    intro α o f e he
    obtain ⟨_, -, rfl⟩ := Option.map_eq_some_iff.mp he
    exact Operand.isQuiet_token _
  have hnamed := hhints a.hints (hdefault a.default (MapBuilder.isQuiet_text hempty "Name" a.label))
  exact MapBuilder.IsQuiet.annotationLine (MapBuilder.isQuiet_addBare (MapBuilder.isQuiet_addTexts _
    (MapBuilder.isQuiet_addBare (MapBuilder.isQuiet_addBare hnamed _ h) _ htoken)) _ htoken) c

/-! ## §4. Parameters. -/

/-- A parameter in a UI predicate warns of nothing. -/
theorem DialogParameter.reports_node {p : DialogParameter} (hannotations : p.annotations = none)
    (hfilter : ∀ e ∈ p.filter, e.operand.IsQuiet) :
    PartReports .statement true [] p.node.build := by
  refine .of fun c hscope hui => (quiet_uiParameter p.name p.declaration hscope hui ?_).reports
  intro d
  unfold annotationLiteral
  rw [hannotations]
  exact ParameterAnnotations.quiet_annotationLine hfilter d

/-- The test for a value warns of nothing. -/
theorem EnumValue.isQuiet_call (v : EnumValue) : v.call.operand.IsQuiet := by
  have htest : ∀ parameter, (v.test parameter).operand.IsQuiet := fun _ =>
    Operand.isQuiet_equality .equal (Operand.isQuiet_token _) (Operand.isQuiet_token _)
  unfold call predicate?
  cases v.companion with
  | none => exact htest _
  | some name =>
      refine Operand.isQuiet_wrapped fun c hc => quiet_testCall name (fun t ht => ?_) ?_
      · rw [List.mem_singleton.mp ht]
        exact htest _
      · rw [hc]
        exact fun h => by cases h

/-- A node under a test reports what it reports itself. -/
theorem reports_guardedBy {test : Expr} {n : Node} {ds : List Diagnostic}
    (ht : test.operand.IsQuiet) (h : PartReports .statement true ds n.build) :
    PartReports .statement true ds (IfChain.node { test, body := [n] }).build := by
  have hbody : List.Forall₂ (PartReports .statement true) [ds] [n.build] := .cons h .nil
  refine .of fun c hscope hui => ?_
  have hchain := reports_ifChain hscope hui ht hbody (fun b hb => absurd hb List.not_mem_nil)
  rwa [List.flatten_singleton] at hchain

/-- The test of a condition is that for a value. -/
theorem Declared.exists_member {d : Declared} {condition : String} {test : Expr}
    (h : d.condition condition = .ok test) : ∃ m : EnumMember, test = m.call := by
  unfold Declared.condition at h
  dsimp only at h
  split at h
  · cases h
  · split at h
    · next m _ =>
        cases h
        exact ⟨m, rfl⟩
    · cases h

theorem Declared.reports_guarded {d : Declared} {n guarded : Node} {condition : Option String}
    {ds : List Diagnostic} (hg : d.guarded n condition = .ok guarded)
    (h : PartReports .statement true ds n.build) :
    PartReports .statement true ds guarded.build := by
  cases condition with
  | none =>
      cases hg
      exact h
  | some condition =>
      obtain ⟨test, htest, rfl⟩ := guarded_eq_ok hg
      obtain ⟨m, rfl⟩ := exists_member htest
      exact reports_guardedBy m.isQuiet_call h

namespace ParameterEntry

/-- What a group reports: whether it has parameters, then what these report. -/
theorem reports_groupNode {g : GroupHeader} {ps : List ParameterEntry} {ns : List Node}
    {dss : List (List Diagnostic)} (hlength : ns.length = ps.length)
    (h : List.Forall₂ (PartReports .statement true) dss (buildAll ns)) :
    PartReports .statement true
      ((if ps.isEmpty then [⟨.statement, "Parameter group is empty", some g.name⟩] else [])
        ++ dss.flatten)
      (Node.group g ns).build := by
  refine .of fun c hscope hui => ?_
  have hgroup := reports_group g hscope hui h
  have hempty : (buildAll ns).isEmpty = ps.isEmpty := by
    cases ns <;> cases ps <;> first | rfl | cases hlength
  unfold emptyGroup at hgroup
  rwa [hempty] at hgroup

mutual

/-- **Parameters warn of the empty groups among them**, at any depth. -/
theorem reports_node (d : Declared) : ∀ (entry : ParameterEntry) {n : Node},
    entry.node d = .ok n →
      PartReports .statement true (entry.family.filterMap emptyGroup?) n.build
  | .boolean flip name labels default condition, n, h => by
      refine d.reports_guarded h (DialogParameter.reports_node ?_ ?_)
      · cases flip <;> rfl
      · cases flip <;> exact fun e he => by cases he
  | .value kind name bounds labels condition, n, h => by
      refine d.reports_guarded h (DialogParameter.reports_node ?_ ?_)
      · cases bounds <;> rfl
      · cases bounds <;> exact fun e he => by cases he
  | .query name filter maxPicks labels condition, n, h => by
      refine d.reports_guarded h (DialogParameter.reports_node rfl ?_)
      intro e he
      cases he
      exact Operand.isQuiet_token filter
  | .choice enumName labels default style condition, n, h => by
      obtain ⟨built, -, hguarded⟩ := bind_eq_ok_iff.mp h
      refine d.reports_guarded hguarded (DialogParameter.reports_node ?_ ?_)
      · cases style <;> rfl
      · cases style <;> exact fun e he => by cases he
  | .group name collapsed ps condition, n, h => by
      obtain ⟨ns, hns, hguarded⟩ := bind_eq_ok_iff.mp h
      obtain ⟨dss, hparts, hlength, hflatten⟩ := reports_nodes d ps hns
      have hgroup := reports_groupNode (g := { name, collapsed }) hlength hparts
      rw [hflatten] at hgroup
      cases ps <;> exact d.reports_guarded hguarded hgroup
  -- the boolean parameter, which warns of nothing, then the group under the test for it
  | .drivenGroup name groupName description collapsed ps condition, n, h => by
      obtain ⟨ns, hns, hguarded⟩ := bind_eq_ok_iff.mp h
      obtain ⟨dss, hparts, hlength, hflatten⟩ := reports_nodes d ps hns
      have hboolean : PartReports .statement true []
          ({ DialogParameter.boolean name with description } : DialogParameter).node.build :=
        DialogParameter.reports_node rfl fun e he => by cases he
      have htest : (Expr.definition name).operand.IsQuiet := Operand.isQuiet_token _
      have hgroup := reports_guardedBy htest
        (reports_groupNode
          (g := { (DrivenGroup.ofParameter name).header with
            name := groupName.getD (Text.nameLabel name), collapsed }) hlength hparts)
      refine d.reports_guarded hguarded (.of fun c hscope hui => ?_)
      have hjoined := reports_joined (c := c) (.cons hboolean (.cons hgroup .nil)) "\n" "" false hui
      rw [List.flatten_cons, List.flatten_singleton, hflatten] at hjoined
      cases ps <;> exact hjoined

theorem reports_nodes (d : Declared) : ∀ (ps : List ParameterEntry) {ns : List Node},
    parameterNodes d ps = .ok ns →
      ∃ dss, List.Forall₂ (PartReports .statement true) dss (buildAll ns) ∧
        ns.length = ps.length ∧ dss.flatten = (families ps).filterMap emptyGroup?
  | [], ns, h => by
      cases h
      exact ⟨[], .nil, rfl, rfl⟩
  | p :: rest, ns, h => by
      obtain ⟨n, hn, h⟩ := bind_eq_ok_iff.mp h
      obtain ⟨ns', hns, h⟩ := bind_eq_ok_iff.mp h
      cases h
      obtain ⟨dss, hparts, hlength, hflatten⟩ := reports_nodes d rest hns
      refine ⟨p.family.filterMap emptyGroup? :: dss, .cons (reports_node d p hn) hparts, ?_, ?_⟩
      · rw [List.length_cons, hlength, List.length_cons]
      · rw [List.flatten_cons, hflatten, families, List.filterMap_append]

end

end ParameterEntry

/-! ## §5. Lookup functions. -/

/-- A chain whose branches return something warns of nothing. -/
theorem IfChain.reports_returning {chain : IfChain} (hotherwise : chain.otherwise = none)
    (h : ∀ b ∈ chain.testedBranches, b.1.operand.IsQuiet ∧
      ∃ value, b.2 = [.returning value] ∧ value.operand.IsQuiet) (inUi : Bool) :
    PartReports .statement inUi [] chain.node.build := by
  have hbranch : ∀ b ∈ chain.testedBranches, b.1.operand.IsQuiet ∧
      ∀ p ∈ buildAll b.2, PartReports .statement inUi [] p := by
    rintro ⟨test, body⟩ hb
    obtain ⟨htest, value, rfl, hvalue⟩ := h _ hb
    refine ⟨htest, fun p hp => ?_⟩
    rw [List.mem_singleton.mp hp]
    exact .of fun c hscope _ => (quiet_returning hscope hvalue).reports
  obtain ⟨test, body, elseIfs, otherwise⟩ := chain
  cases hotherwise
  obtain ⟨⟨htest, hbody⟩, helse⟩ := List.forall_mem_cons.mp hbranch
  have hbranches : ∀ b ∈ FeatureStudio.branches elseIfs,
      b.1.IsQuiet ∧ ∀ p ∈ b.2, PartReports .statement inUi [] p := by
    rw [branches_eq]
    refine List.forall_mem_map.mpr fun b hb => ⟨(helse b hb).1, ?_⟩
    rw [← buildAll_eq]
    exact (helse b hb).2
  refine .of fun c hscope hui => ?_
  have hchain := reports_ifChain hscope hui htest (forall₂_quiet hbody) hbranches
  rwa [flatten_quiet] at hchain

/-- A lookup function warns of nothing. -/
theorem LookupEntry.reports_function {m : Manifest} {enums : List Enumeration}
    (hbuilds : m.Builds enums) {l : LookupEntry} {f : Function}
    (h : l.function (m.declared enums) = .ok f) (inUi : Bool) :
    PartReports .top inUi [] f.node.build := by
  obtain ⟨built, g, hbuilt, hg, rfl⟩ := LookupEntry.function_eq_ok h
  obtain ⟨e, -, he⟩ := Manifest.exists_entry hbuilds hbuilt
  obtain ⟨chain, hotherwise, hbranches, rfl⟩ := Enumeration.lookupFunction_eq_ok hg
  have hchain : PartReports .statement inUi [] chain.node.build := by
    refine IfChain.reports_returning hotherwise (fun b hb => ?_) inUi
    obtain ⟨member, hmember, value, hvalue, rfl⟩ := exists_of_mem_right hbranches hb
    -- the lookup expression is a text of the entry
    rw [EnumEntry.lookup_member he hmember] at hvalue
    obtain ⟨text, -, rfl⟩ := Option.map_eq_some_iff.mp hvalue
    exact ⟨member.isQuiet_call, _, rfl, Operand.isQuiet_token text⟩
  refine .of fun c hscope hui => ?_
  exact Render.reports_function _ hscope hui (.cons hchain .nil)

/-- A feature where it is declared warns of nothing. -/
theorem FeatureEntry.quiet_feature (entry : FeatureEntry) (name : String) {c : Context}
    (hscope : c.state.scope = .top) : Quiet c (entry.feature name).node.build := by
  refine Render.quiet_feature name hscope (FeatureAnnotations.quiet_annotationLine _)
    (Operand.isQuiet_call _ fun a ha => ?_) (Operand.isQuiet_call _ fun a ha => ?_)
  · rw [List.mem_singleton.mp ha]
    exact Operand.isQuiet_token _
  · rcases ha with _ | ⟨_, _ | ⟨_, _ | ⟨_, ha⟩⟩⟩
    · exact Operand.isQuiet_token _
    · exact Operand.isQuiet_token _
    · exact Operand.isQuiet_token _
    · cases ha

/-! ## §6. The whole. -/

/-- At file level the declarations report these warnings, one declaration after the other. -/
def DeclarationsReport (inUi : Bool) (ds : List Diagnostic) (ns : List Node) : Prop :=
  ∃ dss, List.Forall₂ (PartReports .top inUi) dss (buildAll ns) ∧ dss.flatten = ds

namespace DeclarationsReport

variable {inUi : Bool} {ds ds' : List Diagnostic} {ns ns' : List Node}

theorem of_quiet (h : ∀ n ∈ ns, PartReports .top inUi [] n.build) :
    DeclarationsReport inUi [] ns := by
  induction ns with
  | nil => exact ⟨[], .nil, rfl⟩
  | cons n ns ih =>
      obtain ⟨dss, hparts, hflatten⟩ := ih fun n' hn' => h n' (List.mem_cons_of_mem _ hn')
      exact ⟨[] :: dss, .cons (h n List.mem_cons_self) hparts, hflatten⟩

theorem singleton {n : Node} (h : PartReports .top inUi ds n.build) :
    DeclarationsReport inUi ds [n] := ⟨[ds], .cons h .nil, List.flatten_singleton⟩

theorem append (h : DeclarationsReport inUi ds ns) (h' : DeclarationsReport inUi ds' ns') :
    DeclarationsReport inUi (ds ++ ds') (ns ++ ns') := by
  have happend : ∀ ns : List Node, buildAll (ns ++ ns') = buildAll ns ++ buildAll ns' := by
    intro ns
    induction ns with
    | nil => rfl
    | cons n ns ih => exact congrArg (n.build :: ·) ih
  obtain ⟨dss, hparts, rfl⟩ := h
  obtain ⟨dss', hparts', rfl⟩ := h'
  refine ⟨dss ++ dss', ?_, List.flatten_append⟩
  rw [happend]
  exact List.rel_append hparts hparts'

end DeclarationsReport

namespace Manifest

/-- The dialog warns of its empty groups. -/
theorem reports_ui {m : Manifest} {d : Declared} {ui : List Node}
    (h : List.Forall₂ (fun ui n => uiNode d ui = .ok n) m.ui.toList ui) (inUi : Bool) :
    DeclarationsReport inUi m.groupDiagnostics ui := by
  unfold groupDiagnostics parameters
  cases hui : m.ui with
  | none =>
      rw [hui] at h
      cases h
      exact ⟨[], .nil, rfl⟩
  | some entry =>
      rw [hui] at h
      obtain ⟨n, rest, hn, hrest, rfl⟩ := List.forall₂_cons_left_iff.mp h
      cases hrest
      obtain ⟨ns, hns, rfl⟩ := uiNode_eq_ok hn
      obtain ⟨dss, hparts, -, hflatten⟩ := ParameterEntry.reports_nodes d entry.parameters hns
      refine .singleton (.of fun c hscope _ => ?_)
      show Reports c ((ParameterEntry.families entry.parameters).filterMap
        ParameterEntry.emptyGroup?) _
      rw [← hflatten]
      exact reports_uiPredicate entry.name hscope hparts

theorem exists_feature {m : Manifest} {n : Node} (h : n ∈ m.features) :
    ∃ (entry : FeatureEntry) (name : String), n = (entry.feature name).node := by
  unfold features at h
  split at h
  · exact ⟨_, _, List.mem_singleton.mp h⟩
  · cases h

/-- What the declarations of a studio warn of: the empty groups of the dialog. -/
theorem reports_bodyOf {m : Manifest} {enums : List Enumeration} {ui : List Node}
    {lookups : List Function} (hbuilds : m.Builds enums)
    (hui : List.Forall₂ (fun ui n => uiNode (m.declared enums) ui = .ok n) m.ui.toList ui)
    (hlookups : List.Forall₂ (fun l f => l.function (m.declared enums) = .ok f) m.lookups lookups)
    (inUi : Bool) : DeclarationsReport inUi m.groupDiagnostics (m.bodyOf enums ui lookups) := by
  -- of all declarations only the UI predicate has something to report
  have henums : DeclarationsReport inUi [] (enums.map Enumeration.node) := .of_quiet fun n hn => by
    obtain ⟨e, -, rfl⟩ := List.mem_map.mp hn
    exact quiet_run_enumeration e.declaration
  have hspecs : DeclarationsReport inUi [] ((m.bounds.map BoundEntry.spec).map Node.boundSpec) :=
    .of_quiet fun n hn => by
      obtain ⟨spec, -, rfl⟩ := List.mem_map.mp hn
      exact .of fun c hscope _ => (quiet_boundSpec spec hscope).reports
  have hfunctions : DeclarationsReport inUi [] (lookups.map Function.node) :=
    .of_quiet fun n hn => by
      obtain ⟨f, hf, rfl⟩ := List.mem_map.mp hn
      obtain ⟨l, -, hl⟩ := exists_of_mem_right hlookups hf
      exact LookupEntry.reports_function hbuilds hl inUi
  have hfeatures : DeclarationsReport inUi [] m.features := .of_quiet fun n hn => by
    obtain ⟨entry, name, rfl⟩ := exists_feature hn
    exact .of fun c hscope _ => (entry.quiet_feature name hscope).reports
  have hall := (((henums.append hspecs).append (reports_ui hui inUi)).append hfunctions).append
    hfeatures
  rwa [List.append_nil, List.append_nil] at hall

/-- **What the studio of a manifest warns of**: imports that are not found, then empty groups. -/
theorem reports_toStudio {m : Manifest} {s : Studio} (hs : m.toStudio = .ok s) :
    Reports m.context (m.importDiagnostics ++ m.groupDiagnostics)
      (run (.inScope .top) s.node.build) := by
  obtain ⟨enums, ui, lookups, hbuilds, hui, hlookups, rfl⟩ := (m.toStudio_eq_ok_iff s).mp hs
  obtain ⟨dss, hparts, hflatten⟩ := reports_bodyOf hbuilds hui hlookups false
  have hstudio := reports_studio (c := m.context.save.withState (·.override (.inScope .top)))
    m.imported.stdImports m.imported.imports rfl hparts
  rw [hflatten, ← List.append_assoc] at hstudio
  unfold importDiagnostics
  rw [← m.flatMap_importWarnings]
  exact .run hstudio

theorem render_of_toStudio {m : Manifest} {s : Studio} (hs : m.toStudio = .ok s) :
    m.render = .ok
      { name := s.name
        content := (run (.inScope .top) s.node.build m.context).1
        diagnostics := (run (.inScope .top) s.node.build m.context).2.diagnostics } := by
  unfold render
  rw [hs]
  rfl

/-- **Accepted manifests are rendered with nothing but the warnings that can be read off them**:
one for every document import, where it came first, that is not found, then one for every group
without parameters.  No state is left saved. -/
theorem diagnostics_render {m : Manifest} {source : String} (h : m.validate source = .ok ()) :
    ∃ s r, m.toStudio = .ok s ∧ m.render = .ok r ∧
      r.diagnostics = m.importDiagnostics ++ m.groupDiagnostics ∧
      (run (.inScope .top) s.node.build m.context).2.stack = [] := by
  obtain ⟨_, s, -, hs⟩ := ((m.validate_ok_iff source).mp h).toStudio_ok
  have hreports := reports_toStudio hs
  refine ⟨s, _, hs, render_of_toStudio hs, ?_, ?_⟩
  · show (run (.inScope .top) s.node.build m.context).2.diagnostics = _
    rw [hreports]
    rfl
  · rw [hreports]
    rfl

/-- A manifest that imports studios which are not listed, one of them twice, and whose dialog has
two empty groups beside one that is not. -/
def unlisted : Manifest where
  studio := { name := "frame.fs", stdVersion := "2144", indent := .tab }
  imports :=
    let tubes : ImportEntry :=
      { studio := some "tubes.fs", document := some "profiles", path := none, version := none
        exported := false }
    [tubes, { tubes with document := some "parts", studio := some "plate.fs" }, tubes,
      { tubes with document := some "parts" }]
  documents := [("parts", [("plate.fs", ⟨"0123", "4567"⟩)])]
  enums := []
  bounds := []
  lookups := []
  ui := some
    { name := "frame"
      parameters :=
        [.group "Size" false [] none,
          .group "Ends" false [.boolean false "capped" ⟨none, none⟩ true none] none,
          .drivenGroup "hasWall" none none true [] none] }
  feature := some { title := "Frame", description := none, filterSelectors := [] }

theorem unlisted_diagnostics :
    unlisted.validate "" = .ok () ∧
      unlisted.importDiagnostics ++ unlisted.groupDiagnostics
        = [⟨.top, "Failed to find document named profiles", some "profiles/tubes.fs"⟩,
          ⟨.top, "Failed to find feature studio named tubes.fs in document parts",
            some "parts/tubes.fs"⟩,
          ⟨.statement, "Parameter group is empty", some "Size"⟩,
          ⟨.statement, "Parameter group is empty", some "Has wall"⟩] ∧
      ∃ s r, unlisted.toStudio = .ok s ∧ unlisted.render = .ok r ∧
        r.diagnostics = unlisted.importDiagnostics ++ unlisted.groupDiagnostics ∧
        (run (.inScope .top) s.node.build unlisted.context).2.stack = [] := by
  have h : unlisted.validate "" = .ok () := by rfl
  refine ⟨h, ?_, diagnostics_render h⟩
  decide +kernel

end Manifest

end FeatureStudio
