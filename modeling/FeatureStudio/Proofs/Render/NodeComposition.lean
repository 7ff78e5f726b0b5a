/-
  FeatureStudio.Proofs.Render.NodeComposition: how the texts of nodes are put together.

  Every form of node is composed of the texts that are supplied with it, of constant texts and of
  what it renders, in each scope.  A node in a scope where it cannot stand is a marker.

  Main statements:
    * `lays_ifChain`, `lays_function`, `lays_group`, …: forms whose statements are in blocks.
    * `leaves_testPredicate`: the body of a test predicate, below the comment it may have.
    * `leaves_enumeration`: the values of an enumeration, and its companion predicates.
    * `lays_studio`, `lays_feature`: files and features.
-/
import FeatureStudio.Proofs.Decimal.Text
import FeatureStudio.Proofs.Keyed
import FeatureStudio.Proofs.Render.Composition
import FeatureStudio.Proofs.Render.Imports

namespace FeatureStudio

open Build Render

namespace Rule

variable {r : Rule}

theorem intercalate {separator : String} (hs : r.text separator) :
    ∀ {texts : List String}, (∀ t ∈ texts, r.text t) → r.text (separator.intercalate texts)
  | [], _ => r.plain (by rw [String.intercalate_nil]; decide)
  | [t], h => by
      rw [String.intercalate_singleton]
      exact h t List.mem_cons_self
  | t :: t' :: texts, h => by
      rw [String.intercalate_cons_cons]
      exact r.append (r.append (h t List.mem_cons_self) hs)
        (intercalate hs fun t ht => h t (List.mem_cons_of_mem _ ht))

theorem exportText (exported : Bool) : r.text (FeatureStudio.exportText exported) :=
  r.plain (by cases exported <;> decide)

theorem formalParameter {p : FormalParameter} (h : ∀ t ∈ p.texts, r.text t) : r.text p.text := by
  have hname : r.text p.name := h _ List.mem_cons_self
  unfold FormalParameter.text
  cases ht : p.typeName with
  | none => exact hname
  | some typeName =>
      refine r.append (r.append hname (r.plain (by decide))) (h _ ?_)
      rw [FormalParameter.texts, ht]
      exact List.mem_cons_of_mem _ List.mem_cons_self

end Rule

/-- A target that is found is listed, but for the version that may be asked for. -/
theorem DocumentTable.resolve_ok {table : DocumentTable} {document studio : String}
    {version : Option String} {target : ImportTarget}
    (h : table.resolve document studio version = .ok target) :
    ∃ listed, table.resolve document studio none = .ok listed ∧ target.path = listed.path ∧
      target.version = version.getD listed.version := by
  unfold resolve at h ⊢
  split at h
  · cases h
  · split at h
    · cases h
    · cases h
      exact ⟨_, rfl, rfl, rfl⟩

/-- The texts that a world brings itself, its version and the targets of its documents, may stand
in a rendering. -/
structure World.Writable (r : Rule) (w : World) : Prop where
  stdVersion : r.text w.stdVersion
  target : ∀ {document studio : String} {target : ImportTarget},
    w.documents.resolve document studio none = .ok target →
      r.text target.path ∧ r.text target.version

namespace Render

variable {r : Rule} {w : World} {s : State} {vs ws xs : List Visit}
  {a b : Operand} {os : List Operand} {parts : List Rendering}

/-! ## §1. Statements. -/

theorem lays_constant {name : String} (hname : r.text name) (exported : Bool)
    (h : s.scope ≠ .expression → a.IsLaid r w s vs) :
    Lays r w s (constant name a exported) (if s.scope = .expression then [] else vs) := by
  have hdeclared : ∀ head, r.text head → s.scope ≠ .expression →
      Lays r w s (constant.declaration name a head) vs := by
    intro head hhead hs
    refine (Operand.lays_text (h hs)).map fun f ds hf => ?_
    have hopen : r.text (head ++ "const " ++ name ++ " = ") :=
      r.append (r.append (r.append hhead (r.plain (by decide))) hname) (r.plain (by decide))
    exact (hf.prepend hopen).followed (r.plain (by decide))
  refine ensures_scope ?_
  cases hscope : s.scope with
  | expression => exact lays_text hname
  | top => exact hdeclared _ (Rule.exportText exported) (by rw [hscope]; decide)
  | statement => exact hdeclared "" (r.plain (by decide)) (by rw [hscope]; decide)

/-- What stands among statements only. -/
theorem lays_statement {step : Rendering} (h : s.scope = .statement → Lays r w s step vs) :
    Lays r w s (do
      if (← scope) ≠ .statement then expectedScope [.statement] else step)
      (if s.scope = .statement then vs else []) := by
  refine ensures_scope ?_
  by_cases hs : s.scope = .statement
  · rw [if_pos hs, if_neg fun hne => hne hs]
    exact h hs
  · rw [if_neg hs, if_pos hs]
    exact lays_expectedScope _

/-- What stands at file level only. -/
theorem lays_topLevel {step : Rendering} (h : s.scope = .top → Lays r w s step vs) :
    Lays r w s (do
      if (← scope) ≠ .top then expectedScope [.top] else step)
      (if s.scope = .top then vs else []) := by
  refine ensures_scope ?_
  by_cases hs : s.scope = .top
  · rw [if_pos hs, if_neg fun hne => hne hs]
    exact h hs
  · rw [if_neg hs, if_pos hs]
    exact lays_expectedScope _

theorem lays_declare {name : String} (hname : r.text name) {value : Option Operand}
    (h : s.scope = .statement → Each (fun o vs => o.IsLaid r w s vs) value.toList vs) :
    Lays r w s (declare name value) (if s.scope = .statement then vs else []) := by
  have hhead : r.text ("var " ++ name) := r.append (r.plain (by decide)) hname
  refine lays_statement fun hs => ?_
  cases value with
  | none =>
      cases h hs
      exact lays_text (r.append hhead (r.plain (by decide)))
  | some value =>
      cases h hs with
      | cons hvalue hnil =>
          cases hnil
          rw [List.append_nil]
          exact (Operand.lays_text hvalue).map fun f ds hf =>
            (hf.prepend (r.append hhead (r.plain (s := " = ") (by decide)))).followed
              (r.plain (by decide))

theorem lays_assign (ha : s.scope ≠ .top → a.IsLaid r w s vs)
    (hb : s.scope ≠ .top → b.IsLaid r w s ws) :
    Lays r w s (assign a b) (if s.scope = .top then [] else vs ++ ws) := by
  refine lays_expression fun hs => ?_
  exact (Operand.lays_text (ha hs)).bind fun _ _ hf => (Operand.lays_text (hb hs)).map fun _ _ hg =>
    (hf.followed (r.plain (by decide))).append hg

theorem lays_returning (h : s.scope = .statement → a.IsLaid r w s vs) :
    Lays r w s (returning a) (if s.scope = .statement then vs else []) :=
  lays_statement fun hs => (Operand.lays_text (h hs)).map fun _ _ hf =>
    (hf.prepend (r.plain (by decide))).followed (r.plain (by decide))

/-- A branch: its test, and its body in a block. -/
def BranchLays (r : Rule) (w : World) (s : State) (branch : Operand × List Rendering)
    (vs : List Visit) : Prop :=
  ∃ us ws, vs = us ++ ws.map .deeper ∧ branch.1.IsLaid r w s us ∧
    Each (LaysPart r w s.inBody) branch.2 ws

theorem lays_testedBranch {word : String} (hword : r.text word) (hnested : r.nested)
    {branch : Operand × List Rendering} (h : BranchLays r w s branch vs) :
    Lays r w s (testedBranch word branch.1 branch.2) vs := by
  obtain ⟨us, ws, rfl, htest, hbody⟩ := h
  refine Ensures.run ((Operand.lays_text (s := s.inScope .statement) htest).bind
    fun f ds hf => ?_)
  have hblock : Lays r w (s.inScope .statement) (runIn .statement (block false branch.2))
      (ws.map .deeper) := Ensures.run (lays_block false hnested hbody)
  refine hblock.map fun g es hg => ?_
  have hhead := (hf.prepend (r.append hword (r.plain (s := " (") (by decide)))).followed
    (r.plain (s := ")\n") (by decide))
  exact hhead.append hg

theorem lays_elseBranch (hnested : r.nested) (h : Each (LaysPart r w s.inBody) parts vs) :
    Lays r w s (elseBranch parts) (vs.map .deeper) := by
  have hblock : Lays r w (s.inScope .statement) (runIn .statement (block false parts))
      (vs.map .deeper) := Ensures.run (lays_block false hnested h)
  exact Ensures.run (hblock.map fun _ _ hf => hf.prepend (r.plain (by decide)))

theorem lays_elseIfBranches (hnested : r.nested) {branches : List (Operand × List Rendering)}
    (hs : Each (BranchLays r w s) branches vs) : Lays r w s (elseIfBranches branches) vs := by
  induction hs with
  | nil => exact lays_text (r.plain (by decide))
  | cons h _ ih =>
      exact (lays_testedBranch (r.plain (by decide)) hnested h).bind fun _ _ hf =>
        ih.map fun _ _ hg => hf.append hg

theorem lays_ifChain {elseIfs : List (Operand × List Rendering)}
    {otherwise : Option (List Rendering)} (hnested : s.scope = .statement → r.nested)
    (hfirst : s.scope = .statement → BranchLays r w s (a, parts) vs)
    (hrest : s.scope = .statement → Each (BranchLays r w s) elseIfs ws)
    (hlast : s.scope = .statement → Each (LaysPart r w s.inBody) (otherwise.getD []) xs) :
    Lays r w s (ifChain a parts elseIfs otherwise)
      (if s.scope = .statement then vs ++ (ws ++ xs.map .deeper) else []) := by
  refine lays_statement fun hs => ?_
  have hn := hnested hs
  refine (lays_testedBranch (r.plain (by decide)) hn (hfirst hs)).bind fun f ds hf => ?_
  refine (lays_elseIfBranches hn (hrest hs)).bind fun g es hg => ?_
  have hends : Lays r w s
      (match otherwise with
        | some body => elseBranch body
        | none => pure "") (xs.map .deeper) := by
    cases otherwise with
    | none =>
        cases hlast hs
        exact lays_text (r.plain (by decide))
    | some body => exact lays_elseBranch hn (hlast hs)
  have hgoal : ∀ h fs, Composed r w h fs (xs.map .deeper) →
      Composed r w (fun u => f u ++ g u ++ h u) (ds ++ (es ++ fs)) (vs ++ (ws ++ xs.map .deeper)) :=
    fun h fs hh => ((hf.append hg).append hh).cast (List.append_assoc ..) (List.append_assoc ..)
  cases otherwise with
  | none => exact hends.map fun h fs hh => hgoal h fs hh
  | some body => exact hends.map fun h fs hh => hgoal h fs hh

/-! ## §2. Functions. -/

/-- A block loses nothing but the line feed behind its last brace. -/
theorem trimLineFeeds_closed (text : String) :
    Text.trimLineFeeds (text ++ "\x7d\n") = text ++ "\x7d" := by
  apply String.toList_inj.mp
  simp [Text.trimLineFeeds]

theorem text_parameters {h : FunctionHeader} (ht : ∀ t ∈ h.texts, r.text t) :
    r.text h.parameterText := by
  refine Rule.intercalate (r.plain (by decide)) fun t hmem => ?_
  obtain ⟨p, hp, rfl⟩ := List.mem_map.mp hmem
  refine Rule.formalParameter fun t hmem => ht t ?_
  exact List.mem_cons_of_mem _ (List.mem_append_right _ (List.mem_flatMap.mpr ⟨p, hp, hmem⟩))

theorem text_returns {h : FunctionHeader} (ht : ∀ t ∈ h.texts, r.text t) :
    r.text h.returnsText := by
  unfold FunctionHeader.returnsText
  cases hr : h.returns with
  | none => exact r.plain (by decide)
  | some typeName =>
      refine r.append (r.plain (by decide)) (ht _ ?_)
      rw [FunctionHeader.texts, hr]
      exact List.mem_cons_of_mem _ (List.mem_append_left _ List.mem_cons_self)

theorem lays_functionDeclaration {h : FunctionHeader} (ht : ∀ t ∈ h.texts, r.text t)
    (hnested : r.nested) (hs : Each (LaysPart r w s.inBody) parts vs) :
    Lays r w s (functionDeclaration h parts) (vs.map .deeper) := by
  have hname : r.text h.name := ht _ List.mem_cons_self
  have hkeyword : r.text h.kind.keyword := r.plain (by cases h.kind <;> decide)
  have hexport := Rule.exportText (r := r) h.exported
  have hhead : r.text ("(" ++ h.parameterText ++ ")" ++ h.returnsText ++ "\n") :=
    r.append (r.append (r.append (r.append (r.plain (by decide)) (text_parameters ht))
      (r.plain (by decide))) (text_returns ht)) (r.plain (by decide))
  have hbody := Ensures.run (o := .inScope .statement) (s := s)
    (ensures_block (s := s.inScope .statement) h.spaced hnested hs)
  refine hbody.bind fun f ds hf => ?_
  obtain ⟨g, rfl, hg⟩ := hf
  rw [← List.append_nil ds] at hg
  -- a lambda is a constant: a semicolon stands between its block and the line feed
  cases h.lambda with
  | true =>
      have hopen : r.text (exportText h.exported ++ "const " ++ h.name ++ " = " ++ h.kind.keyword
          ++ ("(" ++ h.parameterText ++ ")" ++ h.returnsText ++ "\n")) :=
        r.append (r.append (r.append (r.append (r.append hexport (r.plain (by decide))) hname)
          (r.plain (by decide))) hkeyword) hhead
      have hclosed := (hg.enclosed (show "\x7b\n" = "\x7b" ++ "\n" by decide)
        (r.plain (by decide)) (r.plain (s := "\x7d" ++ ";\n") (by decide)) (by decide)).prepend hopen
      simp only [if_true, trimLineFeeds_closed]
      simp only [String.append_assoc] at hclosed ⊢
      exact ensures_pure hclosed
  | false =>
      have hopen : r.text (exportText h.exported ++ h.kind.keyword ++ " " ++ h.name
          ++ ("(" ++ h.parameterText ++ ")" ++ h.returnsText ++ "\n")) :=
        r.append (r.append (r.append (r.append hexport hkeyword) (r.plain (by decide))) hname) hhead
      have hclosed := hg.enclosed (show "\x7b\n" = "\x7b" ++ "\n" by decide)
        (r.plain (by decide)) (r.plain (s := "\x7d\n") (by decide)) (by decide)
      exact ensures_pure (hclosed.prepend hopen)

/-- A call in a scope where it can stand. -/
theorem lays_callHere {name : String} (hname : r.text name) (hscope : s.scope ≠ .top)
    (hs : Each (fun o vs => o.IsLaid r w s vs) os vs) : Lays r w s (callHere name os) vs := by
  have hcall : Lays r w (s.override {}) (Operand.call name os false).render vs :=
    Operand.lays_call hname false (fun h => by cases h) hs
  exact Ensures.run (lays_expression_of_ne hscope hcall)

theorem lays_function {h : FunctionHeader} (ht : ∀ t ∈ h.texts, r.text t)
    (hnested : s.scope = .top → r.nested)
    (hbody : s.scope = .top → Each (LaysPart r w s.inBody) parts vs)
    (harguments : s.scope ≠ .top → Each (fun o vs => o.IsLaid r w s vs) os ws) :
    Lays r w s (function h os parts) (if s.scope = .top then vs.map .deeper else ws) := by
  refine ensures_scope ?_
  by_cases hs : s.scope = .top
  · rw [if_pos hs, if_pos hs]
    exact lays_functionDeclaration ht (hnested hs) (hbody hs)
  · rw [if_neg hs, if_neg hs]
    exact lays_callHere (ht _ List.mem_cons_self) hs (harguments hs)

/-- The argument of predicates on `definition` is a text. -/
theorem each_definitionArgument : Each (fun o vs => o.IsLaid r w s vs) definitionArgument [] :=
  .one (Operand.lays_token (r.plain (by decide)))

theorem lays_uiPredicate {name : String} (hname : r.text name) (hnested : s.scope = .top → r.nested)
    (hbody : s.scope = .top → Each (LaysPart r w { s with inUi := true }.inBody) parts vs) :
    Lays r w s (uiPredicate name parts) (if s.scope = .top then vs.map .deeper else []) := by
  have hfull : r.text (uiPredicateName name) := r.append hname (r.plain (by decide))
  refine ensures_scope ?_
  by_cases hs : s.scope = .top
  · rw [if_pos hs, if_pos hs]
    have htexts : ∀ t ∈ (uiPredicateHeader name).texts, r.text t := by
      intro t ht
      rcases List.mem_cons.mp ht with rfl | ht
      · exact hfull
      · have hdefinition : t ∈ ["definition", "map"] := ht
        rcases List.mem_cons.mp hdefinition with rfl | ht
        · exact r.plain (by decide)
        · rw [List.mem_singleton.mp ht]
          exact r.plain (by decide)
    exact Ensures.run (lays_function htexts (fun _ => hnested hs) (fun _ => hbody hs)
      fun _ => each_definitionArgument)
  · rw [if_neg hs, if_neg hs]
    exact lays_callHere hfull hs each_definitionArgument

/-! ## §3. Test predicates. -/

theorem lays_testStatements (inlined : Bool)
    (hs : Each (fun o vs => Lays r w (s.inTests inlined) o.render vs) os vs) :
    Lays r w s.inBody (testStatements inlined os) vs := by
  have hparts : Each (LaysPart r w
      ({ s.inBody with inTest := inlined }.override { scope := some .statement }))
      (os.map fun t => expression t.render) vs := by
    induction hs with
    | nil => exact .nil
    | cons h _ ih =>
        exact .cons (lays_expression_of_ne (fun hs => by cases hs) h).leaves ih
  refine ensures_state (fun _ t ht => by rw [ht.inTest]) ?_
  refine Ensures.within (uniform_setTest inlined) (fun t ht => ?_)
    (lays_joined rfl hparts (r.plain (s := "") (by decide)) (r.plain (s := "") (by decide)))
    fun f ds hf => ?_
  · show { t with inTest := s.inBody.inTest } = t
    rw [← ht.inTest]
  · rw [← List.append_nil ds] at hf
    exact ensures_pure hf

/-- What is said of the bodies is said of their outcomes in the state at hand. -/
theorem leaves_testPredicate {name : String} (hname : r.text name) (exported : Bool)
    (hscope : s.scope = .top) (hnested : r.nested)
    (hstandard : Lays r w s.inBody (testStatements false os) vs)
    (hinlined : Lays r w s.inBody (testStatements true os) ws)
    (htested : r.tested (w.value s.inBody (testStatements false os))
      (w.warnings s.inBody (testStatements false os)) (w.value s.inBody (testStatements true os))
      (w.warnings s.inBody (testStatements true os))) :
    LaysPart r w s (testPredicate name exported os) (vs.map .hidden ++ ws.map .deeper) := by
  have hhead : r.text (exportText exported ++ "predicate " ++ name ++ "("
      ++ FormalParameter.definition.text) :=
    r.append (r.append (r.append (r.append (Rule.exportText exported) (r.plain (by decide))) hname)
      (r.plain (by decide))) (r.plain (by decide))
  have hbody : Lays r w s.inBody (do
      let standard ← testStatements false os
      let inlined ← testStatements true os
      let body ← indented (testBody standard inlined) 1
      return exportText exported ++ "predicate " ++ name ++ "("
        ++ FormalParameter.definition.text ++ ")\n\x7b\n" ++ body ++ "\x7d\n")
      (vs.map .hidden ++ ws.map .deeper) := by
    -- both renderings are told apart by their texts, and only the second one stays in sight
    refine hstandard.value.bind fun f ds hf => ?_
    refine hinlined.value.bind fun g es hg => ?_
    obtain ⟨⟨rfl, rfl⟩, hf⟩ := hf
    obtain ⟨⟨rfl, rfl⟩, hg⟩ := hg
    refine (ensures_nested hnested (.tested htested hf hg)).map fun h fs hh => ?_
    obtain ⟨rfl, hh⟩ := hh
    have hlines := hh.enclosedBehind (show ")\n\x7b\n" = ")\n\x7b" ++ "\n" by decide) hhead
      (r.plain (by decide)) (r.plain (s := "\x7d\n") (by decide)) (by decide)
    refine hlines.cast (by rw [List.append_nil]) ?_
    rw [List.map_append, List.map_map]
    rfl
  refine leaves_scope ?_
  rw [if_neg fun hne => hne hscope]
  exact leaves_setState uniform_inBody hbody.leaves

/-- Elsewhere a test predicate is a call. -/
theorem lays_testPredicate {name : String} (hname : r.text name) (exported : Bool)
    (hscope : s.scope ≠ .top) : Lays r w s (testPredicate name exported os) [] := by
  refine ensures_scope ?_
  rw [if_pos hscope]
  exact lays_callHere hname hscope each_definitionArgument

theorem lays_testCall {name : String} (hname : r.text name)
    (hs : s.scope ≠ .top → s.inTest = true → Each (fun o vs => o.IsLaid r w s vs) os vs) :
    Lays r w s (testCall name os)
      (if s.scope = .top then [] else if s.inTest then vs else []) := by
  refine lays_expression fun hne => ensures_state (fun _ t ht => by rw [ht.inTest]) ?_
  by_cases htest : s.inTest = true
  · rw [if_pos htest, if_pos htest]
    exact Operand.lays_text (Operand.lays_conjunction (hs hne htest))
  · rw [if_neg htest, if_neg htest]
    exact Operand.lays_call hname false (fun h => by cases h)
      each_definitionArgument

/-! ## §4. Enumerations. -/

theorem text_qualified {v : EnumValue} (ht : ∀ t ∈ v.texts, r.text t) : r.text v.qualified := by
  have hmem : v.enumName ∈ v.texts ∧ v.token ∈ v.texts := by simp [EnumValue.texts]
  exact r.append (r.append (ht _ hmem.1) (r.plain (by decide))) (ht _ hmem.2)

theorem text_definitionField {name : String} (h : r.text name) : r.text ("definition." ++ name) :=
  r.append (r.plain (by decide)) h

theorem lays_enumTest {v : EnumValue} (ht : ∀ t ∈ v.texts, r.text t) :
    Lays r w s (enumTest v).render [] := by
  have hparameter : v.parameterName ∈ v.texts := by simp [EnumValue.texts]
  exact Operand.lays_equality .equal
    (Operand.lays_token (text_definitionField (ht _ hparameter)))
    (Operand.lays_token (text_qualified ht))

theorem each_enumTest {v : EnumValue} (ht : ∀ t ∈ v.texts, r.text t) :
    Each (fun o vs => o.IsLaid r w s vs) [enumTest v] [] := .one (lays_enumTest ht)

theorem lays_enumCall {v : EnumValue} (ht : ∀ t ∈ v.texts, r.text t) :
    Lays r w s (enumCall v).render [] := by
  unfold enumCall
  cases hv : v.companion with
  | none => exact lays_enumTest ht
  | some name =>
      have hname : r.text name := ht _ (by simp [EnumValue.texts, hv])
      have hcall := lays_testCall (s := s.inScope .expression) hname
        (fun _ _ => each_enumTest (w := w) ht)
      simp only [ite_self] at hcall
      exact Ensures.run hcall

theorem lays_enumLabel {v : EnumValue} (ht : ∀ t ∈ v.texts, r.text t) :
    Lays r w s (enumLabel v) [] := by
  have hlabel : r.text v.label := ht _ (by simp [EnumValue.texts])
  unfold enumLabel
  split
  · exact lays_annotationLine (.cons (entryLays_token (r.plain (by decide)) hlabel)
      (.cons (entryLays_token (r.plain (by decide)) (r.plain (by decide))) .nil))
      (fun _ h => by cases h) (fun h => by cases h)
  · exact lays_annotationLine (.cons (entryLays_token (r.plain (by decide)) hlabel) .nil)
      (fun _ h => by cases h) (fun h => by cases h)

theorem lays_enumValue {v : EnumValue} (ht : ∀ t ∈ v.texts, r.text t) :
    Lays r w s (enumValue v) [] := by
  have htoken : r.text v.token := ht _ (by simp [EnumValue.texts])
  refine ensures_state (fun _ t h => by rw [h.inEnum]) ?_
  split
  · unfold enumValueDeclaration
    split
    · have hlabel : Lays r w s (runIn .expression (enumLabel v)) [] :=
        Ensures.run (lays_enumLabel ht)
      exact hlabel.map fun _ _ hf => hf.followed htoken
    · exact lays_text htoken
  · refine ensures_scope ?_
    split
    · exact Operand.lays_text (lays_enumCall ht)
    · exact lays_expectedScope _

/-- A companion predicate has the same body with calls written out, as it calls nothing. -/
theorem tested_enumTest (v : EnumValue) (s : State) :
    r.tested (w.value s (testStatements false [enumTest v]))
      (w.warnings s (testStatements false [enumTest v]))
      (w.value s (testStatements true [enumTest v]))
      (w.warnings s (testStatements true [enumTest v])) := by
  have hquiet : ∀ inlined, w.warnings s (testStatements inlined [enumTest v]) = [] := by
    intro inlined
    unfold World.warnings
    rw [quiet_testStatements inlined (isQuiet_tests v)]
    rfl
  have hsame : w.value s (testStatements true [enumTest v])
      = w.value s (testStatements false [enumTest v]) := rfl
  rw [hquiet, hquiet, hsame]
  exact r.tested_same _

theorem lays_companionPredicates (hnested : r.nested) :
    ∀ {companions : List (String × EnumValue)},
      (∀ p ∈ companions, r.text p.1 ∧ ∀ t ∈ p.2.texts, r.text t) →
        Lays r w s (companionPredicates companions) []
  | [], _ => lays_text (r.plain (by decide))
  | (name, v) :: rest, h => by
      obtain ⟨hname, ht⟩ := h _ List.mem_cons_self
      have htests : ∀ inlined, Lays r w (s.inScope .top).inBody
          (testStatements inlined [enumTest v]) [] := by
        intro inlined
        exact lays_testStatements inlined (.one (lays_enumTest ht))
      have hfirst : Lays r w s (runIn .top (testPredicate name true [enumTest v])) [] :=
        Leaves.run (leaves_testPredicate hname true rfl hnested (htests false) (htests true)
          (tested_enumTest v _))
      have hrest := lays_companionPredicates hnested fun p hp => h p (List.mem_cons_of_mem _ hp)
      exact hfirst.bind fun _ _ hf => hrest.map fun _ _ hg =>
        (hf.prepend (r.plain (by decide))).append hg

variable {d : EnumDeclaration}

theorem texts_companions (ht : ∀ t ∈ (Node.enumeration d).texts, r.text t) :
    ∀ p ∈ d.companions, r.text p.1 ∧ ∀ t ∈ p.2.texts, r.text t := by
  intro p hp
  obtain ⟨v, hv, hname⟩ := List.mem_filterMap.mp hp
  obtain ⟨name, hcompanion, rfl⟩ := Option.map_eq_some_iff.mp hname
  have htexts : ∀ t ∈ v.texts, r.text t := fun t hmem =>
    ht t (List.mem_cons_of_mem _ (List.mem_cons_of_mem _ (List.mem_flatMap.mpr ⟨v, hv, hmem⟩)))
  exact ⟨htexts _ (by simp [EnumValue.texts, hcompanion]), htexts⟩

theorem leaves_enumDeclaration (ht : ∀ t ∈ (Node.enumeration d).texts, r.text t)
    (hnested : r.nested) (hs : Each (LaysPart r w s.inEnumBody) (d.values.map enumValue) vs) :
    LaysPart r w s (enumDeclaration d) (vs.map .deeper) := by
  have hhead : r.text (exportText d.exported ++ "enum " ++ d.name) :=
    r.append (r.append (Rule.exportText _) (r.plain (by decide))) (ht _ List.mem_cons_self)
  have hvalues : Ensures w { s with inEnum := true } (fun _ => joined
      { separator := ",\n", indented := true, scope := some .expression } (d.values.map enumValue))
      fun f ds => OnLines r w f ds (vs.map .deeper) :=
    ensures_joined rfl hnested hs (r.plain (s := ",\n") (by decide))
      (r.plain (s := "") (by decide))
  refine leaves_setState (uniform_setEnum true) (hvalues.bindLeaves fun f ds hf => ?_)
  refine leaves_setState (uniform_setEnum false) ?_
  refine ((lays_companionPredicates hnested (texts_companions ht)).map fun g es hg => ?_).leaves
  have hlines := hf.enclosedBehind (show "\n\x7b\n" = "\n\x7b" ++ "\n" by decide) hhead
    (r.plain (by decide)) (r.plain (s := "\n\x7d\n") (by decide)) (by decide)
  exact (hlines.append hg).cast rfl (List.append_nil _)

theorem leaves_enumeration (ht : ∀ t ∈ (Node.enumeration d).texts, r.text t)
    (hnested : s.scope = .top → r.nested)
    (hs : s.scope = .top → Each (LaysPart r w s.inEnumBody) (d.values.map enumValue) vs) :
    LaysPart r w s (enumeration d) (if s.scope = .top then vs.map .deeper else []) := by
  refine leaves_scope ?_
  cases hscope : s.scope with
  | top => exact leaves_enumDeclaration ht (hnested hscope) (hs hscope)
  | statement => exact (lays_expectedScope _).leaves
  | expression =>
      have hparameter : r.text d.parameterName := ht _ (List.mem_cons_of_mem _ List.mem_cons_self)
      have hfield : (definitionField d.parameterName).IsLaid r w s [] :=
        Operand.lays_token (text_definitionField hparameter)
      exact (Operand.lays_text hfield).leaves

/-! ## §5. The dialog. -/

/-- Numbers are written without brackets. -/
theorem text_number (spec : BoundSpec) (x : Decimal.Binary64) : r.text (spec.number x) := by
  have hbracket : ¬ Decimal.IsNumeral '<' := by decide
  unfold BoundSpec.number
  split
  · exact r.plain ((Decimal.numeral_toString _).not_mem hbracket)
  · exact r.plain ((Decimal.numeral_text x).not_mem hbracket)

/-- Keys and values of a bound spec's map are constant texts and numbers. -/
theorem text_boundEntries (spec : BoundSpec) :
    ∀ p ∈ spec.entries, r.text p.1 ∧ r.text p.2 := by
  have hrange : r.text spec.kind.rangeKey ∧ r.text spec.rangeText := by
    refine ⟨r.plain (by cases spec.kind <;> decide), ?_⟩
    have hcomma : r.text ", " := r.plain (by decide)
    exact r.append (r.append (r.append (r.append (r.append (r.append (r.plain (by decide))
      (text_number spec _)) hcomma) (text_number spec _)) hcomma) (text_number spec _))
      (r.plain (by decide))
  have hdefault : ∀ d : MeasureUnit × Decimal.Binary64,
      r.text ("(" ++ d.1.text ++ ")") ∧ r.text (spec.number d.2) := by
    intro d
    have hunit : r.text d.1.text := r.plain (by cases d.1 <;> decide)
    exact ⟨r.append (r.append (r.plain (by decide)) hunit) (r.plain (by decide)),
      text_number spec _⟩
  intro p hp
  rcases List.mem_cons.mp (Keyed.mem_ofList hp) with rfl | hp
  · exact hrange
  · obtain ⟨d, -, rfl⟩ := List.mem_map.mp hp
    exact hdefault d

theorem lays_boundSpec {spec : BoundSpec} (hname : r.text spec.name)
    (hnested : s.scope = .top → r.nested) : Lays r w s (boundSpec spec) [] := by
  have htype : ∀ t ∈ (boundStyle spec.kind).typeName, r.text t := by
    rintro t ⟨⟩
    exact r.plain (by cases spec.kind <;> decide)
  have hentries : ∀ t : State, Each (EntryLays r w t (boundStyle spec.kind))
      (spec.entries.map fun p => (p.1, Operand.token p.2)) [] := by
    refine fun t => .silent fun entry hentry => ?_
    obtain ⟨p, hp, rfl⟩ := List.mem_map.mp hentry
    obtain ⟨hkey, htext⟩ := text_boundEntries spec p hp
    exact entryLays_token hkey htext
  refine ensures_scope ?_
  cases hscope : s.scope with
  | statement => exact lays_expectedScope _
  | expression => exact lays_text hname
  | top =>
      have hmap : Operand.IsLaid r w (s.inScope .top) (.wrapped (mapLiteral (boundStyle spec.kind)
          (spec.entries.map fun p => (p.1, Operand.token p.2)))) [] := by
        exact Ensures.run (lays_mapLiteral (fun _ => hentries _) htype fun _ _ => hnested hscope)
      exact Ensures.run (lays_constant hname spec.exported fun _ => hmap)

theorem lays_boundsOperand {bounds : Bounds} (hname : r.text bounds.name) :
    (boundsOperand bounds).IsLaid r w s [] := by
  cases bounds with
  | named name => exact Operand.lays_token hname
  | spec spec =>
      exact Ensures.run (lays_boundSpec (s := s.inScope .expression) hname fun hs => by cases hs)

theorem lays_parameterDeclaration {name : String} {d : ParameterDeclaration}
    (hname : r.text name) (ht : ∀ t ∈ d.texts, r.text t) :
    Lays r w s (parameterDeclaration name d) [] := by
  cases d with
  | typed typeName =>
      have htype : r.text typeName := ht _ List.mem_cons_self
      exact lays_text (r.append (r.append (r.append (text_definitionField hname)
        (r.plain (by decide))) htype) (r.plain (by decide)))
  | bounded predicate bounds =>
      have hpredicate : r.text predicate := ht _ List.mem_cons_self
      have hbounds : r.text bounds.name := ht _ (List.mem_cons_of_mem _ List.mem_cons_self)
      have harguments : Each (fun o vs => o.IsLaid r w (s.inScope .statement) vs)
          [definitionField name, boundsOperand bounds] ([] ++ []) :=
        .cons (Operand.lays_token (text_definitionField hname))
          (.one (lays_boundsOperand hbounds))
      exact Ensures.run (lays_expression_of_ne (fun hs => by cases hs)
        (Operand.lays_call hpredicate false (fun h => by cases h) harguments))

theorem lays_uiParameter {name : String} {d : ParameterDeclaration} {annotations : Rendering}
    (hname : r.text name) (ht : ∀ t ∈ d.texts, r.text t)
    (h : s.scope = .statement → Lays r w (s.inScope .statement) annotations vs) :
    Lays r w s (uiParameter name annotations d) (if s.scope = .statement then vs else []) := by
  refine lays_statement fun hs => ensures_state (fun _ t h => by rw [h.inUi]) ?_
  have hrest : Lays r w s (do
      let head ← runIn .statement annotations
      return head ++ (← parameterDeclaration name d)) vs :=
    (Ensures.run (h hs)).bind fun f ds hf => (lays_parameterDeclaration hname ht).map
      fun g es hg => (hf.append hg).cast rfl (List.append_nil vs)
  by_cases hui : s.inUi = true
  · simp only [hui, Bool.not_true, Bool.false_eq_true, if_false]
    exact hrest
  · simp only [hui, Bool.not_false, if_true]
    exact Ensures.warnedAt (hrest.mono fun f ds hf => .warned _ _ _ hf)

/-- The label of a group is its name, capitalized or not. -/
theorem text_label {g : GroupHeader} (hname : r.text g.name) : r.text g.label := by
  unfold GroupHeader.label
  split
  · exact hname
  · exact r.capital hname

theorem each_groupEntries {g : GroupHeader} (ht : ∀ t ∈ (Node.group g []).texts, r.text t) :
    Each (EntryLays r w s groupStyle) (groupEntries g) [] := by
  have hlabel : r.text g.label := text_label (ht _ List.mem_cons_self)
  have hcollapsed : r.text (if g.collapsed then "true" else "false") :=
    r.plain (by cases g.collapsed <;> decide)
  refine .silent fun entry hentry => ?_
  rcases List.mem_cons.mp hentry with rfl | hentry
  · exact entryLays_token (r.plain (by decide)) hlabel
  · rcases List.mem_cons.mp hentry with rfl | hentry
    · exact entryLays_token (r.plain (by decide)) hcollapsed
    · obtain ⟨n, hn, rfl⟩ := List.mem_map.mp hentry
      exact entryLays_token (r.plain (by decide)) (ht n (List.mem_cons_of_mem _ hn))

theorem lays_group {g : GroupHeader} (ht : ∀ t ∈ (Node.group g []).texts, r.text t)
    (hnested : r.nested) (hs : Each (LaysPart r w s.inBody) parts vs) :
    Lays r w s (group g parts) (vs.map .deeper) := by
  have hrest : Lays r w s (do
      let head ← runIn .statement (annotationLine groupStyle (groupEntries g))
      return head ++ (← runIn .statement (block true parts))) (vs.map .deeper) := by
    have hhead : Lays r w (s.inScope .statement) (annotationLine groupStyle (groupEntries g)) [] :=
      lays_annotationLine (each_groupEntries ht) (fun _ h => by cases h) (fun h => by cases h)
    have hblock : Lays r w (s.inScope .statement) (block true parts) (vs.map .deeper) :=
      lays_block true hnested hs
    exact (Ensures.run hhead).bind fun _ _ hf => (Ensures.run hblock).map fun _ _ hg => hf.append hg
  refine ensures_state (fun _ t h => by rw [h.inUi]) ?_
  split
  · -- no parameter in the group
    split
    · exact Ensures.warnedAt (Ensures.warnedAt
        (hrest.mono fun f ds hf => .warned _ _ _ (.warned _ _ _ hf)))
    · exact Ensures.warnedAt (hrest.mono fun f ds hf => .warned _ _ _ hf)
  · split
    · exact Ensures.warnedAt (hrest.mono fun f ds hf => .warned _ _ _ hf)
    · exact hrest

/-! ## §6. Files. -/

theorem composed_warned {ds es : List Diagnostic} {f : Indent → String}
    (hds : ∀ d ∈ ds, d.location.isSome) (h : Composed r w f es vs) :
    Composed r w f (ds ++ es) vs := by
  induction ds with
  | nil => exact h
  | cons d ds ih =>
      obtain ⟨scope, message, location⟩ := d
      have hlocation := hds _ List.mem_cons_self
      cases location with
      | none => cases hlocation
      | some location => exact .warned _ _ _ (ih fun d hd => hds d (List.mem_cons_of_mem _ hd))

/-- Where an import points to, the texts may stand in a rendering. -/
theorem text_target (hw : w.Writable r) {i : Import} (ht : ∀ t ∈ i.texts, r.text t) :
    r.text (w.target i.source).path ∧ r.text (w.target i.source).version := by
  obtain ⟨source, exported⟩ := i
  cases source with
  | std studio =>
      exact ⟨r.append (r.plain (by decide)) (ht _ List.mem_cons_self),
        r.append hw.stdVersion (r.plain (by decide))⟩
  | path file version =>
      exact ⟨ht _ List.mem_cons_self, ht _ (List.mem_cons_of_mem _ List.mem_cons_self)⟩
  | document name studio version =>
      unfold World.target ImportSource.target
      dsimp only
      cases hresolve : w.documents.resolve name studio version with
      | error e => exact ⟨r.placeholder e, r.plain (s := emptyVersion) (by decide)⟩
      | ok target =>
          obtain ⟨listed, hlisted, hpath, hversion⟩ := DocumentTable.resolve_ok hresolve
          obtain ⟨htpath, htversion⟩ := hw.target hlisted
          refine ⟨hpath ▸ htpath, ?_⟩
          dsimp only
          rw [hversion]
          cases version with
          | none => exact htversion
          | some version => exact ht _ List.mem_cons_self

theorem text_importLine (hw : w.Writable r) {i : Import} (ht : ∀ t ∈ i.texts, r.text t) :
    r.text (i.line (w.target i.source) ++ "\n") := by
  obtain ⟨hpath, hversion⟩ := text_target hw ht
  exact r.append (r.append (r.append (r.append (r.append (r.append (Rule.exportText _)
    (r.plain (by decide))) (r.quote hpath)) (r.plain (by decide))) (r.quote hversion))
    (r.plain (by decide))) (r.plain (by decide))

theorem text_importLines (hw : w.Writable r) {imports : List Import}
    (ht : ∀ i ∈ imports, ∀ t ∈ i.texts, r.text t) : r.text (w.importLines imports) := by
  unfold World.importLines
  induction imports with
  | nil => exact r.plain (s := "") (by decide)
  | cons i imports ih =>
      rw [List.map_cons, String.join_cons]
      exact r.append (text_importLine hw (ht i List.mem_cons_self))
        (ih fun j hj => ht j (List.mem_cons_of_mem _ hj))

theorem lays_importLine (hw : w.Writable r) {i : Import} (ht : ∀ t ∈ i.texts, r.text t) :
    Lays r w s (importLine i) [] := by
  by_cases hscope : s.scope = .top
  · refine (ensures_importLine i hscope).mono fun f ds hf => ?_
    obtain ⟨rfl, hds⟩ := hf
    have hwarned := composed_warned (w := w) hds (.text (text_importLine hw ht))
    rwa [List.append_nil] at hwarned
  · refine ensures_scope ?_
    rw [if_pos hscope]
    exact lays_expectedScope _

theorem lays_studio (hw : w.Writable r) {stdImports imports : List Import}
    (ht : ∀ i ∈ stdImports ++ imports, ∀ t ∈ i.texts, r.text t)
    (hs : s.scope = .top → Each (LaysPart r w s) parts vs) :
    Lays r w s (studio stdImports imports parts) (if s.scope = .top then vs else []) := by
  by_cases hscope : s.scope = .top
  · rw [if_pos hscope]
    have hbody : Lays r w s (joined { separator := "\n", scope := some .top } parts) vs := by
      refine lays_joined rfl ?_ (r.plain (s := "\n") (by decide)) (r.plain (s := "") (by decide))
      have hsame : s.override { scope := some .top } = s := by
        rw [← hscope]
        rfl
      rw [hsame]
      exact hs hscope
    refine ensures_studio hscope (hbody.mono fun f fs hf ds hds => composed_warned hds
      (hf.prepend ?_))
    have hstd : r.text (w.importLines stdImports) :=
      text_importLines hw fun i hi => ht i (List.mem_append_left _ hi)
    have hothers : r.text (w.importLines imports) :=
      text_importLines hw fun i hi => ht i (List.mem_append_right _ hi)
    exact r.append (r.append (r.append (r.append (r.append (r.append (r.append (r.append
      (r.plain (by decide)) hw.stdVersion) (r.plain (by decide))) hstd)
      (r.plain (by split <;> decide))) hothers) (r.plain (by decide))) (r.plain (by decide)))
      (r.plain (by decide))
  · rw [if_neg hscope]
    refine ensures_scope ?_
    rw [if_pos hscope]
    exact lays_expectedScope _

/-- The precondition and the body of a feature, each in braces, two levels deep. -/
theorem lines_feature (u : Indent) (ui body : String) :
    "\n" ++ u.lines ("precondition\n\x7b" ++ ("\n" ++ u.lines (ui ++ ";\n") 1 ++ "\x7d\n\x7b")
        ++ ("\n" ++ u.lines (body ++ ";") 1 ++ "\n\x7d);")) 1 ++ "\n"
      = "\n" ++ u.unit ++ "precondition\n" ++ u.unit ++ "\x7b\n" ++ u.lines (ui ++ ";\n") 2
        ++ u.unit ++ "\x7d\n" ++ u.unit ++ "\x7b\n" ++ u.lines (body ++ ";\n") 2
        ++ u.unit ++ "\x7d);\n" := by
  have hends : ∀ text : String,
      Text.lineStart true (u.lines (text ++ ";\n") 1).toList = true := by
    intro text
    rw [Indent.toList_lines_one, Text.lineStart_indentChars, String.toList_append,
      Text.lineStart_append]
    rfl
  have hlines : ∀ text rest : String, u.lines (u.lines (text ++ ";\n") 1 ++ rest) 1
      = u.lines (text ++ ";\n") 2 ++ u.lines rest 1 := by
    intro text rest
    rw [Indent.lines_append (hends text), Indent.lines_lines]
  -- line by line: a constant one is indented once, and what is in braces once more
  have hsplit : "precondition\n\x7b" ++ ("\n" ++ u.lines (ui ++ ";\n") 1 ++ "\x7d\n\x7b")
        ++ ("\n" ++ u.lines (body ++ ";") 1 ++ "\n\x7d);") ++ "\n"
      = "precondition" ++ "\n" ++ ("\x7b" ++ "\n" ++ (u.lines (ui ++ ";\n") 1
        ++ ("\x7d" ++ "\n" ++ ("\x7b" ++ "\n" ++ (u.lines (body ++ ";\n") 1
          ++ ("\x7d);" ++ "\n" ++ "")))))) := by
    have hopen : "precondition\n\x7b" = "precondition" ++ "\n" ++ "\x7b" := by decide
    have hbetween : "\x7d\n\x7b" = "\x7d" ++ "\n" ++ "\x7b" := by decide
    have hclose : "\n\x7d);" = "\n" ++ "\x7d);" := by decide
    have hbody : body ++ ";\n" = body ++ ";" ++ "\n" := by rw [String.append_assoc]; rfl
    rw [hopen, hbetween, hclose, hbody, Indent.lines_lineFeed]
    simp only [String.append_assoc, String.append_empty]
  rw [String.append_assoc, ← u.lines_lineFeed, hsplit,
    u.lines_line_append (by decide) (by decide), u.lines_line_append (by decide) (by decide),
    hlines, u.lines_line_append (by decide) (by decide),
    u.lines_line_append (by decide) (by decide), hlines,
    u.lines_line_append (by decide) (by decide)]
  have hprecondition : "precondition\n" = "precondition" ++ "\n" := by decide
  have hopen : "\x7b\n" = "\x7b" ++ "\n" := by decide
  have hbetween : "\x7d\n" = "\x7d" ++ "\n" := by decide
  have hclose : "\x7d);\n" = "\x7d);" ++ "\n" := by decide
  have hnothing : u.lines "" 1 = "" := rfl
  rw [hprecondition, hopen, hbetween, hclose, hnothing, String.append_empty]
  simp only [String.append_assoc]

theorem lays_feature {name : String} (hname : r.text name) {annotations : Rendering}
    (hnested : s.scope = .top → r.nested)
    (hannotations : s.scope = .top → Lays r w (s.inScope .statement) annotations vs)
    (hui : s.scope = .top → Lays r w { s.inScope .statement with inUi := true } a.render ws)
    (hbody : s.scope = .top → Lays r w (s.inScope .statement) b.render xs) :
    Lays r w s (feature name annotations a b)
      (if s.scope = .top then
        vs ++ (ws.map Visit.deeper ++ xs.map Visit.deeper).map Visit.deeper else []) := by
  refine lays_topLevel fun hscope => ?_
  have hn := hnested hscope
  refine ensures_get (fun u => do
    let unit := u.unit
    let head ← runIn .statement annotations
    let ui ← run { scope := some .statement, inUi := some true } (expression a.render)
    let body ← runIn .statement (expression b.render)
    let ui ← indented ui 2
    let body ← indented body 2
    return head ++ "export const " ++ name
      ++ " = defineFeature(function(context is Context, id is Id, definition is map)\n"
      ++ unit ++ "precondition\n" ++ unit ++ "\x7b\n" ++ ui ++ unit ++ "\x7d\n"
      ++ unit ++ "\x7b\n" ++ body ++ unit ++ "\x7d);\n") (fun c hc => rfl) ?_
  refine (Ensures.run (hannotations hscope)).bind fun f ds hf => ?_
  refine (Ensures.run (ensures_expression (fun hs => by cases hs) (hui hscope))).bind
    fun g es hg => ?_
  refine (Ensures.run (ensures_expression (fun hs => by cases hs) (hbody hscope))).bind
    fun h fs hh => ?_
  obtain ⟨g, hg, rfl⟩ := hg
  obtain ⟨h, hh, rfl⟩ := hh
  have hindented : ∀ t : Indent → String, Ensures w s (fun u => indented (t u) 2) fun f ds =>
      f = (fun u => u.lines (t u) 2) ∧ ds = [] := fun t => ensures_indented 2 ⟨rfl, rfl⟩
  refine (hindented _).bind fun ui' ds' hui' => (hindented _).map fun body' es' hbody' => ?_
  obtain ⟨rfl, rfl⟩ := hui'
  obtain ⟨rfl, rfl⟩ := hbody'
  simp only [List.append_nil]
  -- what stands below the first line is one text, a level deeper
  have hui' := ((hg.followed (r.plain (s := ";\n") (by decide))).onLines hn) "\x7d\n\x7b"
    (r.plain (by decide)) (by decide)
  have hbody' := ((hh.followed (r.plain (s := ";") (by decide))).onLines hn) "\n\x7d);"
    (r.plain (by decide)) (by decide)
  have hinner := (hui'.prepend (r.plain (s := "precondition\n\x7b") (by decide))).append hbody'
  have houter := (hinner.onLines hn) "\n" (r.plain (by decide)) (by decide)
  simp only [lines_feature] at houter
  have hfirst : r.text ("export const " ++ name
      ++ " = defineFeature(function(context is Context, id is Id, definition is map)") :=
    r.append (r.append (r.plain (by decide)) hname) (r.plain (by decide))
  have hall : Composed r w _ (ds ++ (es ++ fs))
      (vs ++ (ws.map Visit.deeper ++ xs.map Visit.deeper).map Visit.deeper) :=
    (hf.followed hfirst).append houter
  have hline : " = defineFeature(function(context is Context, id is Id, definition is map)\n"
      = " = defineFeature(function(context is Context, id is Id, definition is map)" ++ "\n" := by
    decide
  simp only [hline]
  simp only [String.append_assoc] at hall ⊢
  exact hall

end Render

end FeatureStudio
