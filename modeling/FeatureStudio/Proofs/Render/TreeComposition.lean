/-
  FeatureStudio.Proofs.Render.TreeComposition: how the text of a tree is put together.

  The forms of expressions and nodes are composed of their parts; by induction over the tree all
  of its text is.  What this takes is asked of every part that is reached: that the texts supplied
  with it may stand in a rendering, and that it may indent, quote or test what it does.

  Main statements:
    * `Expr.composes`, `Node.composes`, `MapLiteral.composes`: the induction.
    * `Node.run_composed`: a node, rendered with overrides.
-/
import FeatureStudio.Proofs.Render.NodeComposition

namespace FeatureStudio

open Build Render

/-! ## §1. What is asked of a tree. -/

/-- The part itself does only what the rule and the world allow. -/
structure Part.Allowed (r : Rule) (w : World) (s : State) (p : Part) : Prop where
  texts : ∀ t ∈ p.texts, r.text t
  nested : p.indents s → r.nested
  /-- What is put into a literal. -/
  quoted : ∀ {style : MapStyle} {entries : List (String × Expr)}, p = .literal (.mk style entries) →
    s.scope = .expression → ∀ e ∈ entries, style.quotes e.1 →
      r.quoted (w.value (s.inScope .expression) e.2.render)
  /-- The bodies of a test predicate. -/
  tested : ∀ {name : String} {exported : Bool} {tests : List Expr},
    p = .node (.testPredicate name exported tests) → s.scope = .top →
      r.tested (w.value s.inBody (testStatements false (operands tests)))
        (w.warnings s.inBody (testStatements false (operands tests)))
        (w.value s.inBody (testStatements true (operands tests)))
        (w.warnings s.inBody (testStatements true (operands tests)))
  /-- A snippet reads of the state what the world fixes, and gives a text that may stand. -/
  snippet : ∀ {text : State → String} {sets : Overrides}, p = .node (.snippet text sets) →
    r.text (text s) ∧ ∀ t, s.Alike w.anyDepth t → text t = text s

/-- So do all parts that are reached. -/
def Part.Obeys (r : Rule) (w : World) (s : State) (p : Part) : Prop :=
  ∀ t q, p.Reaches s t q → q.Allowed r w t

/-- Wherever all it reaches is allowed, the text of the expression is put together as the rule
asks. -/
def Expr.Composes (r : Rule) (w : World) (e : Expr) : Prop :=
  ∀ s, (Part.expr e).Obeys r w s → Lays r w s e.render [⟨s, .expr e, some 0⟩]

def Node.Composes (r : Rule) (w : World) (n : Node) : Prop :=
  ∀ s, (Part.node n).Obeys r w s → LaysPart r w s n.build [⟨s, .node n, some 0⟩]

def MapLiteral.Composes (r : Rule) (w : World) (m : MapLiteral) : Prop :=
  ∀ s, (Part.literal m).Obeys r w s → Lays r w s m.render [⟨s, .literal m, some 0⟩]

section

variable {r : Rule} {w : World} {s : State} {p : Part} {vs : List Visit}

namespace Part.Obeys

theorem allowed (h : p.Obeys r w s) : p.Allowed r w s := h s p (.refl s p)

theorem visit (h : p.Obeys r w s) {v : Visit} (hv : v ∈ p.parts s) : v.part.Obeys r w v.state :=
  fun t q hq => h t q (.step hv hq)

end Part.Obeys

/-- What is composed of the parts of an expression is its text. -/
theorem Expr.lays_part {e : Expr} (h : Lays r w s e.render (e.parts s)) :
    Lays r w s e.render [⟨s, .expr e, some 0⟩] :=
  (Ensures.value h).mono fun _ _ hf => .part s (.expr e) hf.1.1 hf.2

theorem Node.lays_part {n : Node} (h : LaysPart r w s n.build (n.parts s)) :
    LaysPart r w s n.build [⟨s, .node n, some 0⟩] :=
  (Leaves.value h).mono fun _ _ hf => .part s (.node n) hf.1.1 hf.2

theorem MapLiteral.lays_part {m : MapLiteral} (h : Lays r w s m.render (m.parts s)) :
    Lays r w s m.render [⟨s, .literal m, some 0⟩] :=
  (Ensures.value h).mono fun _ _ hf => .part s (.literal m) hf.1.1 hf.2

/-- An annotation is its literal, between texts. -/
theorem MapLiteral.lays_annotated {m : MapLiteral}
    (h : Lays r w (s.inScope .expression) m.render vs) : Lays r w s m.annotationLine vs := by
  cases m with
  | mk style entries => exact lays_annotation h

/-! ## §2. Lists of parts. -/

/-- The visits of expressions, or of nodes, that stand where they are put. -/
def visits {α : Type} (part : α → Part) (t : State) (as : List α) : List Visit :=
  as.map fun a => ⟨t, part a, some 0⟩

theorem visits_deeper {α : Type} (part : α → Part) (t : State) (as : List α) :
    (visits part t as).map Visit.deeper = as.map fun a => (⟨t, part a, some 1⟩ : Visit) := by
  rw [visits, List.map_map]
  rfl

theorem visits_hidden {α : Type} (part : α → Part) (t : State) (as : List α) :
    (visits part t as).map Visit.hidden = as.map fun a => (⟨t, part a, none⟩ : Visit) := by
  rw [visits, List.map_map]
  rfl

/-- An operand of a part is laid out. -/
theorem isLaid_operand {e : Expr} (he : e.Composes r w) (ho : p.Obeys r w s)
    (hmem : Visit.operand s e ∈ p.parts s) : e.operand.IsLaid r w s [.operand s e] :=
  he _ (ho.visit hmem)

/-- Expressions that a part renders are laid out. -/
theorem each_operands {es : List Expr} (hes : ∀ e ∈ es, e.Composes r w) (ho : p.Obeys r w s)
    {t : State} {k : Option Nat} (hmem : ∀ e ∈ es, ⟨t, .expr e, k⟩ ∈ p.parts s) :
    Each (fun o vs => Lays r w t o.render vs) (operands es) (visits .expr t es) := by
  rw [operands_eq]
  exact Each.map _ _ fun e he => hes e he _ (ho.visit (hmem e he))

/-- Nodes that a part renders are laid out. -/
theorem each_buildAll {ns : List Node} (hns : ∀ n ∈ ns, n.Composes r w) (ho : p.Obeys r w s)
    {t : State} {k : Option Nat} (hmem : ∀ n ∈ ns, ⟨t, .node n, k⟩ ∈ p.parts s) :
    Each (LaysPart r w t) (buildAll ns) (visits .node t ns) := by
  rw [buildAll_eq]
  exact Each.map _ _ fun n hn => hns n hn _ (ho.visit (hmem n hn))

/-- A branch of a part is laid out. -/
theorem branchLays {b : Expr × List Node} (htest : b.1.Composes r w)
    (hbody : ∀ n ∈ b.2, n.Composes r w) (ho : p.Obeys r w s)
    (hmem : ∀ v ∈ branchParts s b, v ∈ p.parts s) :
    BranchLays r w s (b.1.operand, buildAll b.2) (branchParts s b) := by
  refine ⟨[.operand s b.1], visits .node s.inBody b.2, ?_, ?_, ?_⟩
  · rw [visits_deeper]
    rfl
  · exact htest _ (ho.visit (hmem _ List.mem_cons_self))
  · exact each_buildAll hbody ho (k := some 1) fun n hn =>
      hmem _ (List.mem_cons_of_mem _ (List.mem_map.mpr ⟨n, hn, rfl⟩))

theorem each_branches {bs : List (Expr × List Node)}
    (hbs : ∀ b ∈ bs, b.1.Composes r w ∧ ∀ n ∈ b.2, n.Composes r w) (ho : p.Obeys r w s)
    (hmem : ∀ b ∈ bs, ∀ v ∈ branchParts s b, v ∈ p.parts s) :
    Each (BranchLays r w s) (branches bs) (bs.flatMap (branchParts s)) := by
  rw [branches_eq]
  refine Each.flatMap _ _ fun b hb => ?_
  rw [← buildAll_eq]
  exact branchLays (hbs b hb).1 (hbs b hb).2 ho (hmem b hb)

/-! ## §3. The tree. -/

theorem MapLiteral.composes_mk {style : MapStyle} {entries : List (String × Expr)}
    (h : ∀ e ∈ entries, e.2.Composes r w) : (MapLiteral.mk style entries).Composes r w := by
  intro s ho
  have hown := ho.allowed
  refine MapLiteral.lays_part ?_
  -- where each entry stands before the layout puts it deeper
  let visit := fun e : String × Expr =>
    if style.quotes e.1 then (Visit.operand s e.2).hidden else Visit.operand s e.2
  have hparts : entryParts style (entries.map visit) = entries.map (style.visit s) := by
    unfold entryParts MapStyle.visit
    split
    · rfl
    · rw [List.map_map]
      rfl
  have heach : s.scope = .expression →
      Each (EntryLays r w s style) (entryOperands entries) (entries.map visit) := by
    intro hs
    rw [entryOperands_eq]
    refine Each.map _ _ fun e he => ⟨hown.texts _ ?_, [.operand s e.2], ?_, ?_⟩
    · exact List.mem_append_right _ (List.mem_map_of_mem he)
    · show [if _ then _ else _] = _
      split <;> rfl
    · have hmem : style.visit s e ∈ (Part.literal (.mk style entries)).parts s := by
        rw [Part.parts, MapLiteral.parts, if_pos hs]
        exact List.mem_map_of_mem he
      have hobeys : (Part.expr e.2).Obeys r w (s.inScope .expression) := by
        obtain ⟨levels, hvisit⟩ := style.visit_eq s e
        exact ho.visit (hvisit ▸ hmem)
      refine (h e he _ hobeys).value.mono fun f ds hf => ⟨hf.2, fun hq => ?_⟩
      rw [hf.1.1]
      exact hown.quoted rfl hs e he hq
  have hlays := lays_mapLiteral heach (fun t ht => hown.texts t ?_) fun hs hi => hown.nested ?_
  · rw [hparts] at hlays
    exact hlays
  · exact List.mem_append_left _ (Option.mem_toList.mpr ht)
  · simp [Part.indents, hs, hi]

theorem Expr.composes_call (name : String) {args : List Expr} (multiline : Bool)
    (h : ∀ e ∈ args, e.Composes r w) : (Expr.call name args multiline).Composes r w := by
  intro s ho
  have hown := ho.allowed
  refine Expr.lays_part ?_
  have hname : r.text name := hown.texts _ List.mem_cons_self
  have heach : Each (fun o vs => o.IsLaid r w s vs) (operands args)
      (visits .expr (s.inScope .expression) args) := by
    refine each_operands h ho (k := if multiline then some 1 else some 0) fun e he => ?_
    refine List.mem_map.mpr ⟨e, he, ?_⟩
    cases multiline <;> rfl
  have hlays := Operand.lays_call hname multiline hown.nested heach
  cases multiline with
  | false => exact hlays
  | true =>
      rw [Operand.argumentParts, if_pos rfl, visits_deeper] at hlays
      exact hlays

theorem Node.composes_testPredicate (name : String) (exported : Bool) {tests : List Expr}
    (h : ∀ e ∈ tests, e.Composes r w) : (Node.testPredicate name exported tests).Composes r w := by
  intro s ho
  have hown := ho.allowed
  have hname : r.text name := hown.texts _ List.mem_cons_self
  refine Node.lays_part ?_
  by_cases hs : s.scope = .top
  · have hparts : (Node.testPredicate name exported tests).parts s
        = (visits .expr (s.inTests false) tests).map Visit.hidden
          ++ (visits .expr (s.inTests true) tests).map Visit.deeper := by
      rw [visits_hidden, visits_deeper, Node.parts, if_pos hs]
    rw [hparts]
    have hstandard := each_operands h ho (t := s.inTests false) (k := none) fun e he => by
      simpa [Part.parts, Node.parts, hs] using he
    have hinlined := each_operands h ho (t := s.inTests true) (k := some 1) fun e he => by
      simpa [Part.parts, Node.parts, hs] using he
    exact leaves_testPredicate hname exported hs (hown.nested (by simp [Part.indents, hs]))
      (lays_testStatements false hstandard) (lays_testStatements true hinlined)
      (hown.tested rfl hs)
  · rw [Node.parts, if_neg hs]
    exact (lays_testPredicate hname exported hs).leaves

theorem Node.composes_expr {e : Expr} (h : e.Composes r w) : (Node.expr e).Composes r w := by
  intro s ho
  refine Node.lays_part (lays_expression fun hs => h s ?_).leaves
  have hmem : ⟨s, .expr e, some 0⟩ ∈ (Part.node (.expr e)).parts s := by
    simp [Part.parts, Node.parts, hs]
  exact ho.visit hmem

theorem Node.composes_constant (name : String) {value : Expr} (exported : Bool)
    (h : value.Composes r w) : (Node.constant name value exported).Composes r w := by
  intro s ho
  have hvalue : s.scope ≠ .expression → value.operand.IsLaid r w s [.operand s value] := fun hs =>
    isLaid_operand h ho (by simp [Part.parts, Node.parts, hs])
  exact Node.lays_part
    (lays_constant (ho.allowed.texts _ List.mem_cons_self) exported hvalue).leaves

theorem Node.composes_declare (name : String) {value : Option Expr}
    (h : ∀ e ∈ value, e.Composes r w) : (Node.declare name value).Composes r w := by
  intro s ho
  have hvalue : s.scope = .statement → Each (fun o vs => o.IsLaid r w s vs)
      (operand? value).toList (value.toList.map (Visit.operand s)) := by
    intro hs
    cases value with
    | none => exact .nil
    | some e =>
        exact .one (isLaid_operand (h e rfl) ho (by simp [Part.parts, Node.parts, hs]))
  exact Node.lays_part (lays_declare (ho.allowed.texts _ List.mem_cons_self) hvalue).leaves

theorem Node.composes_assign {target value : Expr} (ht : target.Composes r w)
    (hv : value.Composes r w) : (Node.assign target value).Composes r w := by
  intro s ho
  have htarget : s.scope ≠ .top → target.operand.IsLaid r w s [.operand s target] := fun hs =>
    isLaid_operand ht ho (by simp [Part.parts, Node.parts, hs])
  have hvalue : s.scope ≠ .top → value.operand.IsLaid r w s [.operand s value] := fun hs =>
    isLaid_operand hv ho (by simp [Part.parts, Node.parts, hs])
  exact Node.lays_part (lays_assign htarget hvalue).leaves

theorem Node.composes_returning {value : Expr} (h : value.Composes r w) :
    (Node.returning value).Composes r w := by
  intro s ho
  have hvalue : s.scope = .statement → value.operand.IsLaid r w s [.operand s value] := fun hs =>
    isLaid_operand h ho (by simp [Part.parts, Node.parts, hs])
  exact Node.lays_part (lays_returning hvalue).leaves

/-- Forms that are composed of texts. -/
theorem Node.composes_plain {n : Node} (hparts : ∀ s, n.parts s = [])
    (h : ∀ s, (Part.node n).Allowed r w s → Lays r w s n.build []) : n.Composes r w := by
  intro s ho
  refine Node.lays_part ?_
  rw [hparts]
  exact (h s ho.allowed).leaves

theorem Node.composes_enumValue (v : EnumValue) : (Node.enumValue v).Composes r w :=
  composes_plain (fun _ => rfl) fun _ ha => lays_enumValue ha.texts

theorem Node.composes_enumeration (d : EnumDeclaration) : (Node.enumeration d).Composes r w := by
  intro s ho
  have hown := ho.allowed
  refine Node.lays_part ?_
  have hvalues : s.scope = .top → Each (LaysPart r w s.inEnumBody) (d.values.map Render.enumValue)
      (visits (fun v => .node (.enumValue v)) s.inEnumBody d.values) := by
    refine fun hs => Each.map _ _ fun v hv => composes_enumValue v s.inEnumBody ?_
    have hmem : ⟨s.inEnumBody, .node (.enumValue v), some 1⟩
        ∈ (Part.node (.enumeration d)).parts s := by
      simpa [Part.parts, Node.parts, hs] using hv
    exact ho.visit hmem
  have hlays := leaves_enumeration hown.texts (fun hs => hown.nested (by simp [Part.indents, hs]))
    hvalues
  rw [visits_deeper] at hlays
  exact hlays

theorem Node.composes_snippet (text : State → String) (sets : Overrides) :
    (Node.snippet text sets).Composes r w := by
  intro s ho
  obtain ⟨htext, hsame⟩ := ho.allowed.snippet rfl
  refine Node.lays_part ?_
  refine ⟨fun _ => text s, [], fun c hc => ⟨c.state.override sets, ?_⟩, .text htext⟩
  show (text c.state, c.withState (·.override sets)) = _
  rw [hsame c.state hc.state, Context.reported_nil]
  rfl

theorem Node.composes_testCall (name : String) {tests : List Expr}
    (h : ∀ e ∈ tests, e.Composes r w) : (Node.testCall name tests).Composes r w := by
  intro s ho
  refine Node.lays_part ?_
  exact (lays_testCall (ho.allowed.texts _ List.mem_cons_self) fun hs ht =>
    each_operands h ho (k := some 0) fun e he => by
      simpa [Part.parts, Node.parts, hs, ht] using ⟨e, he, rfl⟩).leaves

theorem Node.composes_block (spaced : Bool) {body : List Node} (h : ∀ n ∈ body, n.Composes r w) :
    (Node.block spaced body).Composes r w := by
  intro s ho
  refine Node.lays_part ?_
  have hlays := lays_block spaced (ho.allowed.nested rfl)
    (each_buildAll h ho (k := some 1) fun n hn => List.mem_map.mpr ⟨n, hn, rfl⟩)
  rw [visits_deeper] at hlays
  exact hlays.leaves

theorem Node.composes_ifChain {test : Expr} {body : List Node} {elseIfs : List (Expr × List Node)}
    {otherwise : Option (List Node)} (ht : test.Composes r w) (hb : ∀ n ∈ body, n.Composes r w)
    (helse : ∀ b ∈ elseIfs, b.1.Composes r w ∧ ∀ n ∈ b.2, n.Composes r w)
    (hlast : ∀ ns ∈ otherwise, ∀ n ∈ ns, n.Composes r w) :
    (Node.ifChain test body elseIfs otherwise).Composes r w := by
  intro s ho
  refine Node.lays_part ?_
  -- the parts of a chain are those of its first branch, of the further ones and of the last
  have hparts : s.scope = .statement → (Part.node (.ifChain test body elseIfs otherwise)).parts s
      = branchParts s (test, body) ++ elseIfs.flatMap (branchParts s)
        ++ (otherwise.getD []).map (Visit.statement s) := fun hs => if_pos hs
  have hfirst : s.scope = .statement →
      BranchLays r w s (test.operand, buildAll body) (branchParts s (test, body)) := fun hs =>
    branchLays (b := (test, body)) ht hb ho fun v hv => by
      rw [hparts hs]
      exact List.mem_append_left _ (List.mem_append_left _ hv)
  have hrest : s.scope = .statement →
      Each (BranchLays r w s) (branches elseIfs) (elseIfs.flatMap (branchParts s)) := fun hs =>
    each_branches helse ho fun b hb v hv => by
      rw [hparts hs]
      exact List.mem_append_left _
        (List.mem_append_right _ (List.mem_flatMap.mpr ⟨b, hb, hv⟩))
  have hends : s.scope = .statement → Each (LaysPart r w s.inBody)
      ((buildOption otherwise).getD []) (visits .node s.inBody (otherwise.getD [])) := by
    intro hs
    have hmem : ∀ n ∈ otherwise.getD [], Visit.statement s n
        ∈ (Part.node (.ifChain test body elseIfs otherwise)).parts s := fun n hn => by
      rw [hparts hs]
      exact List.mem_append_right _ (List.mem_map_of_mem hn)
    cases otherwise with
    | none => exact .nil
    | some ns => exact each_buildAll (hlast ns rfl) ho hmem
  have hlays := lays_ifChain (fun hs => ho.allowed.nested (by simp [Part.indents, hs])) hfirst hrest
    hends
  rw [visits_deeper, ← List.append_assoc] at hlays
  exact hlays.leaves

theorem Node.composes_function {header : FunctionHeader} {arguments : List Expr} {body : List Node}
    (ha : ∀ e ∈ arguments, e.Composes r w) (hb : ∀ n ∈ body, n.Composes r w) :
    (Node.function header arguments body).Composes r w := by
  intro s ho
  refine Node.lays_part ?_
  have hbody : s.scope = .top → Each (LaysPart r w s.inBody) (buildAll body)
      (visits .node s.inBody body) := fun hs =>
    each_buildAll hb ho fun n hn => by
      rw [Part.parts, Node.parts, if_pos hs]
      exact List.mem_map_of_mem (f := Visit.statement s) hn
  have harguments : s.scope ≠ .top → Each (fun o vs => o.IsLaid r w s vs) (operands arguments)
      (visits .expr (s.inScope .expression) arguments) := fun hs =>
    each_operands ha ho (k := some 0) fun e he => by
      simpa [Part.parts, Node.parts, hs] using ⟨e, he, rfl⟩
  have hlays := lays_function ho.allowed.texts
    (fun hs => ho.allowed.nested (by simp [Part.indents, hs])) hbody harguments
  rw [visits_deeper] at hlays
  exact hlays.leaves

theorem Node.composes_uiPredicate (name : String) {body : List Node}
    (hb : ∀ n ∈ body, n.Composes r w) : (Node.uiPredicate name body).Composes r w := by
  intro s ho
  refine Node.lays_part ?_
  have hbody : s.scope = .top → Each (LaysPart r w { s with inUi := true }.inBody) (buildAll body)
      (visits .node { s with inUi := true }.inBody body) := fun hs =>
    each_buildAll hb ho (k := some 1) fun n hn => by
      simpa [Part.parts, Node.parts, hs] using ⟨n, hn, rfl⟩
  have hlays := lays_uiPredicate (ho.allowed.texts _ List.mem_cons_self)
    (fun hs => ho.allowed.nested (by simp [Part.indents, hs])) hbody
  rw [visits_deeper] at hlays
  exact hlays.leaves

theorem Node.composes_uiParameter (name : String) {m : MapLiteral} (d : ParameterDeclaration)
    (hm : m.Composes r w) : (Node.uiParameter name m d).Composes r w := by
  intro s ho
  refine Node.lays_part ?_
  have hname : r.text name := ho.allowed.texts _ List.mem_cons_self
  have hd : ∀ t ∈ d.texts, r.text t := fun t ht =>
    ho.allowed.texts t (List.mem_cons_of_mem _ ht)
  refine (lays_uiParameter hname hd fun hs => m.lays_annotated (hm _ ?_)).leaves
  have hmem : ⟨s.inScope .expression, .literal m, some 0⟩
      ∈ (Part.node (.uiParameter name m d)).parts s := by
    simp [Part.parts, Node.parts, hs]
  exact ho.visit hmem

theorem Node.composes_group (g : GroupHeader) {body : List Node}
    (hb : ∀ n ∈ body, n.Composes r w) : (Node.group g body).Composes r w := by
  intro s ho
  refine Node.lays_part ?_
  have hlays := lays_group (g := g) ho.allowed.texts (ho.allowed.nested rfl)
    (each_buildAll hb ho (k := some 1) fun n hn => List.mem_map.mpr ⟨n, hn, rfl⟩)
  rw [visits_deeper] at hlays
  exact hlays.leaves

theorem Node.composes_sequence (separator : String) {nodes : List Node}
    (h : ∀ n ∈ nodes, n.Composes r w) : (Node.sequence separator nodes).Composes r w := by
  intro s ho
  exact Node.lays_part (lays_sequence (ho.allowed.texts _ List.mem_cons_self)
    (each_buildAll h ho (k := some 0) fun n hn => List.mem_map.mpr ⟨n, hn, rfl⟩)).leaves

theorem Node.composes_studio (hw : w.Writable r) (stdImports imports : List Import)
    {body : List Node} (h : ∀ n ∈ body, n.Composes r w) :
    (Node.studio stdImports imports body).Composes r w := by
  intro s ho
  have htexts : ∀ i ∈ stdImports ++ imports, ∀ t ∈ i.texts, r.text t := fun i hi t ht =>
    ho.allowed.texts t (List.mem_flatMap.mpr ⟨i, hi, ht⟩)
  refine Node.lays_part (lays_studio hw htexts fun hs => ?_).leaves
  exact each_buildAll h ho (k := some 0) fun n hn => by
    simpa [Part.parts, Node.parts, hs] using hn

theorem Node.composes_feature (name : String) {m : MapLiteral} {ui body : Expr}
    (hm : m.Composes r w) (hu : ui.Composes r w) (hb : body.Composes r w) :
    (Node.feature name m ui body).Composes r w := by
  intro s ho
  have hvisit : s.scope = .top →
      (Part.literal m).Obeys r w (s.inScope .expression)
        ∧ (Part.expr ui).Obeys r w { s.inScope .statement with inUi := true }
        ∧ (Part.expr body).Obeys r w (s.inScope .statement) := by
    intro hs
    have hmem : ∀ v ∈ [⟨s.inScope .expression, .literal m, some 0⟩,
        ⟨{ s.inScope .statement with inUi := true }, .expr ui, some 2⟩,
        (⟨s.inScope .statement, .expr body, some 2⟩ : Visit)],
        v.part.Obeys r w v.state := fun v hv => ho.visit (by
      simpa [Part.parts, Node.parts, hs] using hv)
    exact ⟨hmem _ List.mem_cons_self, hmem _ (List.mem_cons_of_mem _ List.mem_cons_self),
      hmem _ (List.mem_cons_of_mem _ (List.mem_cons_of_mem _ List.mem_cons_self))⟩
  have hlays := lays_feature (a := ui.operand) (b := body.operand)
    (ho.allowed.texts _ List.mem_cons_self)
    (fun hs => ho.allowed.nested (by simp [Part.indents, hs]))
    (fun hs => m.lays_annotated (hm _ (hvisit hs).1)) (fun hs => hu _ (hvisit hs).2.1)
    fun hs => hb _ (hvisit hs).2.2
  exact Node.lays_part hlays.leaves

/-! The world brings texts itself, which have to be such that they may stand. -/

mutual

theorem Expr.composes (hw : w.Writable r) : ∀ e : Expr, e.Composes r w
  | .token text => fun s ho =>
      Expr.lays_part (Operand.lays_token (ho.allowed.texts _ List.mem_cons_self))
  | .parens inner => fun s ho =>
      Expr.lays_part (Operand.lays_parens
        (isLaid_operand (inner.composes hw) ho List.mem_cons_self))
  | .unary op operand => fun s ho =>
      Expr.lays_part (Operand.lays_unary op
        (isLaid_operand (operand.composes hw) ho List.mem_cons_self))
  | .binary lhs op rhs => fun s ho =>
      Expr.lays_part (Operand.lays_binary op
        (isLaid_operand (lhs.composes hw) ho List.mem_cons_self)
        (isLaid_operand (rhs.composes hw) ho (by simp [Part.parts, Expr.parts])))
  | .equality lhs op rhs => fun s ho =>
      Expr.lays_part (Operand.lays_equality op
        (isLaid_operand (lhs.composes hw) ho List.mem_cons_self)
        (isLaid_operand (rhs.composes hw) ho (by simp [Part.parts, Expr.parts])))
  | .ternary test ifTrue ifFalse => fun s ho =>
      Expr.lays_part (Operand.lays_ternary (isLaid_operand (test.composes hw) ho List.mem_cons_self)
        (isLaid_operand (ifTrue.composes hw) ho (by simp [Part.parts, Expr.parts]))
        (isLaid_operand (ifFalse.composes hw) ho (by simp [Part.parts, Expr.parts])))
  | .access base keys => fun s ho =>
      Expr.lays_part (Operand.lays_access (isLaid_operand (base.composes hw) ho List.mem_cons_self)
        (each_operands (composes_exprs hw keys) ho (k := some 0) fun e he =>
          List.mem_cons_of_mem _ (List.mem_map_of_mem he)))
  | .call name args multiline => Expr.composes_call name multiline (composes_exprs hw args)
  | .node n => fun s ho =>
      Expr.lays_part (Leaves.run (n.composes hw _ (ho.visit List.mem_cons_self)))

theorem Node.composes (hw : w.Writable r) : ∀ n : Node, n.Composes r w
  | .expr e => Node.composes_expr (e.composes hw)
  | .constant name value exported => Node.composes_constant name exported (value.composes hw)
  | .declare name none => Node.composes_declare name fun e he => by cases he
  | .declare name (some value) => Node.composes_declare name fun e he => by
      cases he
      exact value.composes hw
  | .assign target value => Node.composes_assign (target.composes hw) (value.composes hw)
  | .returning value => Node.composes_returning (value.composes hw)
  | .formal _ => Node.composes_plain (fun _ => rfl) fun _ ha =>
      lays_text (Rule.formalParameter ha.texts)
  | .block spaced body => Node.composes_block spaced (composes_nodes hw body)
  | .ifChain test body elseIfs none =>
      Node.composes_ifChain (test.composes hw) (composes_nodes hw body)
        (composes_branches hw elseIfs) fun ns h => by cases h
  | .ifChain test body elseIfs (some otherwise) =>
      Node.composes_ifChain (test.composes hw) (composes_nodes hw body)
        (composes_branches hw elseIfs) fun ns h => by cases h; exact composes_nodes hw otherwise
  | .map literal => fun s ho =>
      Node.lays_part (literal.composes hw _ (ho.visit List.mem_cons_self)).leaves
  | .function header arguments body =>
      Node.composes_function (composes_exprs hw arguments) (composes_nodes hw body)
  | .uiPredicate name body => Node.composes_uiPredicate name (composes_nodes hw body)
  | .testPredicate name exported tests =>
      Node.composes_testPredicate name exported (composes_exprs hw tests)
  | .testCall name tests => Node.composes_testCall name (composes_exprs hw tests)
  | .enumeration declaration => Node.composes_enumeration declaration
  | .enumValue value => Node.composes_enumValue value
  | .annotations literal => fun s ho =>
      Node.lays_part
        (literal.lays_annotated (literal.composes hw _ (ho.visit List.mem_cons_self))).leaves
  | .uiParameter name literal declaration =>
      Node.composes_uiParameter name declaration (literal.composes hw)
  | .group header body => Node.composes_group header (composes_nodes hw body)
  | .sequence separator nodes => Node.composes_sequence separator (composes_nodes hw nodes)
  | .boundSpec spec => Node.composes_plain (fun _ => rfl) fun s ha =>
      lays_boundSpec (ha.texts _ List.mem_cons_self) fun hs =>
        ha.nested (by simp [Part.indents, hs])
  | .importLine _ => Node.composes_plain (fun _ => rfl) fun _ ha => lays_importLine hw ha.texts
  | .studio stdImports imports body =>
      Node.composes_studio hw stdImports imports (composes_nodes hw body)
  | .feature name literal ui body =>
      Node.composes_feature name (literal.composes hw) (ui.composes hw) (body.composes hw)
  | .snippet text sets => Node.composes_snippet text sets

theorem MapLiteral.composes (hw : w.Writable r) : ∀ m : MapLiteral, m.Composes r w
  | .mk _ entries => MapLiteral.composes_mk (composes_entries hw entries)

theorem composes_exprs (hw : w.Writable r) : ∀ es : List Expr, ∀ e ∈ es, e.Composes r w
  | [], _, h => absurd h List.not_mem_nil
  | e :: rest, e', h =>
      (List.mem_cons.mp h).elim (fun h => h ▸ e.composes hw) (composes_exprs hw rest e')

theorem composes_nodes (hw : w.Writable r) : ∀ ns : List Node, ∀ n ∈ ns, n.Composes r w
  | [], _, h => absurd h List.not_mem_nil
  | n :: rest, n', h =>
      (List.mem_cons.mp h).elim (fun h => h ▸ n.composes hw) (composes_nodes hw rest n')

theorem composes_branches (hw : w.Writable r) : ∀ bs : List (Expr × List Node), ∀ b ∈ bs,
    b.1.Composes r w ∧ ∀ n ∈ b.2, n.Composes r w
  | [], _, h => absurd h List.not_mem_nil
  | (test, body) :: rest, b, h =>
      (List.mem_cons.mp h).elim (fun h => h ▸ ⟨test.composes hw, composes_nodes hw body⟩)
        (composes_branches hw rest b)

theorem composes_entries (hw : w.Writable r) :
    ∀ es : List (String × Expr), ∀ e ∈ es, e.2.Composes r w
  | [], _, h => absurd h List.not_mem_nil
  | (key, value) :: rest, e, h =>
      (List.mem_cons.mp h).elim (fun h => h ▸ value.composes hw) (composes_entries hw rest e)

end

/-- The text of a node, rendered with any overrides, is that of one part. -/
theorem Node.run_composed (hw : w.Writable r) (n : Node) {o : Overrides}
    (ho : (Part.node n).Obeys r w (s.override o)) :
    Lays r w s (run o n.build) [⟨s.override o, .node n, some 0⟩] :=
  Leaves.run (n.composes hw _ ho)

end

end FeatureStudio
