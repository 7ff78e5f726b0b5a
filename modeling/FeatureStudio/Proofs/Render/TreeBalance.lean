/-
  FeatureStudio.Proofs.Render.TreeBalance: the text of a tree is balanced.

  The forms of expressions and nodes keep brackets balanced; by induction over the tree all of its
  text is balanced, if the texts that are written as they are are balanced by themselves.  A value
  that is quoted may be anything, so the induction does not go into it: of such a value it is only
  known that it has a text.

  Main statements:
    * `Expr.staysBalanced`, `Node.staysBalanced`, `MapLiteral.staysBalanced`: the induction.
    * `Node.run_isBalanced`: the text of a node, and what annotations ask for.
-/
import FeatureStudio.Proofs.Dialog.Annotations
import FeatureStudio.Proofs.Render.Balance
import FeatureStudio.Proofs.Render.Independence

namespace FeatureStudio

open Build Render
open Text (IsBalanced)

/-! ## §1. Parts that stay balanced. -/

/-- Each text that is written as it is is balanced by itself: those of the tree, and the version of
the standard library. -/
structure Part.BalancedTexts (version : String) (s : State) (p : Part) : Prop where
  writes : p.WritesBalanced s
  version : p.WritesVersion s → IsBalanced version

namespace Part.BalancedTexts

variable {version : String} {s : State} {p : Part}

theorem own (h : p.BalancedTexts version s) : ∀ text ∈ p.verbatim s, IsBalanced text :=
  h.writes.own

theorem visit (h : p.BalancedTexts version s) {v : Visit} (hv : v ∈ p.shown s) :
    v.part.BalancedTexts version v.state :=
  ⟨h.writes.visit hv, fun hversion => h.version (hversion.of_visit hv)⟩

/-- Elsewhere than at file level the version does not matter. -/
theorem of_scope_ne_top (h : p.WritesBalanced s) (hs : s.scope ≠ .top) :
    p.BalancedTexts version s := ⟨h, fun hversion => absurd hversion (Part.not_writesVersion hs)⟩

end Part.BalancedTexts

/-- Wherever the texts of the expression that are written as they are are balanced, its text is. -/
def Expr.StaysBalanced (w : World) (e : Expr) : Prop :=
  ∀ s, (Part.expr e).BalancedTexts w.stdVersion s → Balances w s e.render

def Node.StaysBalanced (w : World) (n : Node) : Prop :=
  ∀ s, (Part.node n).BalancedTexts w.stdVersion s → BalancesPart w s n.build

def MapLiteral.StaysBalanced (w : World) (m : MapLiteral) : Prop :=
  ∀ s, (Part.literal m).BalancedTexts w.stdVersion s → Balances w s m.render

section

variable {w : World} {s : State} {p : Part}

/-- An operand of a part is balanced. -/
theorem balances_shown {e : Expr} (he : e.StaysBalanced w)
    (h : p.BalancedTexts w.stdVersion s) (hmem : Visit.operand s e ∈ p.shown s) :
    BalancesOperand w s e.operand := he _ (h.visit hmem)

/-- Expressions that a part renders are balanced. -/
theorem balances_operands {es : List Expr} (hes : ∀ e ∈ es, e.StaysBalanced w)
    (h : p.BalancedTexts w.stdVersion s) {t : State} {k : Option Nat}
    (hmem : ∀ e ∈ es, ⟨t, .expr e, k⟩ ∈ p.shown s) :
    ∀ o ∈ operands es, Balances w t o.render := by
  intro o ho
  rw [operands_eq] at ho
  obtain ⟨e, he, rfl⟩ := List.mem_map.mp ho
  exact hes e he t (h.visit (hmem e he))

/-- Nodes that a part renders are balanced. -/
theorem balances_buildAll {ns : List Node} (hns : ∀ n ∈ ns, n.StaysBalanced w)
    (h : p.BalancedTexts w.stdVersion s) {t : State} {k : Option Nat}
    (hmem : ∀ n ∈ ns, ⟨t, .node n, k⟩ ∈ p.shown s) :
    ∀ r ∈ buildAll ns, BalancesPart w t r := by
  intro r hr
  rw [buildAll_eq] at hr
  obtain ⟨n, hn, rfl⟩ := List.mem_map.mp hr
  exact hns n hn t (h.visit (hmem n hn))

/-- A branch of a part is balanced. -/
theorem balances_branch {b : Expr × List Node} (htest : b.1.StaysBalanced w)
    (hbody : ∀ n ∈ b.2, n.StaysBalanced w) (h : p.BalancedTexts w.stdVersion s)
    (hmem : ∀ v ∈ branchParts s b, v ∈ p.shown s) :
    BalancesBranch w s (b.1.operand, buildAll b.2) where
  test := balances_shown htest h (hmem _ List.mem_cons_self)
  body := balances_buildAll hbody h (k := some 1) fun n hn =>
    hmem _ (List.mem_cons_of_mem _ (List.mem_map.mpr ⟨n, hn, rfl⟩))

theorem balances_branches {bs : List (Expr × List Node)}
    (hbs : ∀ b ∈ bs, b.1.StaysBalanced w ∧ ∀ n ∈ b.2, n.StaysBalanced w)
    (h : p.BalancedTexts w.stdVersion s) (hmem : ∀ b ∈ bs, ∀ v ∈ branchParts s b, v ∈ p.shown s) :
    ∀ b ∈ branches bs, BalancesBranch w s b := by
  intro b hb
  rw [branches_eq] at hb
  obtain ⟨b, hmem', rfl⟩ := List.mem_map.mp hb
  rw [← buildAll_eq]
  exact balances_branch (hbs b hmem').1 (hbs b hmem').2 h (hmem b hmem')

/-! ## §2. Forms with parts. -/

/-- Whatever its texts are, an expression has a text. -/
theorem Expr.yields (hw : w.anyDepth = false) (e : Expr) (s : State) :
    Ensures w s (fun _ => e.render) fun _ _ => True := by
  have hobeys : (Part.expr e).Obeys .free w s := Part.obeys_free fun t text sets _ t' ht' => by
    rw [hw] at ht'
    rw [ht'.eq]
  exact (e.composes w.writable_free s hobeys).mono fun _ _ _ => trivial

theorem MapLiteral.staysBalanced_mk (hw : w.anyDepth = false) {style : MapStyle}
    {entries : List (String × Expr)} (h : ∀ e ∈ entries, e.2.StaysBalanced w) :
    (MapLiteral.mk style entries).StaysBalanced w := by
  intro s hwrites
  have hown : s.scope = .expression → ∀ text ∈ style.typeName.toList
      ++ (entries.map Prod.fst).filter fun key => !style.quotesKey key, IsBalanced text := by
    intro hs text ht
    refine hwrites.own text ?_
    rw [Part.verbatim, if_pos hs]
    exact ht
  refine balances_mapLiteral (fun hs t ht => hown hs t ?_) fun hs o ho => ?_
  · exact List.mem_append_left _ (Option.mem_toList.mpr ht)
  rw [entryOperands_eq] at ho
  obtain ⟨e, he, rfl⟩ := List.mem_map.mp ho
  refine ⟨fun hkey => hown hs e.1 (List.mem_append_right _ ?_), ?_⟩
  · exact List.mem_filter.mpr ⟨List.mem_map_of_mem he, by rw [hkey]; rfl⟩
  · cases hquotes : style.quotes e.1 with
    | true =>
        -- of a quoted value nothing is known but that there is one
        exact (e.2.yields hw _).mono fun _ _ _ hq => by cases hq
    | false =>
        have hmem : style.visit s e ∈ (Part.literal (.mk style entries)).shown s := by
          show _ ∈ (MapLiteral.mk _ _).parts s
          rw [MapLiteral.parts, if_pos hs]
          exact List.mem_map_of_mem (List.mem_filter.mpr ⟨he, by rw [hquotes]; rfl⟩)
        obtain ⟨levels, hvisit⟩ := style.visit_eq s e
        have hvalue : (Part.expr e.2).BalancedTexts w.stdVersion (s.inScope .expression) :=
          hwrites.visit (hvisit ▸ hmem)
        exact (h e he _ hvalue).mono fun _ _ hf _ => hf

/-- An annotation is balanced if its literal is. -/
theorem MapLiteral.balances_annotated {m : MapLiteral}
    (h : Balances w (s.inScope .expression) m.render) : Balances w s m.annotationLine := by
  cases m with
  | mk style entries => exact balances_annotationLine h

theorem Expr.staysBalanced_call (name : String) {args : List Expr} (multiline : Bool)
    (h : ∀ e ∈ args, e.StaysBalanced w) : (Expr.call name args multiline).StaysBalanced w := by
  intro s hwrites
  refine balances_call (hwrites.own _ List.mem_cons_self) multiline
    (balances_operands h hwrites (k := if multiline then some 1 else some 0) fun e he => ?_)
  refine List.mem_map.mpr ⟨e, he, ?_⟩
  cases multiline <;> rfl

theorem Node.staysBalanced_expr {e : Expr} (h : e.StaysBalanced w) :
    (Node.expr e).StaysBalanced w := by
  intro s hwrites
  refine (balances_expression fun hs => h s (hwrites.visit (v := ⟨s, .expr e, some 0⟩) ?_)).leaves
  simp [Node.parts, hs]

theorem Node.staysBalanced_constant (name : String) {value : Expr} (exported : Bool)
    (h : value.StaysBalanced w) : (Node.constant name value exported).StaysBalanced w := by
  intro s hwrites
  refine (balances_constant (hwrites.own _ List.mem_cons_self) exported fun hs =>
    balances_shown h hwrites ?_).leaves
  simp [Node.parts, hs]

theorem Node.staysBalanced_declare (name : String) {value : Option Expr}
    (h : ∀ e ∈ value, e.StaysBalanced w) : (Node.declare name value).StaysBalanced w := by
  intro s hwrites
  refine (balances_declare (fun hs => hwrites.own name ?_) fun hs o ho => ?_).leaves
  · simp [Node.verbatim, hs]
  · cases value with
    | none => cases ho
    | some e =>
        cases ho
        exact balances_shown (h e rfl) hwrites (by simp [Node.parts, hs])

theorem Node.staysBalanced_assign {target value : Expr} (ht : target.StaysBalanced w)
    (hv : value.StaysBalanced w) : (Node.assign target value).StaysBalanced w := by
  intro s hwrites
  refine (balances_assign (fun hs => balances_shown ht hwrites ?_) fun hs =>
    balances_shown hv hwrites ?_).leaves
  · simp [Node.parts, hs]
  · simp [Node.parts, hs]

theorem Node.staysBalanced_returning {value : Expr} (h : value.StaysBalanced w) :
    (Node.returning value).StaysBalanced w := by
  intro s hwrites
  refine (balances_returning fun hs => balances_shown h hwrites ?_).leaves
  simp [Node.parts, hs]

theorem Node.staysBalanced_block (spaced : Bool) {body : List Node}
    (h : ∀ n ∈ body, n.StaysBalanced w) : (Node.block spaced body).StaysBalanced w := by
  intro s hwrites
  exact (balances_block spaced (balances_buildAll h hwrites (k := some 1) fun n hn =>
    List.mem_map.mpr ⟨n, hn, rfl⟩)).leaves

theorem Node.staysBalanced_ifChain {test : Expr} {body : List Node}
    {elseIfs : List (Expr × List Node)} {otherwise : Option (List Node)}
    (ht : test.StaysBalanced w) (hb : ∀ n ∈ body, n.StaysBalanced w)
    (helse : ∀ b ∈ elseIfs, b.1.StaysBalanced w ∧ ∀ n ∈ b.2, n.StaysBalanced w)
    (hlast : ∀ ns ∈ otherwise, ∀ n ∈ ns, n.StaysBalanced w) :
    (Node.ifChain test body elseIfs otherwise).StaysBalanced w := by
  intro s hwrites
  have hshown : s.scope = .statement → (Part.node (.ifChain test body elseIfs otherwise)).shown s
      = branchParts s (test, body) ++ elseIfs.flatMap (branchParts s)
        ++ (otherwise.getD []).map (Visit.statement s) := fun hs => if_pos hs
  refine (balances_ifChain (fun hs => ?_) (fun hs => ?_) fun hs => ?_).leaves
  · refine balances_branch (b := (test, body)) ht hb hwrites fun v hv => ?_
    rw [hshown hs]
    exact List.mem_append_left _ (List.mem_append_left _ hv)
  · refine balances_branches helse hwrites fun b hb v hv => ?_
    rw [hshown hs]
    exact List.mem_append_left _ (List.mem_append_right _ (List.mem_flatMap.mpr ⟨b, hb, hv⟩))
  · have hmem : ∀ n ∈ otherwise.getD [], Visit.statement s n
        ∈ (Part.node (.ifChain test body elseIfs otherwise)).shown s := fun n hn => by
      rw [hshown hs]
      exact List.mem_append_right _ (List.mem_map_of_mem hn)
    cases otherwise with
    | none => exact fun _ h => by cases h
    | some ns => exact balances_buildAll (hlast ns rfl) hwrites hmem

theorem Node.staysBalanced_function {header : FunctionHeader} {arguments : List Expr}
    {body : List Node} (ha : ∀ e ∈ arguments, e.StaysBalanced w)
    (hb : ∀ n ∈ body, n.StaysBalanced w) :
    (Node.function header arguments body).StaysBalanced w := by
  intro s hwrites
  have hname : IsBalanced header.name := hwrites.own _ (by
    simp only [Part.verbatim_node, Node.verbatim]
    split <;> exact List.mem_cons_self)
  refine (balances_function hname (fun hs t ht => hwrites.own t ?_)
    (fun hs => balances_buildAll hb hwrites (k := some 1) fun n hn => ?_)
    fun hs => balances_operands ha hwrites (k := some 0) fun e he => ?_).leaves
  · simpa [Node.verbatim, hs] using ht
  · simpa [Node.parts, hs] using ⟨n, hn, rfl⟩
  · simpa [Node.parts, hs] using ⟨e, he, rfl⟩

theorem Node.staysBalanced_uiPredicate (name : String) {body : List Node}
    (hb : ∀ n ∈ body, n.StaysBalanced w) : (Node.uiPredicate name body).StaysBalanced w := by
  intro s hwrites
  refine (balances_uiPredicate (hwrites.own _ List.mem_cons_self) fun hs =>
    balances_buildAll hb hwrites (k := some 1) fun n hn => ?_).leaves
  simpa [Node.parts, hs] using ⟨n, hn, rfl⟩

theorem Node.staysBalanced_testPredicate (name : String) (exported : Bool) {tests : List Expr}
    (h : ∀ e ∈ tests, e.StaysBalanced w) :
    (Node.testPredicate name exported tests).StaysBalanced w := by
  intro s hwrites
  refine balances_testPredicate (hwrites.own _ List.mem_cons_self) exported fun hs inlined =>
    balances_operands h hwrites (k := if inlined then some 1 else none) fun e he => ?_
  cases inlined <;> simpa [Node.parts, hs] using he

theorem Node.staysBalanced_testCall (name : String) {tests : List Expr}
    (h : ∀ e ∈ tests, e.StaysBalanced w) : (Node.testCall name tests).StaysBalanced w := by
  intro s hwrites
  refine (balances_testCall (fun hs htest => hwrites.own name ?_) fun hs htest =>
    balances_operands h hwrites (k := some 0) fun e he => ?_).leaves
  · simp [Node.verbatim, hs, htest]
  · simpa [Node.parts, hs, htest] using ⟨e, he, rfl⟩

theorem Node.staysBalanced_enumValue (v : EnumValue) : (Node.enumValue v).StaysBalanced w :=
  fun _ hwrites => (balances_enumValue hwrites.own).leaves

theorem Node.staysBalanced_enumeration (d : EnumDeclaration) :
    (Node.enumeration d).StaysBalanced w := by
  intro s hwrites
  refine balances_enumeration hwrites.own fun hs v hv => ?_
  refine Node.staysBalanced_enumValue v _
    (hwrites.visit (v := ⟨s.inEnumBody, .node (.enumValue v), some 1⟩) ?_)
  simpa [Node.parts, hs] using hv

theorem Node.staysBalanced_uiParameter (name : String) {m : MapLiteral}
    (d : ParameterDeclaration) (hm : m.StaysBalanced w) :
    (Node.uiParameter name m d).StaysBalanced w := by
  intro s hwrites
  refine (balances_uiParameter (fun hs t ht => hwrites.own t ?_) fun hs =>
    m.balances_annotated (hm _ (hwrites.visit
      (v := ⟨s.inScope .expression, .literal m, some 0⟩) ?_))).leaves
  · simpa [Node.verbatim, hs] using ht
  · simp [Node.parts, hs]

theorem Node.staysBalanced_group (g : GroupHeader) {body : List Node}
    (hb : ∀ n ∈ body, n.StaysBalanced w) : (Node.group g body).StaysBalanced w := by
  intro s hwrites
  exact (balances_group g (balances_buildAll hb hwrites (k := some 1) fun n hn =>
    List.mem_map.mpr ⟨n, hn, rfl⟩)).leaves

theorem Node.staysBalanced_sequence (separator : String) {nodes : List Node}
    (h : ∀ n ∈ nodes, n.StaysBalanced w) : (Node.sequence separator nodes).StaysBalanced w := by
  intro s hwrites
  refine (balances_sequence (fun hlength => hwrites.own separator ?_)
    (balances_buildAll h hwrites (k := some 0) fun n hn => List.mem_map.mpr ⟨n, hn, rfl⟩)).leaves
  rw [buildAll_eq, List.length_map] at hlength
  simp [Node.verbatim, hlength]

theorem Node.staysBalanced_studio (stdImports imports : List Import) {body : List Node}
    (h : ∀ n ∈ body, n.StaysBalanced w) :
    (Node.studio stdImports imports body).StaysBalanced w := by
  intro s hwrites
  refine (balances_studio stdImports imports (fun hs => ?_) fun hs =>
    balances_buildAll h hwrites (k := some 0) fun n hn => ?_).leaves
  · exact hwrites.version ⟨s, stdImports, imports, body, .refl _ _, hs⟩
  · simpa [Node.parts, hs] using hn

theorem Node.staysBalanced_feature (name : String) {m : MapLiteral} {ui body : Expr}
    (hm : m.StaysBalanced w) (hu : ui.StaysBalanced w) (hb : body.StaysBalanced w) :
    (Node.feature name m ui body).StaysBalanced w := by
  intro s hwrites
  have hvisit : s.scope = .top → ∀ v ∈ [⟨s.inScope .expression, .literal m, some 0⟩,
      ⟨{ s.inScope .statement with inUi := true }, .expr ui, some 2⟩,
      (⟨s.inScope .statement, .expr body, some 2⟩ : Visit)],
        v.part.BalancedTexts w.stdVersion v.state := fun hs v hv =>
    hwrites.visit (by simpa [Node.parts, hs] using hv)
  refine (balances_feature (a := ui.operand) (b := body.operand) (fun hs => hwrites.own name ?_)
    (fun hs => m.balances_annotated (hm _ (hvisit hs _ List.mem_cons_self)))
    (fun hs => hu _ (hvisit hs _ (List.mem_cons_of_mem _ List.mem_cons_self)))
    fun hs => hb _ (hvisit hs _
      (List.mem_cons_of_mem _ (List.mem_cons_of_mem _ List.mem_cons_self)))).leaves
  simp [Node.verbatim, hs]

theorem Node.staysBalanced_snippet (hw : w.anyDepth = false) (text : State → String)
    (sets : Overrides) : (Node.snippet text sets).StaysBalanced w := by
  intro s hwrites
  refine ⟨fun _ => text s, [], fun c hc => ⟨c.state.override sets, ?_⟩,
    fun _ => hwrites.own _ List.mem_cons_self⟩
  have htext : text c.state = text s := congrArg text (State.Alike.eq (hw ▸ hc.state))
  show (text c.state, c.withState (·.override sets)) = _
  rw [htext, Context.reported_nil]
  rfl

end

/-! ## §3. The tree. -/

mutual

theorem Expr.staysBalanced {w : World} (hw : w.anyDepth = false) : ∀ e : Expr, e.StaysBalanced w
  | .token _ => fun _ h => balances_text (h.own _ List.mem_cons_self)
  | .parens inner => fun _ h =>
      balances_parens (balances_shown (inner.staysBalanced hw) h List.mem_cons_self)
  | .unary op operand => fun _ h =>
      balances_unary op (balances_shown (operand.staysBalanced hw) h List.mem_cons_self)
  | .binary lhs op rhs => fun _ h =>
      balances_binary op (balances_shown (lhs.staysBalanced hw) h List.mem_cons_self)
        (balances_shown (rhs.staysBalanced hw) h (List.mem_cons_of_mem _ List.mem_cons_self))
  | .equality lhs op rhs => fun _ h =>
      balances_equality op (balances_shown (lhs.staysBalanced hw) h List.mem_cons_self)
        (balances_shown (rhs.staysBalanced hw) h (List.mem_cons_of_mem _ List.mem_cons_self))
  | .ternary test ifTrue ifFalse => fun _ h =>
      balances_ternary (balances_shown (test.staysBalanced hw) h List.mem_cons_self)
        (balances_shown (ifTrue.staysBalanced hw) h (List.mem_cons_of_mem _ List.mem_cons_self))
        (balances_shown (ifFalse.staysBalanced hw) h
          (List.mem_cons_of_mem _ (List.mem_cons_of_mem _ List.mem_cons_self)))
  | .access base keys => fun _ h =>
      balances_access (balances_shown (base.staysBalanced hw) h List.mem_cons_self)
        (balances_operands (staysBalanced_exprs hw keys) h (k := some 0) fun _ he =>
          List.mem_cons_of_mem _ (List.mem_map_of_mem he))
  | .call name args multiline =>
      Expr.staysBalanced_call name multiline (staysBalanced_exprs hw args)
  | .node n => fun _ h => Leaves.run (n.staysBalanced hw _ (h.visit List.mem_cons_self))

theorem Node.staysBalanced {w : World} (hw : w.anyDepth = false) : ∀ n : Node, n.StaysBalanced w
  | .expr e => Node.staysBalanced_expr (e.staysBalanced hw)
  | .constant name value exported =>
      Node.staysBalanced_constant name exported (value.staysBalanced hw)
  | .declare name none => Node.staysBalanced_declare name fun e he => by cases he
  | .declare name (some value) => Node.staysBalanced_declare name fun e he => by
      cases he
      exact value.staysBalanced hw
  | .assign target value =>
      Node.staysBalanced_assign (target.staysBalanced hw) (value.staysBalanced hw)
  | .returning value => Node.staysBalanced_returning (value.staysBalanced hw)
  | .formal _ => fun _ h => (balances_text (isBalanced_formal h.own)).leaves
  | .block spaced body => Node.staysBalanced_block spaced (staysBalanced_nodes hw body)
  | .ifChain test body elseIfs none =>
      Node.staysBalanced_ifChain (test.staysBalanced hw) (staysBalanced_nodes hw body)
        (staysBalanced_branches hw elseIfs) fun ns h => by cases h
  | .ifChain test body elseIfs (some otherwise) =>
      Node.staysBalanced_ifChain (test.staysBalanced hw) (staysBalanced_nodes hw body)
        (staysBalanced_branches hw elseIfs) fun ns h => by
          cases h
          exact staysBalanced_nodes hw otherwise
  | .map literal => fun _ h => (literal.staysBalanced hw _ (h.visit List.mem_cons_self)).leaves
  | .function _ arguments body =>
      Node.staysBalanced_function (staysBalanced_exprs hw arguments) (staysBalanced_nodes hw body)
  | .uiPredicate name body => Node.staysBalanced_uiPredicate name (staysBalanced_nodes hw body)
  | .testPredicate name exported tests =>
      Node.staysBalanced_testPredicate name exported (staysBalanced_exprs hw tests)
  | .testCall name tests => Node.staysBalanced_testCall name (staysBalanced_exprs hw tests)
  | .enumeration declaration => Node.staysBalanced_enumeration declaration
  | .enumValue value => Node.staysBalanced_enumValue value
  | .annotations literal => fun _ h =>
      (literal.balances_annotated
        (literal.staysBalanced hw _ (h.visit List.mem_cons_self))).leaves
  | .uiParameter name literal declaration =>
      Node.staysBalanced_uiParameter name declaration (literal.staysBalanced hw)
  | .group header body => Node.staysBalanced_group header (staysBalanced_nodes hw body)
  | .sequence separator nodes =>
      Node.staysBalanced_sequence separator (staysBalanced_nodes hw nodes)
  | .boundSpec spec => fun s h => (balances_boundSpec fun hs => h.own _ (by
      simp [Node.verbatim, hs])).leaves
  | .importLine target => fun _ _ => (balances_importLine target).leaves
  | .studio stdImports imports body =>
      Node.staysBalanced_studio stdImports imports (staysBalanced_nodes hw body)
  | .feature name literal ui body =>
      Node.staysBalanced_feature name (literal.staysBalanced hw) (ui.staysBalanced hw)
        (body.staysBalanced hw)
  | .snippet text sets => Node.staysBalanced_snippet hw text sets

theorem MapLiteral.staysBalanced {w : World} (hw : w.anyDepth = false) :
    ∀ m : MapLiteral, m.StaysBalanced w
  | .mk _ entries => MapLiteral.staysBalanced_mk hw (staysBalanced_entries hw entries)

theorem staysBalanced_exprs {w : World} (hw : w.anyDepth = false) :
    ∀ es : List Expr, ∀ e ∈ es, e.StaysBalanced w
  | [], _, h => absurd h List.not_mem_nil
  | e :: rest, e', h =>
      (List.mem_cons.mp h).elim (fun h => h ▸ e.staysBalanced hw) (staysBalanced_exprs hw rest e')

theorem staysBalanced_nodes {w : World} (hw : w.anyDepth = false) :
    ∀ ns : List Node, ∀ n ∈ ns, n.StaysBalanced w
  | [], _, h => absurd h List.not_mem_nil
  | n :: rest, n', h =>
      (List.mem_cons.mp h).elim (fun h => h ▸ n.staysBalanced hw) (staysBalanced_nodes hw rest n')

theorem staysBalanced_branches {w : World} (hw : w.anyDepth = false) :
    ∀ bs : List (Expr × List Node), ∀ b ∈ bs,
      b.1.StaysBalanced w ∧ ∀ n ∈ b.2, n.StaysBalanced w
  | [], _, h => absurd h List.not_mem_nil
  | (test, body) :: rest, b, h =>
      (List.mem_cons.mp h).elim
        (fun h => h ▸ ⟨test.staysBalanced hw, staysBalanced_nodes hw body⟩)
        (staysBalanced_branches hw rest b)

theorem staysBalanced_entries {w : World} (hw : w.anyDepth = false) :
    ∀ es : List (String × Expr), ∀ e ∈ es, e.2.StaysBalanced w
  | [], _, h => absurd h List.not_mem_nil
  | (_, value) :: rest, e, h =>
      (List.mem_cons.mp h).elim (fun h => h ▸ value.staysBalanced hw)
        (staysBalanced_entries hw rest e)

end

/-- **Output is balanced.**  Whatever the node, the overrides and the context, and whether or not
warnings are raised, each bracket of the text has its counterpart outside literals and each literal
ends, if the texts that are written as they are are balanced by themselves: those of the tree, and
where it has a file the version of the standard library in the context.  The annotations of
parameters and features are so whatever their labels, lists and descriptions say.  A node that is
not of the library is a snippet, with its text as it is. -/
theorem Node.run_isBalanced (c : Context) :
    (∀ (n : Node) (o : Overrides),
      (Part.node n).WritesBalanced (c.state.override o) →
      ((Part.node n).WritesVersion (c.state.override o) → IsBalanced c.stdVersion) →
        IsBalanced (run o n.build c).1) ∧
    (∀ (a : ParameterAnnotations) (s : State),
      (∀ e ∈ a.filter, (Part.expr e).WritesBalanced (s.inScope .expression)) →
      (∀ p ∈ a.additional, a.literal.style.quotes p.1 = false → IsBalanced p.2) →
        (Part.literal a.literal).WritesBalanced s) ∧
    ∀ (a : FeatureAnnotations) (s : State),
      (∀ p ∈ a.texts, a.literal.style.quotes p.1 = false → IsBalanced p.2) →
        (Part.literal a.literal).WritesBalanced s := by
  refine ⟨fun n o h hversion => ?_, fun a s hfilter ht =>
    ParameterAnnotations.writesBalanced hfilter ht, fun a s ht =>
    FeatureAnnotations.writesBalanced ht⟩
  -- snippets are texts of the whole state, so no depth of indentation is left open
  let w : World := ⟨c.stdVersion, c.documents, false⟩
  obtain ⟨text, ds, hyields, htext⟩ : Balances w c.state (run o n.build) :=
    Leaves.run (n.staysBalanced rfl _ ⟨h, hversion⟩)
  have hrun : run o n.build c = (text c.indent, c.reported ds) := hyields c ⟨rfl, rfl, .refl _⟩
  rw [hrun]
  exact htext c.indent

/-- A file of a call at file level, which is a marker, and of a feature.  What is quoted in it has
brackets and quotes that do not match. -/
def Node.unruly : Node :=
  .studio [] [⟨.path "a\")(" "[", false⟩]
    [.expr (.call "f" [.token "("] false),
      .feature "wedge"
        { title := "\x7d\"", filterTags := ["]"], description := some "one \\\n(two\"" :
          FeatureAnnotations }.literal
        (.call "wedgePredicate" [.token "definition"] false) (.call "f" [.token "\"(\""] true)]

theorem Node.unruly_run_isBalanced :
    (Part.node Node.unruly).WritesBalanced {} ∧
      ((Part.node Node.unruly).WritesVersion {} → IsBalanced ({} : Context).stdVersion) ∧
      IsBalanced (run (.inScope .top) Node.unruly.build {}).1 := by
  -- only names and tokens are written as they are
  have hcall : ∀ {name text : String} {multiline : Bool} {s : State}, IsBalanced name →
      IsBalanced text → (Part.expr (.call name [.token text] multiline)).WritesBalanced s :=
    fun hname htext => .of_shown (fun _ ht => List.mem_singleton.mp ht ▸ hname) fun v hv => by
      rw [List.mem_singleton.mp hv]
      split <;> exact Expr.writesBalanced_token _ htext
  have hwrites : (Part.node Node.unruly).WritesBalanced {} := by
    refine .of_shown (by decide) fun v hv => ?_
    rcases List.mem_cons.mp hv with rfl | hv
    · exact .of_shown (by decide) fun _ hv => by cases hv
    rw [List.mem_singleton.mp hv]
    refine .of_shown (by decide) fun v hv => ?_
    rcases List.mem_cons.mp hv with rfl | hv
    · exact (Node.run_isBalanced {}).2.2 _ _ fun _ hp => by cases hp
    rcases List.mem_cons.mp hv with rfl | hv
    · exact hcall (by decide) (by decide)
    · rw [List.mem_singleton.mp hv]
      exact hcall (by decide) (by decide)
  have hversion : (Part.node Node.unruly).WritesVersion {} → IsBalanced ({} : Context).stdVersion :=
    fun _ => by decide
  exact ⟨hwrites, hversion, (Node.run_isBalanced {}).1 _ (.inScope .top) hwrites hversion⟩

/-- If the version of a context has a bracket that is not closed, so has a file with a single import
in it. -/
theorem Node.not_isBalanced_of_version :
    ¬ ∀ (n : Node) (o : Overrides) (c : Context),
      (Part.node n).WritesBalanced (c.state.override o) → IsBalanced (run o n.build c).1 := by
  intro h
  let n : Node := .studio [⟨.std "common.fs", false⟩] [] []
  let c : Context := { stdVersion := "(" }
  have hwrites : (Part.node n).WritesBalanced (c.state.override {}) :=
    .of_shown (fun _ ht => by cases ht) fun _ hv => by cases hv
  have hopen : ¬ IsBalanced (run {} n.build c).1 := by decide +kernel
  exact hopen (h n {} c hwrites)

end FeatureStudio
