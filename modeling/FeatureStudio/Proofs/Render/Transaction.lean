/-
  FeatureStudio.Proofs.Render.Transaction: rendering a node leaves its context in order.

  A node built directly may change the state: a test predicate and an enumeration at file level
  do, and so does a snippet that sets fields.  `Node.effect` says how.  Everything else about a
  context is kept by every node, so that `run` gives back exactly the state it was called in.

  Main statements:
    * `Expr.keeps_render`, `Node.shifts_build`: the induction over expressions and nodes.
    * `Node.build_transactional`: what a node leaves behind, run or built directly.
-/
import FeatureStudio.Proofs.Render.Frame
import FeatureStudio.Render.Node

namespace FeatureStudio

open Build

/-- The state in the body of a test predicate, where its declaration leaves it. -/
def State.inBody (s : State) : State :=
  { s with scope := .statement, indentDepth := s.indentDepth + 1 }

namespace Render

/-! ## §1. Operands. -/

theorem keeps_coerced (text : String) : Keeps (coerced text) := by
  refine keeps_scope fun s => ?_
  cases s with
  | top => exact keeps_expectedScope _
  | statement => exact keeps_pure _
  | expression => exact keeps_pure _

theorem keeps_expression {render : Rendering} (h : Keeps render) : Keeps (expression render) := by
  refine keeps_scope fun s => ?_
  split
  · exact keeps_expectedScope _
  · exact h.bind keeps_coerced

namespace Operand

/-- The rendering of the operand keeps the state. -/
def IsKept (o : Operand) : Prop := Keeps o.render

theorem keeps_text {o : Operand} (h : o.IsKept) : Keeps o.text :=
  keeps_runIn _ (keeps_expression h).balanced

theorem keeps_above (least : Nat) {o : Operand} (h : o.IsKept) : Keeps (o.above least) :=
  (keeps_text h).map _

theorem keeps_texts : ∀ os : List Operand, (∀ o ∈ os, o.IsKept) → Keeps (texts os)
  | [], _ => keeps_pure []
  | o :: rest, h => by
      have hrest := keeps_texts rest fun o' h' => h o' (List.mem_cons_of_mem _ h')
      exact (keeps_text (h o List.mem_cons_self)).bind fun _ => hrest.map _

theorem isKept_token (text : String) : (token text).IsKept := keeps_pure _

theorem isKept_wrapped {node : Rendering} (h : Balanced node) : (wrapped node).IsKept :=
  keeps_runIn _ h

theorem isKept_parens {o : Operand} (h : o.IsKept) : (parens o).IsKept := (keeps_text h).map _

theorem isKept_unary (op : UnaryOp) {o : Operand} (h : o.IsKept) : (unary op o).IsKept :=
  (keeps_above _ h).map _

theorem isKept_binary {l r : Operand} (op : BinaryOp) (hl : l.IsKept) (hr : r.IsKept) :
    (binary l op r).IsKept :=
  (keeps_above _ hl).bind fun _ => (keeps_above _ hr).map _

theorem isKept_equality {l r : Operand} (op : EqualityOp) (hl : l.IsKept) (hr : r.IsKept) :
    (equality l op r).IsKept :=
  (keeps_above _ hl).bind fun _ => (keeps_above _ hr).map _

theorem isKept_ternary {t a b : Operand} (ht : t.IsKept) (ha : a.IsKept) (hb : b.IsKept) :
    (ternary t a b).IsKept :=
  (keeps_above _ ht).bind fun _ => (keeps_text ha).bind fun _ => (keeps_text hb).map _

theorem isKept_access {base : Operand} {keys : List Operand} (hb : base.IsKept)
    (hk : ∀ k ∈ keys, k.IsKept) : (access base keys).IsKept :=
  (keeps_above _ hb).bind fun _ => (keeps_texts keys hk).map _

theorem isKept_call (name : String) {args : List Operand} (multiline : Bool)
    (h : ∀ a ∈ args, a.IsKept) : (call name args multiline).IsKept := by
  refine (keeps_texts args h).bind fun texts => ?_
  split
  · exact (keeps_indented _ _).map _
  · exact keeps_pure _

theorem isKept_grouped {o : Operand} (h : o.IsKept) : o.grouped.IsKept := by
  unfold grouped
  split
  · exact h
  · exact isKept_parens h

theorem isKept_conjunction {os : List Operand} (h : ∀ o ∈ os, o.IsKept) :
    (conjunction os).IsKept := by
  cases os with
  | nil => exact isKept_grouped (isKept_token _)
  | cons o rest =>
      refine isKept_grouped ?_
      have hfold : ∀ (l : List Operand) (acc : Operand), acc.IsKept → (∀ o ∈ l, o.IsKept) →
          (l.foldl (fun acc next => binary acc .and next.grouped) acc).IsKept := by
        intro l
        induction l with
        | nil => intro acc hacc _; exact hacc
        | cons p l ih =>
            intro acc hacc hl
            refine ih _ (isKept_binary .and hacc (isKept_grouped (hl p List.mem_cons_self))) ?_
            intro q hq
            exact hl q (List.mem_cons_of_mem _ hq)
      exact hfold rest _ (isKept_grouped (h o List.mem_cons_self))
        fun p hp => h p (List.mem_cons_of_mem _ hp)

end Operand

open Operand (IsKept keeps_text)

/-! ## §2. Literals and statements. -/

theorem keeps_entryTexts (style : MapStyle) : ∀ entries : List (String × Operand),
    (∀ p ∈ entries, p.2.IsKept) → Keeps (entryTexts style entries)
  | [], _ => keeps_pure []
  | (key, value) :: rest, h => by
      have hvalue : value.IsKept := h _ List.mem_cons_self
      have hrest := keeps_entryTexts style rest fun p hp => h p (List.mem_cons_of_mem _ hp)
      exact (keeps_text hvalue).bind fun _ => hrest.map _

theorem keeps_mapLiteral (style : MapStyle) {entries : List (String × Operand)}
    (h : ∀ p ∈ entries, p.2.IsKept) : Keeps (mapLiteral style entries) := by
  refine keeps_scope fun s => ?_
  split
  · exact keeps_expectedScope _
  · refine (keeps_entryTexts style entries h).bind fun pairs => ?_
    -- with a type to cast to and without one
    split
    all_goals
      split
      · exact (keeps_pure _).map _
      · split
        · exact (keeps_pure _).map _
        · exact (keeps_indented _ _).bind fun _ => (keeps_pure _).map _

theorem keeps_annotationLine (style : MapStyle) {entries : List (String × Operand)}
    (h : ∀ p ∈ entries, p.2.IsKept) : Keeps (annotationLine style entries) :=
  (keeps_runIn _ (keeps_mapLiteral style h).balanced).map _

theorem keeps_constant (name : String) {value : Operand} (exported : Bool) (h : value.IsKept) :
    Keeps (constant name value exported) := by
  have hd : ∀ head, Keeps (constant.declaration name value head) := fun _ => (keeps_text h).map _
  refine keeps_scope fun s => ?_
  cases s with
  | top => exact hd _
  | statement => exact hd _
  | expression => exact keeps_pure _

theorem keeps_declare (name : String) {value : Option Operand} (h : ∀ v ∈ value, v.IsKept) :
    Keeps (declare name value) := by
  refine keeps_scope fun s => ?_
  split
  · exact keeps_expectedScope _
  · cases value with
    | none => exact keeps_pure _
    | some v => exact (keeps_text (h v rfl)).map _

theorem keeps_assign {target value : Operand} (ht : target.IsKept) (hv : value.IsKept) :
    Keeps (assign target value) :=
  keeps_expression ((keeps_text ht).bind fun _ => (keeps_text hv).map _)

theorem keeps_returning {value : Operand} (h : value.IsKept) : Keeps (returning value) := by
  refine keeps_scope fun s => ?_
  split
  · exact keeps_expectedScope _
  · exact (keeps_text h).map _

theorem keeps_testedBranch (word : String) {test : Operand} {body : List Rendering}
    (ht : test.IsKept) (hb : ∀ p ∈ body, Balanced p) : Keeps (testedBranch word test body) := by
  have hblock := keeps_runIn .statement (keeps_block false hb).balanced
  exact keeps_runIn _ ((keeps_text ht).bind fun _ => hblock.map _).balanced

theorem keeps_elseBranch {body : List Rendering} (h : ∀ p ∈ body, Balanced p) :
    Keeps (elseBranch body) :=
  keeps_runIn _ ((keeps_runIn _ (keeps_block false h).balanced).map _).balanced

theorem keeps_elseIfBranches : ∀ bs : List (Operand × List Rendering),
    (∀ b ∈ bs, b.1.IsKept ∧ ∀ p ∈ b.2, Balanced p) → Keeps (elseIfBranches bs)
  | [], _ => keeps_pure ""
  | (test, body) :: rest, h => by
      have hb := h _ List.mem_cons_self
      have hrest := keeps_elseIfBranches rest fun b hb => h b (List.mem_cons_of_mem _ hb)
      exact (keeps_testedBranch _ hb.1 hb.2).bind fun _ => hrest.map _

theorem keeps_ifChain {test : Operand} {body : List Rendering}
    {elseIfs : List (Operand × List Rendering)} {otherwise : Option (List Rendering)}
    (ht : test.IsKept) (hb : ∀ p ∈ body, Balanced p)
    (he : ∀ b ∈ elseIfs, b.1.IsKept ∧ ∀ p ∈ b.2, Balanced p)
    (ho : ∀ body ∈ otherwise, ∀ p ∈ body, Balanced p) :
    Keeps (ifChain test body elseIfs otherwise) := by
  refine keeps_scope fun s => ?_
  split
  · exact keeps_expectedScope _
  · refine (keeps_testedBranch _ ht hb).bind fun _ => (keeps_elseIfBranches _ he).bind fun _ => ?_
    cases otherwise with
    | none => exact (keeps_pure _).map _
    | some body => exact (keeps_elseBranch (ho body rfl)).map _

/-! ## §3. Functions and predicates. -/

theorem keeps_functionDeclaration (h : FunctionHeader) {body : List Rendering}
    (hb : ∀ p ∈ body, Balanced p) : Keeps (functionDeclaration h body) := by
  refine (keeps_runIn _ (keeps_block h.spaced hb).balanced).bind fun text => ?_
  split
  · exact keeps_pure _
  · exact keeps_pure _

theorem keeps_callHere (name : String) {args : List Operand} (h : ∀ a ∈ args, a.IsKept) :
    Keeps (callHere name args) :=
  keeps_run _ (keeps_expression (Operand.isKept_call name false h)).balanced

theorem keeps_function (h : FunctionHeader) {args : List Operand} {body : List Rendering}
    (ha : ∀ a ∈ args, a.IsKept) (hb : ∀ p ∈ body, Balanced p) : Keeps (function h args body) := by
  refine keeps_scope fun s => ?_
  split
  · exact keeps_functionDeclaration h hb
  · exact keeps_callHere _ ha

theorem isKept_definitionArgument : ∀ a ∈ definitionArgument, a.IsKept := by
  intro a ha
  rw [List.mem_singleton.mp ha]
  exact Operand.isKept_token _

theorem keeps_uiPredicate (name : String) {body : List Rendering}
    (h : ∀ p ∈ body, Balanced p) : Keeps (uiPredicate name body) := by
  refine keeps_scope fun s => ?_
  split
  · exact keeps_run _ (keeps_function _ isKept_definitionArgument h).balanced
  · exact keeps_callHere _ isKept_definitionArgument

/-- The flag that has calls written out is put back behind the statements. -/
theorem keeps_testStatements (inlined : Bool) {tests : List Operand}
    (h : ∀ t ∈ tests, t.IsKept) : Keeps (testStatements inlined tests) := by
  have hparts : ∀ p ∈ tests.map (fun t => expression t.render), Balanced p := by
    intro p hp
    obtain ⟨t, ht, rfl⟩ := List.mem_map.mp hp
    exact (keeps_expression (h t ht)).balanced
  intro c
  have hrun : Shifts (fun s => { s with inTest := c.state.inTest })
      (do
        setState fun s => { s with inTest := inlined }
        let text ← joined { scope := some .statement } (tests.map fun t => expression t.render)
        setState fun s => { s with inTest := c.state.inTest }
        return text) :=
    (shifts_setState fun s => { s with inTest := inlined }).bind fun _ =>
      Shifts.bind (keeps_joined _ hparts) fun text =>
        (shifts_setState fun s => { s with inTest := c.state.inTest }).bind fun _ =>
          keeps_pure text
  exact hrun c

theorem shifts_testPredicate (name : String) (exported : Bool) {tests : List Operand}
    (h : ∀ t ∈ tests, t.IsKept) :
    Shifts (fun s => if s.scope = .top then s.inBody else s)
      (testPredicate name exported tests) := by
  refine shifts_scope (f := fun scope s => if scope = .top then s.inBody else s)
    fun scope => ?_
  by_cases hs : scope = .top
  · simp only [hs, ne_eq, not_true, if_false, if_true]
    -- scope and depth are set for the body and not put back
    exact (shifts_setState State.inBody).bind fun _ =>
      (keeps_testStatements false h).bind fun _ =>
        (keeps_testStatements true h).bind fun _ => (keeps_indented _ _).map _
  · simp only [hs, ne_eq, not_false_eq_true, if_true, if_false]
    exact keeps_callHere _ isKept_definitionArgument

theorem keeps_testCall (name : String) {tests : List Operand} (h : ∀ t ∈ tests, t.IsKept) :
    Keeps (testCall name tests) := by
  refine keeps_expression (keeps_state fun s => ?_)
  split
  · exact keeps_text (Operand.isKept_conjunction h)
  · exact Operand.isKept_call _ false isKept_definitionArgument

/-! ## §4. Enumerations. -/

theorem isKept_enumTest (v : EnumValue) : (enumTest v).IsKept :=
  Operand.isKept_equality .equal (Operand.isKept_token _) (Operand.isKept_token _)

theorem isKept_enumCall (v : EnumValue) : (enumCall v).IsKept := by
  unfold enumCall
  split
  · refine Operand.isKept_wrapped (keeps_testCall _ fun t ht => ?_).balanced
    rw [List.mem_singleton.mp ht]
    exact isKept_enumTest v
  · exact isKept_enumTest v

theorem keeps_enumLabel (v : EnumValue) : Keeps (enumLabel v) := by
  unfold enumLabel
  split
  · refine keeps_annotationLine _ fun p hp => ?_
    rcases List.mem_cons.mp hp with rfl | hp
    · exact Operand.isKept_token _
    · rw [List.mem_singleton.mp hp]
      exact Operand.isKept_token _
  · refine keeps_annotationLine _ fun p hp => ?_
    rw [List.mem_singleton.mp hp]
    exact Operand.isKept_token _

theorem keeps_enumValue (v : EnumValue) : Keeps (enumValue v) := by
  refine keeps_state fun s => ?_
  split
  · unfold enumValueDeclaration
    split
    · exact (keeps_runIn _ (keeps_enumLabel v).balanced).map _
    · exact keeps_pure _
  · refine keeps_scope fun scope => ?_
    split
    · exact keeps_text (isKept_enumCall v)
    · exact keeps_expectedScope _

theorem keeps_companionPredicates : ∀ companions : List (String × EnumValue),
    Keeps (companionPredicates companions)
  | [] => keeps_pure ""
  | (name, v) :: rest => by
      have htest : ∀ t ∈ [enumTest v], t.IsKept := by
        intro t ht
        rw [List.mem_singleton.mp ht]
        exact isKept_enumTest v
      have hfirst := keeps_runIn .top (shifts_testPredicate name true htest).balanced
      exact hfirst.bind fun _ => (keeps_companionPredicates rest).map _

theorem shifts_enumDeclaration (e : EnumDeclaration) :
    Shifts (fun s => { s with inEnum := false }) (enumDeclaration e) := by
  have hvalues : ∀ p ∈ e.values.map enumValue, Balanced p := by
    intro p hp
    obtain ⟨v, -, rfl⟩ := List.mem_map.mp hp
    exact (keeps_enumValue v).balanced
  -- the flag is set for the values only, and then cleared whatever it was before
  exact (shifts_setState fun s => { s with inEnum := true }).bind fun _ =>
    Shifts.bind (keeps_joined _ hvalues) fun _ =>
      (shifts_setState fun s => { s with inEnum := false }).bind fun _ =>
        (keeps_companionPredicates e.companions).map _

theorem shifts_enumeration (e : EnumDeclaration) :
    Shifts (fun s => if s.scope = .top then { s with inEnum := false } else s)
      (enumeration e) := by
  refine shifts_scope
    (f := fun scope s => if scope = .top then { s with inEnum := false } else s) fun scope => ?_
  cases scope with
  | top => exact shifts_enumDeclaration e
  | statement => exact keeps_expectedScope _
  | expression => exact keeps_text (Operand.isKept_token _)

/-! ## §5. The dialog. -/

theorem keeps_boundSpec (spec : BoundSpec) : Keeps (boundSpec spec) := by
  refine keeps_scope fun s => ?_
  cases s with
  | top =>
      refine keeps_runIn _ (keeps_constant _ _ (Operand.isKept_wrapped ?_)).balanced
      refine (keeps_mapLiteral _ fun p hp => ?_).balanced
      obtain ⟨entry, -, rfl⟩ := List.mem_map.mp hp
      exact Operand.isKept_token _
  | statement => exact keeps_expectedScope _
  | expression => exact keeps_pure _

theorem isKept_boundsOperand (b : Bounds) : (boundsOperand b).IsKept := by
  cases b with
  | named name => exact Operand.isKept_token _
  | spec spec => exact Operand.isKept_wrapped (keeps_boundSpec spec).balanced

theorem keeps_parameterDeclaration (name : String) (d : ParameterDeclaration) :
    Keeps (parameterDeclaration name d) := by
  cases d with
  | typed typeName => exact keeps_pure _
  | bounded predicate bounds =>
      refine keeps_runIn _ (keeps_expression (Operand.isKept_call _ _ fun a ha => ?_)).balanced
      rcases List.mem_cons.mp ha with rfl | ha
      · exact Operand.isKept_token _
      · rw [List.mem_singleton.mp ha]
        exact isKept_boundsOperand bounds

theorem keeps_uiParameter (name : String) {annotations : Rendering} (d : ParameterDeclaration)
    (h : Balanced annotations) : Keeps (uiParameter name annotations d) := by
  have hrest := fun _ : PUnit => (keeps_runIn .statement h).bind fun head =>
    (keeps_parameterDeclaration name d).map fun text => head ++ text
  refine keeps_scope fun s => ?_
  split
  · exact keeps_expectedScope _
  · refine keeps_state fun s => ?_
    split
    · exact (keeps_warnAt _ _).bind hrest
    · exact hrest ⟨⟩

theorem keeps_group (g : GroupHeader) {body : List Rendering} (h : ∀ p ∈ body, Balanced p) :
    Keeps (group g body) := by
  have hentries : ∀ p ∈ groupEntries g, p.2.IsKept := by
    intro p hp
    simp only [groupEntries, List.mem_cons, List.mem_map] at hp
    rcases hp with rfl | rfl | ⟨name, -, rfl⟩
    · exact Operand.isKept_token _
    · exact Operand.isKept_token _
    · exact Operand.isKept_token _
  have hrest := fun _ : PUnit =>
    (keeps_runIn .statement (keeps_annotationLine groupStyle hentries).balanced).bind fun head =>
      (keeps_runIn .statement (keeps_block true h).balanced).map fun text => head ++ text
  refine keeps_state fun s => ?_
  split
  · -- no parameter in the group
    split
    · exact (keeps_warnAt _ _).bind fun _ => (keeps_warnAt _ _).bind hrest
    · exact (keeps_warnAt _ _).bind hrest
  · split
    · exact (keeps_warnAt _ _).bind hrest
    · exact hrest ⟨⟩

/-! ## §6. Files. -/

theorem keeps_importTarget (source : ImportSource) : Keeps (importTarget source) := by
  cases source with
  | std studio => exact keeps_get fun _ => keeps_pure _
  | path path version => exact keeps_pure _
  | document document studio version =>
      refine keeps_get fun c => ?_
      split
      · exact keeps_pure _
      · exact (keeps_warnAt _ _).bind fun _ => keeps_pure _

theorem keeps_importLine (i : Import) : Keeps (importLine i) := by
  refine keeps_scope fun s => ?_
  split
  · exact keeps_expectedScope _
  · exact (keeps_importTarget i.source).map _

theorem keeps_importLines (imports : List Import) : Keeps (importLines imports) := by
  refine Keeps.map (keeps_runAll _ _ fun p hp => ?_) _
  obtain ⟨i, -, rfl⟩ := List.mem_map.mp hp
  exact (keeps_importLine i).balanced

theorem keeps_feature (name : String) {annotations : Rendering} {ui body : Operand}
    (ha : Balanced annotations) (hu : ui.IsKept) (hb : body.IsKept) :
    Keeps (feature name annotations ui body) := by
  refine keeps_scope fun s => ?_
  split
  · exact keeps_expectedScope _
  · exact keeps_get fun _ => (keeps_runIn _ ha).bind fun _ =>
      (keeps_run _ (keeps_expression hu).balanced).bind fun _ =>
        (keeps_runIn _ (keeps_expression hb).balanced).bind fun _ =>
          (keeps_indented _ _).bind fun _ => (keeps_indented _ _).map _

theorem keeps_studio (stdImports imports : List Import) {body : List Rendering}
    (h : ∀ p ∈ body, Balanced p) : Keeps (studio stdImports imports body) := by
  refine keeps_scope fun s => ?_
  split
  · exact keeps_expectedScope _
  · exact keeps_get fun _ => (keeps_importLines _).bind fun _ =>
      (keeps_importLines _).bind fun _ => (keeps_joined _ h).map _

end Render

/-! ## §7. The tree. -/

/-- What building a node directly does to the state. -/
def Node.effect : Node → State → State
  | .testPredicate .., s => if s.scope = .top then s.inBody else s
  | .enumeration _, s => if s.scope = .top then { s with inEnum := false } else s
  | .snippet _ sets, s => s.override sets
  | _, s => s

open Render

mutual

theorem Expr.keeps_render : ∀ e : Expr, Keeps e.render
  | .token _ => keeps_pure _
  | .parens inner => Operand.isKept_parens inner.keeps_render
  | .unary op operand => Operand.isKept_unary op operand.keeps_render
  | .binary lhs op rhs => Operand.isKept_binary op lhs.keeps_render rhs.keeps_render
  | .equality lhs op rhs => Operand.isKept_equality op lhs.keeps_render rhs.keeps_render
  | .ternary test ifTrue ifFalse =>
      Operand.isKept_ternary test.keeps_render ifTrue.keeps_render ifFalse.keeps_render
  | .access base keys => Operand.isKept_access base.keeps_render (isKept_operands keys)
  | .call name args multiline => Operand.isKept_call name multiline (isKept_operands args)
  | .node n => Operand.isKept_wrapped (n.shifts_build).balanced

theorem Node.shifts_build : ∀ n : Node, Shifts n.effect n.build
  | .expr e => keeps_expression e.keeps_render
  | .constant name value exported => keeps_constant name exported value.keeps_render
  | .declare name value => keeps_declare name (isKept_operand? value)
  | .assign target value => keeps_assign target.keeps_render value.keeps_render
  | .returning value => keeps_returning value.keeps_render
  | .formal _ => keeps_pure _
  | .block spaced body => keeps_block spaced (balanced_buildAll body)
  | .ifChain test body elseIfs otherwise =>
      keeps_ifChain test.keeps_render (balanced_buildAll body) (keeps_branches elseIfs)
        (balanced_buildOption otherwise)
  | .map literal => literal.keeps_render
  | .function header arguments body =>
      keeps_function header (isKept_operands arguments) (balanced_buildAll body)
  | .uiPredicate name body => keeps_uiPredicate name (balanced_buildAll body)
  | .testPredicate name exported tests =>
      shifts_testPredicate name exported (isKept_operands tests)
  | .testCall name tests => keeps_testCall name (isKept_operands tests)
  | .enumeration declaration => shifts_enumeration declaration
  | .enumValue value => keeps_enumValue value
  | .annotations literal => literal.keeps_annotationLine
  | .uiParameter name literal declaration =>
      keeps_uiParameter name declaration literal.keeps_annotationLine.balanced
  | .group header body => keeps_group header (balanced_buildAll body)
  | .sequence separator nodes => keeps_sequence separator (balanced_buildAll nodes)
  | .boundSpec spec => keeps_boundSpec spec
  | .importLine target => keeps_importLine target
  | .studio stdImports imports body => keeps_studio stdImports imports (balanced_buildAll body)
  | .feature name literal ui body =>
      keeps_feature name literal.keeps_annotationLine.balanced ui.keeps_render body.keeps_render
  | .snippet _ sets =>
      shifts_state (f := fun _ s => s.override sets) fun _ =>
        (shifts_setState (·.override sets)).bind fun _ => keeps_pure _

theorem MapLiteral.keeps_render : ∀ m : MapLiteral, Keeps m.render
  | .mk style entries => keeps_mapLiteral style (isKept_entryOperands entries)

theorem MapLiteral.keeps_annotationLine : ∀ m : MapLiteral, Keeps m.annotationLine
  | .mk style entries => Render.keeps_annotationLine style (isKept_entryOperands entries)

theorem isKept_operands : ∀ es : List Expr, ∀ o ∈ operands es, o.IsKept
  | [], _, h => absurd h List.not_mem_nil
  | e :: rest, o, h => by
      rcases List.mem_cons.mp h with rfl | h
      · exact e.keeps_render
      · exact isKept_operands rest o h

theorem isKept_operand? : ∀ e : Option Expr, ∀ o ∈ operand? e, o.IsKept
  | none, _, h => absurd h (by simp [operand?])
  | some e, o, h => by
      obtain rfl := Option.mem_some.mp h
      exact e.keeps_render

theorem balanced_buildAll : ∀ ns : List Node, ∀ p ∈ buildAll ns, Balanced p
  | [], _, h => absurd h List.not_mem_nil
  | n :: rest, p, h => by
      rcases List.mem_cons.mp h with rfl | h
      · exact (n.shifts_build).balanced
      · exact balanced_buildAll rest p h

theorem balanced_buildOption : ∀ ns : Option (List Node), ∀ body ∈ buildOption ns,
    ∀ p ∈ body, Balanced p
  | none, _, h => absurd h (by simp [buildOption])
  | some ns, body, h => by
      obtain rfl := Option.mem_some.mp h
      exact balanced_buildAll ns

theorem keeps_branches : ∀ bs : List (Expr × List Node), ∀ b ∈ branches bs,
    b.1.IsKept ∧ ∀ p ∈ b.2, Balanced p
  | [], _, h => absurd h List.not_mem_nil
  | (test, body) :: rest, b, h => by
      rcases List.mem_cons.mp h with rfl | h
      · exact ⟨test.keeps_render, balanced_buildAll body⟩
      · exact keeps_branches rest b h

theorem isKept_entryOperands : ∀ es : List (String × Expr), ∀ p ∈ entryOperands es, p.2.IsKept
  | [], _, h => absurd h List.not_mem_nil
  | (key, value) :: rest, p, h => by
      rcases List.mem_cons.mp h with rfl | h
      · exact value.keeps_render
      · exact isKept_entryOperands rest p h

end

/-! ## §8. The transaction. -/

theorem Node.le_effect (n : Node) (s : State) : s.indentDepth ≤ (n.effect s).indentDepth := by
  unfold Node.effect
  split
  · split
    · exact Nat.le_succ _
    · exact Nat.le_refl _
  · split
    · exact Nat.le_refl _
    · exact Nat.le_refl _
  · exact Nat.le_refl _
  · exact Nat.le_refl _

/-- **Rendering is transactional.**  Run with any overrides, a node gives back the state it was
called in; built directly it changes the state as `Node.effect` says and never lowers the depth.
Either way settings and saved states stay and warnings are only added.  Of nodes in a row, a
level deeper, the last leaves the depth one above that at entry, from where it is lowered.  Of nodes
that are not of the library only snippets are meant, here and wherever a tree may be any. -/
theorem Node.build_transactional (n : Node) (c : Context) :
    (∀ o : Overrides,
      c.Continues (run o n.build c).2 ∧ (run o n.build c).2.state = c.state)
    ∧ c.Continues (n.build c).2
    ∧ (n.build c).2.state = n.effect c.state
    ∧ c.state.indentDepth ≤ (n.build c).2.state.indentDepth
    ∧ ∀ (o : Overrides) (ns : List Node),
      (runAll o (buildAll ns)
        (c.withState fun s => { s with indentDepth := s.indentDepth + 1 })).2.state.indentDepth
          = c.state.indentDepth + 1 := by
  obtain ⟨hcontinues, hstate⟩ := n.shifts_build c
  refine ⟨fun o => ?_, hcontinues, hstate, ?_, fun o ns => ?_⟩
  · exact keeps_run o n.shifts_build.balanced c
  · rw [hstate]
    exact n.le_effect c.state
  · exact runAll_deeper o (balanced_buildAll ns) c

end FeatureStudio
