/-
  FeatureStudio.Proofs.Script.Parts: the parts of a tree, and where each of them is rendered.

  A node renders some of its subtrees and leaves others out, depending on the state it stands in:
  a function renders its body at file level and its arguments elsewhere.  `Part.parts` lists what
  a part renders, in which state, and how many levels of indentation it puts in front of it.
  What follows from rendering a whole tree is stated over the parts that are reached from it.

  Main statements:
    * `Part.Reaches.preserves`: what passes from every part to those it renders.
    * `operands_eq`, `buildAll_eq`, `entryOperands_eq`, `branches_eq`: lists of parts are rendered
      part by part.
-/
import FeatureStudio.Proofs.Render.Transaction

namespace FeatureStudio

open Build Render

/-! ## §1. Parts and the states they are rendered in. -/

/-- An expression, a node or a map literal. -/
inductive Part where
  | expr (e : Expr)
  | node (n : Node)
  | literal (m : MapLiteral)

/-- The text of a part in the current state; an expression's is its bare text. -/
def Part.rendering : Part → Rendering
  | .expr e => e.render
  | .node n => n.build
  | .literal m => m.render

/-- The state in the given scope. -/
def State.inScope (s : State) (scope : Scope) : State := s.override (.inScope scope)

/-- The state in which the tests of a test predicate are rendered. -/
def State.inTests (s : State) (inlined : Bool) : State := { s.inBody with inTest := inlined }

/-- The state in which the values of an enumeration are declared. -/
def State.inEnumBody (s : State) : State :=
  { s with scope := .expression, indentDepth := s.indentDepth + 1, inEnum := true }

/-- A part that another one renders. -/
structure Visit where
  state : State
  part : Part
  /-- The levels of indentation put in front of its lines.  There are none where the part is not
  written in lines of its own: escaped in a literal, or put on one line in a comment. -/
  levels : Option Nat

namespace Visit

/-- An operand, in its place. -/
def operand (s : State) (e : Expr) : Visit := ⟨s.inScope .expression, .expr e, some 0⟩

/-- A statement of a block. -/
def statement (s : State) (n : Node) : Visit := ⟨s.inBody, .node n, some 1⟩

/-- The visit one level deeper. -/
def deeper (v : Visit) : Visit := { v with levels := v.levels.map (· + 1) }

/-- The visit of a part that is not written in lines of its own. -/
def hidden (v : Visit) : Visit := { v with levels := none }

end Visit

/-- Whether the rendered value under `key` is quoted. -/
def MapStyle.quotes (style : MapStyle) (key : String) : Bool :=
  style.quoteValues && !style.bareValues.contains key

/-! ## §2. What a part renders. -/

/-- The parts of an expression.  Arguments are a level deeper if each has a line of its own. -/
def Expr.parts (s : State) : Expr → List Visit
  | .token _ => []
  | .parens e | .unary _ e => [.operand s e]
  | .binary lhs _ rhs | .equality lhs _ rhs => [.operand s lhs, .operand s rhs]
  | .ternary test ifTrue ifFalse => [.operand s test, .operand s ifTrue, .operand s ifFalse]
  | .access base keys => .operand s base :: keys.map (.operand s)
  | .call _ args multiline =>
    args.map fun e => if multiline then (Visit.operand s e).deeper else .operand s e
  | .node n => [⟨s.inScope .expression, .node n, some 0⟩]

/-- The value of an entry: quoted, or a level deeper if the map is not on one line. -/
def MapStyle.visit (style : MapStyle) (s : State) (entry : String × Expr) : Visit :=
  let v := if style.quotes entry.1 then (Visit.operand s entry.2).hidden else .operand s entry.2
  if style.inline then v else v.deeper

/-- Quoted or not, and however deep, a value is rendered as an operand. -/
theorem MapStyle.visit_eq (style : MapStyle) (s : State) (entry : String × Expr) :
    ∃ levels, style.visit s entry = ⟨s.inScope .expression, .expr entry.2, levels⟩ := by
  unfold visit
  split <;> split <;> exact ⟨_, rfl⟩

/-- The parts of a literal, which is rendered in expression scope only. -/
def MapLiteral.parts (s : State) : MapLiteral → List Visit
  | .mk style entries => if s.scope = .expression then entries.map (style.visit s) else []

/-- The parts of a branch. -/
def branchParts (s : State) (branch : Expr × List Node) : List Visit :=
  .operand s branch.1 :: branch.2.map (.statement s)

/-- The parts of a node. -/
def Node.parts (s : State) : Node → List Visit
  | .expr e => if s.scope = .top then [] else [⟨s, .expr e, some 0⟩]
  | .constant _ value _ => if s.scope = .expression then [] else [.operand s value]
  | .declare _ value => if s.scope = .statement then value.toList.map (.operand s) else []
  | .assign target value =>
    if s.scope = .top then [] else [.operand s target, .operand s value]
  | .returning value => if s.scope = .statement then [.operand s value] else []
  | .block _ body => body.map (.statement s)
  | .ifChain test body elseIfs otherwise =>
    if s.scope = .statement then
      branchParts s (test, body) ++ elseIfs.flatMap (branchParts s)
        ++ (otherwise.getD []).map (.statement s)
    else []
  | .map m => [⟨s, .literal m, some 0⟩]
  | .function _ arguments body =>
    if s.scope = .top then body.map (.statement s) else arguments.map (.operand s)
  | .uiPredicate _ body =>
    if s.scope = .top then body.map (.statement { s with inUi := true }) else []
  | .testPredicate _ _ tests =>
    if s.scope = .top then
      (tests.map fun e => ⟨s.inTests false, .expr e, none⟩)
        ++ tests.map fun e => ⟨s.inTests true, .expr e, some 1⟩
    else []
  | .testCall _ tests =>
    if s.scope = .top then [] else if s.inTest then tests.map (.operand s) else []
  | .enumeration declaration =>
    if s.scope = .top then
      declaration.values.map fun v => ⟨s.inEnumBody, .node (.enumValue v), some 1⟩
    else []
  | .annotations m => [⟨s.inScope .expression, .literal m, some 0⟩]
  | .uiParameter _ m _ =>
    if s.scope = .statement then [⟨s.inScope .expression, .literal m, some 0⟩] else []
  | .group _ body => body.map (.statement s)
  | .sequence _ nodes => nodes.map fun n => ⟨s.inScope .statement, .node n, some 0⟩
  | .studio _ _ body =>
    if s.scope = .top then body.map fun n => ⟨s, .node n, some 0⟩ else []
  | .feature _ m ui body =>
    if s.scope = .top then
      [⟨s.inScope .expression, .literal m, some 0⟩,
        ⟨{ s.inScope .statement with inUi := true }, .expr ui, some 2⟩,
        ⟨s.inScope .statement, .expr body, some 2⟩]
    else []
  | .formal _ | .enumValue _ | .boundSpec _ | .importLine _ | .snippet .. => []

/-- What a part renders, where, and how deep. -/
def Part.parts (s : State) : Part → List Visit
  | .expr e => e.parts s
  | .node n => n.parts s
  | .literal m => m.parts s

/-- Whether the part puts some of its own text a level deeper. -/
def Part.indents (s : State) : Part → Bool
  | .expr (.call _ _ multiline) => multiline
  | .expr _ => false
  | .literal (.mk style _) => s.scope = .expression && !style.inline
  | .node (.block ..) | .node (.group ..) => true
  | .node (.ifChain ..) => s.scope = .statement
  | .node (.function ..) | .node (.uiPredicate ..) | .node (.testPredicate ..)
  | .node (.enumeration _) | .node (.boundSpec _) | .node (.feature ..) => s.scope = .top
  | .node _ => false

/-! ## §3. What is reached. -/

/-- Rendering `p` in state `s` renders `q` in state `t`, at some depth of the tree. -/
inductive Part.Reaches : State → Part → State → Part → Prop
  | refl (s : State) (p : Part) : Reaches s p s p
  | step {s t : State} {p q : Part} {v : Visit} (hv : v ∈ p.parts s)
      (h : Reaches v.state v.part t q) : Reaches s p t q

/-- The lines of `q`, rendered in state `t`, stand `k` levels deeper in the text of `p`, rendered
in state `s`: `k` indenting constructs enclose it. -/
inductive Part.Encloses : State → Part → Nat → State → Part → Prop
  | refl (s : State) (p : Part) : Encloses s p 0 s p
  | step {s t : State} {p q : Part} {v : Visit} {j k : Nat} (hv : v ∈ p.parts s)
      (hj : v.levels = some j) (h : Encloses v.state v.part k t q) : Encloses s p (j + k) t q

/-- What holds of all parts that a part renders holds of all that are reached. -/
theorem Part.Reaches.preserves {P : Part → Prop} {s t : State} {p q : Part} (h : Reaches s p t q)
    (hP : ∀ {p s v}, P p → v ∈ p.parts s → P v.part) (hp : P p) : P q := by
  induction h with
  | refl => exact hp
  | step hv _ ih => exact ih (hP hp hv)

/-! ## §4. Supplied texts. -/

/-- The texts that a value of an enumeration is declared with. -/
def EnumValue.texts (v : EnumValue) : List String :=
  [v.token, v.enumName, v.parameterName, v.label] ++ v.companion.toList

/-- The texts of a formal parameter. -/
def FormalParameter.texts (p : FormalParameter) : List String := p.name :: p.typeName.toList

/-- The texts of the head of a function. -/
def FunctionHeader.texts (h : FunctionHeader) : List String :=
  h.name :: (h.returns.toList ++ h.parameters.flatMap FormalParameter.texts)

/-- The texts of an import that are written into its line. -/
def Import.texts (i : Import) : List String :=
  match i.source with
  | .std studio => [studio]
  | .path path version => [path, version]
  | .document _ _ version => version.toList

/-- The texts of the declaration of a parameter. -/
def ParameterDeclaration.texts : ParameterDeclaration → List String
  | .typed typeName => [typeName]
  | .bounded predicate bounds => [predicate, bounds.name]

/-- The texts supplied with a node itself, not with a part of it. -/
def Node.texts : Node → List String
  | .constant name .. | .declare name _ | .uiPredicate name _ | .testPredicate name ..
  | .testCall name _ | .feature name .. => [name]
  | .formal p => p.texts
  | .function h .. => h.texts
  | .enumeration d => d.name :: d.parameterName :: d.values.flatMap EnumValue.texts
  | .enumValue v => v.texts
  | .uiParameter name _ d => name :: d.texts
  | .group g _ => g.name :: g.driving.toList
  | .sequence separator _ => [separator]
  | .boundSpec spec => [spec.name]
  | .importLine i => i.texts
  | .studio stdImports imports _ => (stdImports ++ imports).flatMap Import.texts
  | _ => []

/-- The texts supplied with a part itself, not with a part of it. -/
def Part.texts : Part → List String
  | .expr (.token text) => [text]
  | .expr (.call name ..) => [name]
  | .expr _ => []
  | .node n => n.texts
  | .literal (.mk style entries) => style.typeName.toList ++ entries.map Prod.fst

/-! ## §5. Lists of parts. -/

theorem operands_eq (es : List Expr) : operands es = es.map Expr.operand := by
  induction es with
  | nil => rfl
  | cons e es ih =>
      rw [operands, ih]
      rfl

theorem buildAll_eq (ns : List Node) : buildAll ns = ns.map Node.build := by
  induction ns with
  | nil => rfl
  | cons n ns ih =>
      rw [buildAll, ih]
      rfl

theorem entryOperands_eq (entries : List (String × Expr)) :
    entryOperands entries = entries.map fun e => (e.1, e.2.operand) := by
  induction entries with
  | nil => rfl
  | cons e entries ih =>
      rw [entryOperands, ih]
      rfl

theorem branches_eq (bs : List (Expr × List Node)) :
    branches bs = bs.map fun b => (b.1.operand, b.2.map Node.build) := by
  induction bs with
  | nil => rfl
  | cons b bs ih =>
      rw [branches, ih, buildAll_eq]
      rfl

end FeatureStudio
