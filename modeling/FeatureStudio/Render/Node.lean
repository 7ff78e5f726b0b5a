/-
  FeatureStudio.Render.Node: the text of expressions and nodes.

  Each form of the tree is rendered by its own function from the renderings of its parts; this
  module is the recursion through the tree.
-/
import FeatureStudio.Render.Declaration
import FeatureStudio.Script.IfChain

namespace FeatureStudio

open Render

mutual

/-- The bare text of an expression. -/
def Expr.render : Expr → Rendering
  | .token text => return text
  | .parens inner => (Operand.parens ⟨inner.shape, inner.render⟩).render
  | .unary op operand => (Operand.unary op ⟨operand.shape, operand.render⟩).render
  | .binary lhs op rhs =>
    (Operand.binary ⟨lhs.shape, lhs.render⟩ op ⟨rhs.shape, rhs.render⟩).render
  | .equality lhs op rhs =>
    (Operand.equality ⟨lhs.shape, lhs.render⟩ op ⟨rhs.shape, rhs.render⟩).render
  | .ternary test ifTrue ifFalse =>
    (Operand.ternary ⟨test.shape, test.render⟩ ⟨ifTrue.shape, ifTrue.render⟩
      ⟨ifFalse.shape, ifFalse.render⟩).render
  | .access base keys => (Operand.access ⟨base.shape, base.render⟩ (operands keys)).render
  | .call name args multiline => (Operand.call name (operands args) multiline).render
  | .node n => (Operand.wrapped n.build).render

/-- The text of a node in the current state. -/
def Node.build : Node → Rendering
  | .expr e => expression e.render
  | .constant name value exported => constant name ⟨value.shape, value.render⟩ exported
  | .declare name value => declare name (operand? value)
  | .assign target value => assign ⟨target.shape, target.render⟩ ⟨value.shape, value.render⟩
  | .returning value => returning ⟨value.shape, value.render⟩
  | .formal parameter => return parameter.text
  | .block spaced body => block spaced (buildAll body)
  | .ifChain test body elseIfs otherwise =>
    ifChain ⟨test.shape, test.render⟩ (buildAll body) (branches elseIfs) (buildOption otherwise)
  | .map literal => literal.render
  | .function header arguments body => function header (operands arguments) (buildAll body)
  | .uiPredicate name body => uiPredicate name (buildAll body)
  | .testPredicate name exported tests => testPredicate name exported (operands tests)
  | .testCall name tests => testCall name (operands tests)
  | .enumeration declaration => enumeration declaration
  | .enumValue value => enumValue value
  | .annotations literal => literal.annotationLine
  | .uiParameter name literal declaration => uiParameter name literal.annotationLine declaration
  | .group header body => group header (buildAll body)
  | .sequence separator nodes => sequence separator (buildAll nodes)
  | .boundSpec spec => boundSpec spec
  | .importLine target => importLine target
  | .studio stdImports imports body => studio stdImports imports (buildAll body)
  | .feature name literal ui body =>
    feature name literal.annotationLine ⟨ui.shape, ui.render⟩ ⟨body.shape, body.render⟩
  | .snippet text sets => do
    let out := text (← Build.state)
    Build.setState (·.override sets)
    return out

/-- A map literal, which is an expression only. -/
def MapLiteral.render : MapLiteral → Rendering
  | .mk style entries => mapLiteral style (entryOperands entries)

/-- A map literal as an annotation. -/
def MapLiteral.annotationLine : MapLiteral → Rendering
  | .mk style entries => Render.annotationLine style (entryOperands entries)

/-- Expressions as operands. -/
def operands : List Expr → List Operand
  | [] => []
  | e :: rest => ⟨e.shape, e.render⟩ :: operands rest

/-- An expression that may be absent, as operand. -/
def operand? : Option Expr → Option Operand
  | none => none
  | some e => some ⟨e.shape, e.render⟩

/-- The renderings of several nodes. -/
def buildAll : List Node → List Rendering
  | [] => []
  | n :: rest => n.build :: buildAll rest

/-- The renderings of nodes that may be absent. -/
def buildOption : Option (List Node) → Option (List Rendering)
  | none => none
  | some nodes => some (buildAll nodes)

/-- Branches with their tests as operands and their bodies as renderings. -/
def branches : List (Expr × List Node) → List (Operand × List Rendering)
  | [] => []
  | (test, body) :: rest => (⟨test.shape, test.render⟩, buildAll body) :: branches rest

/-- Entries with their values as operands. -/
def entryOperands : List (String × Expr) → List (String × Operand)
  | [] => []
  | (key, value) :: rest => (key, ⟨value.shape, value.render⟩) :: entryOperands rest

end

/-- An expression as operand. -/
def Expr.operand (e : Expr) : Operand := ⟨e.shape, e.render⟩

/-- The text of a node rendered with `overrides` in a context, with the warnings it raised. -/
def Node.rendered (n : Node) (overrides : Overrides) (context : Context) :
    String × List Diagnostic :=
  let (text, after) := Build.run overrides n.build context
  (text, after.diagnostics)

/-! ## Blocks of branches. -/

/-- The line that opens a branch with a test. -/
def testLine (word : String) (test : Expr) : Rendering :=
  return word ++ " (" ++ (← test.operand.text) ++ ")"

/-- The line that opens a branch. -/
def BranchHead.line : BranchHead → Rendering
  | .first test => testLine "if" test
  | .further test => testLine "else if" test
  | .last => return "else"

/-- A branch is the line that opens it and a block with its statements. -/
def Branch.build (b : Branch) : Rendering := do
  let line ← b.head.line
  return line ++ "\n" ++ (← Build.runIn .statement (block false (buildAll b.body)))

/-- Branches in order, which are statements only. -/
def IfBlock.build (b : IfBlock) : Rendering := do
  if (← Build.scope) ≠ .statement then Build.expectedScope [.statement]
  else return String.join (← runAll (.inScope .statement) (b.branches.map Branch.build))

end FeatureStudio
