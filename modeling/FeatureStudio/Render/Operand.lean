/-
  FeatureStudio.Render.Operand: the text of expressions, map literals and annotations.

  An operand is a rendering together with the outermost form of its expression, which decides
  where parentheses are needed.

  Main statements:
    * `grouped_shape`: a grouped operand is in parentheses.
-/
import FeatureStudio.Render.Context
import FeatureStudio.Script.Node
import FeatureStudio.Script.Operator

namespace FeatureStudio.Render

open Build

/-! ## §1. Operands. -/

/-- An expression to be rendered. -/
structure Operand where
  shape : Shape
  /-- The bare text. -/
  render : Rendering

/-- The scopes in which an expression can stand. -/
def expressionScopes : List Scope := [.expression, .statement]

/-- Text as it is in expression scope and as a statement in statement scope. -/
def coerced (text : String) : Rendering := do
  match ← scope with
  | .expression => return text
  | .statement => return text ++ ";\n"
  | .top => expectedScope expressionScopes

/-- An expression, or the statement made of it; nothing of it is rendered at file level. -/
def expression (render : Rendering) : Rendering := do
  if (← scope) = .top then expectedScope expressionScopes
  else coerced (← render)

namespace Operand

/-- The text as an operand. -/
def text (o : Operand) : Rendering := runIn .expression (expression o.render)

/-- The text as an operand, in parentheses unless it binds tighter than `least`. -/
def above (least : Nat) (o : Operand) : Rendering := do
  let text ← o.text
  return if least < o.shape.precedence then text else "(" ++ text ++ ")"

/-! ## §2. Forms. -/

/-- A token, written as it is. -/
def token (text : String) : Operand := ⟨.atom, return text⟩

/-- A node as operand. -/
def wrapped (node : Rendering) : Operand := ⟨.atom, runIn .expression node⟩

/-- An expression in parentheses. -/
def parens (inner : Operand) : Operand := ⟨.parens, return "(" ++ (← inner.text) ++ ")"⟩

/-- A prefix operator and its operand.  Two minus signs never meet. -/
def unary (op : UnaryOp) (operand : Operand) : Operand where
  shape := .unary
  render := do
    let text ← operand.above (Precedence.unary - 1)
    let text := if op = .neg && text.toList.head? == some '-' then "(" ++ text ++ ")" else text
    return op.text ++ text

/-- How tightly the right operand of `op` has to bind: an associative operator takes itself. -/
def rightLeast (op : BinaryOp) (rhs : Shape) : Nat :=
  if rhs = .binary op && op.isAssociative then op.precedence - 1 else op.precedence

/-- Two operands and the operator between them. -/
def binary (lhs : Operand) (op : BinaryOp) (rhs : Operand) : Operand where
  shape := .binary op
  render := do
    let left ← lhs.above (op.precedence - 1)
    let right ← rhs.above (rightLeast op rhs.shape)
    return left ++ " " ++ op.text ++ " " ++ right

/-- A comparison. -/
def equality (lhs : Operand) (op : EqualityOp) (rhs : Operand) : Operand where
  shape := .equality
  render := do
    let left ← lhs.above (Precedence.equality - 1)
    let right ← rhs.above Precedence.equality
    return left ++ " " ++ op.text ++ " " ++ right

/-- A choice between two operands. -/
def ternary (test ifTrue ifFalse : Operand) : Operand where
  shape := .ternary
  render := do
    let test ← test.above Precedence.ternary
    let yes ← ifTrue.text
    let no ← ifFalse.text
    return test ++ " ? " ++ yes ++ " : " ++ no

/-- The texts of several operands, in order. -/
def texts : List Operand → Build (List String)
  | [] => return []
  | o :: rest => do
    let text ← o.text
    let texts ← texts rest
    return text :: texts

/-- Map access by every key in turn. -/
def access (base : Operand) (keys : List Operand) : Operand where
  shape := .atom
  render := do
    let base ← base.above Precedence.unary
    let keys ← texts keys
    return base ++ String.join (keys.map fun key => "[" ++ key ++ "]")

/-- A call, with one argument a line if `multiline` says so. -/
def call (name : String) (args : List Operand) (multiline : Bool) : Operand where
  shape := .atom
  render := do
    let args ← texts args
    if multiline && !args.isEmpty then
      return name ++ "(\n" ++ (← indented (",\n".intercalate args) 1) ++ "\n)"
    else
      return name ++ "(" ++ ", ".intercalate args ++ ")"

/-! ## §3. Conjunctions. -/

/-- The operand in parentheses, unless it is already. -/
def grouped (o : Operand) : Operand := if o.shape = .parens then o else parens o

theorem grouped_shape (o : Operand) : o.grouped.shape = .parens := by
  unfold grouped
  split <;> simp_all [parens]

/-- All operands joined by `&&`, each grouped, and grouped as a whole; `true` if there is none. -/
def conjunction : List Operand → Operand
  | [] => (token "true").grouped
  | o :: rest => (rest.foldl (fun acc next => binary acc .and next.grouped) o.grouped).grouped

end Operand

/-! ## §4. Map literals and annotations. -/

/-- The entries as they are written, in order. -/
def entryTexts (style : MapStyle) : List (String × Operand) → Build (List String)
  | [] => return []
  | (key, value) :: rest => do
    let text ← value.text
    let texts ← entryTexts style rest
    return style.entryText key text :: texts

/-- A map literal, which is an expression only. -/
def mapLiteral (style : MapStyle) (entries : List (String × Operand)) : Rendering := do
  if (← scope) ≠ .expression then expectedScope [.expression]
  else
    let pairs ← entryTexts style entries
    let literal ←
      if pairs.isEmpty then pure "\x7b\x7d"
      else if style.inline then pure ("\x7b " ++ ", ".intercalate pairs ++ " \x7d")
      else do
        let body ← indented (",\n".intercalate pairs ++ "\n") 1
        pure ("\x7b\n" ++ body ++ "\x7d")
    return match style.typeName with
      | some typeName => literal ++ " as " ++ typeName
      | none => literal

/-- An annotation on a line of its own, in any scope. -/
def annotationLine (style : MapStyle) (entries : List (String × Operand)) : Rendering := do
  return "annotation " ++ (← runIn .expression (mapLiteral style entries)) ++ "\n"

end FeatureStudio.Render
