/-
  FeatureStudio.Proofs.Expression.Value: what expressions mean.

  Tokens, calls and map access stand for whatever an interpretation says.  Operators have their
  meaning on truth values and on exact numbers; an operator on anything else gives `undefined`.

  Main statements:
    * `BinaryOp.apply_assoc`: an associative operator may take its right operand apart at any
      operator that binds as tightly as itself.
-/
import FeatureStudio.Script.Node
import Mathlib.Data.Rat.Defs
import Mathlib.Tactic.Ring
import Mathlib.Algebra.Field.Rat

namespace FeatureStudio

/-! ## §1. Values and operators. -/

/-- A value. -/
inductive ScriptValue where
  | truth (b : Bool)
  | number (q : ℚ)
  /-- A text, a map or whatever else has no operators. -/
  | object (text : String)
  | undefined
  deriving DecidableEq

/-- The value of `lhs op rhs`.  The right side of `&&` and `||` counts only if the left one leaves
the outcome open; division by zero gives zero. -/
def BinaryOp.apply : BinaryOp → ScriptValue → ScriptValue → ScriptValue
  | .and, .truth false, _ => .truth false
  | .and, .truth true, .truth b => .truth b
  | .or, .truth true, _ => .truth true
  | .or, .truth false, .truth b => .truth b
  | .add, .number a, .number b => .number (a + b)
  | .sub, .number a, .number b => .number (a - b)
  | .mul, .number a, .number b => .number (a * b)
  | .div, .number a, .number b => .number (a / b)
  | _, _, _ => .undefined

/-- The value of `op operand`. -/
def UnaryOp.apply : UnaryOp → ScriptValue → ScriptValue
  | .not, .truth b => .truth !b
  | .neg, .number a => .number (-a)
  | _, _ => .undefined

/-- The value of a comparison. -/
def EqualityOp.apply : EqualityOp → ScriptValue → ScriptValue → ScriptValue
  | .equal, a, b => .truth (a = b)
  | .notEqual, a, b => .truth (a ≠ b)

/-- The value of `test ? ifTrue : ifFalse`. -/
def ScriptValue.choose : ScriptValue → ScriptValue → ScriptValue → ScriptValue
  | .truth true, ifTrue, _ => ifTrue
  | .truth false, _, ifFalse => ifFalse
  | _, _, _ => .undefined

/-- **An associative operator reaches into its right operand** at any operator of its own level. -/
theorem BinaryOp.apply_assoc {op inner : BinaryOp} (h : op.isAssociative)
    (hlevel : inner.precedence = op.precedence) (a b c : ScriptValue) :
    op.apply a (inner.apply b c) = inner.apply (op.apply a b) c := by
  cases op <;> cases inner <;> simp [isAssociative, precedence, Precedence.and, Precedence.or,
    Precedence.sum, Precedence.product] at h hlevel
  case and.and | or.or =>
      rcases a with (_ | _) | _ | _ | _ <;> rcases b with (_ | _) | _ | _ | _ <;> cases c <;> rfl
  case add.add | add.sub | mul.mul | mul.div =>
      cases a <;> cases b <;> cases c <;> simp only [apply]
      congr 1
      ring

/-! ## §2. Expressions. -/

/-- What tokens, calls and map access stand for. -/
structure Interpretation where
  token : String → ScriptValue
  call : String → List ScriptValue → ScriptValue
  index : ScriptValue → ScriptValue → ScriptValue

/-- The value of `a && b && …`: true if there is none. -/
def ScriptValue.all : List ScriptValue → ScriptValue
  | [] => .truth true
  | v :: rest => rest.foldl BinaryOp.and.apply v

mutual

/-- The value of an expression. -/
def Expr.value (I : Interpretation) : Expr → ScriptValue
  | .token text => I.token text
  | .parens inner => inner.value I
  | .unary op operand => op.apply (operand.value I)
  | .binary lhs op rhs => op.apply (lhs.value I) (rhs.value I)
  | .equality lhs op rhs => op.apply (lhs.value I) (rhs.value I)
  | .ternary test ifTrue ifFalse =>
    (test.value I).choose (ifTrue.value I) (ifFalse.value I)
  | .access base keys => (Expr.values I keys).foldl I.index (base.value I)
  | .call name args _ => I.call name (Expr.values I args)
  | .node n => n.value I

/-- The value of a node as operand: a test predicate means that all its tests hold. -/
def Node.value (I : Interpretation) : Node → ScriptValue
  | .expr e => e.value I
  | .testCall _ tests => .all (Expr.values I tests)
  | _ => .undefined

/-- The values of several expressions. -/
def Expr.values (I : Interpretation) : List Expr → List ScriptValue
  | [] => []
  | e :: rest => e.value I :: Expr.values I rest

end

namespace Expr

theorem values_append (I : Interpretation) :
    ∀ es es' : List Expr, values I (es ++ es') = values I es ++ values I es'
  | [], _ => rfl
  | e :: es, es' => by
      rw [List.cons_append, values, values, values_append I es es']
      rfl

/-- Access by a further key, after those there are already. -/
theorem value_index (I : Interpretation) (base key : Expr) :
    (base.index key).value I = I.index (base.value I) (key.value I) := by
  have hsingle : ∀ e : Expr, (Expr.access e [key]).value I = I.index (e.value I) (key.value I) := by
    intro e
    rw [Expr.value, values, values]
    rfl
  cases base with
  | access e keys =>
      show (Expr.access e (keys ++ [key])).value I = _
      rw [Expr.value, Expr.value, values_append, List.foldl_append]
      rfl
  | _ => exact hsingle _

end Expr

end FeatureStudio
