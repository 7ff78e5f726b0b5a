/-
  FeatureStudio.Script.Operator: operators and how tightly they bind.

  From loose to tight: `? :`, `||`, `&&`, equality, sums, products, prefix operators, and what
  needs no parentheses anywhere.

  Main statements:
    * `invert_invert`: turning an equality round twice gives it back.
    * `precedence_le_atom`: nothing binds tighter than an atom.
-/

namespace FeatureStudio

/-- Operators between two expressions. -/
inductive BinaryOp where
  | and | or | add | sub | mul | div
  deriving DecidableEq, Repr

/-- Operators before an expression. -/
inductive UnaryOp where
  | not | neg
  deriving DecidableEq, Repr

/-- Operators that compare two expressions. -/
inductive EqualityOp where
  | equal | notEqual
  deriving DecidableEq, Repr

/-- The outermost form of an expression. -/
inductive Shape where
  | ternary
  | binary (op : BinaryOp)
  | equality
  | unary
  | parens
  | atom
  deriving DecidableEq, Repr

/-! ## §1. Texts. -/

namespace BinaryOp

/-- All operators between two expressions. -/
def all : List BinaryOp := [.and, .or, .add, .sub, .mul, .div]

def text : BinaryOp → String
  | .and => "&&"
  | .or => "||"
  | .add => "+"
  | .sub => "-"
  | .mul => "*"
  | .div => "/"

/-- Whether `a op (b op c)` and `(a op b) op c` are the same. -/
def isAssociative : BinaryOp → Bool
  | .and | .or | .add | .mul => true
  | .sub | .div => false

end BinaryOp

namespace UnaryOp

/-- All prefix operators. -/
def all : List UnaryOp := [.not, .neg]

def text : UnaryOp → String
  | .not => "!"
  | .neg => "-"

end UnaryOp

namespace EqualityOp

/-- All comparisons. -/
def all : List EqualityOp := [.equal, .notEqual]

def text : EqualityOp → String
  | .equal => "=="
  | .notEqual => "!="

/-- The comparison that holds where this one does not. -/
def invert : EqualityOp → EqualityOp
  | .equal => .notEqual
  | .notEqual => .equal

theorem invert_invert (op : EqualityOp) : op.invert.invert = op := by
  cases op <;> rfl

end EqualityOp

/-! ## §2. Binding. -/

namespace Precedence

def ternary : Nat := 1
def or : Nat := 2
def and : Nat := 3
def equality : Nat := 4
def sum : Nat := 5
def product : Nat := 6
def unary : Nat := 7
def atom : Nat := 8

end Precedence

/-- How tightly an operator binds; higher is tighter. -/
def BinaryOp.precedence : BinaryOp → Nat
  | .or => Precedence.or
  | .and => Precedence.and
  | .add | .sub => Precedence.sum
  | .mul | .div => Precedence.product

/-- How tightly an expression of this form binds. -/
def Shape.precedence : Shape → Nat
  | .ternary => Precedence.ternary
  | .binary op => op.precedence
  | .equality => Precedence.equality
  | .unary => Precedence.unary
  | .parens | .atom => Precedence.atom

/-- Nothing binds tighter than an atom. -/
theorem Shape.precedence_le_atom (s : Shape) : s.precedence ≤ Precedence.atom := by
  cases s with
  | binary op => cases op <;> decide
  | _ => decide

end FeatureStudio
