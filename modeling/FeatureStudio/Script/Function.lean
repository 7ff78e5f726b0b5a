/-
  FeatureStudio.Script.Function: functions and predicates with their parameters, and their calls.

  The ways in which a tree cannot be put together show while it is built, unlike scope violations,
  which show only when it is rendered.

  Main statements:
    * `callWith_nil`: without overrides every argument is the default one.
-/
import FeatureStudio.Script.Node

namespace FeatureStudio

/-! ## §1. Mistakes in putting a tree together. -/

/-- Why a tree cannot be put together. -/
inductive UsageError where
  | emptyEnum (name : String)
  | duplicateCustom (name : String)
  | chainClosed
  | emptyChain
  | mismatchedBranches (tests statements : Nat)
  | mismatchedValues (name : String) (expected found : Nat)
  | unknownValue (name value : String)
  | emptySelection (name : String)
  | missingLookup (name value : String)
  | invalidTemplate (template : String)
  | unknownArgument (callable argument : String)
  deriving DecidableEq, Repr

/-- What is said of the error. -/
def UsageError.message : UsageError → String
  | .emptyEnum name => "enum '" ++ name ++ "' has no values"
  | .duplicateCustom name => "enum '" ++ name ++ "' already has a custom value"
  | .chainClosed => "cannot extend an if chain after its else branch"
  | .emptyChain => "an if chain needs at least one test"
  | .mismatchedBranches tests statements =>
    toString tests ++ " tests were given for " ++ toString statements ++ " branches"
  | .mismatchedValues name expected found =>
    "expected " ++ toString expected ++ " values for enum '" ++ name ++ "', got " ++ toString found
  | .unknownValue name value => "enum '" ++ name ++ "' has no value '" ++ value ++ "'"
  | .emptySelection name => "no values of enum '" ++ name ++ "' were selected"
  | .missingLookup name value =>
    "value '" ++ value ++ "' of enum '" ++ name ++ "' has no lookup value"
  | .invalidTemplate template => "invalid predicate name template '" ++ template ++ "'"
  | .unknownArgument callable argument =>
    "'" ++ argument ++ "' is not a parameter of '" ++ callable ++ "'"

/-! ## §2. Functions and predicates. -/

/-- A formal parameter and the argument passed for it when a call names none. -/
structure Parameter extends FormalParameter where
  default : Option Expr := none

/-- The argument passed for the parameter: its default, or its own name. -/
def Parameter.argument (p : Parameter) : Expr := p.default.getD (.token p.name)

/-- The parameter `definition is map`. -/
def Parameter.definition : Parameter := { FormalParameter.definition with }

/-- A function or predicate. -/
structure Function where
  kind : CallableKind
  name : String
  parameters : List Parameter := []
  returns : Option String := none
  exported : Bool := false
  lambda : Bool := false
  spaced : Bool := false
  body : List Node := []

namespace Function

/-- The head of the declaration. -/
def header (f : Function) : FunctionHeader where
  kind := f.kind
  name := f.name
  parameters := f.parameters.map Parameter.toFormalParameter
  returns := f.returns
  exported := f.exported
  lambda := f.lambda
  spaced := f.spaced

/-- The arguments of the default call. -/
def arguments (f : Function) : List Expr := f.parameters.map Parameter.argument

/-- The function as a node. -/
def node (f : Function) : Node := .function f.header f.arguments f.body

/-- The default call. -/
def call (f : Function) : Expr := .call f.name f.arguments false

/-- Replaces the argument for the parameter `name`. -/
def setArgument (f : Function) (args : List Expr) (name : String) (argument : Expr) :
    Except UsageError (List Expr) :=
  match f.parameters.findIdx? (·.name = name) with
  | some i => .ok (args.set i argument)
  | none => .error (.unknownArgument f.name name)

/-- The call with some arguments given by name, one after the other. -/
def callWith (f : Function) (overrides : List (String × Expr)) : Except UsageError Expr := do
  let args ← overrides.foldlM (fun args o => f.setArgument args o.1 o.2) f.arguments
  return .call f.name args false

/-- Without overrides every argument is the default one. -/
theorem callWith_nil (f : Function) : f.callWith [] = .ok f.call := rfl

end Function

/-- A predicate that states tests of `definition`. -/
structure TestPredicate where
  name : String
  exported : Bool := true
  tests : List Expr := []

namespace TestPredicate

/-- The predicate as a node. -/
def node (p : TestPredicate) : Node := .testPredicate p.name p.exported p.tests

/-- The call that is written out inside another test predicate. -/
def call (p : TestPredicate) : Expr := .node (.testCall p.name p.tests)

end TestPredicate

/-- The call of the predicate that declares the parameters of the feature `name`. -/
def uiPredicateCall (name : String) : Expr :=
  .call (uiPredicateName name) [.token "definition"] false

end FeatureStudio
