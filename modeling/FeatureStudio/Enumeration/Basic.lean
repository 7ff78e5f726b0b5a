/-
  FeatureStudio.Enumeration.Basic: enumerations with labels, lookup expressions and companions.
-/
import FeatureStudio.Script.Function
import FeatureStudio.Script.IfChain
import FeatureStudio.Script.Map

namespace FeatureStudio

/-! ## §1. Values. -/

namespace EnumValue

/-- The test of the field `parameter` of `definition` for the value. -/
def test (v : EnumValue) (parameter : String) : Expr :=
  (Expr.definition parameter).equal (.token v.qualified)

/-- The predicate that tests for the value. -/
def predicate? (v : EnumValue) : Option TestPredicate :=
  v.companion.map fun name => { name, tests := [v.test v.parameterName] }

/-- The test for the value: a call of its companion predicate, if there is one. -/
def call (v : EnumValue) : Expr :=
  match v.predicate? with
  | some p => p.call
  | none => v.test v.parameterName

end EnumValue

/-- A value of an enumeration and the expression that lookup functions return for it. -/
structure EnumMember extends EnumValue where
  lookup : Option Expr := none

/-- An enumeration. -/
structure Enumeration where
  name : String
  parameterName : String
  exported : Bool := true
  members : List EnumMember

namespace Enumeration

/-- The token of the custom value. -/
def customToken : String := "CUSTOM"

/-- The values, in order. -/
def values (e : Enumeration) : List EnumValue := e.members.map EnumMember.toEnumValue

/-- What is declared of the enumeration. -/
def declaration (e : Enumeration) : EnumDeclaration where
  name := e.name
  parameterName := e.parameterName
  exported := e.exported
  values := e.values

/-- The enumeration as a node. -/
def node (e : Enumeration) : Node := .enumeration e.declaration

/-- The field of `definition` that holds the enumeration. -/
def definition (e : Enumeration) : Expr := .definition e.parameterName

/-- The value with the given token, in any case. -/
def get? (e : Enumeration) (token : String) : Option EnumMember :=
  e.members.find? fun m => m.token = Text.upper token

/-- What is said when an unknown value is asked for that has to be there. -/
def unknownMessage (e : Enumeration) (token : String) : String :=
  "enum " ++ e.name ++ " has no value " ++ token

/-- The companion predicates, in the order of the values. -/
def predicates (e : Enumeration) : List TestPredicate :=
  e.values.filterMap EnumValue.predicate?

/-! ## §2. Selections. -/

/-- The values with the given tokens; the first unknown token is an error. -/
def select (e : Enumeration) : List String → Except UsageError (List EnumMember)
  | [] => .ok []
  | token :: rest =>
    match e.get? token with
    | none => .error (.unknownValue e.name token)
    | some m => (e.select rest).map (m :: ·)

/-- The test for being one of the values with the given tokens. -/
def any (e : Enumeration) (tokens : List String) (parens : Bool) : Except UsageError Expr :=
  match e.select tokens with
  | .error error => .error error
  | .ok [] => .error (.emptySelection e.name)
  | .ok (m :: rest) =>
    let test := rest.foldl (fun acc m => acc.either m.call) m.call
    .ok (if parens then test.grouped else test)

/-- The test for being none of the values with the given tokens. -/
def notAny (e : Enumeration) (tokens : List String) : Except UsageError Expr :=
  (e.any tokens (1 < tokens.length)).map Expr.negated

/-! ## §3. One thing for every value. -/

/-- An if chain with one statement for every value, in order, and no branch without a test. -/
def chain (e : Enumeration) (statements : List Node) : Except UsageError IfChain :=
  IfChain.ofBranches (e.values.map EnumValue.call) statements none

/-- The statements that return the lookup expressions; the first value without one is an error. -/
def lookupReturns (e : Enumeration) : List EnumMember → Except UsageError (List Node)
  | [] => .ok []
  | m :: rest =>
    match m.lookup with
    | none => .error (.missingLookup e.name m.token)
    | some value => (e.lookupReturns rest).map (.returning value :: ·)

/-- The function that returns the lookup expression of the value held by `definition`. -/
def lookupFunction (e : Enumeration) (name : String) : Except UsageError Function := do
  let returns ← e.lookupReturns e.members
  let chain ← e.chain returns
  return { kind := .function, name, parameters := [.definition], body := [chain.node] }

/-- The style of maps over the values of an enumeration. -/
def mapStyle : MapStyle := { quoteKeys := false, inline := false }

/-- A map from every value to the expression at its place. -/
def map (e : Enumeration) (expressions : List Expr) : Except UsageError MapBuilder :=
  if expressions.length ≠ e.members.length then
    .error (.mismatchedValues e.name e.members.length expressions.length)
  else
    .ok
      { MapBuilder.ofPairs ((e.values.map EnumValue.qualified).zip expressions) with
        style := mapStyle }

/-- A map from every value to its lookup expression; values without one are left out. -/
def lookupMap (e : Enumeration) : MapBuilder :=
  e.members.foldl (fun m member => m.entry? member.qualified member.lookup) { style := mapStyle }

end Enumeration

end FeatureStudio
