/-
  FeatureStudio.Script.Node: expressions, statements and declarations as one tree.

  Expressions may hold nodes as operands and nodes hold expressions, so the three types are
  declared together.  A node says what is to be written; where it stands decides how.

  Main statements:
    * `EnumDeclaration.companions_eq`: the companion predicates of a declaration follow the order
      of its values.
    * `MapStyle.valueText_bare`: the value of an exempt key is written as it is.
    * `Expr.grouped_idempotent`: parentheses are not doubled.
-/
import FeatureStudio.Dialog.Bounds
import FeatureStudio.Import
import FeatureStudio.Render.Context
import FeatureStudio.Script.Operator
import FeatureStudio.Text.Basic
import FeatureStudio.Text.Name

namespace FeatureStudio

/-! ## §1. Heads of functions and predicates. -/

/-- The types of the standard library that declarations name. -/
def standardTypes : List String :=
  ["map", "Context", "Id", "ValueWithUnits", "string", "Vector", "number", "boolean", "Query"]

/-- A formal parameter, `name is Type`. -/
structure FormalParameter where
  name : String
  typeName : Option String
  deriving DecidableEq, Repr

namespace FormalParameter

/-- A parameter whose type is its capitalized name. -/
def ofName (name : String) : FormalParameter := ⟨name, some (Text.upperFirst name)⟩

/-- The parameter `definition is map`. -/
def definition : FormalParameter := ⟨"definition", some "map"⟩

/-- The parameter `context is Context`. -/
def context : FormalParameter := ofName "context"

/-- The parameter `id is Id`. -/
def id : FormalParameter := ofName "id"

/-- The parameter as it is declared. -/
def text (p : FormalParameter) : String :=
  match p.typeName with
  | some typeName => p.name ++ " is " ++ typeName
  | none => p.name

end FormalParameter

/-- Functions give a value, predicates state conditions. -/
inductive CallableKind where
  | function | predicate
  deriving DecidableEq, Repr

/-- All kinds of callable. -/
def CallableKind.all : List CallableKind := [.function, .predicate]

/-- The word that declares a callable of this kind. -/
def CallableKind.keyword : CallableKind → String
  | .function => "function"
  | .predicate => "predicate"

/-- What is declared of a function or predicate in front of its body. -/
structure FunctionHeader where
  kind : CallableKind
  name : String
  parameters : List FormalParameter := []
  returns : Option String := none
  exported : Bool := false
  /-- Declared as `const name = function(…) …;`. -/
  lambda : Bool := false
  /-- Statements of the body are set apart by blank lines. -/
  spaced : Bool := false
  deriving DecidableEq, Repr

namespace FunctionHeader

/-- The parameters as they are declared. -/
def parameterText (h : FunctionHeader) : String :=
  ", ".intercalate (h.parameters.map FormalParameter.text)

/-- The declared type of the result. -/
def returnsText (h : FunctionHeader) : String :=
  match h.returns with
  | some typeName => " returns " ++ typeName
  | none => ""

end FunctionHeader

/-- The name of the predicate that declares the parameters of the feature `name`. -/
def uiPredicateName (name : String) : String := name ++ "Predicate"

/-- The head of the predicate that declares the parameters of the feature `name`. -/
def uiPredicateHeader (name : String) : FunctionHeader :=
  { kind := .predicate, name := uiPredicateName name, parameters := [.definition], exported := true }

/-- The word in front of an exported declaration. -/
def exportText (exported : Bool) : String := if exported then "export " else ""

/-! ## §2. Values of enumerations. -/

/-- A value of an enumeration. -/
structure EnumValue where
  /-- The token, `ONE_BY_ONE`. -/
  token : String
  enumName : String
  /-- The field of `definition` that holds the enumeration. -/
  parameterName : String
  /-- The label shown in the dialog. -/
  label : String
  /-- Whether the label is declared. -/
  labelled : Bool := true
  hidden : Bool := false
  /-- The name of the predicate that tests for this value. -/
  companion : Option String := none
  deriving DecidableEq, Repr

/-- The value with the enumeration's name, `TubeSize.ONE_BY_ONE`. -/
def EnumValue.qualified (v : EnumValue) : String := v.enumName ++ "." ++ v.token

/-- The declaration of an enumeration. -/
structure EnumDeclaration where
  name : String
  parameterName : String
  exported : Bool := true
  values : List EnumValue
  deriving DecidableEq, Repr

/-- The values that have a companion predicate, each with the predicate's name. -/
def EnumDeclaration.companions (e : EnumDeclaration) : List (String × EnumValue) :=
  e.values.filterMap fun v => v.companion.map fun name => (name, v)

theorem EnumDeclaration.companions_eq (e : EnumDeclaration) :
    e.companions.map Prod.fst = e.values.filterMap EnumValue.companion := by
  simp [companions, List.map_filterMap, Function.comp_def]

/-! ## §3. Layout and quoting of map literals. -/

/-- Layout and quoting of a map literal. -/
structure MapStyle where
  quoteKeys : Bool := true
  /-- Keys that are never quoted. -/
  bareKeys : List String := []
  quoteValues : Bool := false
  /-- Keys whose values are never quoted. -/
  bareValues : List String := []
  /-- All on one line, instead of one entry a line. -/
  inline : Bool := true
  /-- The type that the literal is cast to. -/
  typeName : Option String := none
  deriving DecidableEq, Repr

namespace MapStyle

/-- A key as it is written. -/
def keyText (style : MapStyle) (key : String) : String :=
  if style.quoteKeys && !style.bareKeys.contains key then Text.quote key else key

/-- The rendered value under `key` as it is written. -/
def valueText (style : MapStyle) (key value : String) : String :=
  if style.quoteValues && !style.bareValues.contains key then Text.quote value else value

/-- An entry, given its rendered value. -/
def entryText (style : MapStyle) (key value : String) : String :=
  style.keyText key ++ " : " ++ style.valueText key value

theorem valueText_bare {style : MapStyle} {key : String} (h : key ∈ style.bareValues)
    (value : String) : style.valueText key value = value := by
  simp [valueText, h]

end MapStyle

/-! ## §4. The tree. -/

mutual

/-- An expression. -/
inductive Expr where
  /-- An identifier, literal or dotted path, written as it is. -/
  | token (text : String)
  | parens (inner : Expr)
  | unary (op : UnaryOp) (operand : Expr)
  | binary (lhs : Expr) (op : BinaryOp) (rhs : Expr)
  | equality (lhs : Expr) (op : EqualityOp) (rhs : Expr)
  | ternary (test ifTrue ifFalse : Expr)
  /-- `base[key]…`, one bracket for every key. -/
  | access (base : Expr) (keys : List Expr)
  | call (name : String) (args : List Expr) (multiline : Bool)
  /-- A node as operand. -/
  | node (node : Node)

/-- A statement, a declaration or an expression in its own right. -/
inductive Node where
  | expr (e : Expr)
  /-- `const name = value;` -/
  | constant (name : String) (value : Expr) (exported : Bool)
  /-- `var name;` or `var name = value;` -/
  | declare (name : String) (value : Option Expr)
  | assign (target value : Expr)
  /-- `return value;` -/
  | returning (value : Expr)
  | formal (parameter : FormalParameter)
  /-- Statements in braces; spaced ones are set apart by blank lines. -/
  | block (spaced : Bool) (body : List Node)
  | ifChain (test : Expr) (body : List Node) (elseIfs : List (Expr × List Node))
      (otherwise : Option (List Node))
  | map (literal : MapLiteral)
  /-- A function with the arguments of its default call. -/
  | function (header : FunctionHeader) (arguments : List Expr) (body : List Node)
  /-- The predicate that declares the parameters of the feature `name`. -/
  | uiPredicate (name : String) (body : List Node)
  /-- A predicate that states its tests of `definition`. -/
  | testPredicate (name : String) (exported : Bool) (tests : List Expr)
  /-- A call of a test predicate, written out inside another test predicate. -/
  | testCall (name : String) (tests : List Expr)
  | enumeration (declaration : EnumDeclaration)
  | enumValue (value : EnumValue)
  /-- `annotation {…}` on a line of its own. -/
  | annotations (literal : MapLiteral)
  | uiParameter (name : String) (annotations : MapLiteral) (declaration : ParameterDeclaration)
  | group (header : GroupHeader) (body : List Node)
  /-- Statements in a row with `separator` between them. -/
  | sequence (separator : String) (nodes : List Node)
  | boundSpec (spec : BoundSpec)
  | importLine (target : Import)
  | studio (stdImports imports : List Import) (body : List Node)
  | feature (name : String) (annotations : MapLiteral) (ui body : Expr)
  /-- Text computed from the state, which then has some fields set.  This stands for the nodes that a
  program adds of its own, as far as these have no parts, see nothing but the state and raise no
  warnings. -/
  | snippet (text : State → String) (sets : Overrides)

/-- A map literal: its style and its entries in order. -/
inductive MapLiteral where
  | mk (style : MapStyle) (entries : List (String × Expr))

end

/-! ## §5. Views. -/

/-- The outermost form of an expression.  Tokens, calls and wrapped nodes are atoms. -/
def Expr.shape : Expr → Shape
  | .ternary .. => .ternary
  | .binary _ op _ => .binary op
  | .equality .. => .equality
  | .unary .. => .unary
  | .parens _ => .parens
  | .token _ | .access .. | .call .. | .node _ => .atom

/-- How tightly the expression binds. -/
def Expr.precedence (e : Expr) : Nat := e.shape.precedence

/-- Layout and quoting of a literal. -/
def MapLiteral.style : MapLiteral → MapStyle
  | .mk style _ => style

/-- The entries of a literal. -/
def MapLiteral.entries : MapLiteral → List (String × Expr)
  | .mk _ entries => entries

/-! ## §6. Expressions put together from smaller ones. -/

namespace Expr

/-- A string literal. -/
def string (s : String) : Expr := .token (Text.quote s)

/-- A truth value. -/
def bool (b : Bool) : Expr := .token (if b then "true" else "false")

/-- The expression in parentheses, unless it is already. -/
def grouped : Expr → Expr
  | .parens inner => .parens inner
  | e => .parens e

/-- The negation: a comparison is turned round, all else gets `!`. -/
def negated : Expr → Expr
  | .equality lhs op rhs => .equality lhs op.invert rhs
  | e => .unary .not e

/-- The expression accessed by `key`, after any keys it is accessed by already. -/
def index (base key : Expr) : Expr :=
  match base with
  | .access base keys => .access base (keys ++ [key])
  | base => .access base [key]

/-- Both hold. -/
def both (lhs rhs : Expr) : Expr := .binary lhs .and rhs

/-- One of them holds. -/
def either (lhs rhs : Expr) : Expr := .binary lhs .or rhs

/-- The two are equal. -/
def equal (lhs rhs : Expr) : Expr := .equality lhs .equal rhs

/-- The field `name` of `definition`. -/
def definition (name : String) : Expr := .token ("definition." ++ name)

/-- A field of `definition` whose name is computed. -/
def computedDefinition (key : Expr) : Expr := (Expr.token "definition").index key

/-- The value in a unit of measure. -/
def inUnit (value : Expr) (unit : MeasureUnit) : Expr := .binary value .mul (.token unit.text)

/-- All expressions, each grouped, joined by `&&` and grouped; `true` if there is none. -/
def conjunction : List Expr → Expr
  | [] => (token "true").grouped
  | e :: rest => (rest.foldl (fun acc next => acc.both next.grouped) e.grouped).grouped

theorem grouped_idempotent (e : Expr) : e.grouped.grouped = e.grouped := by
  cases e <;> rfl

end Expr

/-- Bounds as an expression. -/
def Bounds.expr : Bounds → Expr
  | .named name => .token name
  | .spec s => .node (.boundSpec s)

end FeatureStudio
