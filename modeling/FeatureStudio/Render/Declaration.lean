/-
  FeatureStudio.Render.Declaration: the text of declarations and statements.

  At file level a callable is declared; elsewhere it is called with its default arguments.
  Inside the body of a test predicate, calls of test predicates are written out as the
  conjunction of their tests; the body as it was is kept above in a comment if that changed it.
-/
import FeatureStudio.Dialog.Bounds
import FeatureStudio.Import
import FeatureStudio.Render.Context
import FeatureStudio.Render.Operand
import FeatureStudio.Script.Node
import FeatureStudio.Text.Basic

namespace FeatureStudio.Render

open Build

/-! ## §1. Functions. -/

/-- The declaration of a function or predicate. -/
def functionDeclaration (h : FunctionHeader) (body : List Rendering) : Rendering := do
  let body ← runIn .statement (block h.spaced body)
  let head := "(" ++ h.parameterText ++ ")" ++ h.returnsText ++ "\n"
  if h.lambda then
    return exportText h.exported ++ "const " ++ h.name ++ " = " ++ h.kind.keyword ++ head
      ++ Text.trimLineFeeds body ++ ";\n"
  else
    return exportText h.exported ++ h.kind.keyword ++ " " ++ h.name ++ head ++ body

/-- A call in the caller's scope. -/
def callHere (name : String) (arguments : List Operand) : Rendering :=
  run {} (expression (Operand.call name arguments false).render)

/-- A function: its declaration at file level, elsewhere its default call. -/
def function (h : FunctionHeader) (arguments : List Operand) (body : List Rendering) :
    Rendering := do
  if (← scope) = .top then functionDeclaration h body
  else callHere h.name arguments

/-- The arguments of predicates on `definition`. -/
def definitionArgument : List Operand := [.token "definition"]

/-- The predicate that declares the parameters of the feature `name`. -/
def uiPredicate (name : String) (body : List Rendering) : Rendering := do
  let h := uiPredicateHeader name
  if (← scope) = .top then
    run { scope := some .top, inUi := some true } (function h definitionArgument body)
  else callHere h.name definitionArgument

/-! ## §2. Test predicates. -/

/-- The tests as statements, with calls of test predicates written out or not. -/
def testStatements (inlined : Bool) (tests : List Operand) : Rendering := do
  let before := (← state).inTest
  setState fun s => { s with inTest := inlined }
  let text ← joined { scope := some .statement } (tests.map fun t => expression t.render)
  setState fun s => { s with inTest := before }
  return text

/-- The body of a test predicate, below the body as it was if writing out calls changed it. -/
def testBody (standard inlined : String) : String :=
  if standard = inlined then standard
  else "/* " ++ Text.onOneLine (Text.trimEnd standard) ++ " */\n" ++ inlined

/-- A predicate on `definition`: its declaration at file level, elsewhere its call. -/
def testPredicate (name : String) (exported : Bool) (tests : List Operand) : Rendering := do
  if (← scope) ≠ .top then callHere name definitionArgument
  else
    setState fun s => { s with scope := .statement, indentDepth := s.indentDepth + 1 }
    let standard ← testStatements false tests
    let inlined ← testStatements true tests
    let body ← indented (testBody standard inlined) 1
    return exportText exported ++ "predicate " ++ name ++ "("
      ++ FormalParameter.definition.text ++ ")\n\x7b\n" ++ body ++ "\x7d\n"

/-- A call of a test predicate, written out inside another one. -/
def testCall (name : String) (tests : List Operand) : Rendering :=
  expression do
    if (← state).inTest then (Operand.conjunction tests).text
    else (Operand.call name definitionArgument false).render

/-! ## §3. Enumerations and their values. -/

/-- The field `name` of `definition`. -/
def definitionField (name : String) : Operand := .token ("definition." ++ name)

/-- The test of the field `parameter` for the value. -/
def enumTest (v : EnumValue) : Operand :=
  .equality (definitionField v.parameterName) .equal (.token v.qualified)

/-- The test for the value: a call of its companion predicate, if there is one. -/
def enumCall (v : EnumValue) : Operand :=
  match v.companion with
  | some name => .wrapped (testCall name [enumTest v])
  | none => enumTest v

/-- The annotation of a value: its label, and whether it is hidden. -/
def enumLabel (v : EnumValue) : Rendering :=
  if v.hidden then
    annotationLine { quoteValues := true, bareValues := ["Hidden"] }
      [("Name", .token v.label), ("Hidden", .token "true")]
  else annotationLine { quoteValues := true } [("Name", .token v.label)]

/-- A value in the declaration of its enumeration. -/
def enumValueDeclaration (v : EnumValue) : Rendering := do
  if v.labelled then return (← runIn .expression (enumLabel v)) ++ v.token
  else return v.token

/-- A value: declared inside its enumeration, elsewhere the test for it. -/
def enumValue (v : EnumValue) : Rendering := do
  if (← state).inEnum then enumValueDeclaration v
  else if (← scope) = .expression then (enumCall v).text
  else expectedScope [.expression]

/-- The companion predicates, each after a blank line. -/
def companionPredicates : List (String × EnumValue) → Rendering
  | [] => return ""
  | (name, v) :: rest => do
    let predicate ← runIn .top (testPredicate name true [enumTest v])
    return "\n" ++ predicate ++ (← companionPredicates rest)

/-- The declaration of an enumeration and of its companion predicates. -/
def enumDeclaration (e : EnumDeclaration) : Rendering := do
  setState fun s => { s with inEnum := true }
  let values ← joined { separator := ",\n", indented := true, scope := some .expression }
    (e.values.map enumValue)
  setState fun s => { s with inEnum := false }
  let predicates ← companionPredicates e.companions
  return exportText e.exported ++ "enum " ++ e.name ++ "\n\x7b\n" ++ values ++ "\n\x7d\n"
    ++ predicates

/-- An enumeration: its declaration at file level, as an operand the field that holds it. -/
def enumeration (e : EnumDeclaration) : Rendering := do
  match ← scope with
  | .top => enumDeclaration e
  | .expression => (definitionField e.parameterName).text
  | .statement => expectedScope [.top, .expression]

/-! ## §4. Constants, variables and assignments. -/

/-- A constant.  Only file level exports; as an operand it is its name. -/
def constant (name : String) (value : Operand) (exported : Bool) : Rendering := do
  match ← scope with
  | .expression => return name
  | .top => declaration (exportText exported)
  | .statement => declaration ""
where
  declaration (head : String) : Rendering := do
    return head ++ "const " ++ name ++ " = " ++ (← value.text) ++ ";\n"

/-- A variable with its initial value, if it has one. -/
def declare (name : String) (value : Option Operand) : Rendering := do
  if (← scope) ≠ .statement then expectedScope [.statement]
  else
    match value with
    | some value => return "var " ++ name ++ " = " ++ (← value.text) ++ ";\n"
    | none => return "var " ++ name ++ ";\n"

/-- An assignment, as an expression or a statement. -/
def assign (target value : Operand) : Rendering :=
  expression do
    let target ← target.text
    let value ← value.text
    return target ++ " = " ++ value

/-- The return of a value. -/
def returning (value : Operand) : Rendering := do
  if (← scope) ≠ .statement then expectedScope [.statement]
  else return "return " ++ (← value.text) ++ ";\n"

/-! ## §5. If chains. -/

/-- A branch with its test, opened by `word`. -/
def testedBranch (word : String) (test : Operand) (body : List Rendering) : Rendering :=
  runIn .statement do
    let test ← test.text
    return word ++ " (" ++ test ++ ")\n" ++ (← runIn .statement (block false body))

/-- The branch without a test. -/
def elseBranch (body : List Rendering) : Rendering :=
  runIn .statement do
    return "else\n" ++ (← runIn .statement (block false body))

/-- The further branches of a chain, in order. -/
def elseIfBranches : List (Operand × List Rendering) → Rendering
  | [] => return ""
  | (test, body) :: rest => do
    let branch ← testedBranch "else if" test body
    return branch ++ (← elseIfBranches rest)

/-- An if chain. -/
def ifChain (test : Operand) (body : List Rendering) (elseIfs : List (Operand × List Rendering))
    (otherwise : Option (List Rendering)) : Rendering := do
  if (← scope) ≠ .statement then expectedScope [.statement]
  else
    let head ← testedBranch "if" test body
    let rest ← elseIfBranches elseIfs
    let last ← match otherwise with
      | some body => elseBranch body
      | none => pure ""
    return head ++ rest ++ last

/-! ## §6. Bounds. -/

/-- The style of a bound spec's map. -/
def boundStyle (kind : BoundKind) : MapStyle :=
  { quoteKeys := false, inline := false, typeName := some kind.typeName }

/-- A bound spec: a constant at file level, as an operand its name. -/
def boundSpec (spec : BoundSpec) : Rendering := do
  match ← scope with
  | .top =>
    let entries := spec.entries.map fun (key, text) => (key, Operand.token text)
    runIn .top (constant spec.name (.wrapped (mapLiteral (boundStyle spec.kind) entries))
      spec.exported)
  | .expression => return spec.name
  | .statement => expectedScope [.top, .expression]

/-- Bounds as an operand. -/
def boundsOperand : Bounds → Operand
  | .named name => .token name
  | .spec s => .wrapped (boundSpec s)

/-! ## §7. Parameters. -/

/-- The declaration of the parameter `name`. -/
def parameterDeclaration (name : String) : ParameterDeclaration → Rendering
  | .typed typeName => return "definition." ++ name ++ " is " ++ typeName ++ ";\n"
  | .bounded predicate bounds =>
    runIn .statement
      (expression
        (Operand.call predicate [definitionField name, boundsOperand bounds] false).render)

/-- A parameter: its annotation and its declaration, inside a UI predicate. -/
def uiParameter (name : String) (annotations : Rendering) (declaration : ParameterDeclaration) :
    Rendering := do
  if (← scope) ≠ .statement then expectedScope [.statement]
  else
    if !(← state).inUi then
      warnAt "Parameters should only be declared inside a UI predicate" name
    let head ← runIn .statement annotations
    return head ++ (← parameterDeclaration name declaration)

/-! ## §8. Groups. -/

/-- The style of a group's annotation. -/
def groupStyle : MapStyle := { quoteValues := true, bareValues := ["Collapsed By Default"] }

/-- The entries of a group's annotation. -/
def groupEntries (g : GroupHeader) : List (String × Operand) :=
  ("Group Name", .token g.label)
    :: ("Collapsed By Default", .token (if g.collapsed then "true" else "false"))
    :: g.driving.toList.map fun name => ("Driving Parameter", .token name)

/-- A group of parameters, inside a UI predicate. -/
def group (g : GroupHeader) (body : List Rendering) : Rendering := do
  if !(← state).inUi then
    warnAt "Parameter groups should only be declared inside a UI predicate" g.name
  if body.isEmpty then warnAt "Parameter group is empty" g.name
  let head ← runIn .statement (annotationLine groupStyle (groupEntries g))
  return head ++ (← runIn .statement (block true body))

/-! ## §9. Imports. -/

/-- Path and version of an import.  A studio that is not found leaves a warning and a
placeholder. -/
def importTarget : ImportSource → Build ImportTarget
  | .std studio => return ⟨"onshape/std/" ++ studio, (← get).stdVersion ++ ".0"⟩
  | .path path version => return ⟨path, version⟩
  | .document document studio version => do
    match (← get).documents.resolve document studio version with
    | .ok target => return target
    | .error e =>
      warnAt e.message (document ++ "/" ++ studio)
      return ⟨e.placeholder, emptyVersion⟩

/-- An import line, at file level only. -/
def importLine (i : Import) : Rendering := do
  if (← scope) ≠ .top then expectedScope [.top]
  else
    let target ← importTarget i.source
    return exportText i.exported ++ "import(path : " ++ Text.quote target.path ++ ", version : "
      ++ Text.quote target.version ++ ");\n"

/-- Import lines in a row. -/
def importLines (imports : List Import) : Rendering := do
  return String.join (← runAll (.inScope .top) (imports.map importLine))

/-! ## §10. Features. -/

/-- The definition of a feature. -/
def feature (name : String) (annotations : Rendering) (ui body : Operand) : Rendering := do
  if (← scope) ≠ .top then expectedScope [.top]
  else
    let unit := (← get).indent.unit
    let head ← runIn .statement annotations
    let ui ← run { scope := some .statement, inUi := some true } (expression ui.render)
    let body ← runIn .statement (expression body.render)
    let ui ← indented ui 2
    let body ← indented body 2
    return head ++ "export const " ++ name
      ++ " = defineFeature(function(context is Context, id is Id, definition is map)\n"
      ++ unit ++ "precondition\n" ++ unit ++ "\x7b\n" ++ ui ++ unit ++ "\x7d\n"
      ++ unit ++ "\x7b\n" ++ body ++ unit ++ "\x7d);\n"

/-! ## §11. Studios. -/

/-- The comment above the declarations of every studio. -/
def banner : String := "/* Automatically generated file -- DO NOT EDIT */"

/-- A whole file: version, imports of the standard library, other imports, banner, and the
declarations with blank lines between them. -/
def studio (stdImports imports : List Import) (body : List Rendering) : Rendering := do
  if (← scope) ≠ .top then expectedScope [.top]
  else
    let version := (← get).stdVersion
    let std ← importLines stdImports
    let others ← importLines imports
    let gap := if std.isEmpty || others.isEmpty then "" else "\n"
    let body ← joined { separator := "\n", scope := some .top } body
    return "FeatureScript " ++ version ++ ";\n" ++ std ++ gap ++ others ++ "\n" ++ banner
      ++ "\n\n" ++ body

end FeatureStudio.Render
