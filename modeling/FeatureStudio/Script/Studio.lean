/-
  FeatureStudio.Script.Studio: features and whole studios.

  Main statements:
    * `addImport_twice`: an import that is there already is not added again.
-/
import FeatureStudio.Render.Node
import FeatureStudio.Script.Function

namespace FeatureStudio

/-- A feature, with the precondition and the body that it calls. -/
structure Feature where
  name : String
  annotations : MapLiteral
  ui : Expr
  body : Expr

namespace Feature

/-- The feature `name`: its precondition calls the UI predicate, its body the function `do…`. -/
def ofName (name : String) (annotations : MapLiteral) : Feature where
  name := name
  annotations := annotations
  ui := uiPredicateCall name
  body :=
    .call ("do" ++ Text.upperFirst name) [.token "context", .token "id", .token "definition"] false

/-- The feature as a node. -/
def node (f : Feature) : Node := .feature f.name f.annotations f.ui f.body

end Feature

/-- A feature studio: one generated file. -/
structure Studio where
  /-- The name of the file. -/
  name : String
  stdImports : List Import := []
  imports : List Import := []
  body : List Node := []

namespace Studio

/-- Adds an import behind those of its kind, unless it is there already. -/
def addImport (s : Studio) (i : Import) : Studio :=
  if i.isStd then
    if i ∈ s.stdImports then s else { s with stdImports := s.stdImports ++ [i] }
  else if i ∈ s.imports then s
  else { s with imports := s.imports ++ [i] }

/-- The studio that imports the common part of the standard library. -/
def standard (name : String) : Studio := addImport { name } (.std "common.fs")

/-- Adds a declaration at the end. -/
def add (s : Studio) (n : Node) : Studio := { s with body := s.body ++ [n] }

/-- The studio as a node. -/
def node (s : Studio) : Node := .studio s.stdImports s.imports s.body

/-- The text of the file and the warnings raised. -/
def rendered (s : Studio) (context : Context) : String × List Diagnostic :=
  s.node.rendered (.inScope .top) context

/-- An import that is there already is not added again. -/
theorem addImport_twice (s : Studio) (i : Import) :
    (s.addImport i).addImport i = s.addImport i := by
  by_cases hk : i.isStd
  · by_cases hm : i ∈ s.stdImports <;> simp [addImport, hk, hm]
  · by_cases hm : i ∈ s.imports <;> simp [addImport, hk, hm]

end Studio

end FeatureStudio
