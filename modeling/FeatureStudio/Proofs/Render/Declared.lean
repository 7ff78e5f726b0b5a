/-
  FeatureStudio.Proofs.Render.Declared: the names that are declared at file level.

  The names are read off the tree.  That they are what a file declares is a statement about its
  text: every one of them stands there, behind the word that declares it.

  Main statements:
    * `Node.declares_build`: at file level a node declares the names read off it.
-/
import FeatureStudio.Proofs.Render.Frame
import FeatureStudio.Script.Studio

namespace FeatureStudio

open Build Render

/-! ## §1. Names and texts. -/

/-- The names that a node declares at file level. -/
def Node.declaredNames : Node → List String
  | .enumeration d => d.name :: d.companions.map Prod.fst
  | .boundSpec spec => [spec.name]
  | .uiPredicate name _ => [uiPredicateName name]
  | .function header _ _ => [header.name]
  | .testPredicate name _ _ => [name]
  | .constant name _ _ => [name]
  | .feature name _ _ _ => [name]
  | _ => []

/-- The names that a studio declares. -/
def Studio.declaredNames (s : Studio) : List String := s.body.flatMap Node.declaredNames

/-- The words that declare names at file level. -/
def declarators : List String := ["enum ", "predicate ", "function ", "const "]

/-- The name stands in the text behind a word that declares it. -/
def Declares (text name : String) : Prop :=
  ∃ before word after, word ∈ declarators ∧ text = before ++ word ++ name ++ after

namespace Declares

variable {text name : String}

theorem head {word : String} (h : word ∈ declarators) (before name : String) :
    Declares (before ++ word ++ name) name := ⟨before, word, "", h, by simp⟩

theorem append (h : Declares text name) (rest : String) : Declares (text ++ rest) name := by
  obtain ⟨before, word, after, hword, rfl⟩ := h
  exact ⟨before, word, after ++ rest, hword, by simp [String.append_assoc]⟩

theorem prepend (h : Declares text name) (first : String) : Declares (first ++ text) name := by
  obtain ⟨before, word, after, hword, rfl⟩ := h
  exact ⟨first ++ before, word, after, hword, by simp [String.append_assoc]⟩

end Declares

/-! ## §2. Declarations. -/

namespace Render

theorem isDeclarator_keyword (kind : CallableKind) : kind.keyword ++ " " ∈ declarators := by
  cases kind <;> decide

theorem declares_functionDeclaration (h : FunctionHeader) (body : List Rendering) (c : Context) :
    Declares (functionDeclaration h body c).1 h.name := by
  unfold functionDeclaration
  cases h.lambda with
  | true =>
      have hword : "const " ∈ declarators := by decide
      have hhead := Declares.head hword (exportText h.exported) h.name
      exact ((((hhead.append " = ").append _).append _).append _).append ";\n"
  | false =>
      -- the keyword and the space behind it are one word here
      have hhead := Declares.head (isDeclarator_keyword h.kind) (exportText h.exported) h.name
      rw [← String.append_assoc] at hhead
      exact (hhead.append _).append _

theorem declares_function (h : FunctionHeader) (arguments : List Operand) (body : List Rendering)
    {c : Context} (hscope : c.state.scope = .top) :
    Declares (function h arguments body c).1 h.name := by
  have hdeclared : function h arguments body c = functionDeclaration h body c := scope_bind hscope
  rw [hdeclared]
  exact declares_functionDeclaration h body c

/-- What is declared when a step is run at file level. -/
theorem declares_run {step : Rendering} {name : String} {o : Overrides} (ho : o.scope = some .top)
    (h : ∀ {c : Context}, c.state.scope = .top → Declares (step c).1 name) (c : Context) :
    Declares (run o step c).1 name := by
  rw [run_apply]
  refine h ?_
  show o.scope.getD c.state.scope = .top
  rw [ho]
  rfl

theorem declares_uiPredicate (name : String) (body : List Rendering) {c : Context}
    (hscope : c.state.scope = .top) :
    Declares (uiPredicate name body c).1 (uiPredicateName name) := by
  have hdeclared : uiPredicate name body c
      = run { scope := some .top, inUi := some true }
          (function (uiPredicateHeader name) definitionArgument body) c := scope_bind hscope
  rw [hdeclared]
  exact declares_run rfl (declares_function (uiPredicateHeader name) definitionArgument body) c

theorem declares_testPredicate (name : String) (exported : Bool) (tests : List Operand)
    {c : Context} (hscope : c.state.scope = .top) :
    Declares (testPredicate name exported tests c).1 name := by
  have hword : "predicate " ∈ declarators := by decide
  have hhead := Declares.head hword (exportText exported) name
  unfold testPredicate
  rw [scope_bind hscope]
  exact ((((hhead.append "(").append _).append _).append _).append "\x7d\n"

theorem declares_constant (name : String) (value : Operand) (exported : Bool) {c : Context}
    (hscope : c.state.scope = .top) : Declares (constant name value exported c).1 name := by
  have hword : "const " ∈ declarators := by decide
  have hhead := Declares.head hword (exportText exported) name
  unfold constant
  rw [scope_bind hscope]
  exact ((hhead.append " = ").append _).append ";\n"

/-- Each companion predicate is declared below its enumeration. -/
theorem declares_companionPredicates : ∀ (companions : List (String × EnumValue)) (c : Context),
    ∀ p ∈ companions, Declares (companionPredicates companions c).1 p.1
  | [], _, p, h => by cases h
  | (name, v) :: rest, c, p, h => by
      rcases List.mem_cons.mp h with rfl | h
      · have hfirst : Declares (runIn .top (testPredicate name true [enumTest v]) c).1 name :=
          declares_run rfl (declares_testPredicate name true [enumTest v]) c
        exact (hfirst.prepend "\n").append _
      · exact (declares_companionPredicates rest _ p h).prepend _

theorem declares_enumDeclaration (e : EnumDeclaration) (c : Context) :
    Declares (enumDeclaration e c).1 e.name ∧
      ∀ p ∈ e.companions, Declares (enumDeclaration e c).1 p.1 := by
  have hword : "enum " ∈ declarators := by decide
  have hhead := Declares.head hword (exportText e.exported) e.name
  refine ⟨(((hhead.append "\n\x7b\n").append _).append "\n\x7d\n").append _, fun p hp => ?_⟩
  exact (declares_companionPredicates e.companions _ p hp).prepend _

theorem declares_boundSpec (spec : BoundSpec) {c : Context} (hscope : c.state.scope = .top) :
    Declares (boundSpec spec c).1 spec.name := by
  unfold boundSpec
  rw [scope_bind hscope]
  exact declares_run rfl (declares_constant spec.name _ spec.exported) c

theorem declares_feature (name : String) (annotations : Rendering) (ui body : Operand)
    {c : Context} (hscope : c.state.scope = .top) :
    Declares (feature name annotations ui body c).1 name := by
  have hword : "const " ∈ declarators := by decide
  unfold feature
  rw [scope_bind hscope]
  -- all that stands behind the name
  iterate 13 refine Declares.append ?_ _
  have hexport : "export const " = "export " ++ "const " := by decide
  rw [hexport, String.append_assoc]
  exact (Declares.head hword "export " name).prepend _

end Render

/-! ## §3. Nodes. -/

/-- **At file level a node declares the names read off it.** -/
theorem Node.declares_build (n : Node) {c : Context} (hscope : c.state.scope = .top) :
    ∀ name ∈ n.declaredNames, Declares (n.build c).1 name := by
  intro name hname
  cases n with
  | enumeration d =>
      have hdeclared : (Node.enumeration d).build c = enumDeclaration d c := scope_bind hscope
      obtain ⟨hself, hcompanions⟩ := declares_enumDeclaration d c
      rw [hdeclared]
      rcases List.mem_cons.mp hname with rfl | hname
      · exact hself
      · obtain ⟨p, hp, rfl⟩ := List.mem_map.mp hname
        exact hcompanions p hp
  | boundSpec spec =>
      rw [List.mem_singleton.mp hname]
      exact declares_boundSpec spec hscope
  | uiPredicate ui body =>
      rw [List.mem_singleton.mp hname]
      exact declares_uiPredicate ui _ hscope
  | function header arguments body =>
      rw [List.mem_singleton.mp hname]
      exact declares_function header _ _ hscope
  | testPredicate predicate exported tests =>
      rw [List.mem_singleton.mp hname]
      exact declares_testPredicate predicate exported _ hscope
  | constant constant value exported =>
      rw [List.mem_singleton.mp hname]
      exact declares_constant constant _ exported hscope
  | feature feature literal ui body =>
      rw [List.mem_singleton.mp hname]
      exact declares_feature feature _ _ _ hscope
  | _ => cases hname

end FeatureStudio
