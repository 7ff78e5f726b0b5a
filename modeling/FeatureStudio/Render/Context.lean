/-
  FeatureStudio.Render.Context: the state of a rendering, its primitives, and renderings in a row.

  A rendering step reads and writes a `Context`.  Nodes are rendered through `run`, which saves
  the state, sets the overrides, runs the step and puts the saved state back; warnings stay.
  Rendering never fails.  A node in a place where it cannot stand leaves a marker in the text
  and a warning beside it.

  Of several renderings in a row each is run on its own, so none sees what another did to the
  state; the texts are then joined, and indented as a whole.

  Main statements:
    * `run_apply`: what `run` does, as one equation.
    * `expectedScope_apply`: a warning is added at the end, nothing else changes.
    * `runAll_cons`: the parts are run one after the other.
-/
import FeatureStudio.Import
import FeatureStudio.Text.Basic
import FeatureStudio.Text.CaseMapping

namespace FeatureStudio

/-! ## §1. Scopes and states. -/

/-- The position in the file that a node is rendered into. -/
inductive Scope where
  /-- File level: declarations, imports, constants. -/
  | top
  /-- Inside a block of statements. -/
  | statement
  /-- The place of an operand or value. -/
  | expression
  deriving DecidableEq, Repr

/-- The name of a scope in messages. -/
def Scope.name : Scope → String
  | .top => "top"
  | .statement => "statement"
  | .expression => "expression"

/-- What is saved before a node is rendered and put back afterwards. -/
structure State where
  scope : Scope := .top
  indentDepth : Nat := 0
  /-- The values of an enum declaration are being rendered. -/
  inEnum : Bool := false
  /-- The body of a UI predicate is being rendered. -/
  inUi : Bool := false
  /-- The body of a test predicate is being rendered, where calls to test predicates are
  written out. -/
  inTest : Bool := false
  deriving DecidableEq, Repr

/-- Fields set for the rendering of one node. -/
structure Overrides where
  scope : Option Scope := none
  inEnum : Option Bool := none
  inUi : Option Bool := none
  inTest : Option Bool := none
  deriving DecidableEq, Repr

/-- Sets the scope and nothing else. -/
def Overrides.inScope (scope : Scope) : Overrides := { scope := some scope }

/-- The state with the given fields set. -/
def State.override (s : State) (o : Overrides) : State :=
  { s with
    scope := o.scope.getD s.scope
    inEnum := o.inEnum.getD s.inEnum
    inUi := o.inUi.getD s.inUi
    inTest := o.inTest.getD s.inTest }

/-! ## §2. Warnings. -/

/-- A warning raised while a node was rendered. -/
structure Diagnostic where
  /-- The scope in which the node was rendered. -/
  scope : Scope
  message : String
  /-- The declaration that the warning is about. -/
  location : Option String
  deriving DecidableEq, Repr

/-- The warning as one line of text. -/
def Diagnostic.text (d : Diagnostic) : String :=
  "warning: " ++ d.message ++
    match d.location with
    | some location => " (at " ++ location ++ ")"
    | none => ""

/-- The marker left where a node could not be rendered. -/
def sentinel (message : String) : String := "<BUILD WARNING: " ++ Text.upper message ++ ">"

/-- Scopes as a list in a message. -/
def scopeList (scopes : List Scope) : String := ", ".intercalate (scopes.map Scope.name)

/-- What is said of a node found outside the scopes in which it can stand. -/
def scopeViolation (expected : List Scope) (found : Scope) : String :=
  (match expected with
    | [scope] => "Expected scope to be " ++ scope.name
    | scopes => "Expected one of the following scopes: " ++ scopeList scopes)
  ++ " (found " ++ found.name ++ ")"

/-! ## §3. Indentation. -/

/-- One level of indentation. -/
inductive Indent where
  | spaces (width : Nat)
  | tab
  deriving DecidableEq, Repr

namespace Indent

/-- The text of one level. -/
def unit : Indent → String
  | .spaces width => Text.replicate width " "
  | .tab => "\t"

/-- Indents every line that is not blank by `levels` levels. -/
def lines (indent : Indent) (text : String) (levels : Nat) : String :=
  Text.indentLines text (Text.replicate levels indent.unit)

end Indent

/-! ## §4. Contexts and steps. -/

/-- The standard library version of a context that names none. -/
def defaultStdVersion : String := "2144"

/-- The indentation of the standard library: four spaces. -/
def Indent.standard : Indent := .spaces 4

/-- The state of a rendering.  Version, indentation and documents are fixed for all of it.  Targets
of imports are looked up in a table of documents, which may be empty; what a resolver of another
kind would answer is not considered. -/
structure Context where
  stdVersion : String := defaultStdVersion
  indent : Indent := Indent.standard
  documents : DocumentTable := []
  state : State := {}
  /-- Saved states, the latest first. -/
  stack : List State := []
  /-- Warnings in the order in which they were raised. -/
  diagnostics : List Diagnostic := []

/-- A step of a rendering. -/
abbrev Build := StateM Context

/-- A step that gives text. -/
abbrev Rendering := Build String

namespace Context

/-- Saves the state. -/
def save (c : Context) : Context := { c with stack := c.state :: c.stack }

/-- Puts the latest saved state back. -/
def restore (c : Context) : Context :=
  match c.stack with
  | [] => c
  | s :: rest => { c with state := s, stack := rest }

/-- Changes the state. -/
def withState (c : Context) (f : State → State) : Context := { c with state := f c.state }

/-- Adds a warning about the current scope. -/
def warned (c : Context) (message : String) (location : Option String) : Context :=
  { c with diagnostics := c.diagnostics ++ [⟨c.state.scope, message, location⟩] }

end Context

namespace Build

/-- The current state. -/
def state : Build State := return (← get).state

/-- The current scope. -/
def scope : Build Scope := return (← get).state.scope

/-- Changes the state. -/
def setState (f : State → State) : Build Unit := modify (·.withState f)

/-- Indents `text` by `levels` units of the context. -/
def indented (text : String) (levels : Nat) : Rendering :=
  return (← get).indent.lines text levels

/-- Raises a warning. -/
def warn (message : String) : Build Unit := modify (·.warned message none)

/-- Raises a warning about a named declaration. -/
def warnAt (message location : String) : Build Unit := modify (·.warned message (some location))

/-- Warns that the node stands outside `expected` and gives the marker for its place. -/
def expectedScope (expected : List Scope) : Rendering := do
  warn (scopeViolation expected (← scope))
  return sentinel "invalid scope"

/-- Runs `step` with `overrides` set and puts the state back afterwards. -/
def run {α : Type} (overrides : Overrides) (step : Build α) : Build α := do
  modify Context.save
  setState (·.override overrides)
  let out ← step
  modify Context.restore
  return out

/-- Runs `step` in `scope`. -/
def runIn {α : Type} (scope : Scope) (step : Build α) : Build α := run (.inScope scope) step

/-! ## §5. Equations. -/

theorem run_apply {α : Type} (o : Overrides) (step : Build α) (c : Context) :
    run o step c
      = let r := step (c.save.withState (·.override o)); (r.1, r.2.restore) := rfl

theorem expectedScope_apply (expected : List Scope) (c : Context) :
    expectedScope expected c
      = (sentinel "invalid scope", c.warned (scopeViolation expected c.state.scope) none) := rfl

end Build

/-! ## §6. Renderings in a row. -/

namespace Render

open Build

/-- How the texts of several parts are joined. -/
structure Join where
  /-- Text between two parts. -/
  separator : String := ""
  /-- Text after every part, the last one too. -/
  ending : String := ""
  indented : Bool := false
  /-- The scope of every part. -/
  scope : Option Scope := none

/-- Runs every part with the same overrides. -/
def runAll (overrides : Overrides) : List Rendering → Build (List String)
  | [] => return []
  | part :: rest => do
    let text ← run overrides part
    let texts ← runAll overrides rest
    return text :: texts

theorem runAll_cons (o : Overrides) (part : Rendering) (rest : List Rendering) (c : Context) :
    runAll o (part :: rest) c
      = let r := run o part c
        let rs := runAll o rest r.2
        (r.1 :: rs.1, rs.2) := rfl

/-- The joined text of the parts.  No part gives no text. -/
def joined (join : Join) (parts : List Rendering) : Rendering := do
  if join.indented then setState fun s => { s with indentDepth := s.indentDepth + 1 }
  let texts ← runAll { scope := join.scope } parts
  if join.indented then setState fun s => { s with indentDepth := s.indentDepth - 1 }
  if texts.isEmpty then return ""
  let text := (join.separator ++ join.ending).intercalate texts ++ join.ending
  if join.indented then indented text 1 else return text

/-- The indented statements of a block.  Statements are set apart by blank lines if the block is
spaced, and always inside a UI predicate. -/
def blockBody (spaced : Bool) (body : List Rendering) : Rendering := do
  let separator := if spaced || (← state).inUi then "\n" else ""
  joined { separator, indented := true, scope := some .statement } body

/-- Statements in braces. -/
def block (spaced : Bool) (body : List Rendering) : Rendering := do
  return "\x7b\n" ++ (← blockBody spaced body) ++ "\x7d\n"

/-- Statements in a row. -/
def sequence (separator : String) (parts : List Rendering) : Rendering :=
  joined { separator, scope := some .statement } parts

end Render

end FeatureStudio
