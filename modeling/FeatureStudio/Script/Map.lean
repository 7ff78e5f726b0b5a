/-
  FeatureStudio.Script.Map: map literals put together entry by entry.

  An entry may be absent: it keeps its place among the keys and is not written.
-/
import FeatureStudio.Keyed
import FeatureStudio.Script.Node

namespace FeatureStudio

/-- A map literal being put together. -/
structure MapBuilder where
  style : MapStyle := {}
  entries : Keyed (Option Expr) := []

namespace MapBuilder

/-- Sets the value under `key`; without a value the entry is absent. -/
def entry? (m : MapBuilder) (key : String) (value : Option Expr) : MapBuilder :=
  { m with entries := Keyed.put m.entries key value }

/-- Sets the value under `key`. -/
def entry (m : MapBuilder) (key : String) (value : Expr) : MapBuilder := m.entry? key (some value)

/-- Sets a text under `key`. -/
def text (m : MapBuilder) (key value : String) : MapBuilder := m.entry key (.token value)

/-- Writes all keys as they are. -/
def unquotedKeys (m : MapBuilder) : MapBuilder :=
  { m with style := { m.style with quoteKeys := false } }

/-- Quotes all values. -/
def quoteValues (m : MapBuilder) : MapBuilder :=
  { m with style := { m.style with quoteValues := true } }

/-- Never quotes `key`. -/
def excludeKey (m : MapBuilder) (key : String) : MapBuilder :=
  { m with style := { m.style with bareKeys := m.style.bareKeys ++ [key] } }

/-- Never quotes the value under `key`. -/
def excludeValue (m : MapBuilder) (key : String) : MapBuilder :=
  { m with style := { m.style with bareValues := m.style.bareValues ++ [key] } }

/-- Writes each entry on a line of its own. -/
def block (m : MapBuilder) : MapBuilder := { m with style := { m.style with inline := false } }

/-- Casts the literal to a type. -/
def typed (m : MapBuilder) (typeName : String) : MapBuilder :=
  { m with style := { m.style with typeName := some typeName } }

/-- Sets an expression under `key` whose text is never quoted. -/
def bare (m : MapBuilder) (key : String) (value : Expr) : MapBuilder :=
  (m.entry key value).excludeValue key

@[simp] theorem entries_quoteValues (m : MapBuilder) : m.quoteValues.entries = m.entries := rfl

/-- Of the style only the exempt values change. -/
@[simp] theorem style_bare (m : MapBuilder) (key : String) (value : Expr) :
    (m.bare key value).style = { m.style with bareValues := m.style.bareValues ++ [key] } := rfl

/-- The entries that are present, in order. -/
def present (m : MapBuilder) : List (String × Expr) :=
  m.entries.filterMap fun (key, value) => value.map fun e => (key, e)

/-- The number of entries that are present. -/
def length (m : MapBuilder) : Nat := m.present.length

/-- No entry is present. -/
def isEmpty (m : MapBuilder) : Bool := m.length == 0

/-- The value under `key`, if it is present. -/
def get? (m : MapBuilder) (key : String) : Option Expr := (Keyed.get? m.entries key).join

/-- The literal. -/
def literal (m : MapBuilder) : MapLiteral := .mk m.style m.present

/-- A map from pairs, the last of a key counting. -/
def ofPairs (pairs : List (String × Expr)) : MapBuilder :=
  pairs.foldl (fun m p => m.entry p.1 p.2) {}

/-- The map from each name to the field of `definition` of that name. -/
def ofDefinition (names : List String) : MapBuilder :=
  ofPairs (names.map fun name => (name, .definition name))

end MapBuilder

/-- A map literal as an expression. -/
def MapLiteral.expr (m : MapLiteral) : Expr := .node (.map m)

end FeatureStudio
