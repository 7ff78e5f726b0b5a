/-
  FeatureStudio.Enumeration.Builder: enumerations put together value by value.

  A template for the names of companion predicates is text with the placeholders `{name}` and
  `{value}` for the enumeration and the value.  A placeholder at the very start is put in small
  initial letters, so that the name may begin a word.  A closing brace is text only as long as a
  placeholder follows it.

  A value that is added again replaces the earlier one in its place.  The settings of the whole
  enumeration act the same wherever they are made.

  Main statements:
    * `expand_ok_iff`: whether a template expands depends on the template alone.
-/
import FeatureStudio.Enumeration.Basic
import FeatureStudio.Script.Function
import FeatureStudio.Text.Name

namespace FeatureStudio

/-! ## §1. Names of companion predicates. -/

namespace NameTemplate

/-- A piece of a template. -/
inductive Piece where
  | char (c : Char)
  | name
  | value
  deriving DecidableEq, Repr

/-- The template that names companion predicates unless another is given. -/
def standard : String := "is\x7bname\x7d\x7bvalue\x7d"

/-- The pieces of a template, if it is well formed. -/
def parse : List Char → Option (List Piece)
  | [] => some []
  | '\x7b' :: 'n' :: 'a' :: 'm' :: 'e' :: '\x7d' :: rest => (parse rest).map (.name :: ·)
  | '\x7b' :: 'v' :: 'a' :: 'l' :: 'u' :: 'e' :: '\x7d' :: rest => (parse rest).map (.value :: ·)
  | c :: rest =>
    if c = '\x7b' then none
    else if c = '\x7d' && !rest.contains '\x7b' then none
    else (parse rest).map (.char c :: ·)

/-- The text of a piece that does not start the template. -/
def Piece.text (enumName token : String) : Piece → String
  | .char c => String.singleton c
  | .name => enumName
  | .value => Text.camelCase true token

/-- The text of a piece that starts the template. -/
def Piece.leadingText (enumName token : String) : Piece → String
  | .char c => String.singleton c
  | .name => Text.lowerFirst enumName
  | .value => Text.camelCase false token

/-- The pieces put together. -/
def assemble (enumName token : String) : List Piece → String
  | [] => ""
  | p :: rest => p.leadingText enumName token ++ String.join (rest.map (Piece.text enumName token))

/-- The name of the companion predicate of a value. -/
def expand (template enumName token : String) : Except UsageError String :=
  match parse template.toList with
  | some pieces => .ok (assemble enumName token pieces)
  | none => .error (.invalidTemplate template)

/-- Whether a template expands depends on the template alone. -/
theorem expand_ok_iff (template enumName token : String) :
    (∃ name, expand template enumName token = .ok name) ↔ (parse template.toList).isSome := by
  unfold expand
  cases parse template.toList <;> simp

end NameTemplate

/-! ## §2. Builders. -/

/-- What may be said of a single value. -/
structure ValueOptions where
  label : Option String := none
  hidden : Bool := false
  lookup : Option Expr := none
  /-- Whether the value has a companion predicate, if that is not left to the enumeration. -/
  predicate : Option Bool := none
  template : Option String := none

/-- An enumeration being put together. -/
structure EnumBuilder where
  name : String
  parameterName : Option String := none
  exported : Bool := true
  labelled : Bool := true
  /-- Whether values have companion predicates. -/
  predicates : Bool := false
  template : String := NameTemplate.standard
  /-- The options of every value by its token. -/
  values : Keyed ValueOptions := []
  hasCustom : Bool := false

namespace EnumBuilder

/-- Adds a value; its token is put in capitals. -/
def add (b : EnumBuilder) (token : String) (options : ValueOptions) : EnumBuilder :=
  { b with values := Keyed.put b.values (Text.upper token) options }

/-- Adds the custom value. -/
def addCustom (b : EnumBuilder) (options : ValueOptions) : Except UsageError EnumBuilder :=
  if b.hasCustom then .error (.duplicateCustom b.name)
  else .ok { b.add Enumeration.customToken options with hasCustom := true }

/-- The field of `definition` that holds the enumeration. -/
def parameter (b : EnumBuilder) : String := b.parameterName.getD (Text.lowerFirst b.name)

/-- The name of the companion predicate of a value, if it has one. -/
def companion (b : EnumBuilder) (token : String) (options : ValueOptions) :
    Except UsageError (Option String) :=
  if options.predicate.getD b.predicates then
    (NameTemplate.expand (options.template.getD b.template) b.name token).map some
  else .ok none

/-- The value with the given token and options. -/
def member (b : EnumBuilder) (token : String) (options : ValueOptions) :
    Except UsageError EnumMember :=
  (b.companion token options).map fun companion =>
    { token
      enumName := b.name
      parameterName := b.parameter
      label := options.label.getD (Text.tokenLabel token)
      labelled := b.labelled
      hidden := options.hidden
      companion
      lookup := options.lookup }

/-- The values, in order; the first that cannot be made is an error. -/
def members (b : EnumBuilder) : Keyed ValueOptions → Except UsageError (List EnumMember)
  | [] => .ok []
  | (token, options) :: rest => do
    let m ← b.member token options
    let ms ← b.members rest
    return m :: ms

/-- The enumeration. -/
def build (b : EnumBuilder) : Except UsageError Enumeration :=
  if b.values.isEmpty then .error (.emptyEnum b.name)
  else
    (b.members b.values).map fun members =>
      { name := b.name, parameterName := b.parameter, exported := b.exported, members }

end EnumBuilder

end FeatureStudio
