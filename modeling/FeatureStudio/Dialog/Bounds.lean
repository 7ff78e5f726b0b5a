/-
  FeatureStudio.Dialog.Bounds: the bounds of value parameters, and what the dialog declares.

  A value parameter names a bounds constant.  The standard library declares some; a bound spec
  declares a new one, as the range `[min, default, max]` in a base unit and further defaults for
  documents in other units.
-/
import FeatureStudio.Decimal
import FeatureStudio.Keyed
import FeatureStudio.Text.Name

namespace FeatureStudio

open FeatureStudio.Decimal (Binary64)

/-! ## §1. Units. -/

/-- Units of measure. -/
inductive MeasureUnit where
  | inch | foot | yard | millimeter | centimeter | meter | degree | radian
  deriving DecidableEq, Repr

namespace MeasureUnit

/-- All units of measure. -/
def all : List MeasureUnit :=
  [.inch, .foot, .yard, .millimeter, .centimeter, .meter, .degree, .radian]

def text : MeasureUnit → String
  | .inch => "inch"
  | .foot => "foot"
  | .yard => "yard"
  | .millimeter => "millimeter"
  | .centimeter => "centimeter"
  | .meter => "meter"
  | .degree => "degree"
  | .radian => "radian"

/-- Whether the unit measures angles. -/
def isAngular : MeasureUnit → Bool
  | .degree | .radian => true
  | _ => false

end MeasureUnit

/-! ## §2. Bound specs. -/

/-- What a bound spec bounds. -/
inductive BoundKind where
  | length | angle | integer | real
  deriving DecidableEq, Repr

namespace BoundKind

/-- All kinds of bound spec. -/
def all : List BoundKind := [.length, .angle, .integer, .real]

/-- The kind's name in messages. -/
def name : BoundKind → String
  | .length => "Length"
  | .angle => "Angle"
  | .integer => "Integer"
  | .real => "Real"

/-- The standard type that a bound spec of this kind has. -/
def typeName (kind : BoundKind) : String := kind.name ++ "BoundSpec"

/-- The map key of the range. -/
def rangeKey : BoundKind → String
  | .length => "(meter)"
  | .angle => "(degree)"
  | .integer | .real => "(unitless)"

/-- Whether defaults in `unit` make sense for this kind. -/
def accepts (kind : BoundKind) (unit : MeasureUnit) : Bool :=
  match kind with
  | .length => !unit.isAngular
  | .angle => unit.isAngular
  | .integer | .real => false

end BoundKind

/-- The smallest value that standard bounds allow. -/
def valueMin : Binary64 := .ofInt (-100000)

/-- The largest value that standard bounds allow. -/
def valueMax : Binary64 := .ofInt 100000

/-- The largest count of instances in a pattern. -/
def instanceCountMax : Nat := 2500

/-- The largest length, in meters. -/
def lengthMax : Binary64 := .ofInt 500

/-- The tolerance below which values count as zero. -/
def zeroTolerance : Binary64 := .ofDecimal false 1 (-5)

/-- A constant that bounds value parameters. -/
structure BoundSpec where
  name : String
  kind : BoundKind
  min : Binary64
  default : Binary64
  max : Binary64
  /-- Defaults for documents in other units, in the order of their last assignment. -/
  unitDefaults : List (MeasureUnit × Binary64) := []
  exported : Bool := true
  deriving DecidableEq, Repr

namespace BoundSpec

/-- The bound spec with the standard range of its kind. -/
def standard (kind : BoundKind) (name : String) : BoundSpec :=
  match kind with
  | .length => ⟨name, kind, valueMin, .ofInt 0, valueMax, [], true⟩
  | .angle => ⟨name, kind, .ofInt 0, .ofInt 30, .ofInt 360, [], true⟩
  | .integer => ⟨name, kind, .ofInt 0, .ofInt 2, valueMax, [], true⟩
  | .real => ⟨name, kind, zeroTolerance, .ofInt 1, valueMax, [], true⟩

/-- Sets the default for documents in `unit`, as the last one. -/
def unitDefault (spec : BoundSpec) (unit : MeasureUnit) (value : Binary64) : BoundSpec :=
  { spec with unitDefaults := spec.unitDefaults.filter (·.1 ≠ unit) ++ [(unit, value)] }

/-- A number of the spec as text: integer specs hold integers. -/
def number (spec : BoundSpec) (value : Binary64) : String :=
  match spec.kind with
  | .integer => toString value.toInt64
  | _ => value.text

/-- The range as a list literal. -/
def rangeText (spec : BoundSpec) : String :=
  "[" ++ spec.number spec.min ++ ", " ++ spec.number spec.default ++ ", "
    ++ spec.number spec.max ++ "]"

/-- The entries of the constant's map: the range first, then the defaults by unit, where a unit
whose key is there already takes that place. -/
def entries (spec : BoundSpec) : Keyed String :=
  Keyed.ofList <|
    (spec.kind.rangeKey, spec.rangeText)
      :: spec.unitDefaults.map fun (unit, value) => ("(" ++ unit.text ++ ")", spec.number value)

end BoundSpec

/-- The bounds argument of a value parameter. -/
inductive Bounds where
  /-- A constant by name, as a rule one of the standard library. -/
  | named (name : String)
  | spec (s : BoundSpec)
  deriving DecidableEq, Repr

/-- The name under which the bounds are passed. -/
def Bounds.name : Bounds → String
  | .named name => name
  | .spec s => s.name

/-! ## §3. Bounds of the standard library. -/

/-- The standard bounds: family and member, and the constant's name. -/
def standardBounds : List (String × String) :=
  [("LengthBound.Length", "LENGTH_BOUNDS"),
   ("LengthBound.NonnegativeLength", "NONNEGATIVE_LENGTH_BOUNDS"),
   ("LengthBound.NonnegativeZeroInclusiveLength", "NONNEGATIVE_ZERO_INCLUSIVE_LENGTH_BOUNDS"),
   ("LengthBound.NonnegativeZeroDefaultLength", "NONNEGATIVE_ZERO_DEFAULT_LENGTH_BOUNDS"),
   ("LengthBound.ZeroDefaultLength", "ZERO_DEFAULT_LENGTH_BOUNDS"),
   ("LengthBound.Blend", "BLEND_BOUNDS"),
   ("LengthBound.ShellOffset", "SHELL_OFFSET_BOUNDS"),
   ("LengthBound.ZeroInclusiveOffset", "ZERO_INCLUSIVE_OFFSET_BOUNDS"),
   ("LengthBound.PlaneSize", "PLANE_SIZE_BOUNDS"),
   ("AngleBound.Angle360", "ANGLE_360_BOUNDS"),
   ("AngleBound.Angle360Reverse", "ANGLE_360_REVERSE_DEFAULT_BOUNDS"),
   ("AngleBound.Angle360ZeroDefault", "ANGLE_360_ZERO_DEFAULT_BOUNDS"),
   ("AngleBound.Angle360FullDefault", "ANGLE_360_FULL_DEFAULT_BOUNDS"),
   ("AngleBound.Angle36090Default", "ANGLE_360_90_DEFAULT_BOUNDS"),
   ("AngleBound.AngleStrict180", "ANGLE_STRICT_180_BOUNDS"),
   ("AngleBound.AngleStrict90", "ANGLE_STRICT_90_BOUNDS"),
   ("AngleBound.Angle180Minus180", "ANGLE_180_MINUS_180_BOUNDS"),
   ("IntegerBound.PositiveCount", "POSITIVE_COUNT_BOUNDS"),
   ("IntegerBound.PrimaryPattern", "PRIMARY_PATTERN_BOUNDS"),
   ("IntegerBound.SecondaryPattern", "SECONDARY_PATTERN_BOUNDS"),
   ("IntegerBound.CircularPattern", "CIRCULAR_PATTERN_BOUNDS"),
   ("IntegerBound.Grid", "GRID_BOUNDS"),
   ("RealBound.Scale", "SCALE_BOUNDS"),
   ("RealBound.PositiveReal", "POSITIVE_REAL_BOUNDS"),
   ("RealBound.FilletRho", "FILLET_RHO_BOUNDS"),
   ("RealBound.EdgeParameter", "EDGE_PARAMETER_BOUNDS"),
   ("RealBound.ClampMagnitude", "CLAMP_MAGNITUDE_REAL_BOUNDS")]

/-- The bounds of a value parameter that names none. -/
def BoundKind.defaultBounds : BoundKind → Bounds
  | .length => .named "NONNEGATIVE_LENGTH_BOUNDS"
  | .angle => .named "ANGLE_360_BOUNDS"
  | .integer => .named "POSITIVE_COUNT_BOUNDS"
  | .real => .named "SCALE_BOUNDS"

/-- The predicate that a value parameter of this kind calls. -/
def BoundKind.parameterPredicate (kind : BoundKind) : String := "is" ++ kind.name

/-! ## §4. Declarations of the dialog. -/

/-- The declaration of a dialog parameter. -/
inductive ParameterDeclaration where
  /-- The parameter has a type. -/
  | typed (typeName : String)
  /-- A predicate holds of the parameter and its bounds. -/
  | bounded (predicate : String) (bounds : Bounds)
  deriving DecidableEq, Repr

/-- What is declared of a group of dialog parameters. -/
structure GroupHeader where
  name : String
  /-- The name is shown as it is, instead of with a capital first. -/
  keepCase : Bool := false
  collapsed : Bool := false
  /-- The boolean parameter that shows or hides the group. -/
  driving : Option String := none
  deriving DecidableEq, Repr

/-- The name of the group in the dialog. -/
def GroupHeader.label (g : GroupHeader) : String :=
  if g.keepCase then g.name else Text.upperFirst g.name

end FeatureStudio
