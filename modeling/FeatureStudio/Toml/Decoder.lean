/-
  FeatureStudio.Toml.Decoder: values read as data of a wanted kind.

  A record is read from a table, or from an array of its fields in order.  A table is read in the
  order of its keys, so the fault at the first key is reported; only when every key is in order
  are missing fields looked for, in the order of the fields.
-/
import FeatureStudio.Decimal
import FeatureStudio.Text.Printable
import FeatureStudio.Toml.Value

namespace FeatureStudio.Toml

open FeatureStudio.Decimal (Binary64)

/-! ## §1. Faults. -/

/-- A floating point number with a point in it. -/
def pointed (x : Decimal.Binary64) : String :=
  let text := x.text
  if x.isFinite && !text.toList.contains '.' then text ++ ".0" else text

/-- What a value is, as it is named in errors. -/
def Value.described : Value → String
  | .string s => "string " ++ Text.shown s
  | .integer n => "integer `" ++ toString n ++ "`"
  | .float x => "floating point `" ++ pointed x ++ "`"
  | .outOfRange => "number out of range"
  | .boolean b => "boolean `" ++ (if b then "true" else "false") ++ "`"
  | .array _ => "sequence"
  | .dateTime _ | .table _ => "map"

/-- The kind of a value. -/
def Value.kindName : Value → String
  | .string _ => "string"
  | .integer _ => "integer"
  | .float _ => "float"
  | .outOfRange => "number"
  | .boolean _ => "boolean"
  | .dateTime _ => "datetime"
  | .array _ => "array"
  | .table _ => "table"

/-- Why a value is not of the kind that is wanted. -/
inductive DecodeError where
  | wrongType (found expected : String)
  | wrongValue (found expected : String)
  /-- An array that stands for a record has the wrong length. -/
  | wrongLength (length : Nat) (expected : String)
  | unknownField (name : String) (known : List String)
  | unknownVariant (name : String) (known : List String)
  | missingField (name : String)
  /-- None of the forms that a setting may have. -/
  | noForm (setting : String)
  | notStringOrTable
  | noElement
  | severalElements
  | notEmptyArray
  | notEmptyTable
  | notTable (kind : String)

/-- The names that are known, as alternatives. -/
def choices : List String → String
  | [a] => "`" ++ a ++ "`"
  | [a, b] => "`" ++ a ++ "` or `" ++ b ++ "`"
  | names => "one of " ++ ", ".intercalate (names.map fun n => "`" ++ n ++ "`")

/-- What is said of the error. -/
def DecodeError.message : DecodeError → String
  | .wrongType found expected => "invalid type: " ++ found ++ ", expected " ++ expected
  | .wrongValue found expected => "invalid value: " ++ found ++ ", expected " ++ expected
  | .wrongLength length expected =>
    "invalid length " ++ toString length ++ ", expected " ++ expected
  | .unknownField name known => "unknown field `" ++ name ++ "`, expected " ++ choices known
  | .unknownVariant name known => "unknown variant `" ++ name ++ "`, expected " ++ choices known
  | .missingField name => "missing field `" ++ name ++ "`"
  | .noForm setting => "data did not match any variant of untagged enum " ++ setting
  | .notStringOrTable => "wanted string or table"
  | .noElement => "wanted exactly 1 element, found 0 elements"
  | .severalElements => "wanted exactly 1 element, more than 1 element"
  | .notEmptyArray => "expected empty array"
  | .notEmptyTable => "expected empty table"
  | .notTable kind => "expected table, found " ++ kind

/-- Reads a value as data of type `α`. -/
abbrev Decoder (α : Type) := Value → Except DecodeError α

namespace Decoder

/-! ## §2. Single values. -/

/-- The value is not of the expected kind. -/
def mismatch {α : Type} (expected : String) (v : Value) : Except DecodeError α :=
  .error (.wrongType v.described expected)

def string : Decoder String
  | .string s => .ok s
  | v => mismatch "a string" v

def boolean : Decoder Bool
  | .boolean b => .ok b
  | v => mismatch "a boolean" v

/-- A floating point number; integers are taken too. -/
def number : Decoder Binary64
  | .float x => .ok x
  | .integer n => .ok (Binary64.ofInt n)
  | v => mismatch "f64" v

/-- A count of 32 bits. -/
def count : Decoder Nat
  | .integer n =>
    if 0 ≤ n && n < 4294967296 then .ok n.toNat
    else .error (.wrongValue (Value.integer n).described "u32")
  | v => mismatch "u32" v

/-- A value that is read as a whole before parts of it are used. -/
def whole {α : Type} (item : Decoder α) : Decoder α := fun v =>
  if v.isReadable then item v else mismatch "numbers within range" v

/-- A list of things of one kind; the first fault counts. -/
def list {α : Type} (item : Decoder α) : Decoder (List α)
  | .array items => items.mapM item
  | v => mismatch "a sequence" v

/-- Things of one kind under keys of one kind, in the order of the keys. -/
def keyed {κ α : Type} (key : String → Except DecodeError κ) (item : Decoder α) :
    Decoder (List (κ × α)) := fun v =>
  match v.entries? with
  | some entries => entries.mapM fun (k, v) => do return (← key k, ← item v)
  | none => mismatch "a map" v

/-- One of some words. -/
def word {α : Type} (words : List (String × α)) (s : String) : Except DecodeError α :=
  match words.lookup s with
  | some a => .ok a
  | none => .error (.unknownVariant s (words.map Prod.fst))

/-- Checks what stands beside a word that is written as the only key of a table. -/
def emptyValue : Decoder Unit
  | .array [] | .table [] => .ok ()
  | .array _ => .error .notEmptyArray
  | .table _ => .error .notEmptyTable
  | v => .error (.notTable v.kindName)

/-- One of some words, as a string or as the only key of a table. -/
def choice {α : Type} (words : List (String × α)) : Decoder α
  | .string s => word words s
  | .table [] => .error .noElement
  | .table [(k, v)] => do
    let a ← word words k
    emptyValue v
    return a
  | .table _ => .error .severalElements
  | _ => .error .notStringOrTable

/-! ## §3. Records. -/

/-- Why a table does not have the fields of a record. -/
inductive Fault where
  /-- What stands under a key is wrong. -/
  | at (key : String) (error : DecodeError)
  /-- A field is missing. -/
  | absent (name : String)

/-- What is wrong. -/
def Fault.error : Fault → DecodeError
  | .at _ error => error
  | .absent name => .missingField name

/-- The fault that counts: the one at the smaller key, else the first missing field. -/
def Fault.earlier : Fault → Fault → Fault
  | .at k e, .at k' e' => if k' < k then .at k' e' else .at k e
  | .absent _, .at k' e' => .at k' e'
  | f, .absent _ => f

/-- Fields of a record. -/
structure Fields (α : Type) where
  /-- The names, in order. -/
  names : List String
  /-- Reads the fields from the entries of a table. -/
  ofEntries : Entries → Except Fault α
  /-- Reads the fields from an array, given the error for its end, the place in the array and
  the items from there on. -/
  ofItems : (Nat → DecodeError) → Nat → List Value → Except DecodeError (α × Nat × List Value)

namespace Fields

/-- Two results; if both are faults, the one that counts. -/
def both {α β : Type} : Except Fault (α → β) → Except Fault α → Except Fault β
  | .ok f, .ok a => .ok (f a)
  | .error p, .ok _ | .ok _, .error p => .error p
  | .error p, .error q => .error (p.earlier q)

/-- No field. -/
def constant {α : Type} (a : α) : Fields α where
  names := []
  ofEntries _ := .ok a
  ofItems _ n items := .ok (a, n, items)

/-- The fields of both, in order. -/
def append {α β : Type} (f : Fields (α → β)) (x : Fields α) : Fields β where
  names := f.names ++ x.names
  ofEntries entries := both (f.ofEntries entries) (x.ofEntries entries)
  ofItems short n items := do
    let (g, n, items) ← f.ofItems short n items
    let (a, n, items) ← x.ofItems short n items
    return (g a, n, items)

instance : Applicative Fields where
  pure := constant
  seq f x := append f (x ())

/-- A field by name.  `missing` is its value in a table, and `short` its value in an array, that
does not have it; there may be none. -/
def field {α : Type} (name : String) (item : Decoder α) (missing short : Option α) :
    Fields α where
  names := [name]
  ofEntries entries :=
    match entries.lookup name, missing with
    | some v, _ => (item v).mapError (.at name)
    | none, some a => .ok a
    | none, none => .error (.absent name)
  ofItems tooShort n items :=
    match items, short with
    | v :: rest, _ => do return (← item v, n + 1, rest)
    | [], some a => .ok (a, n, [])
    | [], none => .error (tooShort n)

/-- A field that has to be there. -/
def required {α : Type} (name : String) (item : Decoder α) : Fields α :=
  field name item none none

/-- A field with a default. -/
def withDefault {α : Type} (name : String) (default : α) (item : Decoder α) : Fields α :=
  field name item (some default) (some default)

/-- A field that a table may leave out. -/
def optional {α : Type} (name : String) (item : Decoder α) : Fields (Option α) :=
  field name (fun v => (item v).map some) (some none) none

/-- A record, from a table.  A closed record has no other fields. -/
def ofTable {α : Type} (fields : Fields α) (closed : Bool) (entries : Entries) :
    Except DecodeError α :=
  let known : Except Fault Unit :=
    match entries.find? fun e => !fields.names.contains e.1 with
    | some (key, _) => if closed then .error (.at key (.unknownField key fields.names)) else .ok ()
    | none => .ok ()
  (both (known.map fun _ a => a) (fields.ofEntries entries)).mapError Fault.error

/-- How a record is named in errors about an array in its place. -/
def described {α : Type} (fields : Fields α) (name : String) : String :=
  let n := fields.names.length
  "struct " ++ name ++ " with " ++ toString n ++ (if n = 1 then " element" else " elements")

/-- A record, from an array; gives the items that are left over as well. -/
def ofArray {α : Type} (fields : Fields α) (name : String) (items : List Value) :
    Except DecodeError (α × List Value) := do
  let (a, _, rest) ← fields.ofItems (.wrongLength · (fields.described name)) 0 items
  return (a, rest)

/-- A closed record. -/
def record {α : Type} (fields : Fields α) (name : String) : Decoder α := fun v =>
  match v, v.entries? with
  | _, some entries => fields.ofTable true entries
  | .array items, none => (fields.ofArray name items).map Prod.fst
  | v, none => mismatch ("struct " ++ name) v

end Fields

end Decoder

end FeatureStudio.Toml
