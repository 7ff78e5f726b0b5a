/-
  FeatureStudio.Toml.Value: the values of a document, and tables put together from keys and headers.

  The format asks for integers of 64 bits with a sign.  Those of 64 bits without a sign are kept
  all the same, while a number beyond both ranges, or beyond the doubles, cannot be read as
  anything.

  A table may be spelled out in one place only.  It is open as long as it was merely implied: by
  the header of a table inside it, or by the front of a dotted key.  A table implied by a header
  can still get its own header, and one made by dotted keys can still get further dotted keys.

  Main statements:
    * `insert_twice`: a key is given a value once.
-/
import FeatureStudio.Decimal
import FeatureStudio.Keyed

namespace FeatureStudio.Toml

open FeatureStudio.Decimal (Binary64)

/-! ## §1. Values. -/

/-- A value of a document.  The entries of a table stand in the order of their keys. -/
inductive Value where
  | string (s : String)
  | integer (n : Int)
  | float (x : Binary64)
  /-- A number that is too large or too small for its kind. -/
  | outOfRange
  | boolean (b : Bool)
  /-- A date, a time or both, as text. -/
  | dateTime (text : String)
  | array (items : List Value)
  | table (entries : List (String × Value))

/-- Values under keys. -/
abbrev Entries := List (String × Value)

/-- The key under which a date-time is seen as an entry. -/
def dateTimeKey : String := "$__toml_private_datetime"

/-- The entries of a table.  A date-time is seen as a table with one entry. -/
def Value.entries? : Value → Option Entries
  | .table entries => some entries
  | .dateTime text => some [(dateTimeKey, .string text)]
  | _ => none

/-! ## §2. Nesting. -/

mutual

/-- How deep arrays and tables are nested. -/
def Value.depth : Value → Nat
  | .array items => itemDepths items + 1
  | .table entries => depths entries + 1
  | .dateTime _ => 1
  | .string _ | .integer _ | .float _ | .outOfRange | .boolean _ => 0

/-- The depth of the deepest of several values. -/
def itemDepths : List Value → Nat
  | [] => 0
  | v :: rest => max v.depth (itemDepths rest)

/-- The depth of the deepest value in a table. -/
def depths : List (String × Value) → Nat
  | [] => 0
  | (_, v) :: rest => max v.depth (depths rest)

end

/-! ## §3. Ranges of numbers. -/

mutual

/-- The values within a value that hold no further values. -/
def Value.leaves : Value → List Value
  | .array items => itemLeaves items
  | .table entries => entryLeaves entries
  | v => [v]

/-- The leaves of several values. -/
def itemLeaves : List Value → List Value
  | [] => []
  | v :: rest => v.leaves ++ itemLeaves rest

/-- The leaves of the values in a table. -/
def entryLeaves : List (String × Value) → List Value
  | [] => []
  | (_, v) :: rest => v.leaves ++ entryLeaves rest

end

/-- Whether the whole of a value can be read. -/
def Value.isReadable (v : Value) : Bool :=
  v.leaves.all fun
    | .outOfRange => false
    | _ => true

/-- Whether the numbers in a table keep to the ranges that the format asks for. -/
def isStrict (entries : Entries) : Bool :=
  (entryLeaves entries).all fun
    | .outOfRange => false
    | .integer n => n ≤ Binary64.maxInt64
    | _ => true

/-! ## §4. Open tables. -/

/-- What called a table into being. -/
inductive Origin where
  /-- Its own header, or the document itself. -/
  | header
  /-- The header of a table inside it. -/
  | implied
  /-- A dotted key. -/
  | dotted
  deriving DecidableEq, Repr

/-- What stands under a key while the document is read. -/
inductive Item where
  /-- A value, to which nothing can be added. -/
  | value (v : Value)
  | table (origin : Origin) (entries : List (String × Item))
  /-- Tables under one header in double brackets; the last one can be added to. -/
  | tables (earlier : List (List (String × Item))) (last : List (String × Item))

/-- Items under keys. -/
abbrev Table := Keyed Item

/-! ## §5. Changes at a path. -/

/-- Changes the table at the end of `path`, calling missing tables into being.  The change is
told what called its table into being. -/
def modifyAt (origin : Origin) (change : Origin → Table → Option Table) :
    List String → Origin → Table → Option Table
  | [], own, t => change own t
  | key :: path, _, t =>
    match Keyed.get? t key with
    | none =>
      (modifyAt origin change path origin []).map fun sub => Keyed.put t key (.table origin sub)
    | some (.value _) => none
    | some (.table subOrigin sub) =>
      if origin = .dotted && subOrigin = .header then none
      else
        (modifyAt origin change path subOrigin sub).map fun sub =>
          Keyed.put t key (.table subOrigin sub)
    | some (.tables earlier last) =>
      (modifyAt origin change path .header last).map fun last =>
        Keyed.put t key (.tables earlier last)

/-- Puts a value under a new key.  Only tables made by dotted keys can be reached by one. -/
def insertHere (path : List String) (key : String) (v : Value) (own : Origin) (t : Table) :
    Option Table :=
  if (own = .dotted) = path.isEmpty then none
  else
    match Keyed.get? t key with
    | some _ => none
    | none => some (Keyed.put t key (.value v))

/-- Puts a value under a dotted key. -/
def insert (t : Table) (path : List String) (key : String) (v : Value) : Option Table :=
  modifyAt .dotted (insertHere path key v) path .header t

/-- A key with its value; the key is split at its last dot. -/
structure Pair where
  path : List String
  key : String
  value : Value

/-- Puts values under dotted keys, one after the other. -/
def insertAll (t : Table) : List Pair → Option Table
  | [] => some t
  | p :: rest => (insert t p.path p.key p.value).bind (insertAll · rest)

theorem insert_twice (t : Table) (key : String) (v w : Value) :
    (insert t [] key v).bind (insert · [] key w) = none := by
  cases h : Keyed.get? t key <;>
    simp [insert, modifyAt, insertHere, h, Keyed.get?_put_self]

/-! ## §6. Headers. -/

/-- The table `key` under its header.  It may have been implied by an earlier one. -/
def openTable (key : String) (pairs : List Pair) (t : Table) : Option Table :=
  let put (entries : Table) :=
    (insertAll entries pairs).map fun sub => Keyed.put t key (.table .header sub)
  match Keyed.get? t key with
  | none => put []
  | some (.table .implied entries) => put entries
  | some _ => none

/-- A further table under the header `key` in double brackets. -/
def openItem (key : String) (pairs : List Pair) (t : Table) : Option Table :=
  match Keyed.get? t key with
  | none => (insertAll [] pairs).map fun last => Keyed.put t key (.tables [] last)
  | some (.tables earlier last) =>
    (insertAll [] pairs).map fun new => Keyed.put t key (.tables (earlier ++ [last]) new)
  | some _ => none

/-- A header with the keys that follow it. -/
structure Section where
  /-- Whether the header has double brackets. -/
  isItem : Bool
  path : List String
  key : String
  pairs : List Pair

/-- Adds what stands under a header. -/
def addSection (t : Table) (s : Section) : Option Table :=
  let change := if s.isItem then openItem s.key s.pairs else openTable s.key s.pairs
  modifyAt .implied (fun _ => change) s.path .header t

/-- The table of a document: the keys before the first header, then the headers in order. -/
def assemble (pairs : List Pair) (sections : List Section) : Option Table :=
  (insertAll [] pairs).bind fun t => sections.foldlM addSection t

/-! ## §7. Finished tables. -/

/-- Puts an entry in its place in the order of keys. -/
def place (entry : String × Value) : Entries → Entries
  | [] => [entry]
  | e :: rest => if entry.1 < e.1 then entry :: e :: rest else e :: place entry rest

mutual

/-- The value of an item. -/
def Item.toValue : Item → Value
  | .value v => v
  | .table _ entries => .table (toEntries entries)
  | .tables earlier last => .array (toTables earlier ++ [.table (toEntries last)])

/-- The entries of a table, in the order of their keys. -/
def toEntries : List (String × Item) → Entries
  | [] => []
  | (key, item) :: rest => place (key, item.toValue) (toEntries rest)

/-- The values of several tables. -/
def toTables : List (List (String × Item)) → List Value
  | [] => []
  | t :: rest => .table (toEntries t) :: toTables rest

end

/-- The value of an inline table. -/
def inlineTable (pairs : List Pair) : Option Value :=
  (insertAll [] pairs).map fun t => .table (toEntries t)

end FeatureStudio.Toml
