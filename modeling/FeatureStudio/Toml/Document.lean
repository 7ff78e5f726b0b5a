/-
  FeatureStudio.Toml.Document: the text of a document, read as a table.

  A document is a sequence of lines: keys with values, headers of tables in single brackets and
  headers of array elements in double ones.  Arrays and inline tables may run over lines.
-/
import FeatureStudio.Toml.Scalar
import FeatureStudio.Toml.Value

namespace FeatureStudio.Toml

/-! ## §1. Keys. -/

/-- A key without dots. -/
def simpleKey : Reader String
  | '"' :: rest => (basic rest).map fun (s, rest) => (String.ofList s, rest)
  | '\x27' :: rest => (literal rest).map fun (s, rest) => (String.ofList s, rest)
  | cs =>
    let name := cs.takeWhile isKeyChar
    if name.isEmpty then none else some (String.ofList name, cs.drop name.length)

/-- A key with dots, split at the last one.  The first argument bounds the number of parts. -/
def dottedKey : Nat → Reader (List String × String)
  | 0, _ => none
  | bound + 1, cs => do
    let (key, rest) ← simpleKey cs
    match skipBlanks rest with
    | '.' :: rest =>
      let ((path, last), rest) ← dottedKey bound (skipBlanks rest)
      return ((key :: path, last), rest)
    | rest => return (([], key), rest)

/-- The greatest number of parts of a key, and of brackets around a value. -/
def maxDepth : Nat := 80

/-- A key with dots, and the blanks after it. -/
def key : Reader (List String × String) := dottedKey maxDepth

/-! ## §2. Values. -/

/-- The value that a word, number or date-time states. -/
def scalar? (cs : List Char) : Option Value :=
  match cs with
  | ['t', 'r', 'u', 'e'] => some (.boolean true)
  | ['f', 'a', 'l', 's', 'e'] => some (.boolean false)
  | _ =>
    integer? cs <|> float? cs <|> (dateTime? cs).map Value.dateTime

/-- The characters of a scalar.  A space may stand between a date and a time. -/
def scalarChars : Reader (List Char) := fun cs =>
  let first := cs.takeWhile isScalarChar
  match date first, cs.drop first.length with
  | some (_, []), ' ' :: c :: rest =>
    if c.isDigit then
      let second := (c :: rest).takeWhile isScalarChar
      some (first ++ ' ' :: second, (c :: rest).drop second.length)
    else some (first, ' ' :: c :: rest)
  | _, rest => some (first, rest)

/-- A word, number or date-time. -/
def scalar : Reader Value := fun cs => do
  let (text, rest) ← scalarChars cs
  return (← scalar? text, rest)

/-- What stands up to a closing bracket: items with commas between them, and perhaps one after
the last.  The first argument bounds the number of items. -/
def listed {α : Type} (item : Reader α) (close : Char) : Nat → Reader (List α)
  | 0, _ => none
  | bound + 1, cs =>
    match skipFiller false cs with
    | none | some [] => none
    | some (c :: rest) =>
      if c = close then some ([], rest)
      else do
        let (first, rest) ← item (c :: rest)
        match ← skipFiller false rest with
        | ',' :: rest =>
          let (others, rest) ← listed item close bound rest
          return (first :: others, rest)
        | c :: rest => if c = close then some ([first], rest) else none
        | [] => none

/-- A key with its value.  In an inline table, line breaks may stand around the sign. -/
def pair (value : Reader Value) (inline : Bool) : Reader Pair := fun cs => do
  let ((path, last), rest) ← key cs
  let rest ← if inline then skipFiller false rest else some rest
  match rest with
  | '=' :: rest =>
    let rest ← if inline then skipFiller false rest else some (skipBlanks rest)
    let (v, rest) ← value rest
    return (⟨path, last, v⟩, rest)
  | _ => none

/-- A value.  The first argument bounds the nesting of brackets. -/
def value : Nat → Reader Value
  | depth, '[' :: rest =>
    match depth with
    | 0 => none
    | depth + 1 =>
      (listed (value depth) ']' (rest.length + 1) rest).map fun (vs, rest) => (.array vs, rest)
  | depth, '\x7b' :: rest =>
    match depth with
    | 0 => none
    | depth + 1 => do
      let (pairs, rest) ← listed (pair (value depth) true) '\x7d' (rest.length + 1) rest
      return (← inlineTable pairs, rest)
  | _, '"' :: rest => (quotedString ('"' :: rest)).map fun (s, rest) => (.string s, rest)
  | _, '\x27' :: rest => (quotedString ('\x27' :: rest)).map fun (s, rest) => (.string s, rest)
  | _, cs => scalar cs

/-! ## §3. Lines. -/

/-- A header between brackets. -/
def header (isItem : Bool) : Reader (Bool × List String × String) := fun cs => do
  let ((path, last), rest) ← key (skipBlanks cs)
  match isItem, rest with
  | false, ']' :: rest => return ((isItem, path, last), rest)
  | true, ']' :: ']' :: rest => return ((isItem, path, last), rest)
  | _, _ => none

/-- What a line states. -/
inductive Line where
  | blank
  | pair (p : Pair)
  | header (isItem : Bool) (path : List String) (key : String)

/-- A line, up to its comment. -/
def line : Reader Line
  | '[' :: '[' :: rest =>
    (header true rest).map fun ((isItem, path, last), rest) => (.header isItem path last, rest)
  | '[' :: rest =>
    (header false rest).map fun ((isItem, path, last), rest) => (.header isItem path last, rest)
  | c :: rest =>
    if c = '\n' || c = '\r' || c = '#' then some (.blank, c :: rest)
    else (pair (value maxDepth) false (c :: rest)).map fun (p, rest) => (.pair p, rest)
  | [] => some (.blank, [])

/-- The lines of a text.  The first argument bounds their number. -/
def lines : Nat → List Char → Option (List Line)
  | _, [] => some []
  | 0, _ => none
  | bound + 1, cs => do
    let (first, rest) ← line (skipBlanks cs)
    let others ← lines bound (← restOfLine false rest)
    return first :: others

/-- The keys before the first header, and the headers with the keys that follow them. -/
def sections : List Line → List Pair × List Section
  | [] => ([], [])
  | .blank :: rest => sections rest
  | .pair p :: rest =>
    let (pairs, later) := sections rest
    (p :: pairs, later)
  | .header isItem path key :: rest =>
    let (pairs, later) := sections rest
    ([], ⟨isItem, path, key, pairs⟩ :: later)

/-- The text after the mark that may stand first in a file. -/
def skipMark : List Char → List Char
  | '\uFEFF' :: rest => rest
  | cs => cs

/-- The entries of the document, if it is well formed. -/
def read? (text : String) : Option Entries := do
  let cs := skipMark text.toList
  let (pairs, sections) := sections (← lines cs.length cs)
  return toEntries (← assemble pairs sections)

end FeatureStudio.Toml
