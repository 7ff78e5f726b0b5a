/-
  FeatureStudio.Text.Basic: lines, literals, places in a text, and texts as bytes.

  A line runs up to and including its line feed.  Indenting puts a unit in front of every line
  that holds more than its line feed, so blank lines stay blank.

  A literal holds any text between two quotes.  Backslash, quote, line feed, tab and carriage
  return are written with a backslash; every other character stands for itself.

  Bytes that are not UTF-8 can still be shown: every longest start of a character that is broken
  off gives one replacement character.

  Main statements:
    * `pieces_ne_nil`: cutting a text at a separator leaves at least one piece.
    * `escape_append`: the text between the quotes is built character by character.
-/

namespace FeatureStudio.Text

/-! ## §1. Indentation. -/

/-- Indents characters; `start` says whether a line begins here. -/
def indentChars (unit : List Char) : (start : Bool) → List Char → List Char
  | _, [] => []
  | true, c :: rest =>
    if c = '\n' then c :: indentChars unit true rest
    else unit ++ c :: indentChars unit false rest
  | false, c :: rest => c :: indentChars unit (c == '\n') rest

/-- Puts `unit` in front of every line of `text` that is not blank. -/
def indentLines (text unit : String) : String :=
  String.ofList (indentChars unit.toList true text.toList)

/-- `n` copies of `s` in a row. -/
def replicate (n : Nat) (s : String) : String := String.join (List.replicate n s)

/-! ## §2. Cutting and trimming. -/

/-- The pieces of a text between the occurrences of `sep`. -/
def pieces (sep : Char) : List Char → List (List Char)
  | [] => [[]]
  | c :: rest =>
    match pieces sep rest with
    | [] => [[c]]
    | p :: ps => if c = sep then [] :: p :: ps else (c :: p) :: ps

theorem pieces_ne_nil (sep : Char) (cs : List Char) : pieces sep cs ≠ [] := by
  induction cs with
  | nil => simp [pieces]
  | cons c rest ih =>
    cases h : pieces sep rest with
    | nil => exact absurd h ih
    | cons p ps => by_cases hc : c = sep <;> simp [pieces, h, hc]

/-- The texts between the occurrences of `sep`. -/
def split (sep : Char) (s : String) : List String := (pieces sep s.toList).map String.ofList

/-- The text without line feeds at its end. -/
def trimLineFeeds (s : String) : String :=
  String.ofList (s.toList.reverse.dropWhile (· == '\n')).reverse

/-- The text on one line: every line feed becomes a space. -/
def onOneLine (s : String) : String :=
  String.ofList (s.toList.map fun c => if c = '\n' then ' ' else c)

/-! ## §3. Literals. -/

/-- How one character is written inside a literal. -/
def escapeChar : Char → List Char
  | '\\' => ['\\', '\\']
  | '"' => ['\\', '"']
  | '\n' => ['\\', 'n']
  | '\t' => ['\\', 't']
  | '\r' => ['\\', 'r']
  | c => [c]

/-- The text between the quotes of a literal for `s`. -/
def escape (s : String) : String := String.ofList (s.toList.flatMap escapeChar)

/-- The literal for `s`. -/
def quote (s : String) : String := "\"" ++ escape s ++ "\""

theorem escape_append (s t : String) : escape (s ++ t) = escape s ++ escape t := by
  simp [escape]

/-! ## §4. Places, counted in bytes of UTF-8. -/

/-- A stretch of a text: where it begins and how long it is, in bytes. -/
structure Span where
  offset : Nat
  length : Nat
  deriving DecidableEq, Repr

/-- Where the stretch ends. -/
def Span.stop (s : Span) : Nat := s.offset + s.length

/-- The number of bytes of a text. -/
def byteLength (cs : List Char) : Nat := cs.foldr (fun c n => c.utf8Size + n) 0

/-- The place of the first occurrence of `needle`, counted from `offset`. -/
def findFrom (needle : List Char) (offset : Nat) : List Char → Option Nat
  | [] => if needle.isEmpty then some offset else none
  | c :: rest =>
    if needle.isPrefixOf (c :: rest) then some offset
    else findFrom needle (offset + c.utf8Size) rest

/-- The first occurrence of `needle`. -/
def find (text needle : String) : Option Span :=
  (findFrom needle.toList 0 text.toList).map fun offset => ⟨offset, byteLength needle.toList⟩

/-- The text after its first `n` bytes. -/
def dropBytes : Nat → List Char → List Char
  | _, [] => []
  | n, c :: rest => if n < c.utf8Size then c :: rest else dropBytes (n - c.utf8Size) rest

theorem dropBytes_zero (cs : List Char) : dropBytes 0 cs = cs := by
  cases cs with
  | nil => rfl
  | cons c rest => simp [dropBytes, Char.utf8Size_pos]

/-- The text before the first occurrence of a character, and the text after it. -/
def splitOnce (sep : Char) (s : String) : Option (String × String) :=
  let cs := s.toList
  match cs.dropWhile (· ≠ sep) with
  | [] => none
  | _ :: rest => some (String.ofList (cs.takeWhile (· ≠ sep)), String.ofList rest)

/-! ## §5. Bytes. -/

/-- Bytes in order. -/
abbrev Bytes := List UInt8

/-- The bytes of a text. -/
def encode (s : String) : Bytes := s.toUTF8.data.toList

/-- The text that the bytes encode, if they encode one. -/
def decode? (bytes : Bytes) : Option String := String.fromUTF8? ⟨bytes.toArray⟩

/-! ## §6. Bytes that may be broken. -/

/-- The bytes that may follow a first byte, each from a lowest to a highest one. -/
def followers (first : Nat) : Option (List (Nat × Nat)) :=
  let any := (0x80, 0xBF)
  if first < 0x80 then some []
  else if 0xC2 ≤ first && first ≤ 0xDF then some [any]
  else if first = 0xE0 then some [(0xA0, 0xBF), any]
  else if first = 0xED then some [(0x80, 0x9F), any]
  else if 0xE1 ≤ first && first ≤ 0xEF then some [any, any]
  else if first = 0xF0 then some [(0x90, 0xBF), any, any]
  else if first = 0xF4 then some [(0x80, 0x8F), any, any]
  else if 0xF1 ≤ first && first ≤ 0xF3 then some [any, any, any]
  else none

/-- How many of the bytes are as they may be, and whether none is missing. -/
def matching : List (Nat × Nat) → Bytes → Nat × Bool
  | [], _ => (0, true)
  | _, [] => (0, false)
  | (low, high) :: ranges, b :: rest =>
    if low ≤ b.toNat && b.toNat ≤ high then
      let (n, whole) := matching ranges rest
      (n + 1, whole)
    else (0, false)

/-- The text of bytes, of which the first `skip` are done with. -/
def showBytes : (skip : Nat) → Bytes → String
  | _, [] => ""
  | skip + 1, _ :: rest => showBytes skip rest
  | 0, b :: rest =>
    match (followers b.toNat).map (matching · rest) with
    | some (n, true) =>
      (decode? (b :: rest.take n)).getD "\uFFFD" ++ showBytes n rest
    | some (n, false) => "\uFFFD" ++ showBytes n rest
    | none => "\uFFFD" ++ showBytes 0 rest

/-- The text of bytes, with replacement characters for what is no text. -/
def shownBytes (bytes : Bytes) : String := showBytes 0 bytes

end FeatureStudio.Text
