/-
  FeatureStudio.Toml.Scalar: the characters of a document, its strings, numbers and dates.

  A basic string stands between quotes and has escapes; a literal one stands between apostrophes
  and has none.  Three quotes or apostrophes enclose strings of several lines.

  Digits may be grouped by single underscores between them.  Decimal numbers have no zero in
  front, and hexadecimal, octal and binary ones have no sign.

  A date-time is a date, a time, or a date and a time with an offset from universal time or
  without one.  Its text is brought to one form: `T` between date and time, seconds even where
  they are not given, no zeros at the end of a fraction of a second, and `Z` for a time that is
  marked as universal.

  Main statements:
    * `restOfLine_newline`: a line may end at once.
    * `basic_quote`: a quote ends a basic string.
    * `basic_textChar`: a character of text stands for itself.
-/
import FeatureStudio.Decimal
import FeatureStudio.Toml.Value

namespace FeatureStudio.Toml

open FeatureStudio.Decimal (Binary64 natOfDigits)

/-! ## §1. Characters, and what separates parts. -/

/-- What a part of a text gives and the text after it; `none` if the part is not there. -/
abbrev Reader (α : Type) := List Char → Option (α × List Char)

/-- Space and tab. -/
def isBlank (c : Char) : Bool := c = ' ' || c = '\t'

/-- Characters that may stand in comments and strings: no control characters but the tab. -/
def isTextChar (c : Char) : Bool := c = '\t' || (' ' ≤ c && c.toNat ≠ 0x7F)

/-- Characters of keys without quotes. -/
def isKeyChar (c : Char) : Bool := c.isAlphanum || c = '_' || c = '-'

/-- Characters of numbers, dates and words. -/
def isScalarChar (c : Char) : Bool := isKeyChar c || c = '+' || c = '.' || c = ':'

/-- The text after spaces and tabs. -/
def skipBlanks (cs : List Char) : List Char := cs.dropWhile isBlank

/-- The text after the rest of a line on which only a comment may follow. -/
def restOfLine : (inComment : Bool) → List Char → Option (List Char)
  | _, [] => some []
  | _, '\n' :: rest => some rest
  | _, '\r' :: '\n' :: rest => some rest
  | true, c :: rest => if isTextChar c then restOfLine true rest else none
  | false, c :: rest =>
    if isBlank c then restOfLine false rest
    else if c = '#' then restOfLine true rest
    else none

theorem restOfLine_newline (inComment : Bool) (rest : List Char) :
    restOfLine inComment ('\n' :: rest) = some rest := by
  cases inComment <;> simp [restOfLine]

/-- The text after blanks, line breaks and comments. -/
def skipFiller : (inComment : Bool) → List Char → Option (List Char)
  | _, [] => some []
  | _, '\n' :: rest => skipFiller false rest
  | _, '\r' :: '\n' :: rest => skipFiller false rest
  | true, c :: rest => if isTextChar c then skipFiller true rest else none
  | false, c :: rest =>
    if isBlank c then skipFiller false rest
    else if c = '#' then skipFiller true rest
    else some (c :: rest)

/-- Puts a character in front of a string that was read. -/
def prepend (c : Option Char) (r : Option (List Char × List Char)) :
    Option (List Char × List Char) :=
  match c, r with
  | some c, some (s, rest) => some (c :: s, rest)
  | _, _ => none

/-! ## §2. Escapes. -/

/-- A hexadecimal digit, small or capital. -/
def isHexDigit (c : Char) : Bool :=
  c.isDigit || ('a' ≤ c && c ≤ 'f') || ('A' ≤ c && c ≤ 'F')

/-- The character with the given number; surrogates are none. -/
def charOfHex (digits : List Char) : Option Char :=
  let n := Decimal.natOfDigits 16 0 digits
  if digits.all isHexDigit && (n < 0xD800 || (0xDFFF < n && n < 0x110000)) then
    some (Char.ofNat n)
  else none

/-- The character that a backslash and a letter stand for. -/
def shortEscape : Char → Option Char
  | 'b' => some (Char.ofNat 8)
  | 't' => some '\t'
  | 'n' => some '\n'
  | 'f' => some (Char.ofNat 12)
  | 'r' => some '\r'
  | 'e' => some (Char.ofNat 27)
  | '"' => some '"'
  | '\\' => some '\\'
  | _ => none

/-! ## §3. Strings on one line. -/

/-- The rest of a basic string after its first quote. -/
def basic : Reader (List Char)
  | [] => none
  | '"' :: rest => some ([], rest)
  | '\\' :: 'x' :: a :: b :: rest => prepend (charOfHex [a, b]) (basic rest)
  | '\\' :: 'u' :: a :: b :: c :: d :: rest => prepend (charOfHex [a, b, c, d]) (basic rest)
  | '\\' :: 'U' :: a :: b :: c :: d :: e :: f :: g :: h :: rest =>
    prepend (charOfHex [a, b, c, d, e, f, g, h]) (basic rest)
  | '\\' :: c :: rest => prepend (shortEscape c) (basic rest)
  | c :: rest => if isTextChar c && c ≠ '\\' then prepend (some c) (basic rest) else none

theorem basic_quote (rest : List Char) : basic ('"' :: rest) = some ([], rest) := by
  simp [basic]

theorem basic_textChar {c : Char} (rest : List Char) (text : isTextChar c) (quote : c ≠ '"')
    (backslash : c ≠ '\\') : basic (c :: rest) = prepend (some c) (basic rest) := by
  rw [basic.eq_def]
  split <;> simp_all

/-- The rest of a literal string after its first apostrophe. -/
def literal : Reader (List Char)
  | [] => none
  | '\x27' :: rest => some ([], rest)
  | c :: rest => if isTextChar c then prepend (some c) (literal rest) else none

/-! ## §4. Strings on several lines. -/

/-- The text after a line break that opens a string of several lines. -/
def skipFirstBreak : List Char → List Char
  | '\n' :: rest => rest
  | '\r' :: '\n' :: rest => rest
  | cs => cs

/-- The end of a string of several lines: `q` may stand in front of the three that close it. -/
def closing (q : Char) (rest : List Char) : List Char × List Char :=
  match rest with
  | a :: b :: rest' =>
    if a = q && b = q then ([q, q], rest') else if a = q then ([q], b :: rest') else ([], rest)
  | [a] => if a = q then ([q], []) else ([], rest)
  | [] => ([], [])

/-- Where the reading of a basic string of several lines stands. -/
inductive LineState where
  /-- Within the text. -/
  | text
  /-- After a backslash, before the line break that it takes away. -/
  | escaped
  /-- After such a line break: what is blank is left out. -/
  | trimming
  deriving DecidableEq

/-- The rest of a basic string of several lines. -/
def multilineBasic : LineState → Reader (List Char)
  | _, [] => none
  | .escaped, '\r' :: '\n' :: rest => multilineBasic .trimming rest
  | .escaped, c :: rest =>
    if isBlank c then multilineBasic .escaped rest
    else if c = '\n' then multilineBasic .trimming rest
    else none
  | state, '\r' :: '\n' :: rest =>
    if state = .trimming then multilineBasic .trimming rest
    else prepend (some '\r') (prepend (some '\n') (multilineBasic .text rest))
  | _, '"' :: '"' :: '"' :: rest => some (closing '"' rest)
  | _, '\\' :: 'x' :: a :: b :: rest =>
    prepend (charOfHex [a, b]) (multilineBasic .text rest)
  | _, '\\' :: 'u' :: a :: b :: c :: d :: rest =>
    prepend (charOfHex [a, b, c, d]) (multilineBasic .text rest)
  | _, '\\' :: 'U' :: a :: b :: c :: d :: e :: f :: g :: h :: rest =>
    prepend (charOfHex [a, b, c, d, e, f, g, h]) (multilineBasic .text rest)
  | _, '\\' :: c :: rest =>
    if c = '\n' then multilineBasic .trimming rest
    else if isBlank c || c = '\r' then multilineBasic .escaped (c :: rest)
    else prepend (shortEscape c) (multilineBasic .text rest)
  | state, c :: rest =>
    if state = .trimming && (isBlank c || c = '\n') then multilineBasic .trimming rest
    else if (isTextChar c && c ≠ '\\') || c = '\n' then
      prepend (some c) (multilineBasic .text rest)
    else none

/-- The rest of a literal string of several lines. -/
def multilineLiteral : Reader (List Char)
  | [] => none
  | '\x27' :: '\x27' :: '\x27' :: rest => some (closing '\x27' rest)
  | '\r' :: '\n' :: rest =>
    prepend (some '\r') (prepend (some '\n') (multilineLiteral rest))
  | c :: rest =>
    if isTextChar c || c = '\n' then prepend (some c) (multilineLiteral rest) else none

/-- A string of any form; the text does not begin with a string in other cases. -/
def quotedString : Reader String := fun cs =>
  let body :=
    match cs with
    | '"' :: '"' :: '"' :: rest => multilineBasic .text (skipFirstBreak rest)
    | '\x27' :: '\x27' :: '\x27' :: rest => multilineLiteral (skipFirstBreak rest)
    | '"' :: rest => basic rest
    | '\x27' :: rest => literal rest
    | _ => none
  body.map fun (s, rest) => (String.ofList s, rest)

/-! ## §5. Digits. -/

/-- The digits of a text in which underscores stand between digits only. -/
def digits? (isDigit : Char → Bool) : List Char → Option (List Char)
  | [] => none
  | [c] => if isDigit c then some [c] else none
  | c :: '_' :: rest => if isDigit c then (digits? isDigit rest).map (c :: ·) else none
  | c :: d :: rest => if isDigit c then (digits? isDigit (d :: rest)).map (c :: ·) else none

/-- The digits of a decimal number without zeros in front. -/
def wholeDigits? (cs : List Char) : Option (List Char) :=
  match digits? Char.isDigit cs with
  | some ('0' :: _ :: _) => none
  | ds => ds

/-! ## §6. Integers. -/

/-- An integer, if it has 64 bits with or without a sign. -/
def integerValue (n : Int) : Value :=
  if Binary64.minInt64 ≤ n && n ≤ 18446744073709551615 then .integer n else .outOfRange

/-- Digits of a base as an integer. -/
def basedInteger (base : Nat) (isDigit : Char → Bool) (cs : List Char) : Option Value :=
  (digits? isDigit cs).map fun ds => integerValue (natOfDigits base 0 ds)

/-- An integer in any spelling. -/
def integer? : List Char → Option Value
  | '0' :: 'x' :: cs => basedInteger 16 isHexDigit cs
  | '0' :: 'o' :: cs => basedInteger 8 (fun c => '0' ≤ c && c ≤ '7') cs
  | '0' :: 'b' :: cs => basedInteger 2 (fun c => c = '0' || c = '1') cs
  | cs =>
    let (negative, cs) := Decimal.takeSign cs
    (wholeDigits? cs).map fun ds =>
      let n : Int := natOfDigits 10 0 ds
      integerValue (if negative then -n else n)

/-! ## §7. Floating point numbers. -/

/-- The power of ten after its letter. -/
def power? (cs : List Char) : Option Int :=
  let (negative, cs) := Decimal.takeSign cs
  (digits? Char.isDigit cs).map fun ds =>
    let n : Int := natOfDigits 10 0 ds
    if negative then -n else n

/-- The text before and after the first character of some kind, if there is one. -/
def cutAt (p : Char → Bool) (cs : List Char) : List Char × Option (List Char) :=
  match cs.dropWhile (!p ·) with
  | [] => (cs, none)
  | _ :: rest => (cs.takeWhile (!p ·), some rest)

/-- A finite number with a fraction or a power of ten. -/
def decimal? (negative : Bool) (cs : List Char) : Option Value := do
  let (mantissa, power) := cutAt (fun c => c = 'e' || c = 'E') cs
  let (whole, fraction) := cutAt (· = '.') mantissa
  guard (power.isSome || fraction.isSome)
  let whole ← wholeDigits? whole
  let fraction ←
    match fraction with
    | some cs => digits? Char.isDigit cs
    | none => some []
  let power ←
    match power with
    | some cs => power? cs
    | none => some 0
  let x := Binary64.ofDecimal negative (natOfDigits 10 0 (whole ++ fraction))
    (power - fraction.length)
  return if x.isFinite then .float x else .outOfRange

/-- A floating point number. -/
def float? (cs : List Char) : Option Value :=
  let (negative, cs) := Decimal.takeSign cs
  match cs with
  | ['i', 'n', 'f'] => some (.float (.infinite negative))
  | ['n', 'a', 'n'] => some (.float .nan)
  | _ => decimal? negative cs

/-! ## §8. Dates and times. -/

/-- The number in two digits, if it is within bounds. -/
def twoDigits (low high : Nat) (a b : Char) : Option Nat :=
  let n := Decimal.natOfDigits 10 0 [a, b]
  if a.isDigit && b.isDigit && low ≤ n && n ≤ high then some n else none

/-- The days of a month. -/
def daysOfMonth (year month : Nat) : Nat :=
  if month = 2 then
    if year % 4 = 0 && (year % 100 ≠ 0 || year % 400 = 0) then 29 else 28
  else if month = 4 || month = 6 || month = 9 || month = 11 then 30
  else 31

/-- A date at the start of a text. -/
def date : Reader (List Char)
  | a :: b :: c :: d :: '-' :: e :: f :: '-' :: g :: h :: rest => do
    let century ← twoDigits 0 99 a b
    let year ← twoDigits 0 99 c d
    let month ← twoDigits 1 12 e f
    let _ ← twoDigits 1 (daysOfMonth (century * 100 + year) month) g h
    return ([a, b, c, d, '-', e, f, '-', g, h], rest)
  | _ => none

/-- The fraction of a second at the start of a text, in at most nine digits. -/
def fraction : Reader (List Char)
  | '.' :: rest =>
    let ds := rest.takeWhile Char.isDigit
    let kept := ((ds.take 9).reverse.dropWhile (· = '0')).reverse
    if ds.isEmpty then none
    else some (if kept.isEmpty then [] else '.' :: kept, rest.drop ds.length)
  | rest => some ([], rest)

/-- The seconds at the start of a text; zero if they are not given. -/
def seconds : Reader (List Char)
  | ':' :: a :: b :: rest => do
    let _ ← twoDigits 0 60 a b
    let (part, rest) ← fraction rest
    return (':' :: a :: b :: part, rest)
  | ':' :: _ => none
  | rest => some ([':', '0', '0'], rest)

/-- A time at the start of a text. -/
def time : Reader (List Char)
  | a :: b :: ':' :: c :: d :: rest => do
    let _ ← twoDigits 0 23 a b
    let _ ← twoDigits 0 59 c d
    let (tail, rest) ← seconds rest
    return ([a, b, ':', c, d] ++ tail, rest)
  | _ => none

/-- The offset that makes up a whole text. -/
def offset? : List Char → Option (List Char)
  | [] => some []
  | ['Z'] | ['z'] => some ['Z']
  | [s, a, b, ':', c, d] => do
    let hours ← twoDigits 0 23 a b
    let minutes ← twoDigits 0 59 c d
    if s = '+' || (s = '-' && hours + minutes = 0) then some ['+', a, b, ':', c, d]
    else if s = '-' then some ['-', a, b, ':', c, d]
    else none
  | _ => none

/-- The form of a date-time that makes up a whole text. -/
def dateTime? (cs : List Char) : Option String :=
  match date cs with
  | none =>
    match time cs with
    | some (text, []) => some (String.ofList text)
    | _ => none
  | some (day, []) => some (String.ofList day)
  | some (day, c :: rest) =>
    if c = 'T' || c = 't' || c = ' ' then do
      let (text, rest) ← time rest
      let shift ← offset? rest
      return String.ofList (day ++ 'T' :: text ++ shift)
    else none

end FeatureStudio.Toml
