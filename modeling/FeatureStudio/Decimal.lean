/-
  FeatureStudio.Decimal: double precision numbers as exact values, and their decimal texts.

  A finite number is `± significand · 2 ^ exponent`.  Reading a decimal rounds to the nearest
  such value, of two equally near ones to the even significand; comparison and rounding to
  integers are exact.

  The digits written for a number are the fewest that read back as the same number, and of those
  the nearest.  The text is positional whatever the size: no exponent, and no fraction for an
  integral value.
-/
import FeatureStudio.Text.Basic

namespace FeatureStudio.Decimal

/-- A double precision number. -/
inductive Binary64 where
  | finite (negative : Bool) (significand : Nat) (exponent : Int)
  | infinite (negative : Bool)
  | nan
  deriving DecidableEq, Repr

/-! ## §1. Rounding a quotient. -/

/-- `num / den` rounded to the nearest integer, a half to the even neighbour. -/
def roundDiv (num den : Nat) : Nat :=
  let q := num / den
  let r := num % den
  if 2 * r < den then q
  else if den < 2 * r then q + 1
  else q + q % 2

/-- A power of two. -/
def twoTo (n : Nat) : Nat := Nat.pow 2 n

/-- A power of ten. -/
def tenTo (n : Nat) : Nat := Nat.pow 10 n

/-- `n · 2 ^ e` as a fraction. -/
def scaled (n : Nat) (e : Int) : Nat × Nat :=
  if 0 ≤ e then (n * twoTo e.toNat, 1) else (n, twoTo (-e).toNat)

namespace Binary64

/-! ## §2. Nearest numbers. -/

/-- The exponent of the smallest numbers. -/
def minExponent : Int := -1074

/-- The exponent of the largest numbers. -/
def maxExponent : Int := 971

/-- Zero with a sign. -/
def zero (negative : Bool) : Binary64 := .finite negative 0 minExponent

/-- The binary logarithm of `num / den`, rounded down. -/
def log2Div (num den : Nat) : Int :=
  let guess : Int := (num.log2 : Int) - den.log2
  let fits := if 0 ≤ guess then den * twoTo guess.toNat ≤ num else den ≤ num * twoTo (-guess).toNat
  if fits then guess else guess - 1

/-- The number nearest to `± num / den`. -/
def nearest (negative : Bool) (num den : Nat) : Binary64 :=
  if num = 0 then zero negative
  else
    let exponent := max (log2Div num den - 52) minExponent
    let rounded :=
      if 0 ≤ exponent then roundDiv num (den * twoTo exponent.toNat)
      else roundDiv (num * twoTo (-exponent).toNat) den
    let (significand, exponent) :=
      if rounded = twoTo 53 then (twoTo 52, exponent + 1) else (rounded, exponent)
    if maxExponent < exponent then .infinite negative else .finite negative significand exponent

/-- The number nearest to `± digits · 10 ^ power`.  Powers far beyond the range are cut short. -/
def ofDecimal (negative : Bool) (digits : Nat) (power : Int) : Binary64 :=
  let size : Int := (Nat.toDigits 10 digits).length + power
  if digits = 0 then zero negative
  else if 400 < size then .infinite negative
  else if size < -400 then zero negative
  else if 0 ≤ power then nearest negative (digits * tenTo power.toNat) 1
  else nearest negative digits (tenTo (-power).toNat)

/-- The number nearest to an integer. -/
def ofInt (n : Int) : Binary64 := ofDecimal (n < 0) n.natAbs 0

/-! ## §3. Order and rounding. -/

/-- Neither infinite nor `nan`. -/
def isFinite : Binary64 → Bool
  | .finite .. => true
  | _ => false

/-- The value of a finite number in units of the smallest one. -/
def units (negative : Bool) (significand : Nat) (exponent : Int) : Int :=
  let n : Int := (significand * twoTo (exponent - minExponent).toNat : Nat)
  if negative then -n else n

/-- The order of the numbers; `nan` is comparable to nothing. -/
def le : Binary64 → Binary64 → Bool
  | .nan, _ | _, .nan => false
  | .infinite true, _ | _, .infinite false => true
  | .infinite false, _ | _, .infinite true => false
  | .finite s m e, .finite s' m' e' => units s m e ≤ units s' m' e'

/-- The least 64-bit integer. -/
def minInt64 : Int := -(twoTo 63 : Int)

/-- The greatest 64-bit integer. -/
def maxInt64 : Int := (twoTo 63 : Int) - 1

/-- The nearest 64-bit integer, a half away from zero.  Numbers out of range give the nearest
bound, and `nan` gives 0. -/
def toInt64 : Binary64 → Int
  | .nan => 0
  | .infinite negative => if negative then minInt64 else maxInt64
  | .finite negative significand exponent =>
    let (num, den) := scaled significand exponent
    let magnitude : Int := ((2 * num + den) / (2 * den) : Nat)
    max minInt64 (min maxInt64 (if negative then -magnitude else magnitude))

end Binary64

/-! ## §4. Decimal texts read as numbers. -/

/-- The number that digits of the given base begin with `acc` and continue with the characters.
Characters are taken as digits up to `f`. -/
def natOfDigits (base : Nat) (acc : Nat) (cs : List Char) : Nat :=
  cs.foldl (fun n c => n * base + digit c) acc
where
  /-- The value of a digit up to `f`. -/
  digit (c : Char) : Nat :=
    if c.isDigit then c.toNat - '0'.toNat else c.toLower.toNat - 'a'.toNat + 10

/-- A sign, if there is one, and the rest; `true` is a minus. -/
def takeSign : List Char → Bool × List Char
  | '-' :: rest => (true, rest)
  | '+' :: rest => (false, rest)
  | cs => (false, cs)

/-- The power of ten after the digits, if the text ends with it. -/
def readPower : List Char → Option Int
  | [] => some 0
  | c :: rest =>
    let (negative, digits) := takeSign rest
    if c.toLower = 'e' && !digits.isEmpty && digits.all Char.isDigit then
      let n : Int := natOfDigits 10 0 digits
      some (if negative then -n else n)
    else none

/-- The number nearest to the decimal that the text states. -/
def Binary64.read? (s : String) : Option Binary64 :=
  let (negative, cs) := takeSign s.toList
  let whole := cs.takeWhile Char.isDigit
  let rest := cs.dropWhile Char.isDigit
  let (fraction, rest) :=
    match rest with
    | '.' :: tail => (tail.takeWhile Char.isDigit, tail.dropWhile Char.isDigit)
    | _ => ([], rest)
  if whole.isEmpty then none
  else
    (readPower rest).map fun power =>
      .ofDecimal negative (natOfDigits 10 0 (whole ++ fraction)) (power - fraction.length)

/-! ## §5. Shortest digits. -/

/-- The decimal logarithm of `num / den`, rounded down; both are positive. -/
def log10Div (num den : Nat) : Int :=
  if den ≤ num then (Nat.toDigits 10 (num / den)).length - 1
  else
    let places := (Nat.toDigits 10 (den / num)).length
    if den ≤ num * tenTo (places - 1) then -((places : Int) - 1) else -(places : Int)

/-- The decimals `d · 10 ^ power` next to `num / den`, below and above, that lie within the
bounds `low / den` and `high / den`; the nearer one, or the upper one if both are as near. -/
def neighbour? (closed : Bool) (low num high den : Nat) (power : Int) : Option Nat :=
  let (up, down) := if 0 ≤ power then (tenTo power.toNat, 1) else (1, tenTo (-power).toNat)
  let unit := den * up
  let below := num * down / unit
  let above := below + 1
  let within (n : Nat) : Bool :=
    if closed then low * down ≤ n * unit && n * unit ≤ high * down
    else low * down < n * unit && n * unit < high * down
  match within below, within above with
  | true, true => if num * down - below * unit < above * unit - num * down then some below else some above
  | true, false => some below
  | false, true => some above
  | false, false => none

/-- A decimal without a zero at its end; the only one that a grid of one digit can give is 10. -/
def carried (digits : Nat) (power : Int) : Nat × Int :=
  if digits = 10 then (1, power + 1) else (digits, power)

/-- The first of `count` decimals, each with one digit more than the one before, that reads back. -/
def firstGrid (closed : Bool) (low num high den : Nat) : (power : Int) → (count : Nat) → Nat × Int
  | power, 0 => (num / den, power)
  | power, count + 1 =>
    match neighbour? closed low num high den power with
    | some digits => carried digits power
    | none => firstGrid closed low num high den (power - 1) count

/-- Digits and power of ten of a positive finite number. -/
def shortestDigits (significand : Nat) (exponent : Int) : Nat × Int :=
  let narrow := significand = twoTo 52 && Binary64.minExponent < exponent
  let lowGap := if narrow then 1 else 2
  let (num, den) := scaled (4 * significand) (exponent - 2)
  let step := (scaled 1 (exponent - 2)).1
  firstGrid (significand % 2 == 0) (num - lowGap * step) num (num + 2 * step) den
    (log10Div num den) 18

/-! ## §6. Written numbers. -/

/-- `digits · 10 ^ power` written out. -/
def positional (digits : Nat) (power : Int) : String :=
  let ds := (Nat.toDigits 10 digits)
  if 0 ≤ power then String.ofList (ds ++ List.replicate power.toNat '0')
  else
    let places := (-power).toNat
    let padded := List.replicate (places + 1 - ds.length) '0' ++ ds
    let whole := padded.length - places
    String.ofList (padded.take whole ++ '.' :: padded.drop whole)

/-- The shortest text that reads back as the number. -/
def Binary64.text : Binary64 → String
  | .nan => "NaN"
  | .infinite negative => if negative then "-inf" else "inf"
  | .finite negative significand exponent =>
    let magnitude :=
      if significand = 0 then "0"
      else
        let (digits, power) := shortestDigits significand exponent
        positional digits power
    if negative then "-" ++ magnitude else magnitude

end FeatureStudio.Decimal
