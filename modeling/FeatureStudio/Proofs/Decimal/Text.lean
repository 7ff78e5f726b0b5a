/-
  FeatureStudio.Proofs.Decimal.Text: the characters that numbers are written with.

  Whatever its size, a number is written with letters, digits, a sign and a point: no bracket, no
  quote and no blank.

  Main statements:
    * `numeral_text`: the characters of a double precision number.
    * `numeral_toString`: the characters of an integer.
-/
import FeatureStudio.Decimal

namespace FeatureStudio.Decimal

/-- A character of a number: a letter, a digit, the sign or the point. -/
def IsNumeral (c : Char) : Prop := c.isAlphanum ∨ c = '-' ∨ c = '.'

instance (c : Char) : Decidable (IsNumeral c) := inferInstanceAs (Decidable (_ ∨ _ ∨ _))

/-- All characters of the text are those of numbers. -/
def Numeral (s : String) : Prop := ∀ c ∈ s.toList, IsNumeral c

instance (s : String) : Decidable (Numeral s) := List.decidableBAll IsNumeral s.toList

theorem Numeral.not_mem {s : String} (h : Numeral s) {c : Char} (hc : ¬ IsNumeral c) :
    c ∉ s.toList := fun hm => hc (h c hm)

/-! ## §1. Digits. -/

theorem isNumeral_of_mem_toDigits {n : Nat} {c : Char} (h : c ∈ Nat.toDigits 10 n) :
    IsNumeral c := by
  have hdigit : c.isDigit := Nat.isDigit_of_mem_toDigits (by decide) (by decide) h
  exact .inl (by simp [Char.isAlphanum, hdigit])

theorem isNumeral_of_mem_zeros {n : Nat} {c : Char} (h : c ∈ List.replicate n '0') :
    IsNumeral c := by
  rw [List.eq_of_mem_replicate h]
  decide

theorem numeral_neg {s : String} (h : Numeral s) : Numeral ("-" ++ s) := by
  intro c hc
  rw [String.toList_append, List.mem_append] at hc
  rcases hc with hc | hc
  · rw [List.mem_singleton.mp hc]
    decide
  · exact h c hc

/-- Digits with a point among them, and zeros before and behind. -/
theorem numeral_positional (digits : Nat) (power : Int) : Numeral (positional digits power) := by
  intro c hc
  unfold positional at hc
  split at hc
  · rw [String.toList_ofList, List.mem_append] at hc
    exact hc.elim isNumeral_of_mem_toDigits isNumeral_of_mem_zeros
  · have hpadded : ∀ d ∈ List.replicate ((-power).toNat + 1 - (Nat.toDigits 10 digits).length) '0'
        ++ Nat.toDigits 10 digits, IsNumeral d := fun d hd =>
      (List.mem_append.mp hd).elim isNumeral_of_mem_zeros isNumeral_of_mem_toDigits
    rw [String.toList_ofList, List.mem_append, List.mem_cons] at hc
    rcases hc with hc | rfl | hc
    · exact hpadded c (List.mem_of_mem_take hc)
    · decide
    · exact hpadded c (List.mem_of_mem_drop hc)

/-! ## §2. Numbers. -/

/-- **A double precision number is written with letters, digits, a sign and a point.** -/
theorem numeral_text (x : Binary64) : Numeral x.text := by
  have hmagnitude : ∀ (significand : Nat) (exponent : Int),
      Numeral (if significand = 0 then "0"
        else positional (shortestDigits significand exponent).1
          (shortestDigits significand exponent).2) := by
    intro significand exponent
    split
    · decide
    · exact numeral_positional _ _
  cases x with
  | nan => decide
  | infinite negative => cases negative <;> decide
  | finite negative significand exponent =>
      cases negative with
      | false => exact hmagnitude significand exponent
      | true => exact numeral_neg (hmagnitude significand exponent)

theorem numeral_toString_nat (n : Nat) : Numeral (toString n) := by
  intro c hc
  rw [Nat.toString_eq_repr, Nat.toList_repr] at hc
  exact isNumeral_of_mem_toDigits hc

/-- **An integer is written with digits and a sign.** -/
theorem numeral_toString (n : Int) : Numeral (toString n) := by
  cases n with
  | ofNat n => exact numeral_toString_nat n
  | negSucc n => exact numeral_neg (numeral_toString_nat (n + 1))

end FeatureStudio.Decimal
