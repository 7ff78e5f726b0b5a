/-
  FeatureStudio.Proofs.Text.WordChar: the characters of names.

  Names have ASCII letters, digits and underscores.  Changing the case of letters and leaving out
  underscores keeps to these.

  Main statements:
    * `forall_isWordChar`: what is checked of every ASCII character holds of those of names.
    * `isWordChar_camelCase`: names in camel case have letters, digits and underscores only.
-/
import FeatureStudio.Proofs.Text.Pieces
import FeatureStudio.Text.Name

namespace FeatureStudio.Text

/-- Characters that may stand in a name are ASCII characters. -/
theorem toNat_lt_of_isWordChar {c : Char} (hc : isWordChar c) : c.toNat < 128 := by
  have hword : (c.isUpper || c.isLower || c.isDigit || c == '_') = true := hc
  simp only [Bool.or_eq_true] at hword
  rcases hword with ((hupper | hlower) | hdigit) | hunderscore
  · have hrange : 'A'.val ≤ c.val ∧ c.val ≤ 'Z'.val := of_decide_eq_true hupper
    exact Nat.lt_of_le_of_lt (UInt32.le_iff_toNat_le.mp hrange.2) (by decide)
  · have hle : c.val ≤ 'z'.val := of_decide_eq_true (Bool.and_eq_true _ _ ▸ hlower).2
    exact Nat.lt_of_le_of_lt (UInt32.le_iff_toNat_le.mp hle) (by decide)
  · have hle : c.val ≤ '9'.val := of_decide_eq_true (Bool.and_eq_true _ _ ▸ hdigit).2
    exact Nat.lt_of_le_of_lt (UInt32.le_iff_toNat_le.mp hle) (by decide)
  · rw [beq_iff_eq.mp hunderscore]
    decide

/-- What holds of all characters that may stand in a name can be checked one by one. -/
theorem forall_isWordChar {P : Char → Prop}
    (h : ∀ n < 128, isWordChar (Char.ofNat n) → P (Char.ofNat n)) {c : Char} (hc : isWordChar c) :
    P c := by
  have hself := h c.toNat (toNat_lt_of_isWordChar hc)
  rw [Char.ofNat_toNat] at hself
  exact hself hc

theorem isWordChar_upperChar {c : Char} (hc : isWordChar c) :
    ∀ d ∈ upperChar c, isWordChar d := by
  have hall : (upperChar c).all isWordChar := by
    revert hc
    exact forall_isWordChar (P := fun c => (upperChar c).all isWordChar) (by decide +kernel)
  exact List.all_eq_true.mp hall

theorem isWordChar_lowerChar {c : Char} (hc : isWordChar c) :
    ∀ d ∈ lowerChar c, isWordChar d := by
  have hall : (lowerChar c).all isWordChar := by
    revert hc
    exact forall_isWordChar (P := fun c => (lowerChar c).all isWordChar) (by decide +kernel)
  exact List.all_eq_true.mp hall

/-- A character that may stand in a name may begin one unless it is a digit. -/
theorem startsIdentifier_eq {c : Char} (hc : isWordChar c) :
    startsIdentifier c = !c.isDigit := by
  revert hc
  exact forall_isWordChar (P := fun c => startsIdentifier c = !c.isDigit) (by decide +kernel)

theorem isWordChar_upper {s : String} (h : ∀ c ∈ s.toList, isWordChar c) :
    ∀ c ∈ (upper s).toList, isWordChar c := by
  intro c hc
  rw [upper, String.toList_ofList, List.mem_flatMap] at hc
  obtain ⟨d, hd, hc⟩ := hc
  exact isWordChar_upperChar (h d hd) c hc

theorem isWordChar_lowerFirst {s : String} (h : ∀ c ∈ s.toList, isWordChar c) :
    ∀ c ∈ (lowerFirst s).toList, isWordChar c := by
  intro c hc
  unfold lowerFirst at hc
  cases hs : s.toList with
  | nil => simp [hs] at hc
  | cons d rest =>
      rw [hs] at h
      simp only [hs, String.toList_ofList, List.mem_append] at hc
      rcases hc with hc | hc
      · exact isWordChar_lowerChar (h d List.mem_cons_self) c hc
      · exact h c (List.mem_cons_of_mem _ hc)

theorem isWordChar_capitalizeWord {cs : List Char} (h : ∀ c ∈ cs, isWordChar c) :
    ∀ c ∈ capitalizeWord cs, isWordChar c := by
  cases cs with
  | nil => exact fun c hc => absurd hc List.not_mem_nil
  | cons d rest =>
      intro c hc
      rcases List.mem_append.mp hc with hc | hc
      · exact isWordChar_upperChar (h d List.mem_cons_self) c hc
      · obtain ⟨e, he, hc⟩ := List.mem_flatMap.mp hc
        exact isWordChar_lowerChar (h e (List.mem_cons_of_mem _ he)) c hc

/-- **Names in camel case have letters, digits and underscores only.** -/
theorem isWordChar_camelCase (capital : Bool) {token : String}
    (h : ∀ c ∈ token.toList, isWordChar c) :
    ∀ c ∈ (camelCase capital token).toList, isWordChar c := by
  have hjoined : ∀ c ∈ (String.ofList ((pieces '_' token.toList).flatMap capitalizeWord)).toList,
      isWordChar c := by
    intro c hc
    rw [String.toList_ofList, List.mem_flatMap] at hc
    obtain ⟨p, hp, hc⟩ := hc
    exact isWordChar_capitalizeWord (fun d hd => h d (mem_of_mem_pieces hp hd)) c hc
  cases capital with
  | true => exact hjoined
  | false => exact isWordChar_lowerFirst hjoined

end FeatureStudio.Text
