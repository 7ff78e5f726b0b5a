/-
  FeatureStudio.Proofs.Text.Label: labels of tokens and of the names made from them.

  A token has its words between underscores, a name in camel case marks them by capitals.  Cut
  either way the words are the same up to the case of their letters, and a sentence does not depend
  on that: it has a capital in front and small letters behind it.

  The facts on the case of ASCII letters are the library's, which has them in no part of its own
  that could be imported alone.

  Main statements:
    * `sentence_eq_sentence_of_small`: a sentence does not depend on the case of its words.
    * `cutAtCapitals_flatMap`: capitalized words in a row are cut apart again.
    * `pieces_tokenOf`, `nameWords_camelCase`: the words of a token, and of a name in camel case.
    * `nameLabel_camelCase`: the name has the label of the token.
-/
import Mathlib
import FeatureStudio.Proofs.Text.WordChar

namespace FeatureStudio.Text

/-! ## §1. Words. -/

/-- An ASCII letter, followed by ASCII letters and digits. -/
def IsWord : List Char → Prop
  | [] => False
  | c :: rest => c.isAlpha ∧ ∀ d ∈ rest, d.isAlphanum

/-- The token of words: these in capitals, with underscores between them. -/
def tokenOf (words : List String) : String := "_".intercalate (words.map upper)

/-- The label of words: the first with a capital in front, all else in small letters. -/
def labelOf : List String → String
  | [] => ""
  | w :: ws => " ".intercalate (upperFirst (lower w) :: ws.map lower)

/-- The word in small letters. -/
def small (cs : List Char) : List Char := cs.map Char.toLower

theorem isAlphanum_of_isAlpha {c : Char} (h : c.isAlpha) : c.isAlphanum := by
  unfold Char.isAlphanum
  rw [h, Bool.true_or]

theorem IsWord.isAlphanum {cs : List Char} (h : IsWord cs) : ∀ c ∈ cs, c.isAlphanum := by
  cases cs with
  | nil => cases h
  | cons c rest =>
      obtain ⟨hc, hrest⟩ := h
      intro d hd
      rcases List.mem_cons.mp hd with rfl | hd
      · exact isAlphanum_of_isAlpha hc
      · exact hrest d hd

/-! ## §2. The case of letters. -/

section Case

variable {c : Char} (h : c.isAlphanum)
include h

theorem toNat_lt_of_isAlphanum : c.toNat < 0x80 := by
  refine toNat_lt_of_isWordChar ?_
  unfold isWordChar
  rw [h, Bool.true_or]

theorem upperChar_eq : upperChar c = [c.toUpper] := upper_ascii (toNat_lt_of_isAlphanum h)

theorem lowerChar_eq : lowerChar c = [c.toLower] := lower_ascii (toNat_lt_of_isAlphanum h)

theorem isUppercase_eq : isUppercase c = c.isUpper := if_pos (toNat_lt_of_isAlphanum h)

theorem isAlphabetic_eq : isAlphabetic c = c.isAlpha := if_pos (toNat_lt_of_isAlphanum h)

theorem isAlphanum_toUpper : c.toUpper.isAlphanum := by
  by_cases hletter : c.isAlpha
  · exact isAlphanum_of_isAlpha (by rwa [Char.isAlpha_toUpper_eq_isAlpha])
  · have hlower : ¬ c.isLower := fun hlower => hletter (by
      unfold Char.isAlpha
      rw [hlower, Bool.or_true])
    rwa [Char.toUpper_eq_of_not_isLower hlower]

theorem isAlphanum_toLower : c.toLower.isAlphanum := by
  by_cases hletter : c.isAlpha
  · exact isAlphanum_of_isAlpha (by rwa [Char.isAlpha_toLower_eq_isAlpha])
  · have hupper : ¬ c.isUpper := fun hupper => hletter (by
      unfold Char.isAlpha
      rw [hupper, Bool.true_or])
    rwa [Char.toLower_eq_of_not_isUpper hupper]

theorem isUppercase_toLower : isUppercase c.toLower = false := by
  rw [isUppercase_eq (isAlphanum_toLower h), Char.isUpper_toLower_eq_false]

theorem ne_underscore : c ≠ '_' := by
  rintro rfl
  cases h

theorem ne_capitalSigma : c ≠ 'Σ' := by
  rintro rfl
  cases h

end Case

theorem isAlphabetic_case {c : Char} (h : c.isAlpha) :
    isUppercase c.toUpper ∧ isAlphabetic c.toUpper ∧ isAlphabetic c.toLower := by
  have hc := isAlphanum_of_isAlpha h
  rw [isUppercase_eq (isAlphanum_toUpper hc), isAlphabetic_eq (isAlphanum_toUpper hc),
    isAlphabetic_eq (isAlphanum_toLower hc), Char.isUpper_toUpper_eq_isAlpha,
    Char.isAlpha_toUpper_eq_isAlpha, Char.isAlpha_toLower_eq_isAlpha]
  exact ⟨h, h, h⟩

theorem small_map_toUpper (cs : List Char) : small (cs.map Char.toUpper) = small cs := by
  unfold small
  rw [List.map_map]
  exact List.map_congr_left fun c _ => Char.toLower_toUpper_eq_toLower c

theorem small_small (cs : List Char) : small (small cs) = small cs := by
  unfold small
  rw [List.map_map]
  exact List.map_congr_left fun c _ => Char.toLower_toLower_eq_toLower c

section Cases

variable {cs : List Char} (h : ∀ c ∈ cs, c.isAlphanum)
include h

theorem flatMap_upperChar : cs.flatMap upperChar = cs.map Char.toUpper := by
  induction cs with
  | nil => rfl
  | cons c cs ih =>
      obtain ⟨hc, hcs⟩ := List.forall_mem_cons.mp h
      rw [List.flatMap_cons, upperChar_eq hc, ih hcs]
      rfl

theorem flatMap_lowerChar : cs.flatMap lowerChar = small cs := by
  induction cs with
  | nil => rfl
  | cons c cs ih =>
      obtain ⟨hc, hcs⟩ := List.forall_mem_cons.mp h
      rw [List.flatMap_cons, lowerChar_eq hc, ih hcs]
      rfl

/-- What stands in front of a letter does not matter for its small form. -/
theorem lowerAfter_eq (before : List Char) : lowerAfter before cs = small cs := by
  induction cs generalizing before with
  | nil => rfl
  | cons c cs ih =>
      obtain ⟨hc, hcs⟩ := List.forall_mem_cons.mp h
      rw [lowerAfter, if_neg (ne_capitalSigma hc), lowerChar_eq hc, ih hcs]
      rfl

theorem isAlphanum_small : ∀ c ∈ small cs, c.isAlphanum := by
  intro c hc
  obtain ⟨d, hd, rfl⟩ := List.mem_map.mp hc
  exact isAlphanum_toLower (h d hd)

theorem isAlphanum_map_toUpper : ∀ c ∈ cs.map Char.toUpper, c.isAlphanum := by
  intro c hc
  obtain ⟨d, hd, rfl⟩ := List.mem_map.mp hc
  exact isAlphanum_toUpper (h d hd)

end Cases

/-- A capitalized word has a capital in front and small letters behind it. -/
theorem capitalizeWord_cons {c : Char} {cs : List Char} (h : ∀ d ∈ c :: cs, d.isAlphanum) :
    capitalizeWord (c :: cs) = c.toUpper :: small cs := by
  obtain ⟨hc, hcs⟩ := List.forall_mem_cons.mp h
  rw [capitalizeWord, upperChar_eq hc, flatMap_lowerChar hcs, List.singleton_append]

/-- Capitalizing a word does not depend on the case of its letters. -/
theorem capitalizeWord_small {cs : List Char} (h : ∀ c ∈ cs, c.isAlphanum) :
    capitalizeWord (small cs) = capitalizeWord cs := by
  cases cs with
  | nil => rfl
  | cons c cs =>
      have hsmall : ∀ d ∈ c.toLower :: small cs, d.isAlphanum := isAlphanum_small h
      rw [capitalizeWord_cons h, ← Char.toUpper_toLower_eq_toUpper, ← small_small cs]
      exact capitalizeWord_cons hsmall

theorem small_capitalizeWord {cs : List Char} (h : ∀ c ∈ cs, c.isAlphanum) :
    small (capitalizeWord cs) = small cs := by
  cases cs with
  | nil => rfl
  | cons c cs =>
      rw [capitalizeWord_cons h]
      change c.toUpper.toLower :: small (small cs) = c.toLower :: small cs
      rw [Char.toLower_toUpper_eq_toLower, small_small]

theorem isAlphanum_capitalizeWord {cs : List Char} (h : ∀ c ∈ cs, c.isAlphanum) :
    ∀ c ∈ capitalizeWord cs, c.isAlphanum := by
  cases cs with
  | nil => exact h
  | cons c cs =>
      obtain ⟨hc, hcs⟩ := List.forall_mem_cons.mp h
      rw [capitalizeWord_cons h, List.forall_mem_cons]
      exact ⟨isAlphanum_toUpper hc, isAlphanum_small hcs⟩

/-! ## §3. Sentences. -/

theorem sentence_small {ws : List (List Char)} (h : ∀ w ∈ ws, ∀ c ∈ w, c.isAlphanum) :
    sentence (ws.map small) = sentence ws := by
  cases ws with
  | nil => rfl
  | cons w ws =>
      obtain ⟨hw, hws⟩ := List.forall_mem_cons.mp h
      have hrest : (ws.map small).map (fun v => String.ofList (lowerAfter [] v))
          = ws.map fun v => String.ofList (lowerAfter [] v) := by
        rw [List.map_map]
        refine List.map_congr_left fun v hv => congrArg String.ofList ?_
        rw [lowerAfter_eq (hws v hv)]
        exact (lowerAfter_eq (isAlphanum_small (hws v hv)) []).trans (small_small v)
      rw [List.map_cons, sentence, sentence, capitalizeWord_small hw, hrest]

/-- **A sentence does not depend on the case of its words.** -/
theorem sentence_eq_sentence_of_small {ws vs : List (List Char)}
    (hws : ∀ w ∈ ws, ∀ c ∈ w, c.isAlphanum) (hvs : ∀ v ∈ vs, ∀ c ∈ v, c.isAlphanum)
    (h : ws.map small = vs.map small) : sentence ws = sentence vs := by
  rw [← sentence_small hws, h, sentence_small hvs]

/-- The label of words is the sentence of them. -/
theorem labelOf_eq_sentence {words : List String} (h : ∀ w ∈ words, ∀ c ∈ w.toList, c.isAlphanum) :
    labelOf words = sentence (words.map String.toList) := by
  cases words with
  | nil => rfl
  | cons w ws =>
      have hw := h w List.mem_cons_self
      have hfirst : upperFirst (lower w) = String.ofList (capitalizeWord w.toList) := by
        rw [← capitalizeWord_small hw, lower, lowerAfter_eq hw, upperFirst, String.toList_ofList]
        cases hcs : w.toList with
        | nil => rfl
        | cons c cs =>
            rw [hcs] at hw
            have hcs := (List.forall_mem_cons.mp hw).2
            change String.ofList (upperChar c.toLower ++ small cs)
              = String.ofList (upperChar c.toLower ++ (small cs).flatMap lowerChar)
            rw [flatMap_lowerChar (isAlphanum_small hcs), small_small]
      rw [labelOf, hfirst, List.map_cons, sentence, List.map_map]
      rfl

/-! ## §4. Capitals. -/

/-- A word goes on up to the next capital. -/
theorem cutAtCapitals_append {front : List Char} (h : ∀ c ∈ front, isUppercase c = false)
    (word rest : List Char) :
    cutAtCapitals word (front ++ rest) = cutAtCapitals (word ++ front) rest := by
  induction front generalizing word with
  | nil => rw [List.nil_append, List.append_nil]
  | cons c front ih =>
      obtain ⟨hc, hfront⟩ := List.forall_mem_cons.mp h
      rw [List.cons_append, cutAtCapitals, if_neg (by simp [hc]), ih hfront, List.append_assoc,
        List.singleton_append]

theorem isUppercase_small {cs : List Char} (h : ∀ c ∈ cs, c.isAlphanum) :
    ∀ c ∈ small cs, isUppercase c = false := by
  intro c hc
  obtain ⟨d, hd, rfl⟩ := List.mem_map.mp hc
  exact isUppercase_toLower (h d hd)

/-- **Capitalized words in a row are cut apart again**, behind a word that was begun. -/
theorem cutAtCapitals_flatMap {ws : List (List Char)} (h : ∀ w ∈ ws, IsWord w)
    (word : List Char) :
    cutAtCapitals word (ws.flatMap capitalizeWord) = word :: ws.map capitalizeWord := by
  induction ws generalizing word with
  | nil => rfl
  | cons w ws ih =>
      obtain ⟨hw, hws⟩ := List.forall_mem_cons.mp h
      cases w with
      | nil => cases hw
      | cons c cs =>
          have hcapital := isAlphabetic_case hw.1
          rw [List.flatMap_cons, List.map_cons, capitalizeWord_cons hw.isAlphanum,
            List.cons_append, cutAtCapitals, if_pos hcapital.1, if_pos hcapital.2.1,
            cutAtCapitals_append (isUppercase_small hw.2), List.singleton_append, ih hws]

/-! ## §5. Labels. -/

section Words

variable {words : List String} (hne : words ≠ []) (h : ∀ w ∈ words, IsWord w.toList)
include hne h

/-- The words of a token are cut apart again. -/
theorem pieces_tokenOf :
    pieces '_' (tokenOf words).toList = words.map fun w => w.toList.map Char.toUpper := by
  have hupper : ∀ w ∈ words, (upper w).toList = w.toList.map Char.toUpper := fun w hw => by
    rw [upper, String.toList_ofList, flatMap_upperChar (h w hw).isAlphanum]
  have hfree : ∀ t ∈ words.map upper, '_' ∉ t.toList := by
    intro t ht
    obtain ⟨w, hw, rfl⟩ := List.mem_map.mp ht
    rw [hupper w hw, List.mem_map]
    rintro ⟨c, hc, hunderscore⟩
    exact ne_underscore (isAlphanum_toUpper ((h w hw).isAlphanum c hc)) hunderscore
  rw [tokenOf, pieces_intercalate (by decide) (by simpa using hne) hfree, List.map_map]
  exact List.map_congr_left hupper

/-- The name made from a token has the capitalized words in a row. -/
theorem flatMap_pieces_tokenOf :
    (pieces '_' (tokenOf words).toList).flatMap capitalizeWord
      = (words.map String.toList).flatMap capitalizeWord := by
  rw [pieces_tokenOf hne h, List.flatMap_map, List.flatMap_map]
  refine List.flatMap_congr fun w hw => ?_
  have hw := (h w hw).isAlphanum
  rw [← capitalizeWord_small (isAlphanum_map_toUpper hw), small_map_toUpper,
    capitalizeWord_small hw]

end Words

/-- With or without a capital, the name begins with the first letter of the first word. -/
theorem exists_toList_camelCase {w : String} {c : Char} {cs : List Char} (hw : w.toList = c :: cs)
    {rest : List String} (h : ∀ v ∈ w :: rest, IsWord v.toList) (capital : Bool) :
    ∃ first, (camelCase capital (tokenOf (w :: rest))).toList
        = first :: (small cs ++ (rest.map String.toList).flatMap capitalizeWord) ∧
      isAlphabetic first ∧ first.isAlphanum ∧ first.toLower = c.toLower := by
  have hword : IsWord (c :: cs) := hw ▸ h w List.mem_cons_self
  have hc := hword.isAlphanum c List.mem_cons_self
  obtain ⟨-, hupper, hlower⟩ := isAlphabetic_case hword.1
  have hjoined := flatMap_pieces_tokenOf (List.cons_ne_nil w rest) h
  rw [List.map_cons, List.flatMap_cons, hw, capitalizeWord_cons hword.isAlphanum,
    List.cons_append] at hjoined
  cases capital with
  | true =>
      refine ⟨c.toUpper, ?_, hupper, isAlphanum_toUpper hc, Char.toLower_toUpper_eq_toLower c⟩
      rw [camelCase, if_pos rfl, String.toList_ofList, hjoined]
  | false =>
      refine ⟨c.toLower, ?_, hlower, isAlphanum_toLower hc, Char.toLower_toLower_eq_toLower c⟩
      rw [camelCase, if_neg Bool.false_ne_true, lowerFirst, String.toList_ofList, hjoined]
      dsimp only
      rw [String.toList_ofList, lowerChar_eq (isAlphanum_toUpper hc),
        Char.toLower_toUpper_eq_toLower, List.singleton_append]

theorem nameWords_cons {c : Char} (hc : isAlphabetic c) (cs : List Char) :
    nameWords (c :: cs) = cutAtCapitals [c] cs := by
  unfold nameWords
  rw [List.dropWhile_cons_of_neg (by simp [hc])]

section Words

variable {words : List String} (hne : words ≠ []) (h : ∀ w ∈ words, IsWord w.toList)
include hne h

/-- **The words of a name in camel case** are those of the token, up to the case of letters. -/
theorem nameWords_camelCase (capital : Bool) :
    (∀ w ∈ nameWords (camelCase capital (tokenOf words)).toList, ∀ c ∈ w, c.isAlphanum) ∧
      (nameWords (camelCase capital (tokenOf words)).toList).map small
        = (words.map String.toList).map small := by
  obtain ⟨w, rest, rfl⟩ := List.exists_cons_of_ne_nil hne
  obtain ⟨hword, hrest⟩ := List.forall_mem_cons.mp h
  have hwords : ∀ v ∈ rest.map String.toList, IsWord v := by simpa using hrest
  cases hw : w.toList with
  | nil =>
      rw [hw] at hword
      cases hword
  | cons c cs =>
      rw [hw] at hword
      -- the first word goes up to the first capital, and each of the others begins with one
      obtain ⟨first, hchars, halphabetic, halphanum, hsame⟩ :=
        exists_toList_camelCase hw h capital
      rw [hchars, nameWords_cons halphabetic, cutAtCapitals_append (isUppercase_small hword.2),
        cutAtCapitals_flatMap hwords, List.singleton_append]
      constructor
      · rw [List.forall_mem_cons, List.forall_mem_cons]
        refine ⟨⟨halphanum, isAlphanum_small hword.2⟩, fun v hv => ?_⟩
        obtain ⟨u, hu, rfl⟩ := List.mem_map.mp hv
        exact isAlphanum_capitalizeWord (hwords u hu).isAlphanum
      · have hfirst : first.toLower :: small (small cs) = c.toLower :: small cs := by
          rw [hsame, small_small]
        rw [List.map_cons, List.map_map, List.map_cons, List.map_cons, hw]
        refine congrArg₂ List.cons hfirst (List.map_congr_left fun v hv => ?_)
        exact small_capitalizeWord (hwords v hv).isAlphanum

/-- **A name in camel case has the label of its token**, whether or not it begins with a capital:
the first word with a capital in front, and all else in small letters. -/
theorem nameLabel_camelCase (capital : Bool) :
    nameLabel (camelCase capital (tokenOf words)) = tokenLabel (tokenOf words) ∧
      tokenLabel (tokenOf words) = labelOf words := by
  have halphanum : ∀ w ∈ words, ∀ c ∈ w.toList, c.isAlphanum := fun w hw => (h w hw).isAlphanum
  have hwords : ∀ w ∈ words.map String.toList, ∀ c ∈ w, c.isAlphanum := by simpa using halphanum
  -- no word is empty, so none is left out of the label of the token
  have htoken : tokenLabel (tokenOf words) = sentence (words.map String.toList) := by
    have hpieces : ∀ p ∈ words.map fun w => w.toList.map Char.toUpper, !p.isEmpty := by
      intro p hp
      obtain ⟨w, hw, rfl⟩ := List.mem_map.mp hp
      have hword := h w hw
      cases hcs : w.toList with
      | nil =>
          rw [hcs] at hword
          cases hword
      | cons c cs => rfl
    rw [tokenLabel, pieces_tokenOf hne h, List.filter_eq_self.mpr hpieces]
    refine sentence_eq_sentence_of_small ?_ hwords ?_
    · intro p hp
      obtain ⟨w, hw, rfl⟩ := List.mem_map.mp hp
      exact isAlphanum_map_toUpper (halphanum w hw)
    · rw [List.map_map, List.map_map]
      exact List.map_congr_left fun w _ => small_map_toUpper w.toList
  obtain ⟨hname, hsmall⟩ := nameWords_camelCase hne h capital
  exact ⟨(sentence_eq_sentence_of_small hname hwords hsmall).trans htoken.symm,
    htoken.trans (labelOf_eq_sentence halphanum).symm⟩

end Words

/-- A word of one letter, and one with a digit in it. -/
theorem aBy2xTwo_nameLabel :
    let words := ["a", "By2x", "two"]
    words ≠ [] ∧ (∀ w ∈ words, IsWord w.toList) ∧ tokenOf words = "A_BY2X_TWO" ∧
      camelCase false "A_BY2X_TWO" = "aBy2xTwo" ∧ camelCase true "A_BY2X_TWO" = "ABy2xTwo" ∧
      nameLabel "aBy2xTwo" = "A by2x two" ∧ nameLabel "ABy2xTwo" = "A by2x two" := by
  intro words
  have hne : words ≠ [] := List.cons_ne_nil _ _
  have hwords : ∀ w ∈ words, IsWord w.toList := by simp [words, IsWord]
  have htoken : tokenOf words = "A_BY2X_TWO" := by decide +kernel
  have hsmall : camelCase false "A_BY2X_TWO" = "aBy2xTwo" := by decide +kernel
  have hcapital : camelCase true "A_BY2X_TWO" = "ABy2xTwo" := by decide +kernel
  have hlabel : labelOf words = "A by2x two" := by decide +kernel
  have hnames := fun capital => (nameLabel_camelCase hne hwords capital).1.trans
    ((nameLabel_camelCase hne hwords capital).2.trans hlabel)
  rw [htoken] at hnames
  refine ⟨hne, hwords, htoken, hsmall, hcapital, ?_, ?_⟩
  · rw [← hsmall]
    exact hnames false
  · rw [← hcapital]
    exact hnames true

end FeatureStudio.Text
