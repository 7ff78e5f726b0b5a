/-
  FeatureStudio.Text.Name: identifiers, and names in camel case, in token case and as labels.

  Tokens such as `ONE_BY_TWO` are words joined by underscores; parameter names such as
  `oneByTwo` mark words by capitals.  Both have a label in sentence case, `One by two`.

  Main statements:
    * `isWordChar_of_isIdentifier`: an identifier has letters, digits and underscores only.
-/
import FeatureStudio.Text.Basic
import FeatureStudio.Text.CaseMapping
import FeatureStudio.Text.CharClass

namespace FeatureStudio.Text

/-! ## §1. Names that FeatureScript accepts. -/

/-- Whether a character may begin an identifier. -/
def startsIdentifier (c : Char) : Bool := c.isAlpha || c == '_'

/-- An ASCII letter or underscore, followed by ASCII letters, digits and underscores. -/
def isIdentifier (s : String) : Bool :=
  match s.toList with
  | [] => false
  | c :: rest => startsIdentifier c && rest.all isWordChar

theorem isWordChar_of_isIdentifier {s : String} (h : isIdentifier s) :
    ∀ c ∈ s.toList, isWordChar c := by
  intro c hc
  unfold isIdentifier at h
  cases hs : s.toList with
  | nil => rw [hs] at hc; cases hc
  | cons first rest =>
      rw [hs] at h hc
      simp only [Bool.and_eq_true, List.all_eq_true] at h
      obtain ⟨hfirst, hrest⟩ := h
      rcases List.mem_cons.mp hc with rfl | hc
      · simp only [startsIdentifier, Bool.or_eq_true] at hfirst
        unfold isWordChar Char.isAlphanum
        rcases hfirst with halpha | hunderscore
        · simp [halpha]
        · simp [hunderscore]
      · exact hrest c hc

/-! ## §2. Words. -/

/-- Lowers the first character and keeps the rest. -/
def lowerFirst (s : String) : String :=
  match s.toList with
  | [] => ""
  | c :: rest => String.ofList (lowerChar c ++ rest)

/-- Capitalizes the first character and keeps the rest. -/
def upperFirst (s : String) : String :=
  match s.toList with
  | [] => ""
  | c :: rest => String.ofList (upperChar c ++ rest)

/-- Capitalizes the first character and lowers every other one on its own. -/
def capitalizeWord : List Char → List Char
  | [] => []
  | c :: rest => upperChar c ++ rest.flatMap lowerChar

/-- Words as a sentence: the first capitalized, the others in small letters. -/
def sentence : List (List Char) → String
  | [] => ""
  | w :: ws =>
    " ".intercalate
      (String.ofList (capitalizeWord w) :: ws.map fun v => String.ofList (lowerAfter [] v))

/-! ## §3. Tokens. -/

/-- A token in camel case, the first letter a capital if `capital` says so. -/
def camelCase (capital : Bool) (token : String) : String :=
  let joined := String.ofList ((pieces '_' token.toList).flatMap capitalizeWord)
  if capital then joined else lowerFirst joined

/-- The label of a token: `ONE_BY_TWO` reads `One by two`. -/
def tokenLabel (token : String) : String :=
  sentence ((pieces '_' token.toList).filter fun w => !w.isEmpty)

/-! ## §4. Parameter names. -/

/-- Cuts the rest of a name at capitals, `word` being the word begun so far.  A capital that is
no letter is dropped. -/
def cutAtCapitals (word : List Char) : List Char → List (List Char)
  | [] => [word]
  | c :: rest =>
    if isUppercase c then
      if isAlphabetic c then word :: cutAtCapitals [c] rest else cutAtCapitals word rest
    else cutAtCapitals (word ++ [c]) rest

/-- The words of a name, from its first letter on. -/
def nameWords (cs : List Char) : List (List Char) :=
  match cs.dropWhile fun c => !isAlphabetic c with
  | [] => []
  | c :: rest => cutAtCapitals [c] rest

/-- The label of a parameter name: `oneByTwo` reads `One by two`. -/
def nameLabel (name : String) : String := sentence (nameWords name.toList)

end FeatureStudio.Text
