/-
  FeatureStudio.Proofs.Text.SafeLiteral: literals that are safe wherever they stand.

  A literal is one token: its first quote that no backslash escapes is its last character, and
  reading it gives the text back.  It is safe if it holds no control characters either, so that it
  stays on its line and shows all that is in it.  Three control characters have an escape; the
  others are written as they are.

  Main statements:
    * `escapedBehind_of_flatMap_eq`: every quote inside a literal is escaped.
    * `mem_quote_of_isControl`: which control characters a literal holds.
    * `isSafe_quote_iff`: whose literals are safe.
-/
import FeatureStudio.Proofs.Text.Literal

namespace FeatureStudio.Text

/-! ## §1. Safe literals. -/

/-- Control characters: U+0000 to U+001F and U+007F to U+009F. -/
def isControl (c : Char) : Bool := c.toNat < 0x20 || (0x7F ≤ c.toNat && c.toNat < 0xA0)

/-- The control characters that have an escape. -/
def escapedControls : List Char := ['\n', '\t', '\r']

/-- Whether a backslash escapes what stands behind the characters; `escaped` says whether one
escapes the first of them.  A backslash that is escaped escapes nothing. -/
def escapedBehind (escaped : Bool) : List Char → Bool
  | [] => escaped
  | c :: rest => escapedBehind (!escaped && c == '\\') rest

/-- `literal` is one literal for `text`: it stands for `text`, and no quote ends it but the last. -/
structure IsLiteral (text literal : String) : Prop where
  stands : readLiteral literal.toList = some (text, [])
  quotes : ∃ body, literal.toList = '"' :: (body ++ ['"']) ∧ escapedBehind false body = false ∧
    ∀ front back, body = front ++ '"' :: back → escapedBehind false front = true

/-- A literal without control characters. -/
structure IsSafe (text literal : String) : Prop extends IsLiteral text literal where
  controls : ∀ c ∈ literal.toList, isControl c = false

/-! ## §2. Quotes. -/

/-- A character as it is written leaves nothing escaped behind it. -/
theorem escapedBehind_escapeChar (c : Char) (rest : List Char) :
    escapedBehind false (escapeChar c ++ rest) = escapedBehind false rest := by
  rcases escapeChar_cases c with ⟨d, hpair, -⟩ | ⟨hself, hbackslash, -⟩
  · rw [hpair]
    rfl
  · rw [hself, List.singleton_append, escapedBehind, beq_false_of_ne hbackslash]
    rfl

/-- The quote at the end of a literal ends it. -/
theorem escapedBehind_flatMap (cs : List Char) :
    escapedBehind false (cs.flatMap escapeChar) = false := by
  induction cs with
  | nil => rfl
  | cons c cs ih => rw [List.flatMap_cons, escapedBehind_escapeChar, ih]

/-- **Every quote inside a literal is escaped.** -/
theorem escapedBehind_of_flatMap_eq {cs front back : List Char}
    (h : cs.flatMap escapeChar = front ++ '"' :: back) : escapedBehind false front = true := by
  induction cs generalizing front with
  | nil => simp at h
  | cons c cs ih =>
      rw [List.flatMap_cons] at h
      rcases escapeChar_cases c with ⟨d, hpair, -⟩ | ⟨hself, hbackslash, hquote, -⟩
      · rw [hpair] at h
        match front with
        | [] => simp at h
        | [a] =>
            -- the quote is what the backslash escapes
            obtain rfl : '\\' = a := (List.cons.inj h).1
            rfl
        | a :: b :: front =>
            obtain ⟨rfl, hpair⟩ := List.cons.inj h
            obtain ⟨rfl, hrest⟩ := List.cons.inj hpair
            change escapedBehind false front = true
            exact ih hrest
      · rw [hself] at h
        match front with
        | [] => exact absurd (List.cons.inj h).1 hquote
        | a :: front =>
            obtain ⟨rfl, hrest⟩ := List.cons.inj h
            rw [escapedBehind, beq_false_of_ne hbackslash]
            exact ih hrest

/-- The literal for a text is a literal for it. -/
theorem isLiteral_quote (s : String) : IsLiteral s (quote s) where
  stands := by
    have h := readLiteral_quote s []
    rwa [List.append_nil] at h
  quotes := ⟨s.toList.flatMap escapeChar, toList_quote s, escapedBehind_flatMap s.toList,
    fun _ _ h => escapedBehind_of_flatMap_eq h⟩

/-! ## §3. Control characters. -/

/-- A control character comes from itself only, and from none that has an escape. -/
theorem mem_escapeChar_of_isControl {c d : Char} (h : isControl c) :
    c ∈ escapeChar d ↔ c = d ∧ c ∉ escapedControls := by
  -- the characters that escapes are made of
  have hfree : ['\\', '"', 'n', 't', 'r'].all (fun p => !isControl p) := rfl
  have hne : ∀ p ∈ ['\\', '"', 'n', 't', 'r'], c ≠ p := by
    rintro p hp rfl
    have hcontrol := List.all_eq_true.mp hfree c hp
    rw [h] at hcontrol
    cases hcontrol
  unfold escapeChar escapedControls
  split <;> grind

/-- **The control characters of a literal** are those of its text that have no escape. -/
theorem mem_quote_of_isControl {c : Char} (h : isControl c) (s : String) :
    c ∈ (quote s).toList ↔ c ∈ s.toList ∧ c ∉ escapedControls := by
  have hquote : c ≠ '"' := by
    rintro rfl
    cases h
  have hbody : c ∈ s.toList.flatMap escapeChar ↔ c ∈ s.toList ∧ c ∉ escapedControls := by
    simp only [List.mem_flatMap, mem_escapeChar_of_isControl h]
    exact ⟨fun ⟨_, hd, hcd, hc⟩ => ⟨hcd ▸ hd, hc⟩, fun ⟨hmem, hc⟩ => ⟨c, hmem, rfl, hc⟩⟩
  rw [toList_quote, List.mem_cons, List.mem_append, List.mem_singleton, hbody]
  simp [hquote]

/-- **Which texts have safe literals**: those whose control characters all have an escape.  The
literal of any text is one literal that stands for it. -/
theorem isSafe_quote_iff (s : String) :
    IsLiteral s (quote s) ∧
      (IsSafe s (quote s) ↔ ∀ c ∈ s.toList, isControl c → c ∈ escapedControls) := by
  refine ⟨isLiteral_quote s, fun h c hc hcontrol => ?_, fun h => ⟨isLiteral_quote s, ?_⟩⟩
  · by_contra hescape
    have hfree := h.controls c ((mem_quote_of_isControl hcontrol s).mpr ⟨hc, hescape⟩)
    rw [hcontrol] at hfree
    cases hfree
  · intro c hc
    by_contra hcontrol
    rw [Bool.not_eq_false] at hcontrol
    obtain ⟨hmem, hescape⟩ := (mem_quote_of_isControl hcontrol s).mp hc
    exact hescape (h c hmem hcontrol)

/-- A control character without an escape is written as it is. -/
theorem startOfHeading_not_isSafe :
    ¬ IsSafe "\x01" (quote "\x01") ∧ (quote "\x01").toList = ['"', '\x01', '"'] := by
  have hliteral : (quote "\x01").toList = ['"', '\x01', '"'] := by decide
  refine ⟨fun h => ?_, hliteral⟩
  have hfree := h.controls '\x01' (by rw [hliteral]; simp)
  cases hfree

end FeatureStudio.Text
