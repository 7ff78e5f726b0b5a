/-
  FeatureStudio.Proofs.Text.Literal: double-quoted literals read back.

  A character of a literal stands for itself or for the pair of a backslash and another character.
  Reading goes on to the first quote that is not part of such a pair.

  Main statements:
    * `escapeChar_cases`: how a character is written.
    * `readLiteral_quote`: a literal stands for the text that it was made for.
    * `lineFeed_not_mem_quote`: a literal stays on its line.
    * `length_lt_length_quote`: a literal is longer than the text that it was made for.
-/
import FeatureStudio.Text.Basic
import Mathlib.Data.List.Basic

namespace FeatureStudio.Text

/-- The character that a backslash and the given character stand for. -/
def unescape? : Char → Option Char
  | '\\' => some '\\'
  | '"' => some '"'
  | 'n' => some '\n'
  | 't' => some '\t'
  | 'r' => some '\r'
  | _ => none

/-- Reads up to the quote that ends a literal: the characters it stands for, and what follows. -/
def readEscaped : List Char → Option (List Char × List Char)
  | [] => none
  | '"' :: rest => some ([], rest)
  | '\\' :: c :: rest => do
    let d ← unescape? c
    let (cs, behind) ← readEscaped rest
    return (d :: cs, behind)
  | '\\' :: [] => none
  | c :: rest => do
    let (cs, behind) ← readEscaped rest
    return (c :: cs, behind)

/-- Reads a literal: the text it stands for, and what follows. -/
def readLiteral : List Char → Option (String × List Char)
  | '"' :: rest => (readEscaped rest).map fun p => (String.ofList p.1, p.2)
  | _ => none

/-- **How a character is written in a literal**: behind a backslash, or as it is. -/
theorem escapeChar_cases (c : Char) :
    (∃ d, escapeChar c = ['\\', d] ∧ unescape? d = some c ∧ d ≠ '\n') ∨
      (escapeChar c = [c] ∧ c ≠ '\\' ∧ c ≠ '"' ∧ c ≠ '\n') := by
  by_cases hbackslash : c = '\\'
  · exact .inl ⟨'\\', by subst hbackslash; decide⟩
  by_cases hquote : c = '"'
  · exact .inl ⟨'"', by subst hquote; decide⟩
  by_cases hlineFeed : c = '\n'
  · exact .inl ⟨'n', by subst hlineFeed; decide⟩
  by_cases htab : c = '\t'
  · exact .inl ⟨'t', by subst htab; decide⟩
  by_cases hreturn : c = '\r'
  · exact .inl ⟨'r', by subst hreturn; decide⟩
  refine .inr ⟨?_, hbackslash, hquote, hlineFeed⟩
  unfold escapeChar
  split
  case h_6 => rfl
  all_goals contradiction

theorem readEscaped_pair {c d : Char} (h : unescape? c = some d) (rest : List Char) :
    readEscaped ('\\' :: c :: rest)
      = (readEscaped rest).map fun p => (d :: p.1, p.2) := by
  rw [readEscaped, h]
  cases readEscaped rest <;> rfl

theorem readEscaped_char {c : Char} (hbackslash : c ≠ '\\') (hquote : c ≠ '"') (rest : List Char) :
    readEscaped (c :: rest) = (readEscaped rest).map fun p => (c :: p.1, p.2) := by
  rw [readEscaped]
  · cases readEscaped rest <;> rfl
  all_goals simp_all

/-- The characters of a literal are read back one by one. -/
theorem readEscaped_flatMap (cs rest : List Char) :
    readEscaped (cs.flatMap escapeChar ++ '"' :: rest) = some (cs, rest) := by
  induction cs with
  | nil => rfl
  | cons c cs ih =>
      rw [List.flatMap_cons, List.append_assoc]
      rcases escapeChar_cases c with ⟨d, hpair, hd, -⟩ | ⟨hself, hbackslash, hquote, -⟩
      · rw [hpair, List.cons_append, List.cons_append, List.nil_append, readEscaped_pair hd, ih]
        rfl
      · rw [hself, List.singleton_append, readEscaped_char hbackslash hquote, ih]
        rfl

theorem toList_quote (s : String) :
    (quote s).toList = '"' :: (s.toList.flatMap escapeChar ++ ['"']) := by
  simp [quote, escape]

/-- **A literal stands for the text that it was made for**, whatever follows it. -/
theorem readLiteral_quote (s : String) (rest : List Char) :
    readLiteral ((quote s).toList ++ rest) = some (s, rest) := by
  have hchars : (quote s).toList ++ rest
      = '"' :: (s.toList.flatMap escapeChar ++ '"' :: rest) := by
    rw [toList_quote]
    simp
  rw [hchars, readLiteral, readEscaped_flatMap]
  simp

/-- A literal stays on its line. -/
theorem lineFeed_not_mem_quote (s : String) : '\n' ∉ (quote s).toList := by
  intro h
  rw [toList_quote, List.mem_cons, List.mem_append, List.mem_singleton, List.mem_flatMap] at h
  rcases h with h | ⟨c, -, hc⟩ | h
  · cases h
  · rcases escapeChar_cases c with ⟨d, hpair, -, hd⟩ | ⟨hself, -, -, hne⟩
    · rw [hpair, List.mem_cons, List.mem_singleton] at hc
      exact hc.elim (by decide) fun hc => hd hc.symm
    · rw [hself, List.mem_singleton] at hc
      exact hne hc.symm
  · cases h

/-- A text is shorter than its literal. -/
theorem length_lt_length_quote (s : String) : s.length < (quote s).length := by
  have hchars : ∀ cs : List Char, cs.length ≤ (cs.flatMap escapeChar).length := by
    intro cs
    induction cs with
    | nil => exact Nat.le_refl _
    | cons c cs ih =>
        have hc : 1 ≤ (escapeChar c).length := by
          rcases escapeChar_cases c with ⟨d, hd, -⟩ | ⟨hself, -⟩
          · simp [hd]
          · simp [hself]
        rw [List.flatMap_cons, List.length_append, List.length_cons]
        omega
  have hquote := congrArg List.length (toList_quote s)
  have hs := hchars s.toList
  rw [List.length_cons, List.length_append, List.length_singleton, String.length_toList] at hquote
  rw [String.length_toList] at hs
  omega

end FeatureStudio.Text
