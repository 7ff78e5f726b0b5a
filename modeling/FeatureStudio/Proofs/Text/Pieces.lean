/-
  FeatureStudio.Proofs.Text.Pieces: texts cut at a separator.

  Cutting a text at a separator and putting texts together with separators between them undo each
  other, as no piece has the separator in it.

  Main statements:
    * `pieces_append_sep`: the pieces in front of a separator, and those behind it.
    * `pieces_intercalate`: texts with separators between them are cut into these texts.
    * `notMem_of_mem_pieces`, `mem_of_mem_pieces`: the characters of pieces.
-/
import FeatureStudio.Text.Basic
import Mathlib.Data.List.Basic

namespace FeatureStudio.Text

variable {sep : Char}

theorem pieces_of_not_mem {cs : List Char} (h : sep ∉ cs) : pieces sep cs = [cs] := by
  induction cs with
  | nil => rfl
  | cons c cs ih =>
      rw [List.mem_cons, not_or] at h
      simp [pieces, ih h.2, Ne.symm h.1]

/-- **A separator divides the pieces** into those in front of it and those behind it. -/
theorem pieces_append_sep (sep : Char) (cs rest : List Char) :
    pieces sep (cs ++ sep :: rest) = pieces sep cs ++ pieces sep rest := by
  induction cs with
  | nil =>
      obtain ⟨p, ps, hpieces⟩ := List.exists_cons_of_ne_nil (pieces_ne_nil sep rest)
      simp [pieces, hpieces]
  | cons c cs ih =>
      obtain ⟨p, ps, hpieces⟩ := List.exists_cons_of_ne_nil (pieces_ne_nil sep cs)
      rw [List.cons_append, pieces, pieces, ih, hpieces]
      by_cases hc : c = sep <;> simp [hc]

theorem pieces_append_cons {cs : List Char} (h : sep ∉ cs) (rest : List Char) :
    pieces sep (cs ++ sep :: rest) = cs :: pieces sep rest := by
  rw [pieces_append_sep, pieces_of_not_mem h, List.singleton_append]

/-- **Texts with separators between them** are cut into these texts. -/
theorem pieces_intercalate {joiner : String} (hjoiner : joiner.toList = [sep]) :
    ∀ {names : List String}, names ≠ [] → (∀ name ∈ names, sep ∉ name.toList) →
      pieces sep (joiner.intercalate names).toList = names.map String.toList
  | [], hne, _ => absurd rfl hne
  | [name], _, h => by
      rw [String.intercalate_singleton, pieces_of_not_mem (h name List.mem_cons_self)]
      rfl
  | name :: next :: rest, _, h => by
      have ih := pieces_intercalate hjoiner (List.cons_ne_nil next rest)
        fun n hn => h n (List.mem_cons_of_mem _ hn)
      rw [String.intercalate_cons_cons, String.toList_append, String.toList_append, hjoiner,
        List.append_assoc, List.singleton_append, pieces_append_cons (h name List.mem_cons_self),
        ih]
      rfl

theorem notMem_of_mem_pieces : ∀ {cs p : List Char}, p ∈ pieces sep cs → sep ∉ p
  | [], p, hp => by
      rw [List.mem_singleton.mp hp]
      exact List.not_mem_nil
  | c :: cs, p, hp => by
      obtain ⟨q, qs, hpieces⟩ := List.exists_cons_of_ne_nil (pieces_ne_nil sep cs)
      have ih : ∀ r ∈ q :: qs, sep ∉ r := fun r hr => notMem_of_mem_pieces (hpieces ▸ hr)
      rw [pieces, hpieces] at hp
      dsimp only at hp
      by_cases hc : c = sep
      · rw [if_pos hc] at hp
        obtain rfl | hp := List.mem_cons.mp hp
        · exact List.not_mem_nil
        · exact ih p hp
      · rw [if_neg hc] at hp
        obtain rfl | hp := List.mem_cons.mp hp
        · have hq : sep ∉ q := ih q List.mem_cons_self
          rw [List.mem_cons, not_or]
          exact ⟨Ne.symm hc, hq⟩
        · exact ih p (List.mem_cons_of_mem _ hp)

/-- Pieces have no other characters than the text. -/
theorem mem_of_mem_pieces : ∀ {cs p : List Char} {c : Char}, p ∈ pieces sep cs → c ∈ p → c ∈ cs
  | [], p, c, hp, hc => by
      rw [List.mem_singleton.mp hp] at hc
      exact absurd hc List.not_mem_nil
  | d :: rest, p, c, hp, hc => by
      have ih := fun {p : List Char} (hp : p ∈ pieces sep rest) (hc : c ∈ p) =>
        mem_of_mem_pieces hp hc
      unfold pieces at hp
      cases hrest : pieces sep rest with
      | nil => exact absurd hrest (pieces_ne_nil sep rest)
      | cons q qs =>
          simp only [hrest] at hp ih
          split at hp
          · rcases List.mem_cons.mp hp with rfl | hp
            · exact absurd hc List.not_mem_nil
            · exact List.mem_cons_of_mem _ (ih hp hc)
          · rcases List.mem_cons.mp hp with rfl | hp
            · rcases List.mem_cons.mp hc with rfl | hc
              · exact List.mem_cons_self
              · exact List.mem_cons_of_mem _ (ih List.mem_cons_self hc)
            · exact List.mem_cons_of_mem _ (ih (List.mem_cons_of_mem _ hp) hc)

end FeatureStudio.Text
