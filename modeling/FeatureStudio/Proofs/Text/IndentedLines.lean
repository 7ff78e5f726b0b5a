/-
  FeatureStudio.Proofs.Text.IndentedLines: what indentation does to the lines of a text.

  A text is cut behind its line feeds, so that every line but the last ends with one.  Indenting the
  text puts the unit in front of each of these lines that is not blank, and leaves them apart as
  they were: as the unit has no line feed, it neither ends a line nor makes one blank.

  Main statements:
    * `flatten_lineList`: no character is lost when a text is cut.
    * `lineList_indentChars`: the lines of an indented text.
    * `indentRow_injective`: an indented line tells what it was.
    * `indentLines_lawful`: what indentation keeps, and how indentations go together.
-/
import FeatureStudio.Proofs.Text.Indentation
import Mathlib.Data.List.Basic

namespace FeatureStudio.Text

/-! ## §1. Lines. -/

/-- Puts characters in front of the first line. -/
def beforeFirst (piece : List Char) : List (List Char) → List (List Char)
  | [] => [piece]
  | l :: ls => (piece ++ l) :: ls

/-- The lines of characters, each with the line feed that ends it. -/
def lineList : List Char → List (List Char)
  | [] => []
  | c :: rest => if c = '\n' then ['\n'] :: lineList rest else beforeFirst [c] (lineList rest)

/-- The lines of a text, each with the line feed that ends it. -/
def linesOf (text : String) : List String := (lineList text.toList).map String.ofList

theorem flatten_beforeFirst (piece : List Char) (ls : List (List Char)) :
    (beforeFirst piece ls).flatten = piece ++ ls.flatten := by
  cases ls with
  | nil => simp [beforeFirst]
  | cons l ls => rw [beforeFirst, List.flatten_cons, List.flatten_cons, List.append_assoc]

/-- **No character is lost** when a text is cut into lines. -/
theorem flatten_lineList (cs : List Char) : (lineList cs).flatten = cs := by
  induction cs with
  | nil => rfl
  | cons c cs ih =>
      rw [lineList]
      split
      · next hc => rw [List.flatten_cons, ih, hc, List.singleton_append]
      · rw [flatten_beforeFirst, ih, List.singleton_append]

theorem beforeFirst_beforeFirst (p q : List Char) (ls : List (List Char)) :
    beforeFirst p (beforeFirst q ls) = beforeFirst (p ++ q) ls := by
  cases ls with
  | nil => rfl
  | cons l ls => exact congrArg (· :: ls) (List.append_assoc p q l).symm

/-- Characters without a line feed belong to the line that they stand in front of. -/
theorem lineList_append {piece : List Char} (h : '\n' ∉ piece) {c : Char} (hc : c ≠ '\n')
    (cs : List Char) :
    lineList (piece ++ c :: cs) = beforeFirst (piece ++ [c]) (lineList cs) := by
  induction piece with
  | nil => rw [List.nil_append, List.nil_append, lineList, if_neg hc]
  | cons d piece ih =>
      rw [List.mem_cons, not_or] at h
      rw [List.cons_append, lineList, if_neg (Ne.symm h.1), ih h.2, beforeFirst_beforeFirst]
      rfl

/-! ## §2. Indented lines. -/

/-- Puts the unit in front of a line that is not blank. -/
def indentRow (unit row : List Char) : List Char := if row = ['\n'] then row else unit ++ row

/-- The lines of an indented text; `start` says whether the first of them begins in it. -/
def indentRows (unit : List Char) (start : Bool) : List (List Char) → List (List Char)
  | [] => []
  | l :: ls => (if start then indentRow unit l else l) :: ls.map (indentRow unit)

theorem indentRows_true (unit : List Char) (ls : List (List Char)) :
    indentRows unit true ls = ls.map (indentRow unit) := by
  cases ls <;> rfl

/-- A line that has begun gets no unit. -/
theorem indentRows_beforeFirst (unit piece : List Char) (ls : List (List Char)) :
    indentRows unit false (beforeFirst piece ls) = beforeFirst piece (indentRows unit false ls) := by
  cases ls <;> rfl

/-- A line that begins with another character than a line feed gets one. -/
theorem indentRows_true_beforeFirst (unit : List Char) {c : Char} (hc : c ≠ '\n')
    (ls : List (List Char)) :
    indentRows unit true (beforeFirst [c] ls)
      = beforeFirst (unit ++ [c]) (indentRows unit false ls) := by
  have hrow : ∀ l : List Char, indentRow unit (c :: l) = unit ++ c :: l := fun l =>
    if_neg fun h => hc (List.cons.inj h).1
  cases ls with
  | nil => exact congrArg (· :: []) (hrow [])
  | cons l ls =>
      refine congrArg (· :: ls.map (indentRow unit)) ?_
      rw [List.append_assoc]
      exact hrow l

/-- **The lines of an indented text** are its lines, each with the unit in front unless it is
blank. -/
theorem lineList_indentChars {unit : List Char} (h : '\n' ∉ unit) (start : Bool) (cs : List Char) :
    lineList (indentChars unit start cs) = indentRows unit start (lineList cs) := by
  induction cs generalizing start with
  | nil => cases start <;> rfl
  | cons c cs ih =>
      by_cases hc : c = '\n'
      · -- behind a line feed a line begins, whether or not one began in front of it
        have hchars : indentChars unit start (c :: cs) = c :: indentChars unit true cs := by
          subst hc
          cases start <;> rfl
        rw [hchars, lineList, lineList, if_pos hc, if_pos hc, ih, indentRows_true]
        cases start <;> rfl
      · have hb : (c == '\n') = false := beq_false_of_ne hc
        cases start with
        | false =>
            rw [indentChars, hb, lineList, lineList, if_neg hc, if_neg hc, ih,
              indentRows_beforeFirst]
        | true =>
            rw [indentChars, if_neg hc, lineList_append h hc, lineList, if_neg hc, ih,
              indentRows_true_beforeFirst unit hc]

/-- Blank lines stay blank, and no other line becomes blank. -/
theorem indentRow_eq_lineFeed_iff {unit : List Char} (h : '\n' ∉ unit) (row : List Char) :
    indentRow unit row = ['\n'] ↔ row = ['\n'] := by
  unfold indentRow
  by_cases hrow : row = ['\n']
  · rw [if_pos hrow]
  · rw [if_neg hrow]
    refine iff_of_false (fun heq => ?_) hrow
    rcases List.append_eq_singleton_iff.mp heq with ⟨-, hrow'⟩ | ⟨hunit, -⟩
    · exact hrow hrow'
    · exact h (hunit ▸ List.mem_singleton_self '\n')

/-- **An indented line tells what it was.** -/
theorem indentRow_injective {unit : List Char} (h : '\n' ∉ unit) :
    Function.Injective (indentRow unit) := by
  intro row row' heq
  by_cases hrow : row = ['\n']
  · have hblank := (indentRow_eq_lineFeed_iff h row).mpr hrow
    rw [heq, indentRow_eq_lineFeed_iff h] at hblank
    rw [hrow, hblank]
  · have hrow' : row' ≠ ['\n'] := fun hblank => by
      have := (indentRow_eq_lineFeed_iff h row').mpr hblank
      rw [← heq, indentRow_eq_lineFeed_iff h] at this
      exact hrow this
    rw [indentRow, indentRow, if_neg hrow, if_neg hrow'] at heq
    exact List.append_cancel_left heq

/-! ## §3. Texts. -/

theorem lineList_indentLines {unit : String} (h : '\n' ∉ unit.toList) (text : String) :
    lineList (indentLines text unit).toList
      = (lineList text.toList).map (indentRow unit.toList) := by
  rw [toList_indentLines, lineList_indentChars h, indentRows_true]

/-- Whether the line is blank can be told from its characters. -/
theorem getElem?_linesOf_eq_lineFeed_iff (text : String) (i : Nat) :
    (linesOf text)[i]? = some "\n" ↔ (lineList text.toList)[i]? = some ['\n'] := by
  rw [linesOf, List.getElem?_map, Option.map_eq_some_iff]
  constructor
  · rintro ⟨row, hrow, htext⟩
    rw [hrow, ← String.toList_ofList (l := row), htext]
    rfl
  · intro h
    exact ⟨_, h, rfl⟩

/-- What indentation with a unit does, whatever the texts. -/
structure IndentsLawfully (unit : String) : Prop where
  nested : ∀ text outer, indentLines (indentLines text unit) outer = indentLines text (outer ++ unit)
  parts : ∀ front back, (front = "" ∨ ∃ text, front = text ++ "\n") →
    indentLines (front ++ back) unit = indentLines front unit ++ indentLines back unit
  count : ∀ text, (linesOf (indentLines text unit)).length = (linesOf text).length
  blank : ∀ (text : String) (i : Nat),
    (linesOf (indentLines text unit))[i]? = some "\n" ↔ (linesOf text)[i]? = some "\n"
  injective : Function.Injective fun text => indentLines text unit

/-- Behind a text that is empty or ends its last line the next text is indented on its own. -/
theorem indentLines_append {front : String} (h : front = "" ∨ ∃ text, front = text ++ "\n")
    (back unit : String) :
    indentLines (front ++ back) unit = indentLines front unit ++ indentLines back unit := by
  have hstart : lineStart true front.toList = true := by
    rcases h with rfl | ⟨text, rfl⟩
    · rfl
    · rw [String.toList_append, lineStart_append]
      rfl
  apply String.toList_inj.mp
  rw [toList_indentLines, String.toList_append, indentChars_append, hstart, String.toList_append,
    toList_indentLines, toList_indentLines]

theorem indentLines_injective {unit : String} (h : '\n' ∉ unit.toList) :
    Function.Injective fun text => indentLines text unit := by
  intro text text' heq
  have hrows : (lineList text.toList).map (indentRow unit.toList)
      = (lineList text'.toList).map (indentRow unit.toList) := by
    rw [← lineList_indentLines h, ← lineList_indentLines h]
    exact congrArg (fun t => lineList t.toList) heq
  have hlines := (indentRow_injective h).list_map hrows
  apply String.toList_inj.mp
  rw [← flatten_lineList text.toList, hlines, flatten_lineList]

/-- **The algebra of indentation**, for units without line feeds: indentations in a row are one
with all the units, texts that end their last line are indented one by one, lines stay apart and
blank lines blank, and an indented text tells what it was.  So levels add up, and none changes
nothing. -/
theorem indentLines_lawful {unit : String} (h : '\n' ∉ unit.toList) :
    IndentsLawfully unit ∧ ∀ (indent : Indent) (text : String),
      (∀ a b, indent.lines (indent.lines text a) b = indent.lines text (a + b)) ∧
        indent.lines text 0 = text := by
  refine ⟨⟨indentLines_indentLines h, fun _ _ hfront => indentLines_append hfront _ _, fun text => ?_,
    fun text i => ?_, indentLines_injective h⟩, fun indent text => ⟨indent.lines_lines text, ?_⟩⟩
  · rw [linesOf, linesOf, List.length_map, List.length_map, lineList_indentLines h,
      List.length_map]
  · rw [getElem?_linesOf_eq_lineFeed_iff, getElem?_linesOf_eq_lineFeed_iff,
      lineList_indentLines h, List.getElem?_map, Option.map_eq_some_iff]
    simp only [indentRow_eq_lineFeed_iff h]
    simp
  · apply String.toList_inj.mp
    exact (toList_indentLines text _).trans (indentChars_empty true text.toList)

/-- A text with a blank line, one of spaces only and a last one that has not ended. -/
theorem spaces_lawful :
    '\n' ∉ "  ".toList ∧ IndentsLawfully "  " ∧
      indentLines "a\n\n \nb" "  " = "  a\n\n   \n  b" ∧
      linesOf "a\n\n \nb" = ["a\n", "\n", " \n", "b"] :=
  ⟨by decide, (indentLines_lawful (by decide)).1, by decide, by decide⟩

end FeatureStudio.Text
