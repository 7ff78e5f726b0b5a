/-
  FeatureStudio.Proofs.Text.Indentation: indented texts, put together and indented again.

  Whether a unit is put in front of a character depends on what stands before it, and only on
  whether a line begins there.  So texts can be indented piece by piece, and indenting a text
  twice puts two units where one would stand.

  Main statements:
    * `indentChars_append`: characters in a row are indented piece by piece.
    * `indentChars_indentChars`: units add up.
    * `Indent.lines_append`, `Indent.lines_lineFeed`, `Indent.lines_lines`: the same for texts.
    * `Indent.lines_intercalate`: lines with a separator between them.
-/
import FeatureStudio.Render.Context
import Mathlib.Data.List.Basic

namespace FeatureStudio

namespace Text

/-! ## §1. Characters. -/

/-- Whether a line begins behind the characters; `start` says whether one begins in front. -/
def lineStart (start : Bool) : List Char → Bool
  | [] => start
  | c :: rest => lineStart (c == '\n') rest

theorem lineStart_append (start : Bool) (cs ds : List Char) :
    lineStart start (cs ++ ds) = lineStart (lineStart start cs) ds := by
  induction cs generalizing start with
  | nil => rfl
  | cons c cs ih => exact ih _

/-- Characters in a row are indented piece by piece. -/
theorem indentChars_append (unit : List Char) (start : Bool) (cs ds : List Char) :
    indentChars unit start (cs ++ ds)
      = indentChars unit start cs ++ indentChars unit (lineStart start cs) ds := by
  induction cs generalizing start with
  | nil => cases start <;> rfl
  | cons c cs ih =>
      cases start with
      | false => exact congrArg (c :: ·) (ih (c == '\n'))
      | true =>
          by_cases hc : c = '\n'
          · subst hc
            exact congrArg ('\n' :: ·) (ih true)
          · have hb : (c == '\n') = false := beq_false_of_ne hc
            simp only [List.cons_append, indentChars, if_neg hc, lineStart, hb, List.append_assoc,
              ih]

/-- Within a line nothing is put in. -/
theorem indentChars_line {unit cs : List Char} (h : '\n' ∉ cs) :
    indentChars unit false cs = cs := by
  induction cs with
  | nil => rfl
  | cons c cs ih =>
      rw [List.mem_cons, not_or] at h
      have hb : (c == '\n') = false := beq_false_of_ne fun hc => h.1 hc.symm
      rw [indentChars, hb, ih h.2]

theorem lineStart_line {cs : List Char} (h : '\n' ∉ cs) : lineStart false cs = false := by
  induction cs with
  | nil => rfl
  | cons c cs ih =>
      rw [List.mem_cons, not_or] at h
      have hb : (c == '\n') = false := beq_false_of_ne fun hc => h.1 hc.symm
      rw [lineStart, hb, ih h.2]

/-- The empty unit changes nothing. -/
theorem indentChars_empty (start : Bool) (cs : List Char) : indentChars [] start cs = cs := by
  induction cs generalizing start with
  | nil => cases start <;> rfl
  | cons c cs ih => cases start <;> simp [indentChars, ih]

/-- A line that is not blank gets one unit. -/
theorem indentChars_start {unit cs : List Char} (h : '\n' ∉ cs) (hne : cs ≠ []) :
    indentChars unit true cs = unit ++ cs := by
  cases cs with
  | nil => exact absurd rfl hne
  | cons c cs =>
      rw [List.mem_cons, not_or] at h
      rw [indentChars, if_neg fun hc => h.1 hc.symm, indentChars_line h.2]

/-- Nothing is put in but the unit. -/
theorem mem_indentChars {unit : List Char} {start : Bool} {cs : List Char} {c : Char}
    (h : c ∈ indentChars unit start cs) : c ∈ unit ∨ c ∈ cs := by
  induction cs generalizing start with
  | nil => cases start <;> cases h
  | cons d cs ih =>
      cases start with
      | false =>
          rcases List.mem_cons.mp h with rfl | h
          · exact .inr List.mem_cons_self
          · exact (ih h).imp id (List.mem_cons_of_mem d)
      | true =>
          unfold indentChars at h
          split at h
          · rcases List.mem_cons.mp h with rfl | h
            · exact .inr List.mem_cons_self
            · exact (ih h).imp id (List.mem_cons_of_mem d)
          · rcases List.mem_append.mp h with h | h
            · exact .inl h
            · rcases List.mem_cons.mp h with rfl | h
              · exact .inr List.mem_cons_self
              · exact (ih h).imp id (List.mem_cons_of_mem d)

/-- Indentation does not change where lines begin. -/
theorem lineStart_indentChars (unit : List Char) (start : Bool) (cs : List Char) :
    lineStart start (indentChars unit start cs) = lineStart start cs := by
  induction cs generalizing start with
  | nil => cases start <;> rfl
  | cons c cs ih =>
      cases start with
      | false => exact ih _
      | true =>
          by_cases hc : c = '\n'
          · subst hc
            exact ih true
          · have hb : (c == '\n') = false := beq_false_of_ne hc
            rw [indentChars, if_neg hc, lineStart_append, lineStart, lineStart, hb, ih]

/-- **Units add up**: indenting what is indented puts one unit in front of the other. -/
theorem indentChars_indentChars {unit : List Char} (hunit : '\n' ∉ unit) (outer : List Char)
    (start : Bool) (cs : List Char) :
    indentChars outer start (indentChars unit start cs) = indentChars (outer ++ unit) start cs := by
  induction cs generalizing start with
  | nil => cases start <;> rfl
  | cons c cs ih =>
      cases start with
      | false => exact congrArg (c :: ·) (ih _)
      | true =>
          by_cases hc : c = '\n'
          · simp only [indentChars, if_pos hc, ih]
          · -- the unit that is there already is a piece of the line that gets another one
            have hpiece : '\n' ∉ unit ++ [c] := by
              rw [List.mem_append, List.mem_singleton, not_or]
              exact ⟨hunit, fun h => hc h.symm⟩
            have hend : lineStart true (unit ++ [c]) = false := by
              rw [lineStart_append, lineStart, lineStart]
              exact beq_false_of_ne hc
            have hsplit : unit ++ c :: indentChars unit false cs
                = (unit ++ [c]) ++ indentChars unit false cs := by simp
            simp only [indentChars, if_neg hc]
            rw [hsplit, indentChars_append, indentChars_start hpiece (by simp), hend, ih]
            simp

end Text

/-! ## §2. Texts. -/

theorem Text.toList_indentLines (text unit : String) :
    (indentLines text unit).toList = indentChars unit.toList true text.toList :=
  String.toList_ofList

theorem Text.indentLines_indentLines {unit : String} (h : '\n' ∉ unit.toList)
    (text outer : String) :
    indentLines (indentLines text unit) outer = indentLines text (outer ++ unit) := by
  apply String.toList_inj.mp
  rw [toList_indentLines, toList_indentLines, toList_indentLines, String.toList_append,
    indentChars_indentChars h]

theorem Text.replicate_add (a b : Nat) (s : String) :
    Text.replicate (a + b) s = Text.replicate a s ++ Text.replicate b s := by
  unfold Text.replicate
  rw [List.replicate_add, String.join_append]

theorem Text.mem_of_mem_replicate {c : Char} {n : Nat} {s : String}
    (h : c ∈ (Text.replicate n s).toList) : c ∈ s.toList := by
  unfold Text.replicate at h
  rw [String.toList_join, List.mem_flatMap] at h
  obtain ⟨copy, hcopy, hc⟩ := h
  rwa [List.eq_of_mem_replicate hcopy] at hc

/-- In texts in a row is nothing but what is in one of them or between them. -/
theorem Text.not_mem_intercalate {c : Char} {sep : String} (hsep : c ∉ sep.toList) :
    ∀ {ls : List String}, (∀ l ∈ ls, c ∉ l.toList) → c ∉ (sep.intercalate ls).toList
  | [], _ => List.not_mem_nil
  | [l], h => by
      rw [String.intercalate_singleton]
      exact h l List.mem_cons_self
  | l :: next :: rest, h => by
      rw [String.intercalate_cons_cons, String.toList_append, String.toList_append,
        List.mem_append, List.mem_append, not_or, not_or]
      exact ⟨⟨h l List.mem_cons_self, hsep⟩,
        not_mem_intercalate hsep fun l hl => h l (List.mem_cons_of_mem _ hl)⟩

theorem Text.mem_intercalate_head {c : Char} {l : String} (h : c ∈ l.toList) (sep : String)
    (rest : List String) : c ∈ (sep.intercalate (l :: rest)).toList := by
  cases rest with
  | nil => rwa [String.intercalate_singleton]
  | cons next rest =>
      rw [String.intercalate_cons_cons, String.toList_append, String.toList_append,
        List.mem_append, List.mem_append]
      exact .inl (.inl h)

namespace Indent

/-- The characters of a unit: spaces or tabs. -/
theorem mem_unit {indent : Indent} {c : Char} (h : c ∈ indent.unit.toList) :
    c = ' ' ∨ c = '\t' := by
  cases indent with
  | tab => exact .inr (List.mem_singleton.mp h)
  | spaces width => exact .inl (List.mem_singleton.mp (Text.mem_of_mem_replicate h))

theorem lineFeed_not_mem_unit (indent : Indent) : '\n' ∉ indent.unit.toList := by
  intro h
  rcases mem_unit h with h | h
  · cases h
  · cases h

/-- One level of indentation, as characters. -/
theorem toList_lines_one (indent : Indent) (text : String) :
    (indent.lines text 1).toList = Text.indentChars indent.unit.toList true text.toList := by
  simp [lines, Text.indentLines, Text.replicate]

/-- Levels add up. -/
theorem lines_lines (indent : Indent) (text : String) (a b : Nat) :
    indent.lines (indent.lines text a) b = indent.lines text (a + b) := by
  have hunit : '\n' ∉ (Text.replicate a indent.unit).toList := fun h =>
    indent.lineFeed_not_mem_unit (Text.mem_of_mem_replicate h)
  unfold lines
  rw [Text.indentLines_indentLines hunit, Nat.add_comm, Text.replicate_add]

/-- Behind a line that has ended the next text is indented on its own. -/
theorem lines_append {indent : Indent} {a : String} (h : Text.lineStart true a.toList = true)
    (b : String) : indent.lines (a ++ b) 1 = indent.lines a 1 ++ indent.lines b 1 := by
  apply String.toList_inj.mp
  rw [String.toList_append, toList_lines_one, toList_lines_one, toList_lines_one,
    String.toList_append, Text.indentChars_append, h]

/-- A line feed behind a text may be put behind the indented text. -/
theorem lines_lineFeed (indent : Indent) (a : String) :
    indent.lines (a ++ "\n") 1 = indent.lines a 1 ++ "\n" := by
  have hend : Text.indentChars indent.unit.toList (Text.lineStart true a.toList) ['\n']
      = ['\n'] := by
    cases Text.lineStart true a.toList <;> rfl
  apply String.toList_inj.mp
  rw [toList_lines_one, String.toList_append, Text.indentChars_append, String.toList_append,
    toList_lines_one]
  exact congrArg (Text.indentChars indent.unit.toList true a.toList ++ ·) hend

/-- A line that is not blank gets one unit. -/
theorem lines_line (indent : Indent) {line : String} (h : '\n' ∉ line.toList) (hne : line ≠ "") :
    indent.lines (line ++ "\n") 1 = indent.unit ++ line ++ "\n" := by
  have hchars : line.toList ≠ [] := fun hnil => hne (String.toList_eq_nil_iff.mp hnil)
  have hline : indent.lines line 1 = indent.unit ++ line := by
    apply String.toList_inj.mp
    rw [toList_lines_one, Text.indentChars_start h hchars, String.toList_append]
  rw [lines_lineFeed, hline]

/-- A line that is not blank, in front of others. -/
theorem lines_line_append (indent : Indent) {line : String} (h : '\n' ∉ line.toList)
    (hne : line ≠ "") (rest : String) :
    indent.lines (line ++ "\n" ++ rest) 1
      = indent.unit ++ line ++ "\n" ++ indent.lines rest 1 := by
  have hends : Text.lineStart true (line ++ "\n").toList = true := by
    rw [String.toList_append, Text.lineStart_append]
    rfl
  rw [lines_append hends, indent.lines_line h hne]

/-- Lines with a separator between them, one unit in front of each. -/
theorem lines_intercalate (indent : Indent) {sep : String} (hsep : '\n' ∉ sep.toList) :
    ∀ {ls : List String}, ls ≠ [] → (∀ l ∈ ls, '\n' ∉ l.toList ∧ l ≠ "") →
      indent.lines ((sep ++ "\n").intercalate ls ++ "\n") 1
        = (sep ++ "\n").intercalate (ls.map (indent.unit ++ ·)) ++ "\n"
  | [], hls, _ => absurd rfl hls
  | [line], _, h => by
      obtain ⟨hline, hne⟩ := h line List.mem_cons_self
      rw [List.map_singleton, String.intercalate_singleton, String.intercalate_singleton]
      exact indent.lines_line hline hne
  | line :: next :: rest, _, h => by
      obtain ⟨hline, hne⟩ := h line List.mem_cons_self
      -- what separates two lines stands at the end of the first
      have hhead : '\n' ∉ (line ++ sep).toList := by
        rw [String.toList_append, List.mem_append, not_or]
        exact ⟨hline, hsep⟩
      have hfull : line ++ sep ≠ "" := fun hnil => hne (String.append_eq_empty_iff.mp hnil).1
      have hrest := lines_intercalate indent hsep (List.cons_ne_nil next rest)
        fun l hl => h l (List.mem_cons_of_mem _ hl)
      rw [List.map_cons, List.map_cons, String.intercalate_cons_cons,
        String.intercalate_cons_cons, ← List.map_cons]
      calc indent.lines (line ++ (sep ++ "\n") ++ (sep ++ "\n").intercalate (next :: rest)
              ++ "\n") 1
          = indent.lines (((line ++ sep) ++ "\n")
              ++ ((sep ++ "\n").intercalate (next :: rest) ++ "\n")) 1 := by
            simp only [String.append_assoc]
        _ = (indent.unit ++ (line ++ sep) ++ "\n")
              ++ ((sep ++ "\n").intercalate ((next :: rest).map (indent.unit ++ ·)) ++ "\n") := by
            rw [indent.lines_line_append hhead hfull, hrest]
        _ = _ := by simp only [String.append_assoc]

end Indent

end FeatureStudio
