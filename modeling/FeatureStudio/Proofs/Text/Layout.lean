/-
  FeatureStudio.Proofs.Text.Layout: texts whose indentation is left open.

  A layout is a text in which the levels of indentation are not yet units.  Printed with a unit it
  is a text; indenting that text is the same as putting a level in front of the lines of the
  layout.  Where levels stand at the beginnings of lines only, a layout is a list of lines, each
  with its depth.

  Main statements:
    * `print_deepen`: indentation, before and after printing.
    * `Flush.areLines`, `Flush.print_eq`: lines with their depths, and their text.
    * `lines_append`, `lines_deepen`: the lines of layouts that are put together.
    * `Holds.nested`, `Holds.among`: the lines of a layout that stands in another one.
-/
import FeatureStudio.Proofs.Text.Indentation

namespace FeatureStudio

/-- A character, or a level of indentation. -/
inductive Cell where
  | level
  | char (c : Char)
  deriving DecidableEq

/-- A text whose indentation is left open. -/
abbrev Layout := List Cell

namespace Layout

/-! ## §1. Layouts. -/

/-- A text without indentation of its own. -/
def ofChars (cs : List Char) : Layout := cs.map .char

/-- The text that has the given unit for a level. -/
def print (unit : List Char) : Layout → List Char
  | [] => []
  | .level :: rest => unit ++ print unit rest
  | .char c :: rest => c :: print unit rest

/-- Whether a line begins behind the cells; `start` says whether one begins in front. -/
def lineStart (start : Bool) : Layout → Bool
  | [] => start
  | c :: rest => lineStart (c == .char '\n') rest

/-- Puts levels in front of every line that is not blank; `start` says whether one begins here. -/
def deepen (levels : Nat) : (start : Bool) → Layout → Layout
  | _, [] => []
  | start, c :: rest =>
    (if start ∧ c ≠ .char '\n' then List.replicate levels .level else [])
      ++ c :: deepen levels (c == .char '\n') rest

/-- The depth of the line that has begun behind the cells; `depth` is that of the line in front. -/
def lineDepth (depth : Nat) : Layout → Nat
  | [] => depth
  | .level :: rest => lineDepth (depth + 1) rest
  | .char c :: rest => lineDepth (if c = '\n' then 0 else depth) rest

/-- Levels stand at the beginnings of lines only, and of none that is blank. -/
def Flush : (start : Bool) → Layout → Prop
  | _, [] => True
  | start, .level :: rest =>
    start ∧ (∃ c rest', rest = c :: rest' ∧ c ≠ .char '\n') ∧ Flush true rest
  | _, .char c :: rest => Flush (c == '\n') rest

theorem print_append (unit : List Char) (L M : Layout) :
    print unit (L ++ M) = print unit L ++ print unit M := by
  induction L with
  | nil => rfl
  | cons c L ih =>
      cases c with
      | level =>
          rw [List.cons_append, print, print, ih, List.append_assoc]
      | char c => exact congrArg (c :: ·) ih

theorem print_ofChars (unit cs : List Char) : print unit (ofChars cs) = cs := by
  induction cs with
  | nil => rfl
  | cons c cs ih => exact congrArg (c :: ·) ih

theorem deepen_zero (start : Bool) (L : Layout) : deepen 0 start L = L := by
  induction L generalizing start with
  | nil => rfl
  | cons c L ih =>
      rw [deepen, ih]
      split <;> rfl

/-- Within a line no levels are put in. -/
theorem deepen_cons (levels : Nat) (c : Cell) (L : Layout) :
    deepen levels false (c :: L) = c :: deepen levels (c == .char '\n') L := by
  rw [deepen, if_neg fun h => (by cases h.1), List.nil_append]

theorem char_beq (c d : Char) : (Cell.char c == .char d) = (c == d) := by
  rw [Bool.eq_iff_iff]
  simp

theorem deepen_append (levels : Nat) (start : Bool) (L M : Layout) :
    deepen levels start (L ++ M)
      = deepen levels start L ++ deepen levels (lineStart start L) M := by
  induction L generalizing start with
  | nil => rfl
  | cons c L ih =>
      rw [List.cons_append, deepen, deepen, ih, lineStart, List.append_assoc, List.cons_append]

theorem lineStart_append (start : Bool) (L M : Layout) :
    lineStart start (L ++ M) = lineStart (lineStart start L) M := by
  induction L generalizing start with
  | nil => rfl
  | cons c L ih => exact ih _

/-- Behind some cells it does not matter what stands in front of them. -/
theorem lineStart_of_ne_nil {L : Layout} (h : L ≠ []) (start start' : Bool) :
    lineStart start L = lineStart start' L := by
  cases L with
  | nil => exact absurd rfl h
  | cons c L => rfl

theorem lineStart_replicate (levels : Nat) (start : Bool) (L : Layout) (h : L ≠ []) :
    lineStart start (List.replicate levels .level ++ L) = lineStart start L := by
  rw [lineStart_append]
  exact lineStart_of_ne_nil h _ _

/-- Levels do not change where lines begin. -/
theorem lineStart_deepen (levels : Nat) (start : Bool) (L : Layout) :
    lineStart start (deepen levels start L) = lineStart start L := by
  induction L generalizing start with
  | nil => rfl
  | cons c L ih =>
      rw [deepen]
      split
      · rw [lineStart_replicate _ _ _ (List.cons_ne_nil _ _), lineStart, lineStart, ih]
      · exact ih _

theorem lineDepth_append (depth : Nat) (L M : Layout) :
    lineDepth depth (L ++ M) = lineDepth (lineDepth depth L) M := by
  induction L generalizing depth with
  | nil => rfl
  | cons c L ih => cases c <;> exact ih _

theorem lineDepth_replicate (depth levels : Nat) (L : Layout) :
    lineDepth depth (List.replicate levels .level ++ L) = lineDepth (depth + levels) L := by
  induction levels generalizing depth with
  | zero => rfl
  | succ levels ih =>
      rw [List.replicate_succ, List.cons_append, lineDepth, ih]
      congr 1
      omega

/-- Within a line the text does not count for its depth. -/
theorem lineDepth_char {c : Char} (hc : c ≠ '\n') (depth : Nat) (L : Layout) :
    lineDepth depth (.char c :: L) = lineDepth depth L := by
  rw [lineDepth, if_neg hc]

/-- Behind a text the line that has begun is as deep as in front of it, unless lines end in it. -/
theorem lineDepth_ofChars (depth : Nat) (cs : List Char) :
    lineDepth depth (ofChars cs) = if '\n' ∈ cs then 0 else depth := by
  induction cs generalizing depth with
  | nil => rfl
  | cons c cs ih =>
      show lineDepth (if c = '\n' then 0 else depth) (ofChars cs) = _
      rw [ih]
      by_cases hc : c = '\n'
      · simp [hc]
      · have hne : ¬ '\n' = c := fun h => hc h.symm
        simp [hc, hne]

/-- A line that has begun behind the cells is as many levels deeper, unless it is the first and
has begun in front of them. -/
theorem lineDepth_deepen (levels : Nat) {start : Bool} {L : Layout}
    (h : lineStart start L = false) (depth : Nat) :
    lineDepth (if start then depth else depth + levels) (deepen levels start L)
      = lineDepth depth L + levels := by
  induction L generalizing start depth with
  | nil =>
      rw [show start = false from h]
      rfl
  | cons c L ih =>
      rw [lineStart] at h
      by_cases hc : c = .char '\n'
      · subst hc
        have hblank : deepen levels start (.char '\n' :: L)
            = .char '\n' :: deepen levels true L := by
          rw [deepen, if_neg fun h => h.2 rfl]
          rfl
        rw [hblank]
        exact ih h 0
      · have hb : (c == .char '\n') = false := beq_false_of_ne hc
        rw [hb] at h
        -- the levels of the line are there, or it has begun in front of them
        have hrest : lineDepth (depth + levels) (c :: deepen levels false L)
            = lineDepth depth (c :: L) + levels := by
          cases c with
          | level =>
              rw [lineDepth, lineDepth, ← ih h (depth + 1), Nat.add_right_comm]
              rfl
          | char c =>
              have hne : c ≠ '\n' := fun h => hc (by rw [h])
              rw [lineDepth_char hne, lineDepth_char hne]
              exact ih h depth
        rw [← hrest]
        cases start with
        | true => rw [deepen, if_pos rfl, if_pos ⟨rfl, hc⟩, lineDepth_replicate, hb]
        | false =>
            rw [deepen_cons, hb]
            rfl

theorem deepen_levels (levels k : Nat) (rest : Layout) :
    deepen levels false (List.replicate k .level ++ rest)
      = List.replicate k .level ++ deepen levels false rest := by
  induction k with
  | zero => rfl
  | succ k ih =>
      rw [List.replicate_succ, List.cons_append, deepen_cons]
      exact congrArg (Cell.level :: ·) ih

/-- In front of a line with levels there are as many levels more. -/
theorem deepen_line (j k : Nat) {c : Cell} (hc : c ≠ .char '\n') (rest : Layout) :
    deepen j true (List.replicate k .level ++ c :: rest)
      = List.replicate (j + k) .level ++ c :: deepen j (c == .char '\n') rest := by
  cases k with
  | zero => rw [List.replicate_zero, List.nil_append, deepen, if_pos ⟨rfl, hc⟩, Nat.add_zero]
  | succ k =>
      rw [List.replicate_succ, List.cons_append, deepen, if_pos ⟨rfl, by decide⟩]
      have hrest : deepen j (Cell.level == .char '\n') (List.replicate k .level ++ c :: rest)
          = List.replicate k .level ++ c :: deepen j (c == .char '\n') rest := by
        rw [← deepen_cons]
        exact deepen_levels j k (c :: rest)
      rw [hrest, ← List.cons_append, ← List.replicate_succ, ← List.append_assoc,
        List.replicate_append_replicate]

/-- Levels add up. -/
theorem deepen_deepen (j k : Nat) (start : Bool) (L : Layout) :
    deepen j start (deepen k start L) = deepen (j + k) start L := by
  induction L generalizing start with
  | nil => rfl
  | cons c L ih =>
      rw [deepen, deepen]
      split
      · rename_i h
        rw [h.1, deepen_line j k h.2, ih]
      · rename_i h
        rw [List.nil_append, List.nil_append, deepen, if_neg h, List.nil_append, ih]

/-- Indenting a printed layout is printing it with a level in front of its lines. -/
theorem print_deepen {unit : List Char} (hunit : '\n' ∉ unit) (start : Bool) (L : Layout) :
    print unit (deepen 1 start L) = Text.indentChars unit start (print unit L) := by
  induction L generalizing start with
  | nil => cases start <;> rfl
  | cons c L ih =>
      rw [deepen, print_append]
      cases c with
      | char c =>
          rw [print, print, char_beq, ih]
          cases start with
          | false => simp [print, Text.indentChars]
          | true =>
              by_cases hc : c = '\n'
              · simp [print, Text.indentChars, hc]
              · have hb : (c == '\n') = false := beq_false_of_ne hc
                simp [print, Text.indentChars, hc, hb]
      | level =>
          rw [print, print]
          have hrest : print unit (deepen 1 (Cell.level == .char '\n') L)
              = Text.indentChars unit false (print unit L) := ih false
          rw [hrest, Text.indentChars_append]
          cases start with
          | false =>
              rw [Text.indentChars_line hunit, Text.lineStart_line hunit,
                if_neg fun h => by cases h.1]
              rfl
          | true =>
              -- the new level stands in front of the one that is there; empty units print nothing
              rw [if_pos ⟨rfl, by decide⟩]
              cases unit with
              | nil => simp [print, Text.indentChars_empty]
              | cons d unit =>
                  rw [Text.indentChars_start hunit (List.cons_ne_nil _ _)]
                  rw [List.mem_cons, not_or] at hunit
                  have hb : (d == '\n') = false := beq_false_of_ne fun hd => hunit.1 hd.symm
                  rw [Text.lineStart, hb, Text.lineStart_line hunit.2]
                  simp [print]

/-! ## §2. Levels at the beginnings of lines. -/

namespace Flush

theorem mono {L : Layout} (h : Flush false L) : ∀ start, Flush start L := by
  intro start
  cases L with
  | nil => exact trivial
  | cons c L =>
      cases c with
      | level => exact absurd h.1 (by decide)
      | char c => exact h

theorem ofChars (start : Bool) (cs : List Char) : Flush start (ofChars cs) := by
  induction cs generalizing start with
  | nil => exact trivial
  | cons c cs ih => exact ih _

/-- What stands behind may begin with levels if a line begins there. -/
theorem append_of_lineStart {start : Bool} {L M : Layout} (h : Flush start L)
    (h' : Flush (lineStart start L) M) : Flush start (L ++ M) := by
  induction L generalizing start with
  | nil => exact h'
  | cons c L ih =>
      cases c with
      | level =>
          obtain ⟨hstart, ⟨c, rest, rfl, hc⟩, hrest⟩ := h
          exact ⟨hstart, ⟨c, rest ++ M, rfl, hc⟩, ih hrest h'⟩
      | char c =>
          rw [lineStart, char_beq] at h'
          exact ih h h'

theorem append {start : Bool} {L M : Layout} (h : Flush start L) (h' : Flush false M) :
    Flush start (L ++ M) := h.append_of_lineStart (h'.mono _)

/-- Levels in front of a line that is not blank. -/
theorem levels (k : Nat) {c : Cell} {rest : Layout} (hc : c ≠ .char '\n')
    (h : Flush true (c :: rest)) : Flush true (List.replicate k .level ++ c :: rest) := by
  induction k with
  | zero => exact h
  | succ k ih =>
      refine ⟨rfl, ?_, ih⟩
      cases k with
      | zero => exact ⟨c, rest, rfl, hc⟩
      | succ k => exact ⟨.level, _, rfl, by decide⟩

theorem deepen (k : Nat) {start : Bool} {L : Layout} (h : Flush start L) :
    ∀ start' : Bool, (start' → start) → Flush start (deepen k start' L) := by
  induction L generalizing start with
  | nil => exact fun _ _ => trivial
  | cons c L ih =>
      intro start' hstart'
      -- the rest of the line gets no levels, and keeps its own
      have hcell : Flush start (c :: Layout.deepen k (c == .char '\n') L) := by
        cases c with
        | level =>
            obtain ⟨hstart, ⟨c, rest, rfl, hc⟩, hrest⟩ := h
            refine ⟨hstart, ⟨c, Layout.deepen k (c == .char '\n') rest, ?_, hc⟩,
              ih hrest false fun h => by cases h⟩
            exact deepen_cons k c rest
        | char c => exact ih h _ fun hc => by rwa [char_beq] at hc
      rw [Layout.deepen]
      split
      · rename_i hc
        rw [hstart' hc.1] at hcell ⊢
        exact levels k hc.2 hcell
      · exact hcell

/-- A layout of one line has no levels. -/
theorem eq_ofChars {L : Layout} (h : Flush false L) (hline : .char '\n' ∉ L) :
    ∃ cs, L = Layout.ofChars cs := by
  induction L with
  | nil => exact ⟨[], rfl⟩
  | cons c L ih =>
      cases c with
      | level => exact absurd h.1 (by decide)
      | char c =>
          rw [List.mem_cons, not_or] at hline
          have hb : (c == '\n') = false := beq_false_of_ne fun hc => hline.1 (by rw [hc])
          have hrest : Flush (c == '\n') L := h
          rw [hb] at hrest
          obtain ⟨cs, rfl⟩ := ih hrest hline.2
          exact ⟨c :: cs, rfl⟩

end Flush

theorem mem_print {unit : List Char} {c : Char} {L : Layout} (h : .char c ∈ L) :
    c ∈ print unit L := by
  induction L with
  | nil => cases h
  | cons d L ih =>
      rcases List.mem_cons.mp h with rfl | hmem
      · exact List.mem_cons_self
      · cases d with
        | level => exact List.mem_append_right _ (ih hmem)
        | char d => exact List.mem_cons_of_mem _ (ih hmem)

/-! ## §3. Lines. -/

/-- A line, with its line feed if it has one, and the levels in front of it. -/
structure Line where
  depth : Nat
  text : List Char

/-- The line behind as many units as it is deep. -/
def Line.print (unit : List Char) (l : Line) : List Char :=
  (List.replicate l.depth unit).flatten ++ l.text

/-- The line that many levels deeper, if it is not blank. -/
def Line.deeper (levels : Nat) (l : Line) : Line :=
  { l with depth := if l.text = ['\n'] then l.depth else l.depth + levels }

/-- Lines in a row: all but the last one end, and blank ones are not indented. -/
inductive AreLines : List Line → Prop
  | nil : AreLines []
  | last {l : Line} (hne : l.text ≠ []) (h : '\n' ∉ l.text) : AreLines [l]
  | cons {cs : List Char} {depth : Nat} {ls : List Line} (h : '\n' ∉ cs)
    (hblank : cs = [] → depth = 0) (hs : AreLines ls) : AreLines (⟨depth, cs ++ ['\n']⟩ :: ls)

/-- A cell in front of lines. -/
def extend : Cell → List Line → List Line
  | .level, [] => [⟨1, []⟩]
  | .level, l :: ls => ⟨l.depth + 1, l.text⟩ :: ls
  | .char c, [] => [⟨0, [c]⟩]
  | .char c, l :: ls => if c = '\n' then ⟨0, [c]⟩ :: l :: ls else ⟨0, c :: l.text⟩ :: ls

/-- The lines of a layout. -/
def lines (L : Layout) : List Line := L.foldr extend []

/-- Lines behind lines.  A line that has not ended goes on, and keeps its depth. -/
def join : List Line → List Line → List Line
  | [], ms => ms
  | [l], ms =>
    if '\n' ∈ l.text then l :: ms
    else
      match ms with
      | [] => [l]
      | m :: ms => ⟨l.depth, l.text ++ m.text⟩ :: ms
  | l :: l' :: ls, ms => l :: join (l' :: ls) ms

theorem lines_cons (c : Cell) (L : Layout) : lines (c :: L) = extend c (lines L) := rfl

theorem lines_eq_foldr (L M : Layout) : lines (L ++ M) = L.foldr extend (lines M) :=
  List.foldr_append

theorem lines_ne_nil {L : Layout} (h : L ≠ []) : lines L ≠ [] := by
  cases L with
  | nil => exact absurd rfl h
  | cons c L =>
      rw [lines_cons]
      cases c with
      | level => cases lines L <;> exact List.cons_ne_nil _ _
      | char c =>
          cases lines L with
          | nil => exact List.cons_ne_nil _ _
          | cons l ls =>
              rw [extend]
              split <;> exact List.cons_ne_nil _ _

/-- What does not begin with a level begins at depth zero. -/
theorem Flush.depth_eq_zero {L : Layout} (h : Flush false L) {l : Line} {ls : List Line}
    (hl : lines L = l :: ls) : l.depth = 0 := by
  cases L with
  | nil => cases hl
  | cons c L =>
      cases c with
      | level => exact absurd h.1 (by decide)
      | char c =>
          rw [lines_cons] at hl
          cases hlines : lines L with
          | nil =>
              rw [hlines] at hl
              cases hl
              rfl
          | cons m ms =>
              rw [hlines, extend] at hl
              split at hl <;> (cases hl; rfl)

/-- The lines behind a character, in the same line or in the next one. -/
theorem lines_char (c : Char) (L : Layout) :
    lines (.char c :: L) = if c = '\n' then ⟨0, [c]⟩ :: lines L else
      match lines L with
      | [] => [⟨0, [c]⟩]
      | l :: ls => ⟨0, c :: l.text⟩ :: ls := by
  rw [lines_cons]
  cases lines L with
  | nil =>
      rw [extend]
      split <;> rfl
  | cons l ls => rfl

/-- The first line is not blank if the first cell does not end it. -/
theorem Flush.exists_line {start : Bool} {c : Cell} {L : Layout} (h : Flush start (c :: L))
    (hc : c ≠ .char '\n') : ∃ l ls, lines (c :: L) = l :: ls ∧ l.text ≠ [] ∧ l.text ≠ ['\n'] := by
  induction L generalizing start c with
  | nil =>
      cases c with
      | level =>
          obtain ⟨-, ⟨c, rest, hrest, -⟩, -⟩ := h
          cases hrest
      | char c =>
          refine ⟨⟨0, [c]⟩, [], rfl, List.cons_ne_nil _ _, fun hblank => hc ?_⟩
          cases hblank
          rfl
  | cons d L ih =>
      cases c with
      | level =>
          -- what follows a level does not end the line, so the first line is found behind it
          obtain ⟨-, ⟨c, rest, hrest, hd⟩, hflush⟩ := h
          cases hrest
          obtain ⟨l, ls, hl, hne, hblank⟩ := ih hflush hd
          refine ⟨⟨l.depth + 1, l.text⟩, ls, ?_, hne, hblank⟩
          rw [lines_cons, hl]
          rfl
      | char c =>
          have hcn : c ≠ '\n' := fun h => hc (by rw [h])
          rw [lines_char, if_neg hcn]
          cases hl : lines (d :: L) with
          | nil => exact absurd hl (lines_ne_nil (List.cons_ne_nil _ _))
          | cons l ls =>
              exact ⟨_, _, rfl, List.cons_ne_nil _ _, fun hblank => hcn (List.cons.inj hblank).1⟩

theorem Flush.areLines {start : Bool} {L : Layout} (h : Flush start L) : AreLines (lines L) := by
  induction L generalizing start with
  | nil => exact .nil
  | cons c L ih =>
      cases c with
      | level =>
          obtain ⟨-, ⟨d, rest, rfl, hd⟩, hflush⟩ := h
          -- a level is no line of its own: it deepens the line that follows
          obtain ⟨l, ls, hl, hne, hblank⟩ := hflush.exists_line hd
          have hlines := ih hflush
          rw [lines_cons, hl]
          rw [hl] at hlines
          cases hlines with
          | last hne h => exact .last hne h
          | cons h _ hs => exact .cons h (fun hnil => absurd (by rw [hnil]; rfl) hblank) hs
      | char c =>
          have hlines := ih h
          -- a character ends a line or is put in front of the first line behind it
          rw [lines_char]
          split
          · rename_i hc
            subst hc
            have hblank : '\n' ∉ ([] : List Char) := List.not_mem_nil
            exact .cons hblank (fun _ => rfl) hlines
          · rename_i hc
            have hmem : ∀ {cs : List Char}, '\n' ∉ cs → '\n' ∉ c :: cs := fun hcs hmem =>
              (List.mem_cons.mp hmem).elim (fun h => hc h.symm) hcs
            cases hl : lines L with
            | nil => exact .last (List.cons_ne_nil _ _) (hmem List.not_mem_nil)
            | cons l ls =>
                rw [hl] at hlines
                cases hlines with
                | last hne h => exact .last (List.cons_ne_nil _ _) (hmem h)
                | cons h _ hs => exact .cons (hmem h) (fun hnil => by cases hnil) hs

/-- A layout prints as its lines do. -/
theorem Flush.print_eq {start : Bool} {L : Layout} (h : Flush start L) (unit : List Char) :
    print unit L = (lines L).flatMap (Line.print unit) := by
  induction L generalizing start with
  | nil => rfl
  | cons c L ih =>
      cases c with
      | level =>
          obtain ⟨-, ⟨d, rest, rfl, hd⟩, hflush⟩ := h
          obtain ⟨l, ls, hl, -, -⟩ := hflush.exists_line hd
          rw [lines_cons, hl, Layout.print, ih hflush, hl]
          simp [extend, Line.print, List.replicate_succ]
      | char c =>
          rw [lines_char, Layout.print, ih h]
          split
          · simp [Line.print]
          · rename_i hc
            -- behind a character that does not end the line no level can follow
            have hflush : Flush false L := by
              have hrest : Flush (c == '\n') L := h
              rwa [beq_false_of_ne hc] at hrest
            cases hl : lines L with
            | nil => simp [Line.print]
            | cons l ls => simp [Line.print, hflush.depth_eq_zero hl]

/-! ## §4. Layouts that are put together. -/

/-- Of the first line only its end is seen when lines are joined. -/
theorem join_head {l m : Line} (h : '\n' ∈ m.text ↔ '\n' ∈ l.text) (ls ms : List Line) :
    ∃ t rest, join (l :: ls) ms = ⟨l.depth, l.text ++ t⟩ :: rest
      ∧ join (m :: ls) ms = ⟨m.depth, m.text ++ t⟩ :: rest := by
  cases ls with
  | cons l' ls => exact ⟨[], join (l' :: ls) ms, by simp [join], by simp [join]⟩
  | nil =>
      by_cases hl : '\n' ∈ l.text
      · exact ⟨[], ms, by simp [join, hl], by simp [join, h.mpr hl]⟩
      · have hm : '\n' ∉ m.text := fun hm => hl (h.mp hm)
        cases ms with
        | nil => exact ⟨[], [], by simp [join, hl], by simp [join, hm]⟩
        | cons n ms => exact ⟨n.text, ms, by simp [join, hl], by simp [join, hm]⟩

theorem lines_append {start : Bool} {L : Layout} (h : Flush start L) (M : Layout) :
    lines (L ++ M) = join (lines L) (lines M) := by
  -- a cell in front changes the first line only, of which joining sees no more than its end
  induction L generalizing start with
  | nil => rfl
  | cons c L ih =>
      rw [List.cons_append]
      cases c with
      | level =>
          obtain ⟨-, ⟨d, rest, rfl, hd⟩, hflush⟩ := h
          obtain ⟨l, ls, hl, -, -⟩ := hflush.exists_line hd
          obtain ⟨t, ms, hjoin, hjoin'⟩ :=
            join_head (l := l) (m := ⟨l.depth + 1, l.text⟩) Iff.rfl ls (lines M)
          rw [lines_cons, ih hflush, hl, hjoin, lines_cons .level, hl]
          exact hjoin'.symm
      | char c =>
          rw [lines_char, ih h, lines_char]
          split
          · rename_i hc
            subst hc
            cases lines L with
            | nil => rfl
            | cons l ls => rfl
          · rename_i hc
            cases lines L with
            | nil =>
                have hline : ¬ '\n' = c := fun h => hc h.symm
                cases lines M with
                | nil => simp [join]
                | cons m ms => simp [join, hline]
            | cons l ls =>
                have hend : '\n' ∈ (⟨0, c :: l.text⟩ : Line).text ↔ '\n' ∈ l.text :=
                  ⟨fun h => (List.mem_cons.mp h).resolve_left fun h => hc h.symm,
                    List.mem_cons_of_mem c⟩
                obtain ⟨t, ms, hjoin, hjoin'⟩ := join_head hend ls (lines M)
                rw [hjoin]
                exact hjoin'.symm

/-- Lines that many levels deeper, but for the first. -/
def deeperTail (levels : Nat) : List Line → List Line
  | [] => []
  | l :: ls => l :: ls.map (Line.deeper levels)

theorem lines_levels (k : Nat) {L : Layout} {l : Line} {ls : List Line} (h : lines L = l :: ls) :
    lines (List.replicate k .level ++ L) = ⟨l.depth + k, l.text⟩ :: ls := by
  induction k with
  | zero => exact h
  | succ k ih =>
      rw [List.replicate_succ, List.cons_append, lines_cons, ih]
      rfl

/-- At the beginning of a line the first line gets levels, too. -/
theorem lines_deepen_of_tail (k : Nat) {start : Bool} {L : Layout} (h : Flush start L)
    (htail : lines (deepen k false L) = deeperTail k (lines L)) :
    lines (deepen k true L) = (lines L).map (Line.deeper k) := by
  cases L with
  | nil => rfl
  | cons c L =>
      by_cases hc : c = .char '\n'
      · -- a blank line
        rw [deepen, if_neg fun h => h.2 hc, List.nil_append, ← deepen_cons, htail, hc, lines_char,
          if_pos rfl]
        rfl
      · obtain ⟨l, ls, hl, -, hblank⟩ := h.exists_line hc
        rw [hl, deepen_cons] at htail
        rw [deepen, if_pos ⟨rfl, hc⟩, lines_levels k htail, hl, List.map_cons, Line.deeper,
          if_neg hblank]

theorem lines_deepen_tail (k : Nat) {start : Bool} {L : Layout} (h : Flush start L) :
    lines (deepen k false L) = deeperTail k (lines L) := by
  induction L generalizing start with
  | nil => rfl
  | cons c L ih =>
      rw [deepen_cons]
      cases c with
      | level =>
          obtain ⟨-, ⟨d, rest, rfl, hd⟩, hflush⟩ := h
          obtain ⟨l, ls, hl, -, -⟩ := hflush.exists_line hd
          have hrest := ih hflush
          rw [hl] at hrest
          -- the level is in the line that follows, so both sides have it in their first line
          rw [lines_cons .level, lines_cons .level, hl]
          exact congrArg (extend .level) hrest
      | char c =>
          have hflush : Flush (c == '\n') L := h
          have hrest := ih hflush
          rw [lines_char, lines_char]
          split
          · rename_i hc
            subst hc
            exact congrArg (⟨0, ['\n']⟩ :: ·) (lines_deepen_of_tail k hflush hrest)
          · rename_i hc
            rw [char_beq, beq_false_of_ne hc, hrest]
            cases lines L <;> rfl

/-- Levels in front of all lines. -/
theorem lines_deepen (k : Nat) {start : Bool} {L : Layout} (h : Flush start L) :
    lines (deepen k true L) = (lines L).map (Line.deeper k) :=
  lines_deepen_of_tail k h (lines_deepen_tail k h)

/-- Nothing that is flush ends with a level. -/
theorem Flush.not_concat_level {start : Bool} {L : Layout} : ¬ Flush start (L ++ [.level]) := by
  induction L generalizing start with
  | nil =>
      rintro ⟨-, ⟨c, rest, hrest, -⟩, -⟩
      cases hrest
  | cons c L ih =>
      intro h
      cases c with
      | level => exact ih h.2.2
      | char c => exact ih h

/-- In a line that has begun levels are not counted. -/
theorem lines_char_deepen (k : Nat) {c : Char} (hc : c ≠ '\n') (T : Layout) :
    lines (.char c :: deepen k true T) = lines (.char c :: deepen k false T) := by
  cases T with
  | nil => rfl
  | cons d T =>
      by_cases hd : d = .char '\n'
      · rw [deepen, if_neg fun h => h.2 hd, List.nil_append, deepen_cons]
      · rw [deepen, if_pos ⟨rfl, hd⟩, deepen_cons, lines_char, lines_char, if_neg hc, if_neg hc]
        cases hl : lines (d :: deepen k (d == .char '\n') T) with
        | nil => exact absurd hl (lines_ne_nil (List.cons_ne_nil _ _))
        | cons l ls => rw [lines_levels k hl]

/-- The lines of a layout that stands deeper, behind another one. -/
theorem lines_append_deepen (k : Nat) {A : Layout} {start : Bool} (hA : Flush start A)
    {T : Layout} (hT : Flush false T) :
    lines (A ++ deepen k (lineStart true A) T)
      = join (lines A) ((lines T).map (Line.deeper k)) := by
  rw [← lines_deepen k hT, ← lines_append hA]
  rcases List.eq_nil_or_concat A with rfl | ⟨A, c, rfl⟩
  · rfl
  · rw [List.concat_eq_append] at hA ⊢
    rw [lineStart_append, lineStart, lineStart, List.append_assoc, List.append_assoc]
    cases c with
    | level => exact absurd hA Flush.not_concat_level
    | char c =>
        by_cases hc : c = '\n'
        · rw [hc]
          rfl
        · rw [char_beq, beq_false_of_ne hc, lines_eq_foldr A, lines_eq_foldr A]
          exact congrArg (A.foldr extend) (lines_char_deepen k hc T).symm

/-- The last line, where it has not ended, has begun in front of the end, and is as deep as what
is put there. -/
theorem Flush.getLast_depth {start : Bool} {L : Layout} (h : Flush start L) {l : Line}
    (hl : l ∈ (lines L).getLast?) (hopen : '\n' ∉ l.text) :
    lineStart start L = false
      ∧ ∀ depth, lineDepth depth L = if (lines L).length = 1 then depth + l.depth else l.depth := by
  -- on the cells, for every line: a cell put in front changes the first line, so that the last
  -- one stays what it is unless there is no other
  induction L generalizing start l with
  | nil => cases hl
  | cons c L ih =>
      cases c with
      | level =>
          obtain ⟨-, ⟨d, rest, rfl, hd⟩, hflush⟩ := h
          obtain ⟨m, ms, hm, -, -⟩ := hflush.exists_line hd
          rw [lines_cons, hm] at hl ⊢
          rw [hm] at ih
          cases ms with
          | nil =>
              -- the only line, which the level makes deeper
              cases hl
              obtain ⟨hstart, hdepth⟩ := ih (l := m) hflush rfl hopen
              refine ⟨hstart, fun depth => ?_⟩
              rw [lineDepth, hdepth]
              simp [extend]
              omega
          | cons m' ms =>
              obtain ⟨hstart, hdepth⟩ := ih (l := l) hflush hl hopen
              exact ⟨hstart, fun depth => hdepth (depth + 1)⟩
      | char c =>
          have hflush : Flush (c == '\n') L := h
          rw [lineStart, char_beq]
          rw [lines_char] at hl ⊢
          by_cases hc : c = '\n'
          · -- a line of its own: it has ended, so that the last one is among those behind it
            subst hc
            rw [if_pos rfl] at hl ⊢
            cases hlines : lines L with
            | nil =>
                rw [hlines] at hl
                cases hl
                exact absurd List.mem_cons_self hopen
            | cons m ms =>
                rw [hlines] at hl ih
                obtain ⟨hstart, hdepth⟩ := ih hflush hl hopen
                refine ⟨hstart, fun depth => ?_⟩
                rw [lineDepth, if_pos rfl, hdepth, Nat.zero_add, ite_self]
                rfl
          · -- a character of the first line, which has no levels behind it
            rw [if_neg hc] at hl ⊢
            simp only [lineDepth_char hc]
            rw [beq_false_of_ne hc] at hflush ⊢
            cases hlines : lines L with
            | nil =>
                rw [hlines] at hl
                cases hl
                have hnil : L = [] := by_contra fun hne => lines_ne_nil hne hlines
                subst hnil
                exact ⟨rfl, fun depth => rfl⟩
            | cons m ms =>
                rw [hlines] at hl ih
                have hm : m.depth = 0 := hflush.depth_eq_zero hlines
                cases ms with
                | nil =>
                    cases hl
                    obtain ⟨hstart, hdepth⟩ := ih (l := m) hflush rfl fun h =>
                      hopen (List.mem_cons_of_mem _ h)
                    exact ⟨hstart, fun depth => by rw [hdepth, hm]; rfl⟩
                | cons m' ms => exact ih (l := l) hflush hl hopen

/-! ## §5. Layouts in layouts. -/

/-- The lines of `T` stand in `L`, that many levels deeper; so does the line that has begun in
front of them, if one has. -/
def Holds (L : Layout) (levels : Nat) (T : Layout) : Prop :=
  ∃ A B, Flush false A ∧ L = A ++ (deepen levels (lineStart true A) T ++ B)
    ∧ (levels = 0 ∨ A ≠ []) ∧ (lineStart true A = false → lineDepth 0 A = levels)

/-- The lines stand among others, that many levels deeper.  A line in front may go on in the first
of them if it is as deep as that one, and the last of them may go on behind. -/
def Among (ls : List Line) (levels : Nat) (own : List Line) : Prop :=
  ∃ before after, ls = join (join before (own.map (.deeper levels))) after
    ∧ ∀ l ∈ before.getLast?, '\n' ∉ l.text → ∀ m ∈ own.head?, l.depth = m.depth + levels

namespace Holds

variable {L M T : Layout} {k : Nat}

theorem refl (L : Layout) : Holds L 0 L :=
  ⟨[], [], trivial, by rw [deepen_zero, List.append_nil, List.nil_append], .inl rfl,
    fun _ => rfl⟩

theorem append_right (h : Holds L k T) (M : Layout) : Holds (L ++ M) k T := by
  obtain ⟨A, B, hA, rfl, hk⟩ := h
  exact ⟨A, B ++ M, hA, by simp only [List.append_assoc], hk⟩

/-- Behind a layout, if the line that has begun there has no depth. -/
theorem append_left (hM : Flush false M) (hdepth : lineDepth 0 M = 0) (h : Holds L k T) :
    Holds (M ++ L) k T := by
  obtain ⟨A, B, hA, rfl, hk, hopen⟩ := h
  have hline : lineDepth 0 (M ++ A) = lineDepth 0 A := by rw [lineDepth_append, hdepth]
  rcases eq_or_ne A [] with rfl | hne
  · rw [hk.resolve_right fun h => h rfl]
    refine ⟨M, B, hM, ?_, .inl rfl, fun _ => hdepth⟩
    rw [deepen_zero, deepen_zero, List.nil_append]
  · -- where a line begins behind `A` does not depend on what stands in front of it
    have hstart : lineStart true (M ++ A) = lineStart true A := by
      rw [lineStart_append, lineStart_of_ne_nil hne (lineStart true M) true]
    refine ⟨M ++ A, B, hM.append hA, ?_, .inr fun hnil => hne (List.append_eq_nil_iff.mp hnil).2,
      fun h => ?_⟩
    · rw [hstart, List.append_assoc]
    · rw [hline]
      exact hopen (hstart ▸ h)

/-- What stands in lines of its own, a level deeper. -/
theorem nested (h : Holds L k T) : Holds (.char '\n' :: deepen 1 true L) (k + 1) T := by
  obtain ⟨A, B, hA, rfl, -, hopen⟩ := h
  have hstart : lineStart true (.char '\n' :: deepen 1 true A) = lineStart true A :=
    lineStart_deepen 1 true A
  refine ⟨.char '\n' :: deepen 1 true A,
    deepen 1 (lineStart (lineStart true A) (deepen k (lineStart true A) T)) B, ?_, ?_,
    .inr (List.cons_ne_nil _ _), fun h => ?_⟩
  · exact (hA.mono true).deepen 1 true id
  · rw [hstart, deepen_append, deepen_append, deepen_deepen, Nat.add_comm 1 k]
    rfl
  · rw [hstart] at h
    rw [← hopen h]
    exact lineDepth_deepen 1 h 0

/-- The lines of `T`, each that many levels deeper, are among those of `L`. -/
theorem among (h : Holds L k T) (hT : Flush false T) : Among (lines L) k (lines T) := by
  obtain ⟨A, B, hA, rfl, -, hopen⟩ := h
  have hflush : Flush true (A ++ deepen k (lineStart true A) T) :=
    (hA.mono true).append_of_lineStart ((hT.mono _).deepen k _ id)
  refine ⟨lines A, lines B, ?_, fun l hl hgoes m hm => ?_⟩
  · rw [← List.append_assoc, lines_append hflush, lines_append_deepen k hA hT]
  · obtain ⟨hstart, hdepth⟩ := (hA.mono true).getLast_depth hl hgoes
    have hl : lineDepth 0 A = l.depth := by rw [hdepth, Nat.zero_add, ite_self]
    obtain ⟨ms, hms⟩ := List.head?_eq_some_iff.mp hm
    rw [← hl, hopen hstart, hT.depth_eq_zero hms, Nat.zero_add]

end Holds

end Layout

end FeatureStudio
