/-
  FeatureStudio.Proofs.Text.Scanner: reading a text character by character.

  A scanner remembers what it has begun and gives the items that a character completes.  What texts
  in a row give is what each of them gives, the second one from where the first one ends.  A scanner
  that drops blanks between items, and has nothing begun behind a line feed, does not see
  indentation.

  Main statements:
    * `read_append`: texts in a row are read one after the other.
    * `read_indentChars`: indentation is not seen.
-/
import FeatureStudio.Proofs.Text.Indentation

namespace FeatureStudio.Text

/-- A reader that goes from character to character.  It refuses characters that it has no step for,
and texts that end where something is left open. -/
structure Scanner (μ α : Type) where
  /-- Nothing has been begun. -/
  idle : μ
  /-- The items that a character completes, and what is begun then. -/
  step : μ → Char → Option (List α × μ)
  /-- The items that are complete at the end of the text. -/
  finish : μ → Option (List α)

namespace Scanner

variable {μ α : Type} (s : Scanner μ α)

/-- Reads characters: the items that they complete, and what is begun then. -/
def read : μ → List Char → Option (List α × μ)
  | m, [] => some ([], m)
  | m, c :: cs =>
    (s.step m c).bind fun p => (read p.2 cs).map fun q => (p.1 ++ q.1, q.2)

/-- The items of a text. -/
def items (cs : List Char) : Option (List α) :=
  (s.read s.idle cs).bind fun p => (s.finish p.2).map (p.1 ++ ·)

/-- The items of a text, something having been begun. -/
def itemsFrom (m : μ) (cs : List Char) : Option (List α) :=
  (s.read m cs).bind fun p => (s.finish p.2).map (p.1 ++ ·)

variable {s}

theorem read_cons {m m' : μ} {c : Char} {is : List α} (h : s.step m c = some (is, m'))
    (cs : List Char) : s.read m (c :: cs) = (s.read m' cs).map fun q => (is ++ q.1, q.2) := by
  rw [read, h]
  rfl

/-- A character that goes on with what has been begun. -/
theorem read_cons_nil {m m' : μ} {c : Char} (h : s.step m c = some ([], m')) (cs : List Char) :
    s.read m (c :: cs) = s.read m' cs := by
  rw [read_cons h]
  cases s.read m' cs <;> rfl

theorem read_singleton {m m' : μ} {c : Char} {is : List α} (h : s.step m c = some (is, m')) :
    s.read m [c] = some (is, m') := by
  rw [read_cons h]
  simp [read]

/-- **Texts in a row are read one after the other.** -/
theorem read_append {m m' : μ} {cs : List Char} {is : List α} (h : s.read m cs = some (is, m'))
    (ds : List Char) : s.read m (cs ++ ds) = (s.read m' ds).map fun q => (is ++ q.1, q.2) := by
  induction cs generalizing m is with
  | nil =>
      cases h
      rw [List.nil_append]
      cases s.read m' ds <;> rfl
  | cons c cs ih =>
      obtain ⟨p, hstep, hrest⟩ := Option.bind_eq_some_iff.mp h
      obtain ⟨q, hq, hp⟩ := Option.map_eq_some_iff.mp hrest
      cases hp
      rw [List.cons_append, read_cons hstep, ih hq, Option.map_map]
      simp only [Function.comp_def, List.append_assoc]

/-- Texts that are read one after the other give their items together. -/
theorem read_append_eq_some {m m' m'' : μ} {cs ds : List Char} {is js : List α}
    (h : s.read m cs = some (is, m')) (h' : s.read m' ds = some (js, m'')) :
    s.read m (cs ++ ds) = some (is ++ js, m'') := by
  rw [read_append h, h']
  rfl

/-- What a text begins with is read before the rest of it. -/
theorem itemsFrom_append {m m' : μ} {cs : List Char} {is : List α}
    (h : s.read m cs = some (is, m')) (ds : List Char) :
    s.itemsFrom m (cs ++ ds) = (s.itemsFrom m' ds).map (is ++ ·) := by
  unfold itemsFrom
  rw [read_append h]
  cases s.read m' ds with
  | none => rfl
  | some p =>
      show (s.finish p.2).map (is ++ p.1 ++ ·) = ((s.finish p.2).map (p.1 ++ ·)).map (is ++ ·)
      cases s.finish p.2 <;> simp

/-- The items of a text in front of another one. -/
theorem items_append {cs : List Char} {is : List α} (h : s.read s.idle cs = some (is, s.idle))
    (ds : List Char) : s.items (cs ++ ds) = (s.items ds).map (is ++ ·) := itemsFrom_append h ds

/-! ## Indentation. -/

variable (s) in
/-- The scanner goes by lines: behind a line feed nothing is begun. -/
def EndsLines : Prop := ∀ m is m', s.step m '\n' = some (is, m') → m' = s.idle

theorem read_blanks {unit : List Char}
    (hunit : ∀ c ∈ unit, s.step s.idle c = some ([], s.idle)) (cs : List Char) :
    s.read s.idle (unit ++ cs) = s.read s.idle cs := by
  induction unit with
  | nil => rfl
  | cons c unit ih =>
      rw [List.cons_append, read_cons_nil (hunit c List.mem_cons_self),
        ih fun c' hc' => hunit c' (List.mem_cons_of_mem _ hc')]

/-- Characters behind one that is read alike are read alike. -/
theorem read_cons_congr {m : μ} {c : Char} {cs ds : List Char}
    (h : ∀ is m', s.step m c = some (is, m') → s.read m' cs = s.read m' ds) :
    s.read m (c :: cs) = s.read m (c :: ds) := by
  cases hstep : s.step m c with
  | none =>
      rw [read, read, hstep]
      rfl
  | some p => rw [read_cons hstep, read_cons hstep, h p.1 p.2 hstep]

/-- **Indentation is not seen.** -/
theorem read_indentChars (hends : s.EndsLines) {unit : List Char}
    (hunit : ∀ c ∈ unit, s.step s.idle c = some ([], s.idle)) :
    ∀ (cs : List Char) (start : Bool) (m : μ), (start → m = s.idle) →
      s.read m (indentChars unit start cs) = s.read m cs
  | [], start, m, _ => by
      cases start <;> rfl
  | c :: cs, true, m, hm => by
      rw [hm rfl]
      unfold indentChars
      split
      · next hc =>
          subst hc
          refine read_cons_congr fun is m' hstep => ?_
          exact read_indentChars hends hunit cs true m' fun _ => hends _ is m' hstep
      -- the unit stands between items, so it is dropped
      · refine (read_blanks hunit _).trans (read_cons_congr fun is m' _ => ?_)
        exact read_indentChars hends hunit cs false m' fun h => by cases h
  | c :: cs, false, m, _ => by
      -- only behind a line feed is a unit put in, and there nothing has been begun
      refine read_cons_congr fun is m' hstep => ?_
      refine read_indentChars hends hunit cs (c == '\n') m' fun hc => ?_
      rw [beq_iff_eq.mp hc] at hstep
      exact hends _ is m' hstep

/-- Indented lines are read like the lines without indentation. -/
theorem read_lines (hends : s.EndsLines)
    (hblank : ∀ c, c = ' ' ∨ c = '\t' → s.step s.idle c = some ([], s.idle)) (indent : Indent)
    (text : String) (levels : Nat) :
    s.read s.idle (indent.lines text levels).toList = s.read s.idle text.toList := by
  have hunit : ∀ c ∈ (replicate levels indent.unit).toList,
      s.step s.idle c = some ([], s.idle) := fun c hc =>
    hblank c (Indent.mem_unit (mem_of_mem_replicate hc))
  unfold Indent.lines indentLines
  rw [String.toList_ofList, read_indentChars hends hunit _ true s.idle fun _ => rfl]

end Scanner

end FeatureStudio.Text
