/-
  FeatureStudio.Proofs.Dialog.Description: descriptions keep their text.

  A description is written as literals with `~` between them, one a line.  Its lines are escaped one
  by one, so that no literal runs over the end of its line and indentation, which stands in front of
  lines only, is never put into one.  So wherever an annotation is rendered the literals give the
  description, with `<br>` for every line feed.

  Main statements:
    * `standsFor_describe`: a description on its own.
    * `StandsFor.continued`: indentation does not change what literals stand for.
    * `Shows.lines`: a description that is shown is still shown a level deeper.
    * `shows_annotations`, `shows_within`: in an annotation, and inside blocks around it.
    * `descriptions_shown`: in the annotations of parameters and features.
-/
import FeatureStudio.Proofs.Dialog.Reading

namespace FeatureStudio

open Build Render

/-! ## §1. Literals that are joined. -/

namespace Text

/-- The texts of literals with `~` between them. -/
def joinedTexts : List Lexeme → Option (List String)
  | [.literal text] => some [text]
  | .literal text :: .mark '~' :: rest => (joinedTexts rest).map (text :: ·)
  | _ => none

/-- The text with `<br>` for every line feed. -/
def withBreaks (text : String) : String :=
  String.ofList (text.toList.flatMap fun c => if c = '\n' then "<br>".toList else [c])

/-- The text is a row of literals that together stand for `value`.  Reading refuses a literal with a
line feed in it; there is no carriage return either. -/
structure StandsFor (literals value : String) : Prop where
  reads : ∃ texts, (lexemes literals).bind joinedTexts = some texts ∧ String.join texts = value
  bounds : ∃ inner, literals = "\"" ++ inner ++ "\""
  carriageReturn : '\r' ∉ literals.toList

theorem joinedTexts_intercalate : ∀ {texts : List String}, texts ≠ [] →
    joinedTexts ([.mark '~'].intercalate (texts.map fun text => [.literal text])) = some texts
  | [], hne => absurd rfl hne
  | [text], _ => rfl
  | text :: next :: rest, _ => by
      have hrest := joinedTexts_intercalate (List.cons_ne_nil next rest)
      have hlexemes : [Lexeme.mark '~'].intercalate
            ((text :: next :: rest).map fun text => [.literal text])
          = .literal text :: .mark '~'
            :: [.mark '~'].intercalate ((next :: rest).map fun text => [.literal text]) := by
        simp
      rw [hlexemes, joinedTexts, hrest]
      rfl

theorem carriageReturn_not_mem_quote (s : String) : '\r' ∉ (quote s).toList := by
  intro h
  rw [toList_quote, List.mem_cons, List.mem_append, List.mem_singleton, List.mem_flatMap] at h
  rcases h with h | ⟨c, -, hc⟩ | h
  · cases h
  · rcases escapeChar_cases c with ⟨d, hpair, hd, -⟩ | ⟨hself, -⟩
    · rw [hpair, List.mem_cons, List.mem_singleton] at hc
      rcases hc with hc | rfl
      · cases hc
      · cases hd
    · rw [hself, List.mem_singleton] at hc
      subst hc
      cases hself
  · cases h

/-! ## §2. Descriptions on their own. -/

/-- What the literals of a description stand for, line by line. -/
def lineTexts : List String → List String
  | [] => []
  | [line] => [line]
  | line :: next :: rest => (line ++ "<br>") :: lineTexts (next :: rest)

theorem lineTexts_ne_nil {lines : List String} (h : lines ≠ []) : lineTexts lines ≠ [] := by
  cases lines with
  | nil => exact absurd rfl h
  | cons line rest => cases rest <;> exact List.cons_ne_nil _ _

theorem quote_break (line : String) : quote (line ++ "<br>") = "\"" ++ escape line ++ "<br>\"" := by
  have hbreak : escape "<br>" = "<br>" := rfl
  have hclose : "<br>\"" = "<br>" ++ "\"" := rfl
  rw [quote, escape_append, hbreak, hclose]
  simp only [String.append_assoc]

/-- Literals that are put together line by line. -/
theorem intercalate_escape : ∀ {lines : List String}, lines ≠ [] →
    "\"" ++ "<br>\" ~\n\t\"".intercalate (lines.map escape) ++ "\""
      = " ~\n\t".intercalate ((lineTexts lines).map quote)
  | [], hne => absurd rfl hne
  | [line], _ => by simp [lineTexts, quote]
  | line :: next :: rest, _ => by
      have hne : lineTexts (next :: rest) ≠ [] := lineTexts_ne_nil (List.cons_ne_nil next rest)
      have hsep : "<br>\" ~\n\t\"" = "<br>\"" ++ " ~\n\t" ++ "\"" := rfl
      have hleft : "<br>\" ~\n\t\"".intercalate ((line :: next :: rest).map escape)
          = escape line ++ "<br>\" ~\n\t\""
            ++ "<br>\" ~\n\t\"".intercalate ((next :: rest).map escape) :=
        String.intercalate_cons_of_ne_nil (List.cons_ne_nil _ _)
      have hright : " ~\n\t".intercalate ((lineTexts (line :: next :: rest)).map quote)
          = quote (line ++ "<br>") ++ " ~\n\t"
            ++ " ~\n\t".intercalate ((lineTexts (next :: rest)).map quote) :=
        String.intercalate_cons_of_ne_nil (List.map_eq_nil_iff.not.mpr hne)
      rw [hleft, hright, ← intercalate_escape (List.cons_ne_nil next rest), quote_break, hsep]
      simp only [String.append_assoc]

theorem join_lineTexts : ∀ lines : List String,
    String.join (lineTexts lines) = "<br>".intercalate lines
  | [] => rfl
  | [line] => by simp [lineTexts]
  | line :: next :: rest => by
      rw [lineTexts, String.join_cons, join_lineTexts (next :: rest),
        String.intercalate_cons_of_ne_nil (List.cons_ne_nil next rest)]

theorem intercalate_pieces (sep cs : List Char) :
    sep.intercalate (pieces '\n' cs) = cs.flatMap fun c => if c = '\n' then sep else [c] := by
  induction cs with
  | nil => rfl
  | cons c cs ih =>
      obtain ⟨p, ps, hpieces⟩ := List.exists_cons_of_ne_nil (pieces_ne_nil '\n' cs)
      rw [List.flatMap_cons, ← ih, pieces, hpieces]
      dsimp only
      by_cases hc : c = '\n'
      · rw [if_pos hc, if_pos hc, List.intercalate_cons_of_ne_nil (List.cons_ne_nil p ps),
          List.nil_append]
      · rw [if_neg hc, if_neg hc]
        cases ps <;> simp

/-- The lines of a text with `<br>` between them. -/
theorem intercalate_split (text : String) :
    "<br>".intercalate (split '\n' text) = withBreaks text := by
  have hlines : (split '\n' text).map String.toList = pieces '\n' text.toList := by
    simp [split, Function.comp_def]
  apply String.toList_inj.mp
  rw [String.toList_intercalate, hlines, intercalate_pieces]
  exact (String.toList_ofList ..).symm

end Text

open Text

/-- **A description on its own** is a row of literals that stand for it. -/
theorem standsFor_describe (description : String) :
    StandsFor (describe description) (withBreaks description) := by
  let texts := lineTexts (split '\n' description)
  have hlines : split '\n' description ≠ [] := by
    simpa [split] using pieces_ne_nil '\n' description.toList
  have hdescribe : describe description = " ~\n\t".intercalate (texts.map quote) :=
    intercalate_escape hlines
  have hjoin : String.join texts = withBreaks description := by
    rw [join_lineTexts, intercalate_split]
  refine ⟨⟨texts, ?_, hjoin⟩, ⟨_, rfl⟩, ?_⟩
  · have hsep : Scans .idle " ~\n\t" [.mark '~'] .idle := by decide +kernel
    have hscans := Scans.intercalate hsep fun text (_ : text ∈ texts) => scans_quote text
    rw [hdescribe, hscans.lexemes_eq, Option.bind_some,
      joinedTexts_intercalate (lineTexts_ne_nil hlines)]
  · rw [hdescribe]
    refine not_mem_intercalate (by decide) fun literal hliteral => ?_
    obtain ⟨text, -, rfl⟩ := List.mem_map.mp hliteral
    exact carriageReturn_not_mem_quote text

/-- A quote, and a backslash in front of a line's end, are part of the text. -/
example : (lexemes (describe "2\" wide \\\n\r")).bind joinedTexts
    = some ["2\" wide \\<br>", "\r"] := by decide +kernel

/-! ## §3. Descriptions inside other text. -/

/-- The next character that is not blank. -/
def Text.nextMark? (text : String) : Option Char := text.toList.find? fun c => !Lexeme.isBlank c

theorem Text.nextMark?_append {a : String} {c : Char} (h : nextMark? a = some c) (b : String) :
    nextMark? (a ++ b) = some c := by
  unfold nextMark? at h ⊢
  rw [String.toList_append, List.find?_append, h]
  rfl

/-- A text within a line, with units in front of the lines that begin in it. -/
def Indent.within (indent : Indent) (text : String) : String :=
  String.ofList (indentChars indent.unit.toList false text.toList)

/-- In front of `rest`, the text has the literals of the description under its key, up to the end of
the entry, and the same around them for every description. -/
structure ShowsBetween (rest before behind key : String) (text : String → String) : Prop where
  opened : ∃ front, before = front ++ quote key ++ " : "
  closed : nextMark? (behind ++ rest) = some ',' ∨ nextMark? (behind ++ rest) = some '\x7d'
  literals : ∀ description, ∃ literals, text description = before ++ literals ++ behind ∧
    StandsFor literals (withBreaks description)

/-- The text shows every description under its key. -/
def Shows (rest key : String) (text : String → String) : Prop :=
  ∃ before behind, ShowsBetween rest before behind key text

section Indented

variable (indent : Indent)

/-- What is not in a unit is found where it was. -/
theorem Text.find?_indentChars {unit : List Char} {p : Char → Bool} (hunit : unit.find? p = none)
    (start : Bool) (cs : List Char) : (indentChars unit start cs).find? p = cs.find? p := by
  induction cs generalizing start with
  | nil => cases start <;> rfl
  | cons c cs ih =>
      cases start with
      | false => rw [indentChars, List.find?_cons, List.find?_cons, ih]
      | true =>
          unfold indentChars
          split
          · rw [List.find?_cons, List.find?_cons, ih]
          · rw [List.find?_append, hunit, Option.none_or, List.find?_cons, List.find?_cons, ih]

theorem Text.nextMark?_within (behind rest : String) :
    nextMark? (indent.within behind ++ rest) = nextMark? (behind ++ rest) := by
  have hunit : indent.unit.toList.find? (fun c => !Lexeme.isBlank c) = none := by
    rw [List.find?_eq_none]
    intro c hc
    rcases Indent.mem_unit hc with rfl | rfl
    · decide
    · decide
  unfold nextMark? Indent.within
  rw [String.toList_append, String.toList_append, List.find?_append, List.find?_append,
    String.toList_ofList, find?_indentChars hunit]

/-- Only the first line of a text can begin before it. -/
theorem Indent.within_append (a b : String) :
    indent.within (a ++ b) = indent.within a
      ++ if lineStart false a.toList then indent.lines b 1 else indent.within b := by
  apply String.toList_inj.mp
  rw [within, String.toList_ofList, String.toList_append, Text.indentChars_append,
    String.toList_append, within, String.toList_ofList]
  cases lineStart false a.toList with
  | false => rw [if_neg Bool.false_ne_true, within, String.toList_ofList]
  | true => rw [if_pos rfl, toList_lines_one]

/-- Behind a text that ends within a line that line goes on. -/
theorem Indent.lines_within {a : String} (h : lineStart true a.toList = false) (b : String) :
    indent.lines (a ++ b) 1 = indent.lines a 1 ++ indent.within b := by
  apply String.toList_inj.mp
  rw [toList_lines_one, String.toList_append, Text.indentChars_append, h, String.toList_append,
    toList_lines_one, within, String.toList_ofList]

/-- A piece of a line is as it was, but for a unit in front of it if it begins the line. -/
theorem Indent.exists_lines_piece {piece : String} (h : '\n' ∉ piece.toList) (hne : piece ≠ "")
    (a : String) : ∃ front, indent.lines (a ++ piece) 1 = front ++ piece := by
  have hchars : piece.toList ≠ [] := fun hnil => hne (String.toList_eq_nil_iff.mp hnil)
  cases hstart : lineStart true a.toList with
  | false =>
      refine ⟨indent.lines a 1, ?_⟩
      rw [indent.lines_within hstart, within, Text.indentChars_line h, String.ofList_toList]
  | true =>
      refine ⟨indent.lines a 1 ++ indent.unit, ?_⟩
      rw [Indent.lines_append hstart, String.append_assoc]
      refine congrArg (indent.lines a 1 ++ ·) (String.toList_inj.mp ?_)
      rw [toList_lines_one, Text.indentChars_start h hchars, String.toList_append]

end Indented

theorem Text.lineStart_quoted (start : Bool) (inner : String) :
    lineStart start ("\"" ++ inner ++ "\"").toList = false := by
  rw [String.toList_append, lineStart_append]
  rfl

/-- **Indentation does not change what literals stand for.** -/
theorem Text.StandsFor.within {literals value : String} (h : StandsFor literals value)
    (indent : Indent) : StandsFor (indent.within literals) value where
  reads := by
    have hsame : lexemes (indent.within literals) = lexemes literals := by
      unfold lexemes Scanner.items Indent.within
      rw [String.toList_ofList, Scanner.read_indentChars Lexeme.endsLines_scanner
        (fun c hc => ?_) _ false Lexeme.scanner.idle (fun h => by cases h)]
      rcases Indent.mem_unit hc with rfl | rfl
      · rfl
      · rfl
    rw [hsame]
    exact h.reads
  bounds := by
    -- the first quotation mark stays in front, and the last one at the end, be it behind units
    obtain ⟨inner, rfl⟩ := h.bounds
    have hquote : indent.within "\"" = "\"" := rfl
    have hopen : indent.within ("\"" ++ inner ++ "\"")
        = "\"" ++ indent.within (inner ++ "\"") := by
      rw [String.append_assoc, indent.within_append, hquote]
      rfl
    obtain ⟨inner', hclose⟩ : ∃ inner', indent.within (inner ++ "\"") = inner' ++ "\"" := by
      rw [indent.within_append]
      split
      · have hline : '\n' ∉ "\"".toList := by decide
        obtain ⟨front, hfront⟩ := indent.exists_lines_piece hline (by decide) ""
        rw [String.empty_append] at hfront
        rw [hfront, ← String.append_assoc]
        exact ⟨_, rfl⟩
      · exact ⟨_, congrArg _ hquote⟩
    exact ⟨inner', by rw [hopen, hclose, String.append_assoc]⟩
  carriageReturn hmem := by
    unfold Indent.within at hmem
    rw [String.toList_ofList] at hmem
    rcases mem_indentChars hmem with hunit | hold
    · rcases Indent.mem_unit hunit with hunit | hunit
      · cases hunit
      · cases hunit
    · exact h.carriageReturn hold

namespace Shows

variable {rest key : String} {text : String → String}

/-- A text that does not depend on the description, in front. -/
theorem prepend (h : Shows rest key text) (a : String) :
    Shows rest key fun d => a ++ text d := by
  obtain ⟨before, behind, ⟨front, hfront⟩, hclosed, hliterals⟩ := h
  refine ⟨a ++ before, behind, ⟨a ++ front, ?_⟩, hclosed, fun d => ?_⟩
  · simp only [hfront, String.append_assoc]
  · obtain ⟨literals, htext, hstands⟩ := hliterals d
    exact ⟨literals, by simp only [htext, String.append_assoc], hstands⟩

/-- A text that does not depend on the description, behind. -/
theorem append {b : String} (h : Shows (b ++ rest) key text) :
    Shows rest key fun d => text d ++ b := by
  obtain ⟨before, behind, hopened, hclosed, hliterals⟩ := h
  refine ⟨before, behind ++ b, hopened, ?_, fun d => ?_⟩
  · rwa [String.append_assoc]
  · obtain ⟨literals, htext, hstands⟩ := hliterals d
    exact ⟨literals, by simp only [htext, String.append_assoc], hstands⟩

/-- An entry that has ended has ended in front of any text. -/
theorem inFrontOf (h : Shows "" key text) (rest : String) : Shows rest key text := by
  obtain ⟨before, behind, hopened, hclosed, hliterals⟩ := h
  refine ⟨before, behind, hopened, ?_, hliterals⟩
  rw [String.append_empty] at hclosed
  exact hclosed.imp (nextMark?_append · rest) (nextMark?_append · rest)

/-- **A description that is shown is still shown a level deeper.** -/
theorem lines (h : Shows rest key text) (indent : Indent) :
    Shows rest key fun d => indent.lines (text d) 1 := by
  obtain ⟨before, behind, ⟨front, rfl⟩, hclosed, hliterals⟩ := h
  have hlabel : '\n' ∉ (quote key ++ " : ").toList := by
    rw [String.toList_append, List.mem_append, not_or]
    exact ⟨lineFeed_not_mem_quote key, by decide⟩
  have hne : quote key ++ " : " ≠ "" := fun h => by simp at h
  obtain ⟨front', hfront⟩ := indent.exists_lines_piece hlabel hne front
  refine ⟨front' ++ quote key ++ " : ", indent.within behind, ⟨front', rfl⟩, ?_, fun d => ?_⟩
  · rwa [nextMark?_within]
  · obtain ⟨literals, htext, hstands⟩ := hliterals d
    refine ⟨indent.within literals, ?_, hstands.within indent⟩
    -- neither the label nor the literals end a line
    have hstart : lineStart true (front ++ quote key ++ " : ").toList = false := by
      rw [String.toList_append, lineStart_append]
      rfl
    have hend : lineStart false literals.toList = false := by
      obtain ⟨inner, rfl⟩ := hstands.bounds
      exact lineStart_quoted false inner
    rw [htext, String.append_assoc, indent.lines_within hstart, indent.within_append, hend,
      if_neg Bool.false_ne_true, String.append_assoc, hfront]
    simp only [String.append_assoc]

/-- The entry of a description, in front of what ends it. -/
theorem entry (key : String) (h : nextMark? rest = some ',' ∨ nextMark? rest = some '\x7d') :
    Shows rest key fun d => quote key ++ " : " ++ describe d :=
  ⟨quote key ++ " : ", "", ⟨"", by rw [String.empty_append]⟩, by rwa [String.empty_append],
    fun d => ⟨describe d, by rw [String.append_empty], standsFor_describe d⟩⟩

end Shows

/-! ## §4. Annotations. -/

theorem Keyed.exists_put_eq {α : Type} (m : Keyed α) (key : String) :
    ∃ xs ys, ∀ value, put m key value = xs ++ (key, value) :: ys := by
  induction m with
  | nil => exact ⟨[], [], fun _ => rfl⟩
  | cons p m ih =>
      by_cases hp : p.1 = key
      · exact ⟨[], m, fun value => by rw [put, if_pos hp, hp]; rfl⟩
      · obtain ⟨xs, ys, hput⟩ := ih
        exact ⟨p :: xs, ys, fun value => by rw [put, if_neg hp, hput]; rfl⟩

/-- Texts in a row around one of them. -/
theorem Text.exists_intercalate_eq (sep : String) (xs ys : List String) :
    ∃ a b, (b = "" ∨ ∃ b', b = sep ++ b') ∧
      ∀ text, sep.intercalate (xs ++ text :: ys) = a ++ text ++ b := by
  obtain ⟨b, hb, hbehind⟩ : ∃ b, (b = "" ∨ ∃ b', b = sep ++ b') ∧
      ∀ text, sep.intercalate (text :: ys) = text ++ b := by
    by_cases hys : ys = []
    · subst hys
      exact ⟨"", .inl rfl, fun text => by simp⟩
    · exact ⟨sep ++ sep.intercalate ys, .inr ⟨_, rfl⟩, fun text => by
        rw [String.intercalate_cons_of_ne_nil hys, String.append_assoc]⟩
  by_cases hxs : xs = []
  · subst hxs
    exact ⟨"", b, hb, fun text => by rw [List.nil_append, hbehind, String.empty_append]⟩
  · refine ⟨sep.intercalate xs ++ sep, b, hb, fun text => ?_⟩
    rw [String.intercalate_append_of_ne_nil hxs (List.cons_ne_nil _ _), hbehind]
    simp only [String.append_assoc]

/-- A description is shown among the rows of a literal, in either layout. -/
theorem MapStyle.shows_braced (style : MapStyle) (indent : Indent) (key : String)
    (xs ys : List String) :
    Shows "" key fun d => style.braced indent (xs ++ (quote key ++ " : " ++ describe d) :: ys) := by
  have hbraced : ∀ text, style.braced indent (xs ++ text :: ys)
      = if style.inline then "\x7b " ++ ", ".intercalate (xs ++ text :: ys) ++ " \x7d"
        else "\x7b\n" ++ indent.lines (",\n".intercalate (xs ++ text :: ys) ++ "\n") 1 ++ "\x7d" :=
    fun text => if_neg (by simp)
  simp only [hbraced]
  -- the entries in front do not depend on the text, and those behind begin with a comma
  cases style.inline with
  | true =>
      obtain ⟨a, b, hb, hrow⟩ := exists_intercalate_eq ", " xs ys
      simp only [if_true, hrow]
      refine (((Shows.entry key ?_).prepend a).append.prepend _).append
      rcases hb with rfl | ⟨b', rfl⟩
      · exact .inr rfl
      · rw [String.append_assoc]
        exact .inl (nextMark?_append rfl _)
  | false =>
      obtain ⟨a, b, hb, hrow⟩ := exists_intercalate_eq ",\n" xs ys
      simp only [Bool.false_eq_true, if_false, hrow]
      refine (((((Shows.entry key ?_).prepend a).append.append.lines indent).prepend _)).append
      rcases hb with rfl | ⟨b', rfl⟩
      · exact .inr rfl
      · rw [String.append_assoc]
        exact .inl (nextMark?_append rfl _)

namespace MapBuilder

/-- All keys are quoted. -/
def QuotesKeys (m : MapBuilder) : Prop := m.style.quoteKeys = true ∧ m.style.bareKeys = []

theorem QuotesKeys.keyText {m : MapBuilder} (h : m.QuotesKeys) (key : String) :
    m.style.keyText key = quote key := by
  simp [MapStyle.keyText, h.1, h.2]

/-- The literal around a value that is written as it is. -/
theorem exists_literal_bare (m : MapBuilder) (key : String) :
    ∃ xs ys, ∀ value, (m.bare key value).literal
      = .mk { m.style with bareValues := m.style.bareValues ++ [key] }
          (xs ++ (key, value) :: ys) := by
  let present : String × Option Expr → Option (String × Expr) :=
    fun p => p.2.map fun e => (p.1, e)
  obtain ⟨xs, ys, hput⟩ := Keyed.exists_put_eq m.entries key
  refine ⟨xs.filterMap present, ys.filterMap present, fun value => ?_⟩
  have hpresent : (m.bare key value).present
      = (Keyed.put m.entries key (some value)).filterMap present := rfl
  rw [hput, List.filterMap_append, List.filterMap_cons] at hpresent
  rw [literal, hpresent]
  rfl

/-- A description is shown in the annotation that it is added to. -/
theorem shows_annotations {m : MapBuilder} (h : m.QuotesKeys) (key : String) (c : Context) :
    Shows "" key fun d =>
      ((Node.annotations (m.bare key (.token (describe d))).literal).build c).1 := by
  let style : MapStyle := { m.style with bareValues := m.style.bareValues ++ [key] }
  obtain ⟨xs, ys, hliteral⟩ := m.exists_literal_bare key
  let row : String × Expr → String := fun p => style.entryText p.1 (p.2.textIn c.inAnnotation)
  -- an exempt value is written as it is, the other rows do not change with it
  have hrow : ∀ d, row (key, .token (describe d)) = quote key ++ " : " ++ describe d := fun d => by
    have hkey : style.keyText key = quote key := h.keyText key
    have hvalue : style.valueText key (describe d) = describe d :=
      MapStyle.valueText_bare (by simp [style]) _
    simp only [row, MapStyle.entryText, Expr.textIn_token, hkey, hvalue]
  have htext : ∀ d, ((Node.annotations (m.bare key (.token (describe d))).literal).build c).1
      = "annotation " ++ style.typed (style.braced c.indent
          (xs.map row ++ (quote key ++ " : " ++ describe d) :: ys.map row)) ++ "\n" := fun d => by
    obtain ⟨ds, hbuild⟩ := Node.build_annotations (m.bare key (.token (describe d))).literal c
    rw [hbuild, hliteral, ← hrow d, ← List.map_cons, ← List.map_append]
    rfl
  simp only [htext]
  have hbraced := style.shows_braced c.indent key (xs.map row) (ys.map row)
  refine (Shows.prepend ?_ _).append
  unfold MapStyle.typed
  cases style.typeName with
  | none => exact hbraced.inFrontOf _
  | some typeName => exact ((hbraced.inFrontOf _).append).append

/-! Entries of the kinds that annotations are made of leave the keys quoted. -/

namespace QuotesKeys

variable {m : MapBuilder}

theorem text (h : m.QuotesKeys) (key value : String) : (m.text key value).QuotesKeys := h

theorem bare (h : m.QuotesKeys) (key : String) (e : Expr) : (m.bare key e).QuotesKeys := h

theorem addTexts (h : m.QuotesKeys) (texts : List (String × String)) :
    (texts.foldl (fun m p => m.text p.1 p.2) m).QuotesKeys := by
  induction texts generalizing m with
  | nil => exact h
  | cons p texts ih => exact ih (h.text p.1 p.2)

theorem addBare (h : m.QuotesKeys) (key : String) (e : Option Expr) :
    (ParameterAnnotations.addBare m key e).QuotesKeys := by
  cases e with
  | none => exact h
  | some e => exact h.bare key e

theorem addDefault (h : m.QuotesKeys) (d : Option DefaultValue) :
    (ParameterAnnotations.addDefault m d).QuotesKeys := by
  cases d with
  | none => exact h
  | some d => cases d <;> exact h

theorem addHints (h : m.QuotesKeys) (hints : Option UiHints) :
    (ParameterAnnotations.addHints m hints).QuotesKeys := by
  cases hints with
  | none => exact h
  | some hints =>
      unfold ParameterAnnotations.addHints
      dsimp only
      split
      · exact h
      · exact h.bare _ _

end QuotesKeys

end MapBuilder

/-- The annotation of a parameter shows every description. -/
theorem ParameterAnnotations.shows_description (a : ParameterAnnotations) (c : Context) :
    Shows "" "Description" fun d =>
      ((Node.annotations { a with description := some d : ParameterAnnotations }.literal).build
        c).1 := by
  have hempty : MapBuilder.QuotesKeys { style := { quoteValues := true } } := ⟨rfl, rfl⟩
  have hsettings := ((((hempty.text "Name" a.label).addDefault a.default).addHints a.hints).addBare
    "Filter" a.filter).addBare "MaxNumberOfPicks" (a.maxPicks.map fun n => .token (toString n))
  exact MapBuilder.shows_annotations (hsettings.addTexts a.additional) "Description" c

/-- The annotation of a feature shows every description. -/
theorem FeatureAnnotations.shows_description (a : FeatureAnnotations) (c : Context) :
    Shows "" "Feature Type Description" fun d =>
      ((Node.annotations { a with description := some d : FeatureAnnotations }.literal).build
        c).1 := by
  let titled : MapBuilder :=
    (MapBuilder.text { style := { quoteValues := true, inline := false } } "Feature Type Name"
      a.title).text "UIHint" "NO_PREVIEW_PROVIDED"
  let tagged : MapBuilder :=
    if a.filterTags.isEmpty then titled
    else titled.bare "Filter Selector"
      (.token ("[" ++ ", ".intercalate (a.filterTags.map Text.quote) ++ "]"))
  have htitled : titled.QuotesKeys := ⟨rfl, rfl⟩
  have htagged : tagged.QuotesKeys := by
    unfold tagged
    split
    · exact htitled
    · exact htitled.bare _ _
  exact MapBuilder.shows_annotations (htagged.addTexts a.texts) "Feature Type Description" c

/-! ## §5. Blocks around annotations. -/

/-- A block around a node: the statements before and behind it, set apart by blank lines or not. -/
structure Surrounding where
  spaced : Bool := false
  before : List Node := []
  behind : List Node := []

/-- The node inside blocks, the outermost block first. -/
def Node.within (n : Node) : List Surrounding → Node
  | [] => n
  | s :: rest => .block s.spaced (s.before ++ n.within rest :: s.behind)

theorem Render.Join.exists_row_eq (join : Join) (xs ys : List String) :
    ∃ a b, ∀ text, join.row (xs ++ text :: ys) = a ++ text ++ b := by
  obtain ⟨a, b, -, hrow⟩ := exists_intercalate_eq (join.separator ++ join.ending) xs ys
  refine ⟨a, b ++ join.ending, fun text => ?_⟩
  rw [← join.row_eq (by simp), hrow, String.append_assoc]

/-- How the statements of a block are joined. -/
def Render.blockJoin (spaced : Bool) (c : Context) : Join where
  separator := if spaced || c.state.inUi then "\n" else ""
  indented := true
  scope := some .statement

/-- The text of a block, from the texts of its statements. -/
theorem Node.build_block (spaced : Bool) (body : List Node) (c : Context) :
    ((Node.block spaced body).build c).1
      = "\x7b\n" ++ (blockJoin spaced c).text c.indent (body.map fun n => (n.rendered
          { scope := (blockJoin spaced c).scope } ((blockJoin spaced c).inner c).fresh).1)
        ++ "\x7d\n" := by
  have hjoined : joined (blockJoin spaced c) (buildAll body) c = _ :=
    joined_of_runAll (runAll_eq_fresh _ body _)
  show "\x7b\n" ++ (joined (blockJoin spaced c) (buildAll body) c).1 ++ "\x7d\n" = _
  rw [hjoined]

/-- What is shown by a node is shown by a block around it. -/
theorem shows_block {key : String} {node : String → Node}
    (h : ∀ (o : Overrides) (c : Context), Shows "" key fun d => (run o (node d).build c).1)
    (s : Surrounding) (o : Overrides) (c : Context) :
    Shows "" key fun d =>
      (run o (Node.block s.spaced (s.before ++ node d :: s.behind)).build c).1 := by
  let inner := c.save.withState (·.override o)
  let join := blockJoin s.spaced inner
  let text : Node → String :=
    fun n => (n.rendered { scope := join.scope } (join.inner inner).fresh).1
  obtain ⟨a, b, hrow⟩ := join.exists_row_eq (s.before.map text) (s.behind.map text)
  have htext : ∀ d, (run o (Node.block s.spaced (s.before ++ node d :: s.behind)).build c).1
      = "\x7b\n" ++ inner.indent.lines (a ++ text (node d) ++ b) 1 ++ "\x7d\n" := fun d => by
    have hbuild := Node.build_block s.spaced (s.before ++ node d :: s.behind) inner
    rw [List.map_append, List.map_cons, Join.text, hrow] at hbuild
    exact hbuild
  simp only [htext]
  have hnode := h { scope := join.scope } (join.inner inner).fresh
  exact ((((hnode.inFrontOf _).prepend a).append.lines inner.indent).prepend _).append

/-- What is shown by a node is shown by any blocks around it. -/
theorem shows_within {key : String} {node : String → Node}
    (h : ∀ (o : Overrides) (c : Context), Shows "" key fun d => (run o (node d).build c).1)
    (around : List Surrounding) (o : Overrides) (c : Context) :
    Shows "" key fun d => (run o ((node d).within around).build c).1 := by
  induction around generalizing o c with
  | nil => exact h o c
  | cons s rest ih => exact shows_block ih s o c

/-- **Every description is shown by the annotations of parameters and features**, in any context and
inside any blocks. -/
theorem descriptions_shown :
    (∀ d, StandsFor (describe d) (withBreaks d)) ∧
    (∀ (a : ParameterAnnotations) (around : List Surrounding) (o : Overrides) (c : Context),
      Shows "" "Description" fun d => (run o ((Node.annotations
        { a with description := some d : ParameterAnnotations }.literal).within around).build
          c).1) ∧
    ∀ (a : FeatureAnnotations) (around : List Surrounding) (o : Overrides) (c : Context),
      Shows "" "Feature Type Description" fun d => (run o ((Node.annotations
        { a with description := some d : FeatureAnnotations }.literal).within around).build
          c).1 :=
  ⟨standsFor_describe, fun a => shows_within fun _ _ => a.shows_description _,
    fun a => shows_within fun _ _ => a.shows_description _⟩

end FeatureStudio
