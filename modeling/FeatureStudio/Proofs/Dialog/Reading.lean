/-
  FeatureStudio.Proofs.Dialog.Reading: annotations of texts, read back.

  An annotation is read as a word and a map of keys to literals or words.  Whatever the texts say, a
  literal ends where it was ended and an entry where it was written, so what is read is what was put
  in, of a repeated key the last text.

  Main statements:
    * `readEntries_intercalate`: entries with commas between them are read back.
    * `scans_braced`: what a literal gives, in either layout.
    * `readAnnotation_annotationIn`: an annotation of texts, indented or not, read back.
-/
import FeatureStudio.Dialog.Annotations
import FeatureStudio.Proofs.Keyed
import FeatureStudio.Proofs.Render.Literal
import FeatureStudio.Proofs.Text.Lexeme

namespace FeatureStudio

open Build Render

/-! ## §1. Reading maps. -/

namespace Text

/-- Values that are read: literals and words. -/
def Lexeme.isValue : Lexeme → Bool
  | .literal _ | .word _ => true
  | .mark _ => false

/-- Reads entries up to the brace behind them: the keys with their values, and what follows. -/
def readEntries : List Lexeme → Option (List (String × Lexeme) × List Lexeme)
  | .literal key :: .mark ':' :: value :: .mark ',' :: rest =>
    if value.isValue then (readEntries rest).map fun p => ((key, value) :: p.1, p.2) else none
  | .literal key :: .mark ':' :: value :: .mark '\x7d' :: rest =>
    if value.isValue then some ([(key, value)], rest) else none
  | _ => none

/-- Reads an annotation: its entries, and what follows. -/
def readAnnotation : List Lexeme → Option (List (String × Lexeme) × List Lexeme)
  | .word "annotation" :: .mark '\x7b' :: .mark '\x7d' :: rest => some ([], rest)
  | .word "annotation" :: .mark '\x7b' :: rest => readEntries rest
  | _ => none

/-- The lexemes of an entry. -/
def entryLexemes (p : String × Lexeme) : List Lexeme := [.literal p.1, .mark ':', p.2]

/-- Entries with commas between them are read back. -/
theorem readEntries_intercalate (rest : List Lexeme) :
    ∀ {ps : List (String × Lexeme)}, ps ≠ [] → (∀ p ∈ ps, p.2.isValue) →
      readEntries ([.mark ','].intercalate (ps.map entryLexemes) ++ .mark '\x7d' :: rest)
        = some (ps, rest)
  | [], hne, _ => absurd rfl hne
  | [p], _, h => by
      have hvalue := h p List.mem_cons_self
      have hentry : readEntries (.literal p.1 :: .mark ':' :: p.2 :: .mark '\x7d' :: rest)
          = if p.2.isValue then some ([p], rest) else none := rfl
      rw [if_pos hvalue] at hentry
      simpa [entryLexemes] using hentry
  | p :: next :: ps, _, h => by
      have hvalue := h p List.mem_cons_self
      have hrest := readEntries_intercalate rest (List.cons_ne_nil next ps) fun q hq =>
        h q (List.mem_cons_of_mem _ hq)
      -- the comma behind the first entry tells that there is another
      have hentry : ∀ ls, readEntries (.literal p.1 :: .mark ':' :: p.2 :: .mark ',' :: ls)
          = if p.2.isValue then (readEntries ls).map fun q => (p :: q.1, q.2) else none :=
        fun ls => rfl
      have hlexemes : [.mark ','].intercalate ((p :: next :: ps).map entryLexemes)
          = .literal p.1 :: .mark ':' :: p.2 :: .mark ','
            :: [.mark ','].intercalate ((next :: ps).map entryLexemes) := by
        simp [entryLexemes]
      rw [hlexemes, List.cons_append, List.cons_append, List.cons_append, List.cons_append, hentry,
        if_pos hvalue, hrest]
      rfl

/-- An annotation with entries is read back. -/
theorem readAnnotation_append {ps : List (String × Lexeme)} (h : ∀ p ∈ ps, p.2.isValue)
    (rest : List Lexeme) :
    readAnnotation (.word "annotation" :: .mark '\x7b' ::
        ([.mark ','].intercalate (ps.map entryLexemes) ++ .mark '\x7d' :: rest))
      = some (ps, rest) := by
  cases ps with
  | nil => rfl
  | cons p ps =>
      have hentries := readEntries_intercalate rest (List.cons_ne_nil p ps) h
      -- an entry begins with a literal, so the map is not the empty one
      obtain ⟨ls, hls⟩ : ∃ ls, [.mark ','].intercalate ((p :: ps).map entryLexemes)
          = .literal p.1 :: ls := by
        cases ps <;> simp [entryLexemes]
      rw [← hentries, hls]
      rfl

end Text

/-! ## §2. What literals give. -/

open Text

/-- **What a literal gives**, in either layout. -/
theorem scans_braced (style : MapStyle) (indent : Indent) {α : Type} {row : α → String}
    {given : α → List Lexeme} {as : List α} (h : ∀ a ∈ as, Scans .idle (row a) (given a) .idle) :
    Scans .idle (style.braced indent (as.map row))
      (.mark '\x7b' :: ([.mark ','].intercalate (as.map given) ++ [.mark '\x7d'])) .idle := by
  have hopen : Scans .idle "\x7b " [.mark '\x7b'] .idle := by decide +kernel
  have hopenLine : Scans .idle "\x7b\n" [.mark '\x7b'] .idle := by decide +kernel
  have hclose : Scans .idle " \x7d" [.mark '\x7d'] .idle := by decide +kernel
  have hcloseLine : Scans .idle "\x7d" [.mark '\x7d'] .idle := by decide +kernel
  have hcomma : Scans .idle ", " [.mark ','] .idle := by decide +kernel
  have hcommaLine : Scans .idle ",\n" [.mark ','] .idle := by decide +kernel
  have hlineFeed : Scans .idle "\n" [] .idle := by decide +kernel
  unfold MapStyle.braced
  cases as with
  | nil =>
      have hempty : Scans .idle "\x7b\x7d" [.mark '\x7b', .mark '\x7d'] .idle := by decide +kernel
      exact hempty
  | cons a as =>
      rw [if_neg (by simp)]
      cases style.inline with
      | true => exact (hopen.append (.intercalate hcomma h)).append hclose
      | false =>
          -- the rows end with a line feed, so that the brace behind them starts a line
          have hbody := ((Scans.intercalate hcommaLine h).append hlineFeed).lines indent 1
          rw [List.append_nil] at hbody
          exact (hopenLine.append hbody).append hcloseLine

/-- An entry whose key and text are quoted. -/
theorem scans_quotedEntry (p : String × String) :
    Scans .idle (quote p.1 ++ " : " ++ quote p.2) (entryLexemes (p.1, .literal p.2)) .idle := by
  have hcolon : Scans .idle " : " [.mark ':'] .idle := by decide +kernel
  exact ((scans_quote p.1).append hcolon).append (scans_quote p.2)

/-! ## §3. Annotations of texts. -/

/-- Entries that are set one after the other. -/
theorem MapBuilder.foldl_entry {α : Type} (value : α → Expr) (pairs : List (String × α))
    (m : MapBuilder) :
    pairs.foldl (fun m p => m.entry p.1 (value p.2)) m
      = { m with
          entries := pairs.foldl (fun es p => Keyed.put es p.1 (some (value p.2))) m.entries } := by
  induction pairs generalizing m with
  | nil => rfl
  | cons p pairs ih =>
      rw [List.foldl_cons, ih]
      rfl

theorem annotationOfPairs_eq (pairs : List (String × String)) :
    annotationOfPairs pairs
      = .mk { quoteValues := true } ((Keyed.lastPairs pairs).map fun p => (p.1, .token p.2)) := by
  have hbuilder : MapBuilder.ofPairs (pairs.map fun p => (p.1, .token p.2))
      = { entries := Keyed.ofList (pairs.map fun p => (p.1, some (.token p.2))) } := by
    unfold MapBuilder.ofPairs Keyed.ofList
    rw [List.foldl_map, List.foldl_map]
    exact MapBuilder.foldl_entry Expr.token pairs {}
  unfold annotationOfPairs MapBuilder.literal MapBuilder.present
  rw [MapBuilder.entries_quoteValues, hbuilder]
  simp only [Keyed.ofList_map fun text => some (Expr.token text), Keyed.ofList_eq_lastPairs,
    List.filterMap_map]
  exact congrArg _ (congrFun List.filterMap_eq_map _)

/-- An annotation of texts, in either layout. -/
def annotationIn (inline : Bool) (pairs : List (String × String)) : MapLiteral :=
  .mk { (annotationOfPairs pairs).style with inline } (annotationOfPairs pairs).entries

/-- Texts as values that are read. -/
def literalEntries (pairs : List (String × String)) : List (String × Lexeme) :=
  pairs.map fun p => (p.1, .literal p.2)

theorem isValue_literalEntries (pairs : List (String × String)) :
    ∀ p ∈ literalEntries pairs, p.2.isValue := by
  intro p hp
  obtain ⟨q, -, rfl⟩ := List.mem_map.mp hp
  rfl

/-- What an annotation of texts gives, in every context. -/
theorem scans_annotationIn (inline : Bool) (pairs : List (String × String)) (c : Context) :
    Scans .idle ((Node.annotations (annotationIn inline pairs)).build c).1
      (.word "annotation" :: .mark '\x7b' ::
        ([.mark ','].intercalate ((literalEntries (Keyed.lastPairs pairs)).map entryLexemes)
          ++ [.mark '\x7d'])) .idle := by
  obtain ⟨ds, hbuild⟩ := Node.build_annotations (annotationIn inline pairs) c
  have hword : Scans .idle "annotation " [.word "annotation"] .idle := by decide +kernel
  have hlineFeed : Scans .idle "\n" [] .idle := by decide +kernel
  let style : MapStyle := { quoteValues := true, inline }
  have hmade : annotationIn inline pairs
      = .mk style ((Keyed.lastPairs pairs).map fun p => (p.1, .token p.2)) := by
    rw [annotationIn, annotationOfPairs_eq]
    rfl
  have hrow : ∀ p : String × String,
      style.entryText p.1 p.2 = quote p.1 ++ " : " ++ quote p.2 := fun p => by
    simp [style, MapStyle.entryText, MapStyle.keyText, MapStyle.valueText]
  have hliteral : (annotationIn inline pairs).text c.inAnnotation
      = style.braced c.indent
          ((Keyed.lastPairs pairs).map fun p => quote p.1 ++ " : " ++ quote p.2) := by
    rw [hmade, MapLiteral.text, MapLiteral.style, MapLiteral.entries, List.map_map]
    simp only [Function.comp_def, Expr.textIn_token, hrow]
    rfl
  have hbraced : Scans .idle (style.braced c.indent
      ((Keyed.lastPairs pairs).map fun p => quote p.1 ++ " : " ++ quote p.2)) _ .idle :=
    scans_braced style c.indent fun p _ => scans_quotedEntry p
  rw [hbuild, hliteral, literalEntries, List.map_map]
  -- the word, the literal with its entries, and the line feed are scanned one after the other
  have hall := (hword.append hbraced).append hlineFeed
  rwa [List.append_nil] at hall

/-- **An annotation of texts reads back as what was put in**, of a repeated key the last text where
the key came first.  It does so in both layouts, wherever it is rendered, with any indentation added
to it afterwards, and in front of any text, of which it takes nothing. -/
theorem readAnnotation_annotationIn (inline : Bool) (pairs : List (String × String)) (o : Overrides)
    (c : Context) (layers : List (Indent × Nat)) (after : String) :
    let text := (run o (Node.annotations (annotationIn inline pairs)).build c).1
    (lexemes (layered layers (text ++ after))).bind readAnnotation
      = (lexemes after).map fun rest => (literalEntries (Keyed.lastPairs pairs), rest) := by
  intro text
  have hgives : Scans .idle text _ .idle :=
    scans_annotationIn inline pairs (c.save.withState (·.override o))
  -- the text ends between lexemes, so what stands behind it is read on its own
  rw [lexemes_layered, lexemes_append hgives]
  cases lexemes after with
  | none => rfl
  | some rest =>
      have hread := readAnnotation_append (isValue_literalEntries (Keyed.lastPairs pairs)) rest
      simpa using hread

/-- A text that looks like another entry is one text. -/
example : (lexemes ((run {} (Node.annotations (annotationOfPairs
    [("Name", "a\", \"Hidden\" : \"\n"), ("Default", "b"), ("Name", "\"\x7d\\")])).build {}).1
      ++ "WALL;")).bind readAnnotation
    = some ([("Name", .literal "\"\x7d\\"), ("Default", .literal "b")],
      [.word "WALL", .mark ';']) := by
  rfl

end FeatureStudio
