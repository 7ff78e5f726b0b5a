/-
  FeatureStudio.Proofs.Text.Lexeme: the lexemes of a declaration.

  A declaration is read as string literals, words and single characters.  A literal is the text that
  it stands for; it may not run over the end of a line.  Blanks set lexemes apart and are dropped,
  so that indentation does not change them.

  Main statements:
    * `Scans.append`, `Scans.intercalate`: texts in a row give their lexemes in a row.
    * `scans_quote`: a quoted text is one lexeme, which is the text again.
    * `lexemes_layered`: indentation does not change the lexemes.
-/
import FeatureStudio.Proofs.Text.Literal
import FeatureStudio.Proofs.Text.Scanner
import FeatureStudio.Text.Name

namespace FeatureStudio.Text

/-! ## §1. Lexemes. -/

/-- A lexeme of a declaration. -/
inductive Lexeme where
  /-- A string literal, as the text that it stands for. -/
  | literal (text : String)
  /-- An identifier, a dotted path or a number without a sign. -/
  | word (text : String)
  /-- Any other character that is not blank. -/
  | mark (c : Char)
  deriving DecidableEq, Repr

namespace Lexeme

/-- What has been read of a lexeme. -/
inductive Mode where
  | idle
  | word (begun : List Char)
  /-- Inside a literal, which stands for the characters so far. -/
  | literal (begun : List Char)
  /-- After a backslash inside a literal. -/
  | escaped (begun : List Char)
  deriving DecidableEq, Repr

/-- Characters that set lexemes apart. -/
def isBlank (c : Char) : Bool := c = ' ' || c = '\n' || c = '\t' || c = '\r'

/-- Reads a character between lexemes. -/
def start (c : Char) : List Lexeme × Mode :=
  if isBlank c then ([], .idle)
  else if c = '"' then ([], .literal [])
  else if isWordChar c then ([], .word [c])
  else ([.mark c], .idle)

/-- Whether a character goes on with a word. -/
def continues (c : Char) : Bool := isWordChar c || c = '.'

/-- Reads a character. -/
def step : Mode → Char → Option (List Lexeme × Mode)
  | .idle, c => some (start c)
  | .word begun, c =>
    if continues c then some ([], .word (begun ++ [c]))
    else some (.word (String.ofList begun) :: (start c).1, (start c).2)
  | .literal begun, c =>
    if c = '\n' then none
    else if c = '"' then some ([.literal (String.ofList begun)], .idle)
    else if c = '\\' then some ([], .escaped begun)
    else some ([], .literal (begun ++ [c]))
  | .escaped begun, c => (unescape? c).map fun d => ([], .literal (begun ++ [d]))

/-- The lexeme that is complete at the end of the text. -/
def finish : Mode → Option (List Lexeme)
  | .idle => some []
  | .word begun => some [.word (String.ofList begun)]
  | .literal _ | .escaped _ => none

/-- The reader of lexemes. -/
def scanner : Scanner Mode Lexeme := ⟨.idle, step, finish⟩

theorem start_word {c : Char} (h : isWordChar c) : start c = ([], .word [c]) := by
  have hblank : isBlank c = false := by
    cases hb : isBlank c with
    | false => rfl
    | true =>
        simp only [isBlank, Bool.or_eq_true, decide_eq_true_eq] at hb
        rcases hb with ((rfl | rfl) | rfl) | rfl <;> exact absurd h (by decide)
  have hquote : c ≠ '"' := by
    rintro rfl
    exact absurd h (by decide)
  rw [start, hblank, if_neg Bool.false_ne_true, if_neg hquote, if_pos h]

/-- Behind a line feed nothing is begun, and in a literal there is none. -/
theorem endsLines_scanner : scanner.EndsLines := by
  intro m is m' h
  cases m with
  | idle => cases h; rfl
  | word begun => cases h; rfl
  | literal begun => cases h
  | escaped begun => cases h

/-- Indentation is not seen. -/
theorem read_lines (indent : Indent) (text : String) (levels : Nat) :
    scanner.read .idle (indent.lines text levels).toList = scanner.read .idle text.toList := by
  refine Scanner.read_lines endsLines_scanner ?_ indent text levels
  rintro c (rfl | rfl)
  · rfl
  · rfl

end Lexeme

open Lexeme (scanner)

/-- The lexemes of a text. -/
def lexemes (text : String) : Option (List Lexeme) := scanner.items text.toList

example : lexemes "export enum A \x7b \"\\\"\x7d\" \x7d" = some
    [.word "export", .word "enum", .word "A", .mark '\x7b', .literal "\"\x7d", .mark '\x7d'] := by
  decide +kernel

/-! ## §2. What texts give. -/

/-- From the mode `m` the text gives the lexemes, and leads to the mode `m'`. -/
def Scans (m : Lexeme.Mode) (text : String) (ls : List Lexeme) (m' : Lexeme.Mode) : Prop :=
  scanner.read m text.toList = some (ls, m')

instance (m : Lexeme.Mode) (text : String) (ls : List Lexeme) (m' : Lexeme.Mode) :
    Decidable (Scans m text ls m') :=
  inferInstanceAs (Decidable (_ = _))

namespace Scans

variable {m m' m'' : Lexeme.Mode} {a b : String} {ls ls' : List Lexeme}

theorem append (ha : Scans m a ls m') (hb : Scans m' b ls' m'') :
    Scans m (a ++ b) (ls ++ ls') m'' := by
  unfold Scans
  rw [String.toList_append]
  exact Scanner.read_append_eq_some ha hb

/-- Texts with a separator between them. -/
theorem intercalate {sep : String} {between : List Lexeme} (hsep : Scans .idle sep between .idle)
    {α : Type} {text : α → String} {given : α → List Lexeme} :
    ∀ {as : List α}, (∀ a ∈ as, Scans .idle (text a) (given a) .idle) →
      Scans .idle (sep.intercalate (as.map text)) (between.intercalate (as.map given)) .idle
  | [], _ => rfl
  | [a], h => by
      simpa using h a List.mem_cons_self
  | a :: next :: rest, h => by
      have hrest : Scans .idle (sep.intercalate ((next :: rest).map text))
          (between.intercalate ((next :: rest).map given)) .idle :=
        intercalate hsep fun a' ha' => h a' (List.mem_cons_of_mem _ ha')
      have hall := ((h a List.mem_cons_self).append hsep).append hrest
      simpa [String.intercalate_cons_cons] using hall

/-- Indented lines give what they give without indentation. -/
theorem lines (h : Scans .idle a ls m) (indent : Indent) (levels : Nat) :
    Scans .idle (indent.lines a levels) ls m :=
  (Lexeme.read_lines indent a levels).trans h

end Scans

/-- The lexemes of a text in front of another one. -/
theorem lexemes_append {a : String} {ls : List Lexeme} (h : Scans .idle a ls .idle) (b : String) :
    lexemes (a ++ b) = (lexemes b).map (ls ++ ·) := by
  unfold lexemes
  rw [String.toList_append]
  exact Scanner.items_append h b.toList

theorem Scans.lexemes_eq {a : String} {ls : List Lexeme} (h : Scans .idle a ls .idle) :
    lexemes a = some ls := by
  have hnone : lexemes "" = some [] := rfl
  simpa [hnone] using lexemes_append h ""

/-! ## §3. Literals and words. -/

theorem read_escapeChar (c : Char) (begun : List Char) :
    scanner.read (.literal begun) (escapeChar c) = some ([], .literal (begun ++ [c])) := by
  rcases escapeChar_cases c with ⟨d, hpair, hd, -⟩ | ⟨hself, hbackslash, hquote, hlineFeed⟩
  · have hbackslash : scanner.step (.literal begun) '\\' = some ([], .escaped begun) := rfl
    have hescaped : scanner.step (.escaped begun) d = some ([], .literal (begun ++ [c])) := by
      show (unescape? d).map _ = _
      rw [hd]
      rfl
    rw [hpair, Scanner.read_cons_nil hbackslash]
    exact Scanner.read_singleton hescaped
  · rw [hself]
    refine Scanner.read_singleton ?_
    show (if c = '\n' then none else if c = '"' then _ else if c = '\\' then _ else _) = _
    rw [if_neg hlineFeed, if_neg hquote, if_neg hbackslash]

theorem read_escaped (cs begun : List Char) :
    scanner.read (.literal begun) (cs.flatMap escapeChar) = some ([], .literal (begun ++ cs)) := by
  induction cs generalizing begun with
  | nil => simp [Scanner.read]
  | cons c cs ih =>
      rw [List.flatMap_cons, Scanner.read_append (read_escapeChar c begun), ih]
      simp

/-- **A quoted text is one lexeme, which is the text again.** -/
theorem scans_quote (s : String) : Scans .idle (quote s) [.literal s] .idle := by
  have hopen : scanner.step .idle '"' = some ([], .literal []) := rfl
  have hclose : scanner.step (.literal s.toList) '"'
      = some ([.literal (String.ofList s.toList)], .idle) := rfl
  unfold Scans
  rw [toList_quote, Scanner.read_cons_nil hopen,
    Scanner.read_append (read_escaped s.toList []), List.nil_append]
  show (scanner.read (.literal s.toList) ['"']).map _ = _
  rw [Scanner.read_singleton hclose, String.ofList_toList]
  rfl

theorem read_continued (begun : List Char) {cs : List Char} (h : ∀ c ∈ cs, Lexeme.continues c) :
    scanner.read (.word begun) cs = some ([], .word (begun ++ cs)) := by
  induction cs generalizing begun with
  | nil => simp [Scanner.read]
  | cons c cs ih =>
      have hstep : scanner.step (.word begun) c = some ([], .word (begun ++ [c])) :=
        if_pos (h c List.mem_cons_self)
      rw [Scanner.read_cons_nil hstep, ih _ fun c' hc' => h c' (List.mem_cons_of_mem _ hc')]
      simp

/-- An identifier is a word, which may go on. -/
theorem scans_identifier {name : String} (h : isIdentifier name) :
    Scans .idle name [] (.word name.toList) := by
  have hwords := isWordChar_of_isIdentifier h
  unfold Scans
  cases hname : name.toList with
  | nil =>
      unfold isIdentifier at h
      rw [hname] at h
      cases h
  | cons c cs =>
      rw [hname] at hwords
      have hstart : scanner.step .idle c = some ([], .word [c]) :=
        congrArg some (Lexeme.start_word (hwords c List.mem_cons_self))
      have hrest : ∀ c' ∈ cs, Lexeme.continues c' := fun c' hc' => by
        simp [Lexeme.continues, hwords c' (List.mem_cons_of_mem _ hc')]
      rw [Scanner.read_cons_nil hstart, read_continued [c] hrest]
      rfl

/-- A word ends in front of a character that does not go on with it. -/
theorem Scans.afterWord {text : String} {ls : List Lexeme} {m : Lexeme.Mode}
    (h : Scans .idle text ls m) {c : Char} {cs : List Char} (htext : text.toList = c :: cs)
    (hc : Lexeme.continues c = false) (word : String) :
    Scans (.word word.toList) text (.word word :: ls) m := by
  have hidle : scanner.step .idle c = some (Lexeme.start c) := rfl
  have hword : scanner.step (.word word.toList) c
      = some (.word word :: (Lexeme.start c).1, (Lexeme.start c).2) := by
    show (if Lexeme.continues c then _ else _) = _
    rw [hc, if_neg Bool.false_ne_true, String.ofList_toList]
  generalize Lexeme.start c = p at hidle hword
  unfold Scans at h ⊢
  rw [htext, Scanner.read_cons hidle] at h
  obtain ⟨q, hq, hls⟩ := Option.map_eq_some_iff.mp h
  cases hls
  rw [htext, Scanner.read_cons hword, hq]
  rfl

/-- Indentation added again and again, the innermost first. -/
def layered (layers : List (Indent × Nat)) (text : String) : String :=
  layers.foldl (fun text layer => layer.1.lines text layer.2) text

/-- **Indentation does not change the lexemes**, however often it is added. -/
theorem lexemes_layered (layers : List (Indent × Nat)) (text : String) :
    lexemes (layered layers text) = lexemes text := by
  unfold layered
  induction layers generalizing text with
  | nil => rfl
  | cons layer layers ih =>
      rw [List.foldl_cons, ih]
      exact congrArg (·.bind fun p => (scanner.finish p.2).map (p.1 ++ ·))
        (Lexeme.read_lines layer.1 text layer.2)

end FeatureStudio.Text
