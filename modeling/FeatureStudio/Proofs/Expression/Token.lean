/-
  FeatureStudio.Proofs.Expression.Token: the tokens that an expression is read as.

  Characters are read one by one.  Blanks set tokens apart and are dropped; a quoted literal may not
  run over the end of a line; and two minus signs with nothing between them are refused.

  Main statements:
    * `Lexes.scan_eq`: a text that gives its tokens in front of separators gives them alone.
    * `lexes_of_isAtom`: identifiers, dotted paths, numerals and quoted literals are one token.
    * `Lexes.lines`: indentation does not change the tokens.
-/
import FeatureStudio.Proofs.Text.Pieces
import FeatureStudio.Proofs.Text.Scanner
import FeatureStudio.Script.Operator
import FeatureStudio.Text.Name
import FeatureStudio.Text.Basic

namespace FeatureStudio.Reading

open Text (isWordChar)

/-! ## §1. The scanner. -/

/-- A token.  The minus sign is one token, whether it stands between operands or before one. -/
inductive Token where
  /-- An identifier, a dotted path, a numeral or a quoted literal. -/
  | word (text : String)
  | binary (op : BinaryOp)
  | equality (op : EqualityOp)
  | not
  | question
  | colon
  | comma
  | openParen
  | closeParen
  | openBracket
  | closeBracket
  deriving DecidableEq, Repr

/-- The minus sign. -/
abbrev Token.minus : Token := .binary .sub

/-- A character that may be the first of two. -/
inductive Mark where
  | ampersand | bar | equals | bang | minus
  deriving DecidableEq, Repr

/-- What has been read of a token. -/
inductive Mode where
  | idle
  | word (begun : List Char)
  | literal (begun : List Char)
  /-- After a backslash inside a literal. -/
  | escaped (begun : List Char)
  | mark (m : Mark)
  deriving DecidableEq, Repr

/-- Characters that set tokens apart. -/
def isBlank (c : Char) : Bool := c = ' ' || c = '\n' || c = '\t'

/-- The characters that are tokens by themselves. -/
def symbol? : Char → Option Token
  | '(' => some .openParen
  | ')' => some .closeParen
  | '[' => some .openBracket
  | ']' => some .closeBracket
  | ',' => some .comma
  | '?' => some .question
  | ':' => some .colon
  | '+' => some (.binary .add)
  | '*' => some (.binary .mul)
  | '/' => some (.binary .div)
  | _ => none

/-- The characters that another one may follow in the same token. -/
def mark? : Char → Option Mark
  | '&' => some .ampersand
  | '|' => some .bar
  | '=' => some .equals
  | '!' => some .bang
  | '-' => some .minus
  | _ => none

/-- Reads a character between tokens. -/
def start (c : Char) : Option (List Token × Mode) :=
  if isBlank c then some ([], .idle)
  else if c = '"' then some ([], .literal [c])
  else if isWordChar c then some ([], .word [c])
  else
    match mark? c with
    | some m => some ([], .mark m)
    | none => (symbol? c).map fun t => ([t], .idle)

/-- Whether a numeral has come to its exponent, which may have a sign. -/
def expectsSign (begun : List Char) : Bool :=
  begun.head?.any Char.isDigit && begun.getLast?.any fun c => c = 'e' || c = 'E'

/-- Whether a character goes on with a word. -/
def continues (begun : List Char) (c : Char) : Bool :=
  isWordChar c || c = '.' || ((c = '+' || c = '-') && expectsSign begun)

/-- The token that is complete before the character that is read. -/
def startAfter (t : Token) (c : Char) : Option (List Token × Mode) :=
  (start c).map fun (ts, m) => (t :: ts, m)

/-- Reads a character: the tokens it completes, and what is begun then. -/
def step : Mode → Char → Option (List Token × Mode)
  | .idle, c => start c
  | .word begun, c =>
    if continues begun c then some ([], .word (begun ++ [c]))
    else startAfter (.word (String.ofList begun)) c
  | .literal begun, c =>
    if c = '\n' then none
    else if c = '"' then some ([.word (String.ofList (begun ++ [c]))], .idle)
    else if c = '\\' then some ([], .escaped (begun ++ [c]))
    else some ([], .literal (begun ++ [c]))
  | .escaped begun, c => if c = '\n' then none else some ([], .literal (begun ++ [c]))
  | .mark .ampersand, c => if c = '&' then some ([.binary .and], .idle) else none
  | .mark .bar, c => if c = '|' then some ([.binary .or], .idle) else none
  | .mark .equals, c => if c = '=' then some ([.equality .equal], .idle) else none
  | .mark .bang, c => if c = '=' then some ([.equality .notEqual], .idle) else startAfter .not c
  | .mark .minus, c => if c = '-' then none else startAfter .minus c

/-- The token that is complete at the end of the text. -/
def finish : Mode → Option (List Token)
  | .idle => some []
  | .word begun => some [.word (String.ofList begun)]
  | .mark .bang => some [.not]
  | .mark .minus => some [.minus]
  | .mark _ | .literal _ | .escaped _ => none

/-- Puts tokens in front of others. -/
def emit (ts : List Token) (rest : Option (List Token)) : Option (List Token) :=
  rest.map (ts ++ ·)

/-- Reads characters, a token having been begun. -/
def scanFrom : Mode → List Char → Option (List Token)
  | m, [] => finish m
  | m, c :: rest =>
    match step m c with
    | some (ts, m') => emit ts (scanFrom m' rest)
    | none => none

/-- The tokens of a text. -/
def scan (cs : List Char) : Option (List Token) := scanFrom .idle cs

@[simp]
theorem emit_nil (rest : Option (List Token)) : emit [] rest = rest := by
  cases rest <;> rfl

@[simp]
theorem emit_emit (ts ts' : List Token) (rest : Option (List Token)) :
    emit ts (emit ts' rest) = emit (ts ++ ts') rest := by
  cases rest <;> simp [emit]

theorem scanFrom_cons {m m' : Mode} {c : Char} {ts : List Token} (h : step m c = some (ts, m'))
    (rest : List Char) : scanFrom m (c :: rest) = emit ts (scanFrom m' rest) := by
  rw [scanFrom, h]

/-- A token that the next character completes comes in front of what is read from there. -/
theorem scanFrom_startAfter {m : Mode} {t : Token} {rest : List Char}
    (hfinish : finish m = some [t]) (h : ∀ c ∈ rest.head?, step m c = startAfter t c) :
    scanFrom m rest = emit [t] (scan rest) := by
  cases rest with
  | nil => exact hfinish
  | cons c rest =>
      unfold scan
      rw [scanFrom, scanFrom, h c rfl, startAfter, step]
      cases hs : start c with
      | none => rfl
      | some p => simp

/-! ## §2. Texts in front of a separator. -/

/-- A character that ends any word. -/
def isSeparator (c : Char) : Bool := !isWordChar c && c ≠ '.' && c ≠ '+' && c ≠ '-'

/-- The text does not go on with a word in front of it. -/
def Separates (rest : List Char) : Prop := ∀ c ∈ rest.head?, isSeparator c

/-- The characters give the tokens, whatever follows them after a separator. -/
def Lexes (cs : List Char) (ts : List Token) : Prop :=
  ∀ rest, Separates rest → scan (cs ++ rest) = emit ts (scan rest)

theorem separates_nil : Separates [] := fun _ h => by cases h

theorem not_continues {c : Char} (h : isSeparator c) (begun : List Char) :
    continues begun c = false := by
  simp only [isSeparator, Bool.and_eq_true, Bool.not_eq_true', decide_eq_true_eq] at h
  obtain ⟨⟨⟨hword, hdot⟩, hplus⟩, hminus⟩ := h
  simp [continues, hword, hdot, hplus, hminus]

/-- A text in front of a separator gives its own tokens, and nothing else if nothing follows. -/
theorem Lexes.scan_eq {cs : List Char} {ts : List Token} (h : Lexes cs ts) :
    scan cs = some ts := by
  have hend := h [] separates_nil
  rw [List.append_nil] at hend
  rw [hend]
  exact congrArg some (List.append_nil ts)

theorem scanFrom_word (begun : List Char) {rest : List Char} (h : Separates rest) :
    scanFrom (.word begun) rest = emit [.word (String.ofList begun)] (scan rest) :=
  scanFrom_startAfter rfl fun c hc => if_neg (by simp [not_continues (h c hc)])

theorem scanFrom_minus {rest : List Char} (h : rest.head? ≠ some '-') :
    scanFrom (.mark .minus) rest = emit [.minus] (scan rest) :=
  scanFrom_startAfter rfl fun c hc => if_neg (by rintro rfl; exact h hc)

theorem scanFrom_bang {rest : List Char} (h : rest.head? ≠ some '=') :
    scanFrom (.mark .bang) rest = emit [.not] (scan rest) :=
  scanFrom_startAfter rfl fun c hc => if_neg (by rintro rfl; exact h hc)

/-- A minus sign is a token of its own unless another one follows at once. -/
theorem scan_minus {rest : List Char} (h : rest.head? ≠ some '-') :
    scan ('-' :: rest) = emit [.minus] (scan rest) := by
  have hstep : step .idle '-' = some ([], .mark .minus) := by decide
  unfold scan
  rw [scanFrom_cons hstep, emit_nil, scanFrom_minus h]
  rfl

example : scan "--a".toList = none ∧ scan "- -a".toList = some [.minus, .minus, .word "a"] := by
  decide

theorem scan_bang {rest : List Char} (h : rest.head? ≠ some '=') :
    scan ('!' :: rest) = emit [.not] (scan rest) := by
  have hstep : step .idle '!' = some ([], .mark .bang) := by decide
  unfold scan
  rw [scanFrom_cons hstep, emit_nil, scanFrom_bang h]
  rfl

/-! ## §3. Atoms. -/

/-- Identifiers with dots between them. -/
def IsPath (text : String) : Prop := (Text.split '.' text).all Text.isIdentifier

instance (text : String) : Decidable (IsPath text) := inferInstanceAs (Decidable (_ = true))

/-- One digit or more. -/
def IsDigits (cs : List Char) : Prop := cs ≠ [] ∧ ∀ c ∈ cs, c.isDigit

/-- Digits, with a fraction if there is one. -/
inductive IsDecimal : List Char → Prop where
  | whole {ds : List Char} (h : IsDigits ds) : IsDecimal ds
  | fraction {ds fs : List Char} (h : IsDigits ds) (hf : IsDigits fs) : IsDecimal (ds ++ '.' :: fs)

/-- A number without a sign in front, with an exponent if there is one. -/
inductive IsNumeral : List Char → Prop where
  | plain {ds : List Char} (h : IsDecimal ds) : IsNumeral ds
  | exponent {ds es : List Char} {e : Char} (h : IsDecimal ds) (he : e = 'e' ∨ e = 'E')
      (hes : IsDigits es) : IsNumeral (ds ++ e :: es)
  | signed {ds es : List Char} {e sign : Char} (h : IsDecimal ds) (he : e = 'e' ∨ e = 'E')
      (hsign : sign = '+' ∨ sign = '-') (hes : IsDigits es) : IsNumeral (ds ++ e :: sign :: es)

/-- The inside of a quoted literal: a backslash takes the next character with it. -/
def isQuotable : List Char → Bool
  | [] => true
  | ['\\'] => false
  | '\\' :: c :: rest => c ≠ '\n' && isQuotable rest
  | c :: rest => c ≠ '"' && c ≠ '\n' && isQuotable rest

/-- A text that is one word: an identifier, a dotted path, a numeral or a quoted literal. -/
def IsAtom (text : String) : Prop :=
  IsPath text ∨ IsNumeral text.toList ∨
    ∃ inner, isQuotable inner ∧ text.toList = '"' :: inner ++ ['"']

/-- Characters that go on with any word. -/
theorem scanFrom_word_append :
    ∀ (cs begun rest : List Char), (∀ c ∈ cs, isWordChar c ∨ c = '.') →
      scanFrom (.word begun) (cs ++ rest) = scanFrom (.word (begun ++ cs)) rest
  | [], begun, rest, _ => by rw [List.nil_append, List.append_nil]
  | c :: cs, begun, rest, h => by
      have hc : continues begun c := by
        rcases h c List.mem_cons_self with hc | hc <;> simp [continues, hc]
      have hstep : step (.word begun) c = some ([], .word (begun ++ [c])) := if_pos hc
      rw [List.cons_append, scanFrom_cons hstep, emit_nil,
        scanFrom_word_append cs _ rest fun c' hc' => h c' (List.mem_cons_of_mem _ hc'),
        List.append_assoc]
      rfl

/-- A word begins with its first character and ends in front of a separator. -/
theorem lexes_word {c : Char} {cs : List Char} (hc : isWordChar c)
    (h : ∀ rest, scanFrom (.word [c]) (cs ++ rest) = scanFrom (.word (c :: cs)) rest) :
    Lexes (c :: cs) [.word (String.ofList (c :: cs))] := by
  intro rest hrest
  have hstep : step .idle c = some ([], .word [c]) := by
    have hquote : c ≠ '"' := by rintro rfl; exact absurd hc (by decide)
    have hblank : isBlank c = false := by
      cases hb : isBlank c with
      | false => rfl
      | true =>
          simp only [isBlank, Bool.or_eq_true, decide_eq_true_eq] at hb
          rcases hb with (rfl | rfl) | rfl <;> exact absurd hc (by decide)
    simp [step, start, hblank, hquote, hc]
  rw [List.cons_append]
  unfold scan
  rw [scanFrom_cons hstep, emit_nil, h rest, scanFrom_word _ hrest]
  rfl

/-- A word of nothing but word characters and dots. -/
theorem lexes_plainWord {c : Char} {cs : List Char} (hc : isWordChar c)
    (h : ∀ c ∈ cs, isWordChar c ∨ c = '.') :
    Lexes (c :: cs) [.word (String.ofList (c :: cs))] :=
  lexes_word hc fun rest => scanFrom_word_append cs [c] rest h

theorem mem_pieces {sep c : Char} {cs : List Char} (h : c ∈ cs) :
    c = sep ∨ ∃ p ∈ Text.pieces sep cs, c ∈ p := by
  induction cs with
  | nil => cases h
  | cons first cs ih =>
      unfold Text.pieces
      cases hp : Text.pieces sep cs with
      | nil => exact absurd hp (Text.pieces_ne_nil sep cs)
      | cons p ps =>
          rw [hp] at ih
          -- a separator opens a new piece, anything else goes into the first one
          by_cases hsep : first = sep
          · rcases List.mem_cons.mp h with rfl | h
            · exact .inl hsep
            · rcases ih h with hc | ⟨q, hq, hcq⟩
              · exact .inl hc
              · refine .inr ⟨q, ?_, hcq⟩
                simpa [hsep] using Or.inr (List.mem_cons.mp hq)
          · rcases List.mem_cons.mp h with rfl | h
            · exact .inr ⟨c :: p, by simp [hsep], List.mem_cons_self⟩
            · rcases ih h with hc | ⟨q, hq, hcq⟩
              · exact .inl hc
              · rcases List.mem_cons.mp hq with rfl | hq
                · exact .inr ⟨first :: q, by simp [hsep], List.mem_cons_of_mem _ hcq⟩
                · exact .inr ⟨q, by simp [hsep, hq], hcq⟩

theorem IsPath.exists_cons {text : String} (h : IsPath text) :
    ∃ c cs, text.toList = c :: cs ∧ isWordChar c ∧ ∀ c' ∈ cs, isWordChar c' ∨ c' = '.' := by
  have hparts : ∀ p ∈ Text.pieces '.' text.toList, Text.isIdentifier (String.ofList p) := by
    intro p hp
    exact List.all_eq_true.mp h _ (List.mem_map_of_mem hp)
  have hchars : ∀ c ∈ text.toList, isWordChar c ∨ c = '.' := by
    intro c hc
    rcases mem_pieces hc with hdot | ⟨p, hp, hcp⟩
    · exact .inr hdot
    · refine .inl (Text.isWordChar_of_isIdentifier (hparts p hp) c ?_)
      rwa [String.toList_ofList]
  cases htext : text.toList with
  | nil => exact absurd (hparts [] (by rw [htext]; exact List.mem_cons_self)) (by decide)
  | cons c cs =>
      rw [htext] at hchars hparts
      refine ⟨c, cs, rfl, ?_, fun c' hc' => hchars c' (List.mem_cons_of_mem _ hc')⟩
      rcases hchars c List.mem_cons_self with hc | rfl
      · exact hc
      -- in front of a dot at the beginning there would be an empty piece
      · have hempty : [] ∈ Text.pieces '.' ('.' :: cs) := by
          unfold Text.pieces
          cases hp : Text.pieces '.' cs with
          | nil => exact absurd hp (Text.pieces_ne_nil '.' cs)
          | cons p ps => simp
        exact absurd (hparts [] hempty) (by decide)

theorem dot_not_mem_of_isIdentifier {name : String} (h : Text.isIdentifier name) :
    '.' ∉ name.toList := fun hdot =>
  absurd (Text.isWordChar_of_isIdentifier h '.' hdot) (by decide)

/-- A path may be an identifier alone. -/
theorem isPath_of_isIdentifier {name : String} (h : Text.isIdentifier name) : IsPath name := by
  unfold IsPath Text.split
  rw [Text.pieces_of_not_mem (dot_not_mem_of_isIdentifier h)]
  simpa using h

/-- A path may go on behind an identifier and a dot. -/
theorem IsPath.dotted {name text : String} (hname : Text.isIdentifier name) (h : IsPath text) :
    IsPath (name ++ "." ++ text) := by
  have hchars : (name ++ "." ++ text).toList = name.toList ++ '.' :: text.toList := by simp
  unfold IsPath Text.split at h ⊢
  rw [hchars, Text.pieces_append_cons (dot_not_mem_of_isIdentifier hname)]
  simpa [hname] using h

theorem lexes_path {text : String} (h : IsPath text) : Lexes text.toList [.word text] := by
  obtain ⟨c, cs, htext, hc, hcs⟩ := h.exists_cons
  have hlexes := lexes_plainWord hc hcs
  rwa [← htext, String.ofList_toList] at hlexes

theorem isWordChar_of_isDigit {c : Char} (h : c.isDigit) : isWordChar c := by
  simp [isWordChar, Char.isAlphanum, h]

theorem IsDecimal.exists_cons {ds : List Char} (h : IsDecimal ds) :
    ∃ c cs, ds = c :: cs ∧ c.isDigit ∧ ∀ c ∈ cs, isWordChar c ∨ c = '.' := by
  have hdigits : ∀ {ds : List Char}, IsDigits ds → ∀ c ∈ ds, isWordChar c ∨ c = '.' :=
    fun h c hc => .inl (isWordChar_of_isDigit (h.2 c hc))
  cases h with
  | whole h =>
      obtain ⟨c, cs, rfl⟩ := List.exists_cons_of_ne_nil h.1
      exact ⟨c, cs, rfl, h.2 c List.mem_cons_self,
        fun c' hc' => hdigits h c' (List.mem_cons_of_mem _ hc')⟩
  | @fraction ds fs h hf =>
      obtain ⟨c, cs, rfl⟩ := List.exists_cons_of_ne_nil h.1
      refine ⟨c, cs ++ '.' :: fs, rfl, h.2 c List.mem_cons_self, fun c' hc' => ?_⟩
      rcases List.mem_append.mp hc' with hc' | hc'
      · exact hdigits h c' (List.mem_cons_of_mem _ hc')
      · rcases List.mem_cons.mp hc' with rfl | hc'
        · exact .inr rfl
        · exact hdigits hf c' hc'

theorem isWordChar_of_exponent {e : Char} (h : e = 'e' ∨ e = 'E') : isWordChar e := by
  rcases h with rfl | rfl <;> decide

theorem lexes_numeral {cs : List Char} (h : IsNumeral cs) :
    Lexes cs [.word (String.ofList cs)] := by
  cases h with
  | plain h =>
      obtain ⟨c, cs, rfl, hc, hcs⟩ := h.exists_cons
      exact lexes_plainWord (isWordChar_of_isDigit hc) hcs
  | @exponent ds es e h he hes =>
      obtain ⟨c, cs, rfl, hc, hcs⟩ := h.exists_cons
      refine lexes_plainWord (isWordChar_of_isDigit hc) fun c' hc' => ?_
      rcases List.mem_append.mp hc' with hc' | hc'
      · exact hcs c' hc'
      · rcases List.mem_cons.mp hc' with rfl | hc'
        · exact .inl (isWordChar_of_exponent he)
        · exact .inl (isWordChar_of_isDigit (hes.2 c' hc'))
  | @signed ds es e sign h he hsign hes =>
      obtain ⟨c, cs, rfl, hc, hcs⟩ := h.exists_cons
      refine lexes_word (isWordChar_of_isDigit hc) fun rest => ?_
      -- up to the exponent, then the sign, then the digits behind it
      have hupto : ∀ c' ∈ cs ++ [e], isWordChar c' ∨ c' = '.' := by
        intro c' hc'
        rcases List.mem_append.mp hc' with hc' | hc'
        · exact hcs c' hc'
        · exact .inl (List.mem_singleton.mp hc' ▸ isWordChar_of_exponent he)
      have hlast : (c :: (cs ++ [e])).getLast? = some e := by
        rw [← List.cons_append, List.getLast?_concat]
      have hexpects : expectsSign (c :: (cs ++ [e])) := by
        simp [expectsSign, hc, hlast, he]
      have hstep : step (.word ([c] ++ (cs ++ [e]))) sign
          = some ([], .word ([c] ++ (cs ++ [e]) ++ [sign])) := by
        refine if_pos ?_
        rcases hsign with rfl | rfl <;> simp [continues, hexpects]
      show scanFrom (.word [c]) (cs ++ e :: sign :: es ++ rest) = _
      have hsplit : cs ++ e :: sign :: es ++ rest = (cs ++ [e]) ++ sign :: (es ++ rest) := by simp
      rw [hsplit, scanFrom_word_append _ _ _ hupto, scanFrom_cons hstep, emit_nil,
        scanFrom_word_append es _ rest fun c' hc' => .inl (isWordChar_of_isDigit (hes.2 c' hc'))]
      simp

theorem IsNumeral.exists_cons {cs : List Char} (h : IsNumeral cs) :
    ∃ c cs', cs = c :: cs' ∧ isWordChar c := by
  cases h with
  | plain h =>
      obtain ⟨c, cs, rfl, hc, -⟩ := h.exists_cons
      exact ⟨c, cs, rfl, isWordChar_of_isDigit hc⟩
  | exponent h | signed h =>
      obtain ⟨c, cs, rfl, hc, -⟩ := h.exists_cons
      exact ⟨c, _, rfl, isWordChar_of_isDigit hc⟩

theorem scanFrom_literal (rest : List Char) :
    ∀ (inner begun : List Char), isQuotable inner →
      scanFrom (.literal begun) (inner ++ '"' :: rest)
        = emit [.word (String.ofList (begun ++ inner ++ ['"']))] (scan rest) := by
  intro inner
  -- by what may stand in quotation marks: a backslash takes the character behind it along
  induction inner using isQuotable.induct with
  | case1 =>
      intro begun _
      have hstep : step (.literal begun) '"'
          = some ([.word (String.ofList (begun ++ ['"']))], .idle) := rfl
      rw [List.nil_append, List.append_nil, scanFrom_cons hstep]
      rfl
  | case2 => intro begun h; cases h
  | case3 c inner ih =>
      intro begun h
      simp only [isQuotable, Bool.and_eq_true, decide_eq_true_eq] at h
      have hback : step (.literal begun) '\\' = some ([], .escaped (begun ++ ['\\'])) := rfl
      have hstep : step (.escaped (begun ++ ['\\'])) c
          = some ([], .literal (begun ++ ['\\'] ++ [c])) := if_neg h.1
      rw [List.cons_append, List.cons_append, scanFrom_cons hback, scanFrom_cons hstep, emit_nil,
        emit_nil, ih _ h.2]
      simp
  | case4 c inner hlast hpair ih =>
      intro begun h
      have hc : c ≠ '\\' := by
        rintro rfl
        cases inner with
        | nil => exact hlast rfl rfl
        | cons c' rest => exact hpair c' rest rfl rfl
      rw [isQuotable.eq_4 _ _ hlast hpair] at h
      simp only [Bool.and_eq_true, decide_eq_true_eq] at h
      have hstep : step (.literal begun) c = some ([], .literal (begun ++ [c])) := by
        simp [step, hc, h.1.1, h.1.2]
      rw [List.cons_append, scanFrom_cons hstep, emit_nil, ih _ h.2]
      simp

theorem lexes_literal {inner : List Char} (h : isQuotable inner) :
    Lexes ('"' :: inner ++ ['"']) [.word (String.ofList ('"' :: inner ++ ['"']))] := by
  intro rest _
  have hstep : step .idle '"' = some ([], .literal ['"']) := by decide
  have hsplit : '"' :: inner ++ ['"'] ++ rest = '"' :: (inner ++ '"' :: rest) := by simp
  rw [hsplit]
  unfold scan
  rw [scanFrom_cons hstep, emit_nil, scanFrom_literal rest inner _ h]
  rfl

/-- **An atom is one token.** -/
theorem lexes_of_isAtom {text : String} (h : IsAtom text) : Lexes text.toList [.word text] := by
  have hchars : ∀ {cs : List Char}, text.toList = cs → text = String.ofList cs := fun hcs => by
    rw [← hcs, String.ofList_toList]
  rcases h with hpath | hnumeral | ⟨inner, hinner, htext⟩
  · exact lexes_path hpath
  · have hlexes := lexes_numeral hnumeral
    rwa [String.ofList_toList] at hlexes
  · rw [htext, hchars htext]
    exact lexes_literal hinner

theorem IsAtom.exists_cons {text : String} (h : IsAtom text) :
    ∃ c cs, text.toList = c :: cs ∧ (isWordChar c ∨ c = '"') := by
  rcases h with hpath | hnumeral | ⟨inner, -, htext⟩
  · obtain ⟨c, cs, htext, hc, -⟩ := hpath.exists_cons
    exact ⟨c, cs, htext, .inl hc⟩
  · obtain ⟨c, cs, htext, hc⟩ := hnumeral.exists_cons
    exact ⟨c, cs, htext, .inl hc⟩
  · exact ⟨'"', inner ++ ['"'], htext, .inr rfl⟩

theorem isQuotable_cons {c : Char} (h : c ≠ '\\') (rest : List Char) :
    isQuotable (c :: rest) = (c ≠ '"' && c ≠ '\n' && isQuotable rest) :=
  isQuotable.eq_4 c rest (fun hc _ => h hc) fun _ _ hc _ => h hc

theorem isQuotable_escapeChar (c : Char) {rest : List Char} (h : isQuotable rest) :
    isQuotable (Text.escapeChar c ++ rest) := by
  unfold Text.escapeChar
  split
  case h_6 _ hback hquote hfeed _ _ =>
    rw [List.singleton_append, isQuotable_cons hback]
    simpa [h] using ⟨hquote, hfeed⟩
  all_goals simpa [isQuotable] using h

theorem isQuotable_escape : ∀ cs : List Char, isQuotable (cs.flatMap Text.escapeChar)
  | [] => rfl
  | c :: cs => by
      rw [List.flatMap_cons]
      exact isQuotable_escapeChar c (isQuotable_escape cs)

/-- What is written as a literal is read as one. -/
theorem isAtom_quote (s : String) : IsAtom (Text.quote s) := by
  refine .inr (.inr ⟨s.toList.flatMap Text.escapeChar, isQuotable_escape _, ?_⟩)
  simp [Text.quote, Text.escape]

/-! ## §4. Indentation. -/

/-- The reader of tokens. -/
def scanner : Text.Scanner Mode Token := ⟨.idle, step, finish⟩

/-- What a text gives does not depend on what follows it. -/
theorem scanFrom_append (rest : List Char) : ∀ (cs : List Char) (m : Mode),
    scanFrom m (cs ++ rest) = (scanner.read m cs).bind fun p => emit p.1 (scanFrom p.2 rest)
  | [], m => (emit_nil _).symm
  | c :: cs, m => by
      rw [List.cons_append, scanFrom, Text.Scanner.read]
      show (match step m c with
        | some (ts, m') => emit ts (scanFrom m' (cs ++ rest))
        | none => none) = ((step m c).bind _).bind _
      cases step m c with
      | none => rfl
      | some p =>
          show emit p.1 (scanFrom p.2 (cs ++ rest))
            = ((scanner.read p.2 cs).map fun q => (p.1 ++ q.1, q.2)).bind _
          rw [scanFrom_append rest cs p.2]
          cases scanner.read p.2 cs with
          | none => rfl
          | some q => exact emit_emit p.1 q.1 _

/-- A line feed ends whatever has been begun, and no literal runs over it. -/
theorem endsLines_scanner : scanner.EndsLines := by
  intro m ts m' h
  cases m with
  | idle => cases h; rfl
  | word begun =>
      have hc : continues begun '\n' = false := not_continues (by decide) begun
      have hstep : step (.word begun) '\n' = startAfter (.word (String.ofList begun)) '\n' := by
        rw [step, hc, if_neg Bool.false_ne_true]
      cases hstep.symm.trans h
      rfl
  | literal begun => cases h
  | escaped begun => cases h
  | mark m => cases m <;> cases h <;> rfl

/-- **Indentation does not change the tokens**, at any width and to any depth. -/
theorem Lexes.lines {text : String} {ts : List Token} (h : Lexes text.toList ts)
    (indent : Indent) (levels : Nat) : Lexes (indent.lines text levels).toList ts := by
  have hblank : ∀ c, c = ' ' ∨ c = '\t' →
      scanner.step scanner.idle c = some ([], scanner.idle) := by
    rintro c (rfl | rfl)
    · rfl
    · rfl
  have hread := Text.Scanner.read_lines endsLines_scanner hblank indent text levels
  intro rest hrest
  rw [← h rest hrest]
  unfold scan
  rw [scanFrom_append, scanFrom_append]
  exact congrArg (·.bind fun p => emit p.1 (scanFrom p.2 rest)) hread

end FeatureStudio.Reading
