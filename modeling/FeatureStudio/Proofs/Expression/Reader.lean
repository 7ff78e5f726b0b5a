/-
  FeatureStudio.Proofs.Expression.Reader: the tokens of texts that are put together.

  A text is read with groups in braces or without them.  Either reader has what is complete end at
  a sign between operands, and reads such a sign alike wherever it stands.  No more is needed to
  know the tokens of a text from those of its parts.

  Main statements:
    * `TokenReader.between`, `TokenReader.called`, …: one rule for each way to put texts together.
    * `scanReader`: the reader without groups is one of them.
-/
import FeatureStudio.Proofs.Expression.Written

namespace FeatureStudio.Reading

/-! ## §1. Readers. -/

/-- A character that ends whatever is complete in front of it. -/
def isEnd (c : Char) : Bool := isSeparator c && c ≠ '='

/-- What follows a prefix operator does not make another token of it. -/
def Admits (op : UnaryOp) (rest : List Char) : Prop :=
  ∀ c ∈ rest.head?, c ≠ '=' ∧ (op = .neg → c ≠ '-')

/-- A reader of tokens that knows the signs and names of expressions. -/
structure TokenReader where
  /-- The tokens of a text. -/
  read : List Char → Option (List Token)
  /-- A character at which a text ends. -/
  ends : Char → Bool
  ends_of_isEnd : ∀ {c}, isEnd c → ends c
  read_nil : read [] = some []
  /-- Characters that leave nothing begun are read alike in front of any text. -/
  read_append : ∀ {cs ts}, scanner.read .idle cs = some (ts, .idle) →
    ∀ rest, read (cs ++ rest) = emit ts (read rest)
  read_prefixed : ∀ (op : UnaryOp) {rest}, Admits op rest →
    read (op.text.toList ++ rest) = emit [prefixToken op] (read rest)
  read_path : ∀ {name}, IsPath name → ∀ rest, (∀ c ∈ rest.head?, ends c) →
    read (name.toList ++ rest) = emit [.word name] (read rest)

namespace TokenReader

variable (R : TokenReader)

/-- The rest begins with a character at which a text ends, if with any. -/
def Ends (rest : List Char) : Prop := ∀ c ∈ rest.head?, R.ends c

/-- The characters give the tokens, whatever follows them where a text ends. -/
def Lexes (cs : List Char) (ts : List Token) : Prop :=
  ∀ rest, R.Ends rest → R.read (cs ++ rest) = emit ts (R.read rest)

variable {cs ls rs : List Char} {ts tsl tsr : List Token}

theorem ends_nil : R.Ends [] := fun _ h => by cases h

theorem ends_cons {c : Char} (h : isEnd c) (rest : List Char) : R.Ends (c :: rest) :=
  fun _ hc => by cases hc; exact R.ends_of_isEnd h

variable {R} in
theorem Lexes.read_eq (h : R.Lexes cs ts) : R.read cs = some ts := by
  have hend := h [] R.ends_nil
  rw [List.append_nil] at hend
  rw [hend, R.read_nil]
  exact congrArg some (List.append_nil ts)

/-! ## §2. Characters. -/

theorem signs (h : scanner.read .idle cs = some (ts, .idle)) : R.Lexes cs ts :=
  fun rest _ => R.read_append h rest

/-- A text behind characters that leave nothing begun. -/
theorem behind (hl : scanner.read .idle ls = some (tsl, .idle)) (hr : R.Lexes rs tsr) :
    R.Lexes (ls ++ rs) (tsl ++ tsr) := by
  intro rest hrest
  rw [List.append_assoc, R.read_append hl, hr rest hrest, emit_emit]

/-- A text in front of one that begins where the first one ends. -/
theorem before {c : Char} (hl : R.Lexes ls tsl) (hc : isEnd c) (hr : R.Lexes (c :: rs) tsr) :
    R.Lexes (ls ++ c :: rs) (tsl ++ tsr) := by
  intro rest hrest
  have hright := hr rest hrest
  rw [List.cons_append] at hright
  rw [List.append_assoc, List.cons_append, hl _ (R.ends_cons hc _), hright, emit_emit]

/-! ## §3. Texts. -/

variable {text l r : String}

theorem enclosed (h : R.Lexes text.toList ts) :
    R.Lexes ("(" ++ text ++ ")").toList (FeatureStudio.enclosed ts) := by
  have hchars : ("(" ++ text ++ ")").toList = ['('] ++ (text.toList ++ [')']) := by simp
  have hopen : scanner.read .idle ['('] = some ([.openParen], .idle) := rfl
  have hclose : R.Lexes [')'] [.closeParen] := R.signs rfl
  rw [hchars]
  exact R.behind hopen (R.before h (by decide) hclose)

/-- A text on lines of its own. -/
theorem onLines (h : R.Lexes text.toList ts) : R.Lexes ("\n" ++ text ++ "\n").toList ts := by
  have hchars : ("\n" ++ text ++ "\n").toList = ['\n'] ++ (text.toList ++ ['\n']) := by simp
  have hopen : scanner.read .idle ['\n'] = some ([], .idle) := rfl
  have hclose : R.Lexes ['\n'] [] := R.signs rfl
  have hlines := R.behind hopen (R.before h (by decide) hclose)
  rw [List.append_nil] at hlines
  rw [hchars]
  exact hlines

/-- A prefix operator in front of a text. -/
theorem prefixed (op : UnaryOp) (h : R.Lexes text.toList ts) (hadmits : Admits op text.toList)
    (hne : text.toList ≠ []) : R.Lexes (op.text ++ text).toList (prefixToken op :: ts) := by
  intro rest hrest
  -- the operator looks at one character only, and the text has one
  have hrest' : Admits op (text.toList ++ rest) := by
    rwa [Admits, List.head?_append_of_ne_nil _ hne]
  rw [String.toList_append, List.append_assoc, R.read_prefixed op hrest', h rest hrest, emit_emit]
  rfl

/-- Two texts with an operator between them that has a blank on either side. -/
theorem between (hl : R.Lexes l.toList tsl) (hr : R.Lexes r.toList tsr) {ops : String} {t : Token}
    (hops : scanner.read .idle (" " ++ ops ++ " ").toList = some ([t], .idle)) :
    R.Lexes (l ++ " " ++ ops ++ " " ++ r).toList (tsl ++ t :: tsr) := by
  have hchars : (l ++ " " ++ ops ++ " " ++ r).toList
      = l.toList ++ ' ' :: (ops.toList ++ ' ' :: r.toList) := by simp
  have hright := R.behind hops hr
  rw [hchars]
  refine R.before hl (by decide) ?_
  simpa using hright

theorem read_binary (op : BinaryOp) :
    scanner.read .idle (" " ++ op.text ++ " ").toList = some ([.binary op], .idle) := by
  cases op <;> rfl

theorem read_equality (op : EqualityOp) :
    scanner.read .idle (" " ++ op.text ++ " ").toList = some ([.equality op], .idle) := by
  cases op <;> rfl

/-- A choice between two texts. -/
theorem chosen {test : String} (ht : R.Lexes test.toList ts) (hl : R.Lexes l.toList tsl)
    (hr : R.Lexes r.toList tsr) :
    R.Lexes (test ++ " ? " ++ l ++ " : " ++ r).toList
      (ts ++ .question :: (tsl ++ .colon :: tsr)) := by
  have hbranches : R.Lexes (l ++ " " ++ ":" ++ " " ++ r).toList (tsl ++ .colon :: tsr) :=
    R.between hl hr rfl
  have hchosen : R.Lexes (test ++ " " ++ "?" ++ " " ++ (l ++ " " ++ ":" ++ " " ++ r)).toList
      (ts ++ .question :: (tsl ++ .colon :: tsr)) := R.between ht hbranches rfl
  simpa using hchosen

/-- A key in brackets behind a text. -/
theorem indexed (hl : R.Lexes l.toList tsl) (hr : R.Lexes r.toList tsr) :
    R.Lexes (l ++ "[" ++ r ++ "]").toList
      (tsl ++ .openBracket :: (tsr ++ [.closeBracket])) := by
  have hchars : (l ++ "[" ++ r ++ "]").toList = l.toList ++ '[' :: (r.toList ++ [']']) := by simp
  have hopen : scanner.read .idle ['['] = some ([.openBracket], .idle) := rfl
  have hclose : R.Lexes [']'] [.closeBracket] := R.signs rfl
  have hkey := R.behind hopen (R.before hr (by decide) hclose)
  rw [hchars]
  exact R.before hl (by decide) hkey

/-- A name in front of arguments in parentheses. -/
theorem called {name : String} (hname : IsPath name) (h : R.Lexes text.toList ts) :
    R.Lexes (name ++ "(" ++ text ++ ")").toList
      (.word name :: .openParen :: (ts ++ [.closeParen])) := by
  have hchars : (name ++ "(" ++ text ++ ")").toList
      = name.toList ++ '(' :: (text.toList ++ [')']) := by simp
  have hargs : R.Lexes ('(' :: (text.toList ++ [')'])) (FeatureStudio.enclosed ts) := by
    simpa using R.enclosed h
  rw [hchars]
  exact R.before (R.read_path hname) (by decide) hargs

/-- Texts with a comma and a blank between them. -/
theorem commaed {sep : String} {blanks : List Char} (hsep : sep.toList = ',' :: blanks)
    (hcomma : scanner.read .idle (',' :: blanks) = some ([.comma], .idle)) {texts : List String}
    {tss : List (List Token)}
    (h : List.Forall₂ (fun text ts => R.Lexes text.toList ts) texts tss) :
    R.Lexes (sep.intercalate texts).toList (Reading.commaed tss) := by
  induction h with
  | nil =>
      rw [String.intercalate_nil]
      exact R.signs rfl
  | @cons text ts texts tss hfirst hrest ih =>
      -- a comma comes in front of the second text, if there is one
      cases hrest with
      | nil =>
          rw [String.intercalate_singleton]
          simpa [Reading.commaed] using hfirst
      | @cons text' ts' texts tss =>
          rw [String.intercalate_cons_cons, String.toList_append, String.toList_append, hsep,
            List.append_assoc, commaed_cons_cons]
          exact R.before hfirst (by decide) (R.behind hcomma ih)

end TokenReader

/-! ## §4. The reader without groups. -/

/-- Characters with nothing begun behind them. -/
theorem scan_append (h : scanner.read .idle cs = some (ts, .idle)) (rest : List Char) :
    scan (cs ++ rest) = emit ts (scan rest) := by
  unfold scan
  rw [scanFrom_append, h]
  rfl

theorem scan_prefixed (op : UnaryOp) {rest : List Char} (h : Admits op rest) :
    scan (op.text.toList ++ rest) = emit [prefixToken op] (scan rest) := by
  cases op with
  | not => exact scan_bang fun hhead => (h '=' hhead).1 rfl
  | neg => exact scan_minus fun hhead => (h '-' hhead).2 rfl rfl

/-- The reader of tokens outside of braces. -/
def scanReader : TokenReader where
  read := scan
  ends := isSeparator
  ends_of_isEnd h := (Bool.and_eq_true_iff.mp h).1
  read_nil := rfl
  read_append := scan_append
  read_prefixed := scan_prefixed
  read_path := lexes_path

end FeatureStudio.Reading
