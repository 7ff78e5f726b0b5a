/-
  FeatureStudio.Proofs.Toml.Reading: documents that are read line by line.

  A string between quotes is read back if backslashes and quotes in it are escaped, and only if it
  has no control characters.  A document put together from lines, each read on its own, is read as
  those lines; a line that is not well formed makes the whole document so.

  Main statements:
    * `basic_escaped`: an escaped string is read back unless it has control characters.
    * `line_stringLine`: a line that gives a string to a bare key.
    * `lines_flatMap`: lines in a row.
    * `read?_of_isLine`, `read?_eq_none`: documents from their lines.
-/
import FeatureStudio.Toml.Document
import Mathlib.Data.List.Forall2

namespace FeatureStudio.Toml

/-! ## §1. Strings. -/

/-- A text with a backslash before every backslash and every quote. -/
def escaped (cs : List Char) : List Char :=
  cs.flatMap fun c => if c = '\\' || c = '"' then ['\\', c] else [c]

theorem escaped_cons_backslash (cs : List Char) :
    escaped ('\\' :: cs) = '\\' :: '\\' :: escaped cs := rfl

theorem escaped_cons_quote (cs : List Char) : escaped ('"' :: cs) = '\\' :: '"' :: escaped cs := rfl

theorem escaped_cons {c : Char} (backslash : c ≠ '\\') (quote : c ≠ '"') (cs : List Char) :
    escaped (c :: cs) = c :: escaped cs := by
  simp [escaped, backslash, quote]

theorem escaped_append (cs ds : List Char) : escaped (cs ++ ds) = escaped cs ++ escaped ds :=
  List.flatMap_append

/-- Nothing is escaped in a text without backslashes and quotes. -/
theorem escaped_eq_self {cs : List Char} (h : ∀ c ∈ cs, c ≠ '\\' ∧ c ≠ '"') : escaped cs = cs := by
  induction cs with
  | nil => rfl
  | cons c cs ih =>
      obtain ⟨hc, hcs⟩ := List.forall_mem_cons.mp h
      rw [escaped_cons hc.1 hc.2, ih hcs]

theorem basic_control {c : Char} (rest : List Char) (text : isTextChar c = false) :
    basic (c :: rest) = none := by
  rw [basic.eq_def]
  split <;> simp_all [isTextChar]

theorem basic_escape {c d : Char} (rest : List Char) (h : shortEscape c = some d) :
    basic ('\\' :: c :: rest) = prepend (some d) (basic rest) := by
  rw [basic.eq_def]
  -- escapes by number begin with a letter that is no escape of its own
  split <;> grind [shortEscape]

/-- **An escaped string is read back**, unless it has control characters: these cannot stand in a
string, and escaping leaves them alone. -/
theorem basic_escaped (cs rest : List Char) :
    basic (escaped cs ++ '"' :: rest) = if cs.all isTextChar then some (cs, rest) else none := by
  induction cs with
  | nil => exact basic_quote rest
  | cons c cs ih =>
      have hprepend : prepend (some c) (if cs.all isTextChar then some (cs, rest) else none)
          = if cs.all isTextChar then some (c :: cs, rest) else none := by
        split <;> rfl
      rw [List.all_cons]
      -- two characters are read back from pairs, the others as they are if they may stand there
      by_cases hbackslash : c = '\\'
      · subst hbackslash
        rw [escaped_cons_backslash, List.cons_append, List.cons_append, basic_escape _ rfl, ih,
          hprepend]
        rfl
      by_cases hquote : c = '"'
      · subst hquote
        rw [escaped_cons_quote, List.cons_append, List.cons_append, basic_escape _ rfl, ih, hprepend]
        rfl
      rw [escaped_cons hbackslash hquote, List.cons_append]
      cases htext : isTextChar c with
      | true => rw [basic_textChar _ htext hquote hbackslash, ih, hprepend, Bool.true_and]
      | false => rw [basic_control _ htext, Bool.false_and, if_neg Bool.false_ne_true]

theorem quotedString_quote {cs : List Char} (h : ∀ rest, cs ≠ '"' :: '"' :: rest) :
    quotedString ('"' :: cs) = (basic cs).map fun (s, rest) => (String.ofList s, rest) := by
  unfold quotedString
  split <;> simp_all

/-- The same with both quotes.  Two quotes in front of a third would open a string of several
lines. -/
theorem quotedString_escaped (cs : List Char) {rest : List Char} (h : rest.head? ≠ some '"') :
    quotedString ('"' :: (escaped cs ++ '"' :: rest))
      = if cs.all isTextChar then some (String.ofList cs, rest) else none := by
  have hsingle : ∀ tail, escaped cs ++ '"' :: rest ≠ '"' :: '"' :: tail := by
    rintro tail heq
    cases cs with
    | nil => exact h (by rw [(List.cons.inj heq).2]; rfl)
    | cons c cs =>
        by_cases hbackslash : c = '\\'
        · subst hbackslash
          exact absurd (List.cons.inj heq).1 (by decide)
        by_cases hquote : c = '"'
        · subst hquote
          exact absurd (List.cons.inj heq).1 (by decide)
        rw [escaped_cons hbackslash hquote] at heq
        exact hquote (List.cons.inj heq).1
  rw [quotedString_quote hsingle, basic_escaped]
  split <;> rfl

/-! ## §2. Keys and their strings. -/

/-- A key that is written without quotes. -/
def IsBareKey (name : String) : Prop := name.toList ≠ [] ∧ name.toList.all isKeyChar

instance (name : String) : Decidable (IsBareKey name) := inferInstanceAs (Decidable (_ ∧ _))

/-- A bare key begins with a character that opens nothing else. -/
theorem IsBareKey.exists_cons {name : String} (h : IsBareKey name) :
    ∃ c cs, name.toList = c :: cs ∧ c ∉ ['"', '\x27', '[', '\n', '\r', '#'] ∧
      isBlank c = false := by
  obtain ⟨c, cs, hname⟩ := List.exists_cons_of_ne_nil h.1
  have hc : isKeyChar c := List.all_eq_true.mp h.2 c (by rw [hname]; exact List.mem_cons_self)
  refine ⟨c, cs, hname, fun hm => ?_, ?_⟩
  · have hother : ['"', '\x27', '[', '\n', '\r', '#'].all (fun d => !isKeyChar d) = true := rfl
    have hnot := List.all_eq_true.mp hother c hm
    rw [hc] at hnot
    exact Bool.false_ne_true hnot
  · cases hblank : isBlank c with
    | false => rfl
    | true =>
        rcases (by simpa [isBlank] using hblank : c = ' ' ∨ c = '\t') with rfl | rfl <;> cases hc

theorem simpleKey_bare {name : String} (h : IsBareKey name) (rest : List Char) :
    simpleKey (name.toList ++ ' ' :: rest) = some (name, ' ' :: rest) := by
  have htake : (name.toList ++ ' ' :: rest).takeWhile isKeyChar = name.toList := by
    rw [List.takeWhile_append_of_pos (List.all_eq_true.mp h.2)]
    exact List.append_nil _
  obtain ⟨c, cs, hname, hc, -⟩ := h.exists_cons
  unfold simpleKey
  split
  · next heq =>
      rw [hname] at heq
      exact absurd (List.cons.inj heq).1 fun he => hc (by simp [he])
  · next heq =>
      rw [hname] at heq
      exact absurd (List.cons.inj heq).1 fun he => hc (by simp [he])
  · dsimp only
    rw [htake, List.drop_left, String.ofList_toList, hname]
    rfl

theorem key_bare {name : String} (h : IsBareKey name) (rest : List Char) :
    key (name.toList ++ ' ' :: '=' :: rest) = some (([], name), '=' :: rest) := by
  unfold key maxDepth
  rw [dottedKey, simpleKey_bare h]
  rfl

theorem value_quote (depth : Nat) (cs : List Char) :
    value depth ('"' :: cs) = (quotedString ('"' :: cs)).map fun (s, rest) => (.string s, rest) := by
  cases depth <;> rfl

/-- A line that gives a string to a bare key. -/
theorem line_string {name : String} (h : IsBareKey name) (cs : List Char) :
    line (skipBlanks (name.toList ++ ' ' :: '=' :: ' ' :: '"' :: cs))
      = (quotedString ('"' :: cs)).map fun r => (.pair ⟨[], name, .string r.1⟩, r.2) := by
  have hpair : pair (value maxDepth) false (name.toList ++ ' ' :: '=' :: ' ' :: '"' :: cs)
      = (quotedString ('"' :: cs)).map fun r => (⟨[], name, .string r.1⟩, r.2) := by
    unfold pair
    rw [key_bare h]
    show ((value maxDepth ('"' :: cs)).bind fun r => some ((⟨[], name, r.1⟩ : Pair), r.2)) = _
    rw [value_quote]
    cases quotedString ('"' :: cs) <;> rfl
  obtain ⟨c, ks, hname, hc, hblank⟩ := h.exists_cons
  have hskip : skipBlanks (name.toList ++ ' ' :: '=' :: ' ' :: '"' :: cs)
      = name.toList ++ ' ' :: '=' :: ' ' :: '"' :: cs := by
    rw [hname]
    exact List.dropWhile_cons_of_neg (by rw [hblank]; exact Bool.false_ne_true)
  have hline : line (name.toList ++ ' ' :: '=' :: ' ' :: '"' :: cs)
      = (pair (value maxDepth) false (name.toList ++ ' ' :: '=' :: ' ' :: '"' :: cs)).map
          fun r => (.pair r.1, r.2) := by
    rw [hname, List.cons_append]
    unfold line
    -- the first character of the key opens neither a header nor an empty line
    split
    · next heq => exact absurd (List.cons.inj heq).1 fun he => hc (by simp [he])
    · next heq => exact absurd (List.cons.inj heq).1 fun he => hc (by simp [he])
    · next heq =>
        obtain ⟨rfl, rfl⟩ := List.cons.inj heq
        rw [if_neg]
        intro hor
        simp only [Bool.or_eq_true, decide_eq_true_eq] at hor
        rcases hor with (he | he) | he <;> exact hc (by simp [he])
    · next heq => cases heq
  rw [hskip, hline, hpair]
  cases quotedString ('"' :: cs) <;> rfl

/-! ## §3. Lines. -/

/-- A text that is read as one line, whatever follows. -/
def IsLine (text : List Char) (l : Line) : Prop :=
  ∀ rest, line (skipBlanks (text ++ '\n' :: rest)) = some (l, '\n' :: rest)

theorem isLine_blank : IsLine [] .blank := fun _ => rfl

/-- The line that gives a string to a key. -/
def stringLine (name s : String) : List Char :=
  name.toList ++ ' ' :: '=' :: ' ' :: '"' :: (escaped s.toList ++ ['"'])

/-- What is read of such a line: nothing if the string has control characters. -/
theorem line_stringLine {name : String} (h : IsBareKey name) (s : String) (rest : List Char) :
    line (skipBlanks (stringLine name s ++ '\n' :: rest))
      = if s.toList.all isTextChar then some (.pair ⟨[], name, .string s⟩, '\n' :: rest)
        else none := by
  have hassoc : stringLine name s ++ '\n' :: rest
      = name.toList ++ ' ' :: '=' :: ' ' :: '"' :: (escaped s.toList ++ '"' :: '\n' :: rest) := by
    simp [stringLine]
  rw [hassoc, line_string h, quotedString_escaped _ (by simp), String.ofList_toList]
  split <;> rfl

theorem isLine_stringLine {name s : String} (h : IsBareKey name) (text : s.toList.all isTextChar) :
    IsLine (stringLine name s) (.pair ⟨[], name, .string s⟩) := fun rest => by
  rw [line_stringLine h, if_pos text]

theorem lines_succ (bound : Nat) {cs rest : List Char} {l : Line}
    (h : line (skipBlanks cs) = some (l, '\n' :: rest)) :
    lines (bound + 1) cs = (lines bound rest).map (l :: ·) := by
  have hne : cs ≠ [] := by
    rintro rfl
    cases (Prod.mk.inj (Option.some.inj h)).2
  rw [lines, h]
  · simp only [Option.bind_eq_bind, Option.bind_some, restOfLine_newline]
    cases lines bound rest <;> rfl
  · exact hne

theorem lines_eq_none (bound : Nat) {cs : List Char} (h : line (skipBlanks cs) = none) :
    lines bound cs = none := by
  have hne : cs ≠ [] := by
    rintro rfl
    cases h
  cases bound with
  | zero =>
      rw [lines]
      exact hne
  | succ bound =>
      rw [lines, h]
      · rfl
      · exact hne

/-- **Lines are read one after the other.** -/
theorem lines_flatMap {texts : List (List Char)} {ls : List Line}
    (h : List.Forall₂ IsLine texts ls) (bound : Nat) (rest : List Char) :
    lines (bound + texts.length) (texts.flatMap (· ++ ['\n']) ++ rest)
      = (lines bound rest).map (ls ++ ·) := by
  induction h with
  | nil =>
      rw [List.flatMap_nil, List.nil_append]
      cases lines (bound + [].length) rest <;> rfl
  | @cons text l texts ls hline _ ih =>
      have hassoc : (text :: texts).flatMap (· ++ ['\n']) ++ rest
          = text ++ '\n' :: (texts.flatMap (· ++ ['\n']) ++ rest) := by
        simp
      rw [hassoc, List.length_cons, ← Nat.add_assoc, lines_succ _ (hline _), ih]
      cases lines bound rest <;> rfl

/-- There are no more lines than characters, so their number is not bounded. -/
theorem length_le_length_flatMap (texts : List (List Char)) :
    texts.length ≤ (texts.flatMap (· ++ ['\n'])).length := by
  induction texts with
  | nil => exact Nat.le_refl _
  | cons text texts ih =>
      rw [List.flatMap_cons, List.length_append, List.length_append, List.length_cons,
        List.length_singleton]
      omega

section Documents

variable {text : String} {texts : List (List Char)} {ls : List Line}
variable (h : List.Forall₂ IsLine texts ls) (hmark : skipMark text.toList = text.toList)

include h hmark

/-- **A document is the table that its lines make up.** -/
theorem read?_of_isLine (htext : text.toList = texts.flatMap (· ++ ['\n'])) :
    read? text = (assemble (sections ls).1 (sections ls).2).map toEntries := by
  have hlines : lines text.toList.length text.toList = some ls := by
    obtain ⟨bound, hbound⟩ := Nat.exists_eq_add_of_le' (length_le_length_flatMap texts)
    rw [htext, hbound, ← List.append_nil (texts.flatMap _), lines_flatMap h bound [], lines,
      Option.map_some, List.append_nil]
  unfold read?
  rw [hmark]
  dsimp only
  rw [hlines, Option.map_eq_bind]
  rfl

/-- **A document with a line that is not well formed is not well formed itself.** -/
theorem read?_eq_none {rest : List Char} (htext : text.toList = texts.flatMap (· ++ ['\n']) ++ rest)
    (hrest : line (skipBlanks rest) = none) : read? text = none := by
  have hlines : lines text.toList.length text.toList = none := by
    have hlength : texts.length ≤ (texts.flatMap (· ++ ['\n']) ++ rest).length := by
      rw [List.length_append]
      exact Nat.le_add_right_of_le (length_le_length_flatMap texts)
    obtain ⟨bound, hbound⟩ := Nat.exists_eq_add_of_le' hlength
    rw [htext, hbound, lines_flatMap h bound rest, lines_eq_none bound hrest, Option.map_none]
  unfold read?
  rw [hmark]
  dsimp only
  rw [hlines]
  rfl

end Documents

end FeatureStudio.Toml
