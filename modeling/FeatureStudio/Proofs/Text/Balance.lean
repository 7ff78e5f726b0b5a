/-
  FeatureStudio.Proofs.Text.Balance: texts whose brackets are balanced outside literals.

  A scan goes through a text and keeps the closing brackets that are awaited.  It stops at a
  closing bracket that is not the next one awaited.  In a literal it looks for nothing but the
  quote that ends it.  A text is balanced if the scan goes through and leaves as it came: outside
  literals, no bracket being awaited.

  Such a text can stand wherever a scan is outside literals, whatever is awaited there.  A piece of
  text that is not balanced by itself, such as the head of a call, is known by the scans that it
  turns into one another.

  Main statements:
    * `IsBalanced.keeps`: a balanced text changes nothing where it stands.
    * `isBalanced_quote`: a literal is balanced, whatever it stands for.
    * `IsBalanced.lines`, `IsBalanced.onOneLine`, `IsBalanced.trimEnd`: texts laid out anew.
-/
import FeatureStudio.Proofs.Decimal.Text
import FeatureStudio.Proofs.Text.Indentation
import FeatureStudio.Proofs.Text.Literal
import FeatureStudio.Text.CaseMapping

namespace FeatureStudio.Text

/-! ## §1. Scans. -/

/-- Where a scan is, seen from the literals of the text. -/
inductive Mode where
  | outside
  | inside
  /-- In a literal, behind a backslash. -/
  | escaped
  deriving DecidableEq

/-- The mode behind a character. -/
def Mode.behind : Mode → Char → Mode
  | .outside, c => if c = '"' then .inside else .outside
  | .inside, c => if c = '"' then .outside else if c = '\\' then .escaped else .inside
  | .escaped, _ => .inside

/-- The bracket that closes what the character opens. -/
def closer? : Char → Option Char
  | '(' => some ')'
  | '[' => some ']'
  | '\x7b' => some '\x7d'
  | _ => none

/-- The closing brackets. -/
def closers : List Char := [')', ']', '\x7d']

/-- The brackets that are awaited behind a character outside literals. -/
def awaitedBehind (awaited : List Char) (c : Char) : Option (List Char) :=
  match closer? c with
  | some closer => some (closer :: awaited)
  | none =>
    if c ∈ closers then
      if awaited.head? = some c then some awaited.tail else none
    else some awaited

/-- A scan on its way through a text. -/
structure Scan where
  /-- The closing brackets that are awaited, the next one first. -/
  awaited : List Char
  mode : Mode
  deriving DecidableEq

namespace Scan

/-- A scan outside literals that awaits the brackets. -/
def awaiting (awaited : List Char) : Scan := ⟨awaited, .outside⟩

/-- The scan behind the next character. -/
def step (s : Scan) (c : Char) : Option Scan :=
  (if s.mode = .outside then awaitedBehind s.awaited c else some s.awaited).map
    fun awaited => ⟨awaited, s.mode.behind c⟩

/-- The scan behind all of the characters. -/
def read (s : Scan) (cs : List Char) : Option Scan := cs.foldlM step s

/-- The text turns the scan into another one. -/
def Turns (s t : Scan) (text : String) : Prop := s.read text.toList = some t

instance (s t : Scan) (text : String) : Decidable (s.Turns t text) :=
  inferInstanceAs (Decidable (_ = _))

end Scan

/-- Outside literals every bracket of the text has its counterpart, and every literal ends. -/
def IsBalanced (text : String) : Prop := (Scan.awaiting []).Turns (.awaiting []) text

instance (text : String) : Decidable (IsBalanced text) := inferInstanceAs (Decidable (_ = _))

example : IsBalanced "f(\"]\", [1, 2])" ∧ ¬ IsBalanced "([)]" ∧ ¬ IsBalanced "\"\\\"" := by decide

/-! ## §2. Texts in a row. -/

namespace Scan

variable {s t u : Scan} {c : Char} {cs ds : List Char} {a b : String}

theorem read_cons (s : Scan) (c : Char) (cs : List Char) :
    s.read (c :: cs) = (s.step c).bind (·.read cs) := List.foldlM_cons ..

theorem read_append (s : Scan) (cs ds : List Char) :
    s.read (cs ++ ds) = (s.read cs).bind (·.read ds) := List.foldlM_append ..

/-- What is known of a step goes on to what follows it. -/
theorem read_of_step (h : s.step c = some t) (cs : List Char) : s.read (c :: cs) = t.read cs := by
  rw [read_cons, h, Option.bind_some]

theorem read_of_read (h : s.read cs = some t) (ds : List Char) :
    s.read (cs ++ ds) = t.read ds := by
  rw [read_append, h, Option.bind_some]

theorem Turns.append (ha : s.Turns t a) (hb : t.Turns u b) : s.Turns u (a ++ b) := by
  unfold Turns
  rw [String.toList_append, read_of_read ha]
  exact hb

/-- Texts in a row that leave the scan as it is. -/
theorem Turns.intercalate {separator : String} (hs : s.Turns s separator) :
    ∀ {texts : List String}, (∀ text ∈ texts, s.Turns s text) →
      s.Turns s (separator.intercalate texts)
  | [], _ => by
      rw [String.intercalate_nil]
      rfl
  | [text], h => by
      rw [String.intercalate_singleton]
      exact h text List.mem_cons_self
  | text :: next :: texts, h => by
      rw [String.intercalate_cons_cons]
      exact ((h text List.mem_cons_self).append hs).append
        (intercalate hs fun text ht => h text (List.mem_cons_of_mem _ ht))

/-- The scan on top of brackets that are awaited further out. -/
def above (s : Scan) (base : List Char) : Scan := { s with awaited := s.awaited ++ base }

theorem awaitedBehind_append {awaited behind : List Char}
    (h : awaitedBehind awaited c = some behind) (base : List Char) :
    awaitedBehind (awaited ++ base) c = some (behind ++ base) := by
  unfold awaitedBehind at h ⊢
  split at h
  · -- an opening bracket is closed before anything further out
    cases h
    rfl
  · split at h
    · -- the bracket that is closed is not one of those further out
      split at h
      · rename_i hclosed hhead
        cases h
        cases awaited with
        | nil => cases hhead
        | cons d awaited => simpa [hclosed] using hhead
      · cases h
    · rename_i hopen
      cases h
      exact if_neg hopen

theorem step_above (h : s.step c = some t) (base : List Char) :
    (s.above base).step c = some (t.above base) := by
  obtain ⟨behind, hbehind, rfl⟩ := Option.map_eq_some_iff.mp h
  refine Option.map_eq_some_iff.mpr ⟨behind ++ base, ?_, rfl⟩
  show (if s.mode = .outside then _ else _) = _
  split at hbehind
  · rename_i hmode
    rw [if_pos hmode]
    exact awaitedBehind_append hbehind base
  · rename_i hmode
    cases hbehind
    exact if_neg hmode

/-- What is read is read in the same way on top of what is awaited further out. -/
theorem read_above (h : s.read cs = some t) (base : List Char) :
    (s.above base).read cs = some (t.above base) := by
  induction cs generalizing s with
  | nil =>
      cases h
      rfl
  | cons c cs ih =>
      rw [read_cons] at h
      obtain ⟨s', hstep, hread⟩ := Option.bind_eq_some_iff.mp h
      rw [read_of_step (step_above hstep base)]
      exact ih hread

end Scan

open Scan

namespace IsBalanced

variable {a b text : String}

/-- **A balanced text changes nothing where it stands**, whatever is awaited there. -/
theorem keeps (h : IsBalanced text) (awaited : List Char) :
    (awaiting awaited).Turns (awaiting awaited) text := read_above h awaited

theorem append (ha : IsBalanced a) (hb : IsBalanced b) : IsBalanced (a ++ b) :=
  Turns.append ha hb

/-- A balanced text between two texts, of which the second closes what the first has opened. -/
theorem between {opening closing : String} (awaited : List Char) (h : IsBalanced text)
    (ho : (awaiting []).Turns (awaiting awaited) opening)
    (hc : (awaiting awaited).Turns (awaiting []) closing) :
    IsBalanced (opening ++ text ++ closing) := (ho.append (h.keeps awaited)).append hc

theorem parenthesized (h : IsBalanced text) : IsBalanced ("(" ++ text ++ ")") :=
  h.between [')'] (by decide) (by decide)

theorem bracketed (h : IsBalanced text) : IsBalanced ("[" ++ text ++ "]") :=
  h.between [']'] (by decide) (by decide)

/-- Texts in a row; what stands between them counts only if there are two at least. -/
theorem intercalate {separator : String} {texts : List String}
    (hs : 1 < texts.length → IsBalanced separator) (h : ∀ text ∈ texts, IsBalanced text) :
    IsBalanced (separator.intercalate texts) := by
  match texts with
  | [] =>
      rw [String.intercalate_nil]
      decide
  | [text] =>
      rw [String.intercalate_singleton]
      exact h text List.mem_cons_self
  | _ :: _ :: _ => exact Turns.intercalate (hs (by simp)) h

theorem join {texts : List String} (h : ∀ text ∈ texts, IsBalanced text) :
    IsBalanced (String.join texts) := by
  induction texts with
  | nil => decide
  | cons text texts ih =>
      rw [String.join_cons]
      exact (h text List.mem_cons_self).append (ih fun t ht => h t (List.mem_cons_of_mem _ ht))

end IsBalanced

/-! ## §3. Characters that a scan passes over. -/

/-- Brackets, and the characters that literals begin, end and escape with. -/
def delimiters : List Char := ['(', '[', '\x7b', ')', ']', '\x7d', '"', '\\']

/-- The character is no delimiter. -/
def IsPlain (c : Char) : Prop := c ∉ delimiters

instance (c : Char) : Decidable (IsPlain c) := inferInstanceAs (Decidable (¬ _))

namespace Scan

variable {s t : Scan} {c : Char} {cs : List Char}

theorem awaitedBehind_plain (h : IsPlain c) (awaited : List Char) :
    awaitedBehind awaited c = some awaited := by
  have hopen : closer? c = none := by
    unfold closer?
    split
    · exact absurd h (by decide)
    · exact absurd h (by decide)
    · exact absurd h (by decide)
    · rfl
  have hclosers : closers.all (· ∈ delimiters) := by decide
  have hclosed : c ∉ closers := fun hc => h (of_decide_eq_true (List.all_eq_true.mp hclosers c hc))
  unfold awaitedBehind
  rw [hopen]
  exact if_neg hclosed

/-- Behind a plain character the scan is as it was, save that a pair with a backslash is over. -/
theorem step_plain (h : IsPlain c) (s : Scan) :
    s.step c = some (if s.mode = .escaped then ⟨s.awaited, .inside⟩ else s) := by
  have hquote : c ≠ '"' := fun hc => h (by rw [hc]; decide)
  have hbackslash : c ≠ '\\' := fun hc => h (by rw [hc]; decide)
  obtain ⟨awaited, mode⟩ := s
  cases mode with
  | escaped => rfl
  | inside => simp [step, Mode.behind, hquote, hbackslash]
  | outside => simp [step, Mode.behind, hquote, awaitedBehind_plain h]

theorem step_plain_of_ne (h : IsPlain c) (hs : s.mode ≠ .escaped) : s.step c = some s := by
  rw [step_plain h, if_neg hs]

theorem read_plain (hs : s.mode ≠ .escaped) (h : ∀ c ∈ cs, IsPlain c) : s.read cs = some s := by
  induction cs with
  | nil => rfl
  | cons c cs ih =>
      rw [read_of_step (step_plain_of_ne (h c List.mem_cons_self) hs)]
      exact ih fun c hc => h c (List.mem_cons_of_mem _ hc)

/-- No pair with a backslash is open behind a plain character. -/
theorem mode_of_step_plain (h : IsPlain c) (hstep : s.step c = some t) : t.mode ≠ .escaped := by
  rw [step_plain h] at hstep
  cases hstep
  split
  · exact fun hmode => by cases hmode
  · assumption

end Scan

theorem isBalanced_of_plain {text : String} (h : ∀ c ∈ text.toList, IsPlain c) :
    IsBalanced text := read_plain (by decide) h

/-- The characters of numbers are plain. -/
theorem isBalanced_of_numeral {text : String} (h : Decimal.Numeral text) : IsBalanced text := by
  have hdelimiters : delimiters.all fun d => ¬ Decimal.IsNumeral d := by decide
  refine isBalanced_of_plain fun c hc hd => ?_
  exact of_decide_eq_true (List.all_eq_true.mp hdelimiters c hd) (h c hc)

/-! ## §4. Literals. -/

/-- What is escaped in a literal leaves the scan in the literal. -/
theorem turns_escape (awaited : List Char) (text : String) :
    Turns ⟨awaited, .inside⟩ ⟨awaited, .inside⟩ (escape text) := by
  unfold Turns escape
  rw [String.toList_ofList]
  induction text.toList with
  | nil => rfl
  | cons c cs ih =>
      rw [List.flatMap_cons]
      rcases escapeChar_cases c with ⟨d, hpair, -, -⟩ | ⟨hself, hbackslash, hquote, -⟩
      · -- the backslash takes the scan out of the way of the character behind it
        rw [hpair]
        exact ih
      · have hstep : step ⟨awaited, .inside⟩ c = some ⟨awaited, .inside⟩ := by
          simp [step, Mode.behind, hquote, hbackslash]
        rw [hself, List.singleton_append, read_of_step hstep]
        exact ih

/-- **A literal is balanced**, whatever text it stands for. -/
theorem isBalanced_quote (text : String) : IsBalanced (quote text) :=
  have hopen : (awaiting []).Turns ⟨[], .inside⟩ "\"" := by decide
  (hopen.append (turns_escape [] text)).append (by decide)

/-! ## §5. Texts laid out anew. -/

/-- A unit of plain characters in front of lines is passed over: no line begins behind a
backslash, since the line feed in front of it is the other character of the pair. -/
theorem read_indentChars {unit : List Char} (hunit : ∀ c ∈ unit, IsPlain c) {start : Bool}
    {s : Scan} (hs : start = true → s.mode ≠ .escaped) (cs : List Char) :
    s.read (indentChars unit start cs) = s.read cs := by
  have hfeed : IsPlain '\n' := by decide
  -- what follows a character is indented as it is behind it
  have hnext : ∀ {s : Scan} {c : Char} {cs : List Char} {start : Bool},
      (∀ {t : Scan}, (start = true → t.mode ≠ .escaped) →
        t.read (indentChars unit start cs) = t.read cs) →
      (start = true → c = '\n') →
        s.read (c :: indentChars unit start cs) = s.read (c :: cs) := by
    intro s c cs start ih hc
    rw [read_cons, read_cons]
    cases hstep : s.step c with
    | none => rfl
    | some t => exact ih fun hstart => mode_of_step_plain (hc hstart ▸ hfeed) hstep
  induction cs generalizing start s with
  | nil => cases start <;> rfl
  | cons c cs ih =>
      cases start with
      | false => exact hnext ih fun hc => eq_of_beq hc
      | true =>
          rw [indentChars]
          split
          · exact hnext ih fun _ => ‹c = '\n'›
          · rw [read_of_read (read_plain (hs rfl) hunit)]
            exact hnext ih fun h => by cases h

theorem read_onOneLine (s : Scan) (cs : List Char) :
    s.read (cs.map fun c => if c = '\n' then ' ' else c) = s.read cs := by
  have hstep : ∀ s : Scan, s.step ' ' = s.step '\n' := fun s => by
    rw [step_plain (by decide), step_plain (by decide)]
  induction cs generalizing s with
  | nil => rfl
  | cons c cs ih =>
      have hc : s.step (if c = '\n' then ' ' else c) = s.step c := by
        split
        · rename_i hfeed
          rw [hfeed, hstep]
        · rfl
      rw [List.map_cons, read_cons, read_cons, hc]
      cases s.step c with
      | none => rfl
      | some t => exact ih t

/-- If a scan is outside literals behind a plain character, it was so in front of it. -/
theorem eq_of_step_plain {c : Char} {s t : Scan} (h : IsPlain c) (hstep : s.step c = some t)
    (ht : t.mode = .outside) : s = t := by
  rw [step_plain h] at hstep
  cases hstep
  split at ht
  · cases ht
  · rename_i hs
    rw [if_neg hs]

/-- Plain characters behind a text that is balanced with them may be left out. -/
theorem read_dropWhile {p : Char → Bool} (hp : ∀ c, p c → IsPlain c) {cs : List Char}
    {s t : Scan} (h : s.read cs.reverse = some t) (ht : t.mode = .outside) :
    s.read (cs.dropWhile p).reverse = some t := by
  induction cs with
  | nil => exact h
  | cons c cs ih =>
      rw [List.dropWhile_cons]
      split
      · -- the character that is left out is the last one that is read
        rename_i hc
        rw [List.reverse_cons, read_append] at h
        obtain ⟨u, hu, hlast⟩ := Option.bind_eq_some_iff.mp h
        have hstep : u.step c = some t := by
          rw [read_cons] at hlast
          obtain ⟨v, hv, hend⟩ := Option.bind_eq_some_iff.mp hlast
          rw [hv, ← hend]
          rfl
        rw [eq_of_step_plain (hp c hc) hstep ht] at hu
        exact ih hu
      · exact h

/-- No blank character is a bracket, a quote or a backslash. -/
theorem isPlain_of_isWhite {c : Char} (h : isWhite c) : IsPlain c := by
  have hwhite : delimiters.all fun d => ¬ isWhite d := by decide
  exact fun hc => of_decide_eq_true (List.all_eq_true.mp hwhite c hc) h

theorem isPlain_unit {u : Indent} {c : Char} (h : c ∈ u.unit.toList) : IsPlain c := by
  rcases Indent.mem_unit h with rfl | rfl <;> decide

namespace IsBalanced

variable {text : String}

/-- **Indented texts are balanced.** -/
theorem lines (h : IsBalanced text) (u : Indent) (levels : Nat) :
    IsBalanced (u.lines text levels) := by
  unfold IsBalanced Turns Indent.lines indentLines
  rw [String.toList_ofList, read_indentChars (fun c hc => isPlain_unit (mem_of_mem_replicate hc))
    (fun _ => by decide)]
  exact h

theorem onOneLine (h : IsBalanced text) : IsBalanced (onOneLine text) := by
  unfold IsBalanced Turns Text.onOneLine
  rw [String.toList_ofList, read_onOneLine]
  exact h

theorem trimEnd (h : IsBalanced text) : IsBalanced (trimEnd text) := by
  unfold IsBalanced Turns Text.trimEnd
  rw [String.toList_ofList]
  exact read_dropWhile (fun _ => isPlain_of_isWhite) (by rwa [List.reverse_reverse]) rfl

theorem trimLineFeeds (h : IsBalanced text) : IsBalanced (trimLineFeeds text) := by
  unfold IsBalanced Turns Text.trimLineFeeds
  rw [String.toList_ofList]
  refine read_dropWhile (fun c hc => ?_) (by rwa [List.reverse_reverse]) rfl
  rw [eq_of_beq hc]
  decide

end IsBalanced

end FeatureStudio.Text
