/-
  FeatureStudio.Proofs.Text.Comment: texts without their block comments.

  A comment runs from `/*` outside a string literal to the first `*/` behind it, whatever stands in
  between.  A text is read character by character; a slash is kept as soon as it is clear that it
  opens no comment.

  Main statements:
    * `keep_plain`: a text without slashes and quotes is kept as it is.
    * `length_keep_le`, `length_keep_opened_lt`: nothing is added, and a comment is missing.
    * `keep_reopening`, `exists_keep_closed`: whether of a text inside a comment anything is left.
-/
import FeatureStudio.Text.Basic
import Mathlib.Data.List.Basic

namespace FeatureStudio.Text

namespace Comment

/-! ## §1. Reading. -/

/-- Where the reader is. -/
inductive Mode where
  | code
  /-- Behind a slash that may open a comment. -/
  | slash
  | literal
  /-- Behind a backslash inside a literal. -/
  | escaped
  | inside
  /-- Inside a comment, behind a star that may close it. -/
  | star
  deriving DecidableEq, Repr

/-- Reads a character outside of literals and comments. -/
def start (c : Char) : List Char × Mode :=
  if c = '/' then ([], .slash) else if c = '"' then ([c], .literal) else ([c], .code)

/-- Reads a character: what is kept, and where the reader is then. -/
def step : Mode → Char → List Char × Mode
  | .code, c => start c
  | .slash, c => if c = '*' then ([], .inside) else ('/' :: (start c).1, (start c).2)
  | .literal, c => ([c], if c = '\\' then .escaped else if c = '"' then .code else .literal)
  | .escaped, c => ([c], .literal)
  | .inside, c => ([], if c = '*' then .star else .inside)
  | .star, c => ([], if c = '/' then .code else if c = '*' then .star else .inside)

/-- The slash that is not kept yet. -/
def pending : Mode → List Char
  | .slash => ['/']
  | _ => []

/-- The characters that are kept. -/
def keep : Mode → List Char → List Char
  | m, [] => pending m
  | m, c :: cs => (step m c).1 ++ keep (step m c).2 cs

/-- Characters that leave a line empty. -/
def isBlank (c : Char) : Bool := c = ' ' || c = '\t'

/-- Whether every comment that is closed is opened again with nothing but blanks in between, when
the characters are read inside a comment or, if `closed` says so, behind one. -/
def reopens : (closed : Bool) → List Char → Bool
  | false, '*' :: '/' :: cs => reopens true cs
  | false, _ :: cs => reopens false cs
  | false, [] => true
  | true, '/' :: '*' :: cs => reopens false cs
  | true, c :: cs => isBlank c && reopens true cs
  | true, [] => false

end Comment

/-- The text without its comments. -/
def withoutComments (text : String) : String := String.ofList (Comment.keep .code text.toList)

/-- A literal may hold what looks like a comment, and a comment what looks like a literal. -/
example : withoutComments "a /* \"b */ + \"/* c */\"" = "a  + \"/* c */\"" := by decide +kernel

namespace Comment

/-! ## §2. Outside of comments. -/

theorem start_plain {c : Char} (hslash : c ≠ '/') (hquote : c ≠ '"') : start c = ([c], .code) := by
  rw [start, if_neg hslash, if_neg hquote]

/-- A character that begins neither a comment nor a literal. -/
theorem keep_code_cons {c : Char} (hslash : c ≠ '/') (hquote : c ≠ '"') (cs : List Char) :
    keep .code (c :: cs) = c :: keep .code cs := by
  rw [keep, step, start_plain hslash hquote]
  rfl

/-- **A text without slashes and quotes is kept as it is.** -/
theorem keep_plain {cs : List Char} (hslash : '/' ∉ cs) (hquote : '"' ∉ cs) (rest : List Char) :
    keep .code (cs ++ rest) = cs ++ keep .code rest := by
  induction cs with
  | nil => rfl
  | cons c cs ih =>
      rw [List.mem_cons, not_or] at hslash hquote
      rw [List.cons_append, keep_code_cons (Ne.symm hslash.1) (Ne.symm hquote.1),
        ih hslash.2 hquote.2, List.cons_append]

/-- A slash opens no comment unless a star follows. -/
theorem keep_slash {rest : List Char} (h : rest.head? ≠ some '*') :
    keep .code ('/' :: rest) = '/' :: keep .code rest := by
  cases rest with
  | nil => rfl
  | cons c rest =>
      have hstep : step .slash c = ('/' :: (start c).1, (start c).2) :=
        if_neg fun hc => h (congrArg some hc)
      show keep .slash (c :: rest) = '/' :: keep .code (c :: rest)
      rw [keep, hstep]
      rfl

/-- What comes first outside of comments is kept. -/
theorem exists_keep_code {c : Char} {cs : List Char} (h : c = '/' → cs.head? ≠ some '*') :
    ∃ kept, keep .code (c :: cs) = c :: kept := by
  by_cases hslash : c = '/'
  · subst hslash
    exact ⟨_, keep_slash (h rfl)⟩
  · by_cases hquote : c = '"'
    · subst hquote
      exact ⟨keep .literal cs, rfl⟩
    · exact ⟨_, keep_code_cons hslash hquote cs⟩

/-- Nothing is added. -/
theorem length_keep_le (cs : List Char) :
    ∀ m, (keep m cs).length ≤ (pending m).length + cs.length := by
  induction cs with
  | nil => exact fun m => Nat.le_refl _
  | cons c cs ih =>
      intro m
      have hstep : (step m c).1.length + (pending (step m c).2).length
          ≤ (pending m).length + 1 := by
        cases m with
        | escaped => exact Nat.le_refl _
        | _ => simp only [step, start]; split_ifs <;> simp [pending]
      have hrest := ih (step m c).2
      rw [keep, List.length_append, List.length_cons]
      omega

/-- A comment opens in front of a blank. -/
theorem keep_opened (cs : List Char) : keep .code ('/' :: '*' :: ' ' :: cs) = keep .inside cs := rfl

/-- A comment is missing. -/
theorem length_keep_opened_lt (cs : List Char) :
    (keep .inside cs).length < ('/' :: '*' :: ' ' :: cs).length := by
  have hle := length_keep_le cs .inside
  simp only [pending, List.length_nil] at hle
  simp only [List.length_cons]
  omega

/-! ## §3. Inside a comment. -/

/-- A star closes no comment unless a slash follows. -/
theorem keep_inside_cons {c : Char} {cs : List Char} (h : c = '*' → cs.head? ≠ some '/') :
    keep .inside (c :: cs) = keep .inside cs := by
  by_cases hc : c = '*'
  · subst hc
    cases cs with
    | nil => rfl
    | cons d cs =>
        have hstep : step .star d = step .inside d :=
          congrArg (([], ·)) (if_neg fun hd => h rfl (congrArg some hd))
        show keep .star (d :: cs) = keep .inside (d :: cs)
        rw [keep, keep, hstep]
  · have hstep : step .inside c = ([], .inside) := congrArg (([], ·)) (if_neg hc)
    rw [keep, hstep]
    rfl

/-- The end of a comment. -/
def close : List Char := [' ', '*', '/']

/-- Where the reader is behind a comment that has been closed, or inside one that has not. -/
def mode (closed : Bool) : Mode := if closed then .code else .inside

/-- The end of a comment begins with nothing that makes a mark of two characters. -/
theorem head?_append_close {c d d' : Char} {cs : List Char} (hd : d' ≠ ' ')
    (h : ∀ cs', c = d → cs = d' :: cs' → False) (rest : List Char) :
    c = d → (cs ++ close ++ rest).head? ≠ some d' := by
  intro hc hhead
  cases cs with
  | nil => exact hd (Option.some.inj hhead).symm
  | cons d'' cs => exact h cs hc (congrArg (· :: cs) (Option.some.inj hhead))

theorem keep_blank {c : Char} (h : isBlank c) (cs : List Char) :
    keep .code (c :: cs) = c :: keep .code cs := by
  rw [isBlank, Bool.or_eq_true, decide_eq_true_eq, decide_eq_true_eq] at h
  rcases h with rfl | rfl
  · rfl
  · rfl

/-- **A text that opens every comment again that it closes leaves nothing but blanks.** -/
theorem keep_reopening {closed : Bool} {cs : List Char} (h : reopens closed cs)
    (rest : List Char) :
    ∃ blanks : List Char, (∀ c ∈ blanks, isBlank c) ∧
      keep (mode closed) (cs ++ close ++ rest) = blanks ++ keep .code rest := by
  induction closed, cs using reopens.induct with
  | case1 cs ih => exact ih h
  | case2 c cs hclosed ih =>
      rw [reopens.eq_2 _ _ hclosed] at h
      obtain ⟨blanks, hblanks, hkeep⟩ := ih h
      refine ⟨blanks, hblanks, ?_⟩
      exact (keep_inside_cons (head?_append_close (by decide) hclosed rest)).trans hkeep
  | case3 => exact ⟨[], by simp, rfl⟩
  | case4 cs ih => exact ih h
  | case5 c cs hopened ih =>
      rw [reopens.eq_5 _ _ hopened, Bool.and_eq_true] at h
      obtain ⟨blanks, hblanks, hkeep⟩ := ih h.2
      refine ⟨c :: blanks, List.forall_mem_cons.mpr ⟨h.1, hblanks⟩, ?_⟩
      exact (keep_blank h.1 _).trans (congrArg (c :: ·) hkeep)
  | case6 => cases h

/-- **A text that closes a comment and does not open it again is seen**: a character that is no
blank is left, either its own or of the end of the comment. -/
theorem exists_keep_closed {closed : Bool} {cs : List Char} (h : ¬ reopens closed cs)
    (rest : List Char) :
    ∃ blanks : List Char, (∀ c ∈ blanks, isBlank c) ∧ ∃ c ∈ cs ++ close, ¬ isBlank c ∧
      ∃ kept, keep (mode closed) (cs ++ close ++ rest) = blanks ++ c :: kept := by
  induction closed, cs using reopens.induct with
  | case1 cs ih =>
      obtain ⟨blanks, hblanks, c, hc, hleft⟩ := ih h
      exact ⟨blanks, hblanks, c, List.mem_cons_of_mem _ (List.mem_cons_of_mem _ hc), hleft⟩
  | case2 c cs hclosed ih =>
      rw [reopens.eq_2 _ _ hclosed] at h
      obtain ⟨blanks, hblanks, d, hd, hblank, kept, hkeep⟩ := ih h
      refine ⟨blanks, hblanks, d, List.mem_cons_of_mem _ hd, hblank, kept, ?_⟩
      exact (keep_inside_cons (head?_append_close (by decide) hclosed rest)).trans hkeep
  | case3 => exact absurd rfl h
  | case4 cs ih =>
      obtain ⟨blanks, hblanks, c, hc, hleft⟩ := ih h
      exact ⟨blanks, hblanks, c, List.mem_cons_of_mem _ (List.mem_cons_of_mem _ hc), hleft⟩
  | case5 c cs hopened ih =>
      by_cases hblank : isBlank c
      · rw [reopens.eq_5 _ _ hopened, hblank, Bool.true_and] at h
        obtain ⟨blanks, hblanks, d, hd, hblank', kept, hkeep⟩ := ih h
        refine ⟨c :: blanks, List.forall_mem_cons.mpr ⟨hblank, hblanks⟩, d,
          List.mem_cons_of_mem _ hd, hblank', kept, ?_⟩
        exact (keep_blank hblank _).trans (congrArg (c :: ·) hkeep)
      · obtain ⟨kept, hkeep⟩ :=
          exists_keep_code (head?_append_close (by decide) hopened rest)
        exact ⟨[], by simp, c, List.mem_cons_self, hblank, kept, hkeep⟩
  -- behind a comment that is never opened again, the star of its end is left
  | case6 => exact ⟨[' '], by simp [isBlank], '*', by simp [close], by decide, _, rfl⟩

end Comment

end FeatureStudio.Text
