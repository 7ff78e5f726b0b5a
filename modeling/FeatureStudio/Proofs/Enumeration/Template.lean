/-
  FeatureStudio.Proofs.Enumeration.Template: the language of templates.

  A template is meant to be made of placeholders and of text without braces.  The places of the
  braces are found from left to right, placeholder by placeholder, and cut out by their distance in
  bytes.  Behind the last placeholder no brace may be left; in front of a placeholder only opening
  braces are looked for, so closing braces are taken there for text.

  Main statements:
    * `parse_eq_some_iff`: which templates are taken, and for which pieces.
    * `scan_eq_expand`: cutting a template placeholder by placeholder fills it in as its pieces say.
    * `follows_iff`: when a template is treated as the language says.
    * `strayBrace_not_follows`: a template that is taken with a closing brace too many.
-/
import FeatureStudio.Enumeration.Builder
import FeatureStudio.Proofs.Text.Position

namespace FeatureStudio.NameTemplate

variable {enumName token : String}

/-! ## §1. Parsing. -/

theorem parse_cons_of_ne {c : Char} (hc : c ≠ '\x7b') (rest : List Char) :
    parse (c :: rest) =
      if c = '\x7d' && !rest.contains '\x7b' then none else (parse rest).map (.char c :: ·) := by
  rw [parse.eq_def]
  split
  · rename_i h; cases h
  · rename_i h; cases h; exact absurd rfl hc
  · rename_i h; cases h; exact absurd rfl hc
  · rename_i h; cases h; rw [if_neg hc]

/-- What the text between two braces stands for. -/
def placeholder? (key : List Char) : Option Piece :=
  if key = "name".toList then some .name
  else if key = "value".toList then some .value
  else none

/-- Braces hold what stands in front of the first closing one. -/
theorem key_unique (key key' : List Char) {rest rest' : List Char} (hkey : '\x7d' ∉ key)
    (hkey' : '\x7d' ∉ key') (h : key ++ '\x7d' :: rest = key' ++ '\x7d' :: rest') : key = key' := by
  have htake : ∀ key rest : List Char, '\x7d' ∉ key →
      (key ++ '\x7d' :: rest).takeWhile (· ≠ '\x7d') = key := by
    intro key rest hkey
    have hall : ∀ c ∈ key, decide (c ≠ '\x7d') :=
      fun c hc => decide_eq_true fun heq => hkey (heq ▸ hc)
    rw [List.takeWhile_append_of_pos hall]
    simp
  rw [← htake key rest hkey, h, htake key' rest' hkey']

theorem parse_placeholder {key : List Char} (hkey : '\x7d' ∉ key) (rest : List Char) :
    parse ('\x7b' :: (key ++ '\x7d' :: rest)) =
      (placeholder? key).bind fun p => (parse rest).map (p :: ·) := by
  unfold placeholder?
  by_cases hname : key = "name".toList
  · subst hname
    rfl
  by_cases hvalue : key = "value".toList
  · subst hvalue
    rfl
  rw [if_neg hname, if_neg hvalue, Option.bind_none, parse.eq_4, if_pos rfl]
  · intro rest' _ h
    exact hname (key_unique key "name".toList hkey (by decide) h)
  · intro rest' _ h
    exact hvalue (key_unique key "value".toList hkey (by decide) h)

theorem parse_unclosed {after : List Char} (hafter : '\x7d' ∉ after) :
    parse ('\x7b' :: after) = none := by
  rw [parse.eq_4, if_pos rfl]
  · rintro rest' - rfl
    simp at hafter
  · rintro rest' - rfl
    simp at hafter

/-- In front of an opening brace everything else is text. -/
theorem parse_literal {literal : List Char} (hliteral : '\x7b' ∉ literal) (rest : List Char) :
    parse (literal ++ '\x7b' :: rest) =
      (parse ('\x7b' :: rest)).map (literal.map .char ++ ·) := by
  induction literal with
  | nil => simp
  | cons c literal ih =>
      obtain ⟨hc, hliteral⟩ := List.ne_and_not_mem_of_not_mem_cons hliteral
      have hopens : ¬ ((c = '\x7d' && !(literal ++ '\x7b' :: rest).contains '\x7b') = true) := by
        simp
      rw [List.cons_append, parse_cons_of_ne (Ne.symm hc), if_neg hopens, ih hliteral,
        Option.map_map]
      rfl

/-- Text without placeholders may have no braces. -/
theorem parse_tail {rest : List Char} (hrest : '\x7b' ∉ rest) :
    parse rest = if '\x7d' ∈ rest then none else some (rest.map .char) := by
  induction rest with
  | nil => rfl
  | cons c rest ih =>
      obtain ⟨hc, hbehind⟩ := List.ne_and_not_mem_of_not_mem_cons hrest
      rw [parse_cons_of_ne (Ne.symm hc), ih hbehind]
      by_cases hclosing : c = '\x7d'
      · subst hclosing
        simp [hbehind]
      · by_cases hmem : '\x7d' ∈ rest <;> simp [hmem, hclosing, Ne.symm hclosing]

/-! ## §2. Pieces. -/

namespace Piece

/-- The piece as it stands in a template. -/
def written : Piece → List Char
  | .char c => [c]
  | .name => "\x7bname\x7d".toList
  | .value => "\x7bvalue\x7d".toList

/-- Whether the piece is a placeholder. -/
def isPlaceholder : Piece → Bool
  | .char _ => false
  | .name | .value => true

@[simp] theorem text_char (c : Char) : (char c).text enumName token = String.singleton c := rfl

@[simp] theorem leadingText_char (c : Char) :
    (char c).leadingText enumName token = String.singleton c := rfl

/-- At the start of a template, placeholders are put in small initial letters. -/
theorem leadingText_eq (p : Piece) :
    p.leadingText enumName token =
      if p.isPlaceholder then Text.lowerFirst (p.text enumName token)
      else p.text enumName token := by
  cases p <;> rfl

end Piece

/-- The template that pieces are written as. -/
def written (pieces : List Piece) : List Char := pieces.flatMap Piece.written

/-- The text of the pieces has no braces. -/
def IsPlain (pieces : List Piece) : Prop :=
  ∀ c, Piece.char c ∈ pieces → c ≠ '\x7b' ∧ c ≠ '\x7d'

/-- The text of the pieces has no opening braces, and closing ones only where a placeholder
follows. -/
def Tolerated : List Piece → Prop
  | [] => True
  | .char c :: rest => c ≠ '\x7b' ∧ (c = '\x7d' → ∃ p ∈ rest, p.isPlaceholder) ∧ Tolerated rest
  | .name :: rest | .value :: rest => Tolerated rest

theorem IsPlain.tolerated {pieces : List Piece} (h : IsPlain pieces) : Tolerated pieces := by
  induction pieces with
  | nil => trivial
  | cons p rest ih =>
      have hrest : IsPlain rest := fun c hc => h c (List.mem_cons_of_mem _ hc)
      cases p with
      | char c =>
          obtain ⟨hopening, hclosing⟩ := h c List.mem_cons_self
          exact ⟨hopening, fun hc => absurd hc hclosing, ih hrest⟩
      | name => exact ih hrest
      | value => exact ih hrest

/-- A tolerated text has an opening brace only if it has a placeholder. -/
theorem Tolerated.opening_mem_written_iff {pieces : List Piece} (h : Tolerated pieces) :
    '\x7b' ∈ written pieces ↔ ∃ p ∈ pieces, p.isPlaceholder := by
  induction pieces with
  | nil => simp [written]
  | cons p rest ih =>
      rw [written, List.flatMap_cons, List.mem_append, ← written, List.exists_mem_cons_iff]
      cases p with
      | char c =>
          have hopening : '\x7b' ∉ Piece.written (.char c) :=
            fun hc => h.1 (List.mem_singleton.mp hc).symm
          rw [ih h.2.2]
          simp only [hopening, Piece.isPlaceholder, Bool.false_eq_true]
      | name => exact ⟨fun _ => .inl rfl, fun _ => .inl (by decide)⟩
      | value => exact ⟨fun _ => .inl rfl, fun _ => .inl (by decide)⟩

theorem parse_written {pieces : List Piece} (h : Tolerated pieces) :
    parse (written pieces) = some pieces := by
  induction pieces with
  | nil => rfl
  | cons p rest ih =>
      cases p with
      | char c =>
          obtain ⟨hopening, hclosing, hrest⟩ := h
          -- a brace that closes is taken as text because a placeholder follows
          have hopens : ¬ ((c = '\x7d' && !(written rest).contains '\x7b') = true) := by
            simp only [Bool.and_eq_true, decide_eq_true_eq, Bool.not_eq_true',
              List.contains_eq_mem, decide_eq_false_iff_not, not_and, not_not]
            exact fun hc => hrest.opening_mem_written_iff.mpr (hclosing hc)
          have hcons : written (.char c :: rest) = c :: written rest := rfl
          rw [hcons, parse_cons_of_ne hopening, if_neg hopens, ih hrest, Option.map_some]
      | name =>
          have hparse : parse (written (.name :: rest)) = (parse (written rest)).map (.name :: ·) :=
            rfl
          rw [hparse, ih h, Option.map_some]
      | value =>
          have hparse :
              parse (written (.value :: rest)) = (parse (written rest)).map (.value :: ·) := rfl
          rw [hparse, ih h, Option.map_some]

theorem tolerated_of_parse {cs : List Char} {pieces : List Piece} (h : parse cs = some pieces) :
    Tolerated pieces ∧ written pieces = cs := by
  induction cs using parse.induct generalizing pieces with
  | case1 => cases h; exact ⟨trivial, rfl⟩
  | case2 rest ih =>
      obtain ⟨pieces', hrest, rfl⟩ := Option.map_eq_some_iff.mp h
      obtain ⟨htolerated, rfl⟩ := ih hrest
      exact ⟨htolerated, rfl⟩
  | case3 rest ih =>
      obtain ⟨pieces', hrest, rfl⟩ := Option.map_eq_some_iff.mp h
      obtain ⟨htolerated, rfl⟩ := ih hrest
      exact ⟨htolerated, rfl⟩
  | case4 rest hname hvalue =>
      rw [parse.eq_4 _ _ hname hvalue, if_pos rfl] at h
      cases h
  | case5 c rest _ _ hc hstray =>
      rw [parse_cons_of_ne hc, if_pos hstray] at h
      cases h
  | case6 c rest _ _ hc hstray ih =>
      rw [parse_cons_of_ne hc, if_neg hstray] at h
      obtain ⟨pieces', hrest, rfl⟩ := Option.map_eq_some_iff.mp h
      obtain ⟨htolerated, rfl⟩ := ih hrest
      refine ⟨⟨hc, fun hclosing => ?_, htolerated⟩, rfl⟩
      -- an opening brace in the text behind is a placeholder among the pieces
      rw [← htolerated.opening_mem_written_iff]
      by_contra hopening
      exact hstray (by simp [hclosing, hopening])

/-- **The templates that are taken**, and the pieces that they have. -/
theorem parse_eq_some_iff {cs : List Char} {pieces : List Piece} :
    parse cs = some pieces ↔ Tolerated pieces ∧ written pieces = cs := by
  refine ⟨tolerated_of_parse, ?_⟩
  rintro ⟨htolerated, rfl⟩
  exact parse_written htolerated

/-! ## §3. Cutting placeholders out. -/

/-- What comes next in a template, from the left. -/
inductive Next where
  /-- No placeholder, only text. -/
  | tail
  /-- Braces that are not closed. -/
  | unclosed
  /-- Text, what the next braces hold, and the rest. -/
  | placeholder (literal key rest : List Char)

/-- What comes next in a template, by the places of its braces.  There is no answer if one of them
is not where the template can be cut. -/
def next? (cs : List Char) : Option Next :=
  match Text.findFrom ['\x7b'] 0 cs with
  | none => some .tail
  | some start => do
    let (literal, _) ← Text.cutAt? start cs
    let (_, after) ← Text.cutAt? (start + 1) cs
    match Text.findFrom ['\x7d'] 0 after with
    | none => some .unclosed
    | some stop => do
      let (key, _) ← Text.cutAt? stop after
      let (_, rest) ← Text.cutAt? (stop + 1) after
      some (.placeholder literal key rest)

theorem next?_tail {rest : List Char} (hrest : '\x7b' ∉ rest) : next? rest = some .tail := by
  unfold next?
  rw [Text.findFrom_singleton_eq_none_iff.mpr hrest]

/-- A template can be cut in front of a brace and behind it. -/
theorem cutAt?_brace (brace : Char) (hbrace : brace.utf8Size = 1) (before after : List Char) :
    Text.cutAt? (Text.byteLength before) (before ++ brace :: after)
        = some (before, brace :: after) ∧
      Text.cutAt? (Text.byteLength before + 1) (before ++ brace :: after)
        = some (before ++ [brace], after) := by
  refine ⟨Text.cutAt?_append before _, Text.cutAt?_eq_some_iff.mpr ⟨?_, ?_⟩⟩
  · rw [List.append_assoc, List.singleton_append]
  · rw [Text.byteLength_append, Text.byteLength_cons, Text.byteLength_nil, hbrace]

theorem next?_unclosed {literal after : List Char} (hliteral : '\x7b' ∉ literal)
    (hafter : '\x7d' ∉ after) : next? (literal ++ '\x7b' :: after) = some .unclosed := by
  obtain ⟨hbefore, hbehind⟩ := cutAt?_brace '\x7b' rfl literal after
  unfold next?
  rw [Text.findFrom_singleton_append hliteral, Nat.zero_add]
  simp only [hbefore, hbehind, Option.bind_eq_bind, Option.bind_some]
  rw [Text.findFrom_singleton_eq_none_iff.mpr hafter]

theorem next?_placeholder {literal key : List Char} (hliteral : '\x7b' ∉ literal)
    (hkey : '\x7d' ∉ key) (rest : List Char) :
    next? (literal ++ '\x7b' :: (key ++ '\x7d' :: rest))
      = some (.placeholder literal key rest) := by
  obtain ⟨hbefore, hbehind⟩ := cutAt?_brace '\x7b' rfl literal (key ++ '\x7d' :: rest)
  obtain ⟨hbefore', hbehind'⟩ := cutAt?_brace '\x7d' rfl key rest
  unfold next?
  rw [Text.findFrom_singleton_append hliteral, Nat.zero_add]
  simp only [hbefore, hbehind, Option.bind_eq_bind, Option.bind_some]
  rw [Text.findFrom_singleton_append hkey, Nat.zero_add]
  simp only [hbefore', hbehind', Option.bind_some]

/-- Every template is text alone, or text in front of braces that are not closed or that hold a
key. -/
theorem template_cases (cs : List Char) :
    '\x7b' ∉ cs ∨
      (∃ literal after, cs = literal ++ '\x7b' :: after ∧ '\x7b' ∉ literal ∧ '\x7d' ∉ after) ∨
      ∃ literal key rest, cs = literal ++ '\x7b' :: (key ++ '\x7d' :: rest) ∧ '\x7b' ∉ literal ∧
        '\x7d' ∉ key := by
  by_cases hopening : '\x7b' ∈ cs
  · obtain ⟨literal, after, rfl, hliteral⟩ := List.eq_append_cons_of_mem hopening
    by_cases hclosing : '\x7d' ∈ after
    · obtain ⟨key, rest, rfl, hkey⟩ := List.eq_append_cons_of_mem hclosing
      exact .inr (.inr ⟨literal, key, rest, rfl, hliteral, hkey⟩)
    · exact .inr (.inl ⟨literal, after, rfl, hliteral, hclosing⟩)
  · exact .inl hopening

/-- What is left behind a placeholder is shorter. -/
theorem length_lt_of_next? {cs literal key rest : List Char}
    (h : next? cs = some (.placeholder literal key rest)) : rest.length < cs.length := by
  rcases template_cases cs with
    htail | ⟨literal', after, rfl, hliteral, hafter⟩ | ⟨literal', key', rest', rfl, hliteral, hkey⟩
  · rw [next?_tail htail] at h
    cases h
  · rw [next?_unclosed hliteral hafter] at h
    cases h
  · rw [next?_placeholder hliteral hkey] at h
    cases h
    simp only [List.length_append, List.length_cons]
    omega

/-! ## §4. Filling in. -/

/-- Fills in a template placeholder by placeholder: `name` is what has been made so far and `cs`
what is left, `first` as long as no placeholder has been met. -/
def scan (template enumName token : String) (first : Bool) (name : String) (cs : List Char) :
    Option (Except UsageError String) :=
  match _h : next? cs with
  | none => none
  | some .tail =>
    if '\x7d' ∈ cs then some (.error (.invalidTemplate template))
    else some (.ok (name ++ String.ofList cs))
  | some .unclosed => some (.error (.invalidTemplate template))
  | some (.placeholder literal key rest) =>
    match placeholder? key with
    | none => some (.error (.invalidTemplate template))
    | some p =>
      let text :=
        if first && literal.isEmpty then p.leadingText enumName token else p.text enumName token
      scan template enumName token false (name ++ String.ofList literal ++ text) rest
termination_by cs.length
decreasing_by exact length_lt_of_next? _h

/-- The text of pieces that follow others, or that start the template. -/
def textFrom (first : Bool) (enumName token : String) (pieces : List Piece) : String :=
  if first then assemble enumName token pieces
  else String.join (pieces.map (Piece.text enumName token))

theorem join_literal (enumName token : String) (literal : List Char) (pieces : List Piece) :
    String.join ((literal.map Piece.char ++ pieces).map (Piece.text enumName token))
      = String.ofList literal ++ String.join (pieces.map (Piece.text enumName token)) := by
  induction literal with
  | nil => rfl
  | cons c literal ih =>
      rw [List.map_cons, List.cons_append, List.map_cons, String.join_cons, ih, Piece.text_char,
        String.ofList_cons, String.append_assoc]

theorem textFrom_literal (first : Bool) (literal : List Char) :
    textFrom first enumName token (literal.map .char) = String.ofList literal := by
  have hjoin := join_literal enumName token literal []
  cases first with
  | false => simpa [textFrom] using hjoin
  | true =>
      cases literal with
      | nil => rfl
      | cons c literal => simpa [textFrom, assemble] using hjoin

/-- Only a placeholder with nothing in front of it starts a template. -/
theorem textFrom_placeholder (first : Bool) (literal : List Char) (p : Piece)
    (pieces : List Piece) :
    textFrom first enumName token (literal.map .char ++ p :: pieces)
      = String.ofList literal
        ++ ((if first && literal.isEmpty then p.leadingText enumName token
            else p.text enumName token)
          ++ textFrom false enumName token pieces) := by
  have hjoin := join_literal enumName token literal (p :: pieces)
  cases first with
  | false => simpa [textFrom] using hjoin
  | true =>
      cases literal with
      | nil => simp [textFrom, assemble]
      | cons c literal => simpa [textFrom, assemble] using hjoin

/-- **Filling in placeholder by placeholder gives the text of the pieces**, and is refused if the
rest of the template has none. -/
theorem scan_eq (template : String) (first : Bool) (name : String) (cs : List Char) :
    scan template enumName token first name cs =
      some (match parse cs with
        | some pieces => .ok (name ++ textFrom first enumName token pieces)
        | none => .error (.invalidTemplate template)) := by
  -- every round leaves less of the template
  induction hn : cs.length using Nat.strongRecOn generalizing first name cs with
  | _ n ih =>
      rcases template_cases cs with
        htail | ⟨literal, after, rfl, hliteral, hafter⟩ | ⟨literal, key, rest, rfl, hliteral, hkey⟩
      · rw [scan, next?_tail htail, parse_tail htail]
        by_cases hclosing : '\x7d' ∈ cs
        · simp [hclosing]
        · simp [hclosing, textFrom_literal]
      · rw [scan, next?_unclosed hliteral hafter, parse_literal hliteral, parse_unclosed hafter]
        rfl
      · have hnext := next?_placeholder hliteral hkey rest
        have hlt := length_lt_of_next? hnext
        rw [scan, hnext, parse_literal hliteral, parse_placeholder hkey]
        cases hp : placeholder? key with
        | none => simp [hp]
        | some p =>
            simp only [hp, Option.bind_some]
            rw [ih rest.length (hn ▸ hlt) _ _ rest rfl]
            cases parse rest with
            | none => rfl
            | some pieces => simp [textFrom_placeholder, String.append_assoc]

/-- **What is made placeholder by placeholder is the name of the companion predicate.** -/
theorem scan_eq_expand (template enumName token : String) :
    scan template enumName token true "" template.toList
      = some (expand template enumName token) := by
  rw [scan_eq]
  unfold expand
  cases parse template.toList with
  | none => rfl
  | some pieces =>
      dsimp only
      rw [String.empty_append]
      rfl

/-! ## §5. The language of templates. -/

/-- The name that pieces stand for: their texts, the first in small initial letters if it is a
placeholder. -/
def filled (enumName token : String) : List Piece → String
  | [] => ""
  | p :: rest =>
    (if p.isPlaceholder then Text.lowerFirst (p.text enumName token) else p.text enumName token)
      ++ String.join (rest.map (Piece.text enumName token))

theorem assemble_eq_filled (pieces : List Piece) :
    assemble enumName token pieces = filled enumName token pieces := by
  cases pieces with
  | nil => rfl
  | cons p rest => rw [assemble, filled, Piece.leadingText_eq]

/-- A template is treated as the language says: one that is made of placeholders and text without
braces is filled in, and every other one is refused. -/
structure Follows (template : String) : Prop where
  expanded : ∀ pieces, IsPlain pieces → written pieces = template.toList → ∀ enumName token,
    scan template enumName token true "" template.toList
      = some (.ok (filled enumName token pieces))
  refused : (∀ pieces, IsPlain pieces → written pieces ≠ template.toList) → ∀ enumName token,
    scan template enumName token true "" template.toList
      = some (.error (.invalidTemplate template))

theorem expand_of_parse {template : String} {pieces : List Piece}
    (h : parse template.toList = some pieces) (enumName token : String) :
    expand template enumName token = .ok (filled enumName token pieces) := by
  rw [expand, h]
  exact congrArg _ (assemble_eq_filled pieces)

theorem expand_of_parse_eq_none {template : String} (h : parse template.toList = none)
    (enumName token : String) :
    expand template enumName token = .error (.invalidTemplate template) := by
  rw [expand, h]

/-- A template is treated as the language says if the pieces that it has, if any, are plain. -/
theorem follows_of_plain {template : String}
    (hplain : ∀ pieces, parse template.toList = some pieces → IsPlain pieces) :
    Follows template where
  expanded pieces hpieces hwritten enumName token := by
    have hparse := parse_eq_some_iff.mpr ⟨hpieces.tolerated, hwritten⟩
    rw [scan_eq_expand, expand_of_parse hparse]
  refused hnone enumName token := by
    have hparse : parse template.toList = none := by
      rw [Option.eq_none_iff_forall_ne_some]
      intro pieces hparse
      exact hnone pieces (hplain pieces hparse) (parse_eq_some_iff.mp hparse).2
    rw [scan_eq_expand, expand_of_parse_eq_none hparse]

/-- A template that has pieces which are not plain is taken all the same. -/
theorem not_follows_of_parse {template : String} {pieces : List Piece}
    (hparse : parse template.toList = some pieces) (hplain : ¬ IsPlain pieces) :
    ¬ Follows template := by
  intro h
  have hrefused := h.refused (fun pieces' hpieces' hwritten => ?_) "" ""
  · rw [scan_eq_expand, expand_of_parse hparse] at hrefused
    cases hrefused
  · -- the pieces of a template are unique
    have hparse' := parse_eq_some_iff.mpr ⟨hpieces'.tolerated, hwritten⟩
    exact hplain (Option.some.inj (hparse'.symm.trans hparse) ▸ hpieces')

/-- **A template is treated as the language says exactly if no closing brace stands in front of a
placeholder as text.**  It is cut at places that are between characters, and whether it expands
depends on the template alone. -/
theorem follows_iff (template : String) :
    (∀ enumName token,
        scan template enumName token true "" template.toList
          = some (expand template enumName token)) ∧
      ((∀ enumName token, ∃ name, expand template enumName token = .ok name) ∨
        ∀ enumName token,
          expand template enumName token = .error (.invalidTemplate template)) ∧
      (Follows template ↔
        ∀ pieces, Tolerated pieces → written pieces = template.toList → IsPlain pieces) := by
  refine ⟨scan_eq_expand template, ?_, ?_⟩
  · cases hparse : parse template.toList with
    | none => exact .inr (expand_of_parse_eq_none hparse)
    | some pieces => exact .inl fun enumName token => ⟨_, expand_of_parse hparse enumName token⟩
  · constructor
    · intro h pieces htolerated hwritten
      by_contra hplain
      exact not_follows_of_parse (parse_eq_some_iff.mpr ⟨htolerated, hwritten⟩) hplain h
    · intro h
      refine follows_of_plain fun pieces hparse => ?_
      obtain ⟨htolerated, hwritten⟩ := parse_eq_some_iff.mp hparse
      exact h pieces htolerated hwritten

/-- **A stray brace in front of a placeholder comes out in the name**, though behind the last
placeholder it is refused. -/
theorem strayBrace_not_follows :
    ¬ Follows "a\x7d\x7bname\x7d" ∧
      expand "a\x7d\x7bname\x7d" "TubeSize" "ONE_BY_ONE" = .ok "a\x7dTubeSize" ∧
      expand "\x7bname\x7da\x7d" "TubeSize" "ONE_BY_ONE"
        = .error (.invalidTemplate "\x7bname\x7da\x7d") := by
  have hparse : parse "a\x7d\x7bname\x7d".toList
      = some [.char 'a', .char '\x7d', .name] := by decide +kernel
  refine ⟨not_follows_of_parse hparse ?_, ?_, ?_⟩
  · intro hplain
    exact (hplain '\x7d' (by decide)).2 rfl
  · rw [expand_of_parse hparse]
    exact congrArg _ (by decide +kernel)
  · exact expand_of_parse_eq_none (by decide +kernel) _ _

end FeatureStudio.NameTemplate
