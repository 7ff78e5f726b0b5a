/-
  FeatureStudio.Proofs.Text.Markers: counting markers in a text.

  In a text without angle brackets of its own each `<` opens the marker of a node that could not
  be rendered or the placeholder of a target that was not found.  `Marks n` says so of characters
  with `n` such markers.  It survives all that is done to texts: they are quoted, indented, trimmed,
  put on one line and begun with a capital.

  Main statements:
    * `Marks.occurrences`: the markers are counted rightly.
    * `Marks.append`, `Marks.escape`, `Marks.indent`, `Marks.trimEnd`, `Marks.onOneLine`: what
      does not change their number.
-/
import FeatureStudio.Import
import FeatureStudio.Proofs.Text.Indentation
import FeatureStudio.Render.Context
import FeatureStudio.Text.Name
import FeatureStudio.Text.Basic
import Mathlib.Data.List.Infix

namespace FeatureStudio

/-- The number of places at which `needle` occurs in `text`. -/
def Text.occurrences (needle text : String) : Nat :=
  text.toList.tails.countP fun rest => needle.toList.isPrefixOf rest

/-- The marker of a node that stands where it cannot. -/
def scopeMarker : List Char := '<' :: "BUILD WARNING: INVALID SCOPE>".toList

theorem toList_sentinel : (sentinel "invalid scope").toList = scopeMarker := by decide

/-- What may stand in angle brackets: the marker, counted once, and the placeholders. -/
def brackets : List (List Char × Nat) :=
  [(scopeMarker, 1), ('<' :: "INVALID_DOCUMENT_NAME>".toList, 0),
    ('<' :: "INVALID_STUDIO_NAME>".toList, 0)]

theorem scopeMarker_mem : (scopeMarker, 1) ∈ brackets := List.mem_cons_self

theorem placeholder_mem (e : ResolveError) : (e.placeholder.toList, 0) ∈ brackets := by
  have hdocument : "<INVALID_DOCUMENT_NAME>".toList = '<' :: "INVALID_DOCUMENT_NAME>".toList := by
    decide
  have hstudio : "<INVALID_STUDIO_NAME>".toList = '<' :: "INVALID_STUDIO_NAME>".toList := by
    decide
  cases e with
  | unknownDocument document => simp [ResolveError.placeholder, hdocument, brackets]
  | unknownStudio document studio => simp [ResolveError.placeholder, hstudio, brackets]

/-- Characters with `n` markers, in which `<` opens a bracket only. -/
inductive Marks : Nat → List Char → Prop
  | nil : Marks 0 []
  | char {n : Nat} {c : Char} {cs : List Char} (hc : c ≠ '<') (h : Marks n cs) : Marks n (c :: cs)
  | bracket {k n : Nat} {p cs : List Char} (hp : (p, k) ∈ brackets) (h : Marks n cs) :
    Marks (k + n) (p ++ cs)

namespace Marks

/-! ## §1. Counting. -/

/-- A marker begins where a bracket opens. -/
theorem isPrefixOf_scopeMarker {c : Char} (hc : c ≠ '<') (cs : List Char) :
    scopeMarker.isPrefixOf (c :: cs) = false := by
  rw [scopeMarker, List.isPrefixOf_cons_cons, beq_false_of_ne hc.symm, Bool.false_and]

theorem countP_skip {p : List Char} (h : '<' ∉ p) (cs : List Char) :
    (p ++ cs).tails.countP (scopeMarker.isPrefixOf ·)
      = cs.tails.countP (scopeMarker.isPrefixOf ·) := by
  induction p with
  | nil => rfl
  | cons c p ih =>
      rw [List.mem_cons, not_or] at h
      rw [List.cons_append, List.tails_cons, List.countP_cons,
        isPrefixOf_scopeMarker fun hc => h.1 hc.symm, ih h.2]
      rfl

/-- Behind a bracket that opens there is no other one until it has closed. -/
theorem countP_bracket {p : List Char} (h : '<' ∉ p) (cs : List Char) :
    ('<' :: (p ++ cs)).tails.countP (scopeMarker.isPrefixOf ·)
      = cs.tails.countP (scopeMarker.isPrefixOf ·)
        + if scopeMarker.isPrefixOf ('<' :: (p ++ cs)) then 1 else 0 := by
  rw [List.tails_cons, List.countP_cons, countP_skip h]

theorem countP_tails {n : Nat} {cs : List Char} (h : Marks n cs) :
    cs.tails.countP (scopeMarker.isPrefixOf ·) = n := by
  induction h with
  | nil => rfl
  | char hc _ ih =>
      rw [List.tails_cons, List.countP_cons, isPrefixOf_scopeMarker hc, ih]
      rfl
  | @bracket k n p cs hp _ ih =>
      simp only [brackets, List.mem_cons, Prod.mk.injEq, List.not_mem_nil, or_false] at hp
      have hcount : ∀ {q : List Char} {k : Nat}, '<' ∉ q →
          (if scopeMarker.isPrefixOf ('<' :: (q ++ cs)) then 1 else 0) = k →
          ('<' :: (q ++ cs)).tails.countP (scopeMarker.isPrefixOf ·) = k + n := by
        intro q k hq hk
        rw [countP_bracket hq, ih, hk, Nat.add_comm]
      rcases hp with ⟨rfl, rfl⟩ | ⟨rfl, rfl⟩ | ⟨rfl, rfl⟩
      · refine hcount (by decide) (if_pos ?_)
        exact List.isPrefixOf_iff_prefix.mpr (List.prefix_append scopeMarker cs)
      · exact hcount (by decide) rfl
      · exact hcount (by decide) rfl

/-- The markers are counted rightly. -/
theorem occurrences {n : Nat} {text : String} (h : Marks n text.toList) :
    Text.occurrences (sentinel "invalid scope") text = n := by
  rw [Text.occurrences, toList_sentinel]
  exact h.countP_tails

/-! ## §2. What is done to texts. -/

theorem prepend {n : Nat} {p cs : List Char} (hp : '<' ∉ p) (h : Marks n cs) :
    Marks n (p ++ cs) := by
  induction p with
  | nil => exact h
  | cons c p ih =>
      rw [List.mem_cons, not_or] at hp
      exact .char (fun hc => hp.1 hc.symm) (ih hp.2)

/-- Without brackets there are no markers. -/
theorem plain {cs : List Char} (h : '<' ∉ cs) : Marks 0 cs := by
  have hplain := prepend h nil
  rwa [List.append_nil] at hplain

theorem append {m n : Nat} {cs ds : List Char} (h : Marks m cs) (h' : Marks n ds) :
    Marks (m + n) (cs ++ ds) := by
  induction h with
  | nil =>
      rw [Nat.zero_add]
      exact h'
  | char hc _ ih => exact .char hc ih
  | bracket hp _ ih =>
      rw [List.append_assoc, Nat.add_assoc]
      exact .bracket hp ih

/-- Characters that are replaced one by one, brackets by themselves. -/
theorem flatMap {f : Char → List Char} (hbracket : ∀ b ∈ brackets, b.1.flatMap f = b.1)
    (hf : ∀ c, c ≠ '<' → '<' ∉ f c) {n : Nat} {cs : List Char} (h : Marks n cs) :
    Marks n (cs.flatMap f) := by
  induction h with
  | nil => exact .nil
  | char hc _ ih =>
      rw [List.flatMap_cons]
      exact prepend (hf _ hc) ih
  | bracket hp _ ih =>
      rw [List.flatMap_append, hbracket _ hp]
      exact .bracket hp ih

theorem escape {n : Nat} {text : String} (h : Marks n text.toList) :
    Marks n (Text.escape text).toList := by
  rw [Text.escape, String.toList_ofList]
  refine h.flatMap (by decide) fun c hc => ?_
  unfold Text.escapeChar
  split <;> simp_all [eq_comm]

theorem quote {n : Nat} {text : String} (h : Marks n text.toList) :
    Marks n (Text.quote text).toList := by
  rw [Text.quote, String.toList_append, String.toList_append]
  exact (h.escape.prepend (by decide)).append (plain (by decide))

theorem onOneLine {n : Nat} {text : String} (h : Marks n text.toList) :
    Marks n (Text.onOneLine text).toList := by
  rw [Text.onOneLine, String.toList_ofList, List.map_eq_flatMap]
  refine h.flatMap (by decide) fun c hc => ?_
  split
  · decide
  · simpa using hc.symm

theorem indent {unit : List Char} (hunit : '<' ∉ unit) {n : Nat} {cs : List Char}
    (h : Marks n cs) : ∀ start, Marks n (Text.indentChars unit start cs) := by
  have hline : ∀ b ∈ brackets, '\n' ∉ b.1 ∧ b.1 ≠ [] := by decide
  induction h with
  | nil =>
      intro start
      cases start <;> exact .nil
  | @char n c cs hc _ ih =>
      intro start
      cases start with
      | false => exact .char hc (ih _)
      | true =>
          rw [Text.indentChars]
          split
          · exact .char hc (ih true)
          · exact prepend hunit (.char hc (ih false))
  | bracket hp _ ih =>
      -- a bracket is a piece of a line, in front of which a unit may stand
      obtain ⟨hfeed, hne⟩ := hline _ hp
      intro start
      rw [Text.indentChars_append]
      cases start with
      | false =>
          rw [Text.indentChars_line hfeed]
          exact .bracket hp (ih _)
      | true =>
          rw [Text.indentChars_start hfeed hne, List.append_assoc]
          exact prepend hunit (.bracket hp (ih _))

/-- Without its last character, if it closes no bracket. -/
theorem dropLast {n : Nat} {cs ds : List Char} {c : Char} (h : Marks n ds) (hds : ds = cs ++ [c])
    (hc : c ≠ '>') : Marks n cs := by
  have hlast : ∀ b ∈ brackets, b.1.getLast? = some '>' := by decide
  induction h generalizing cs with
  | nil => simp at hds
  | @char n d ds hd h ih =>
      cases cs with
      | nil =>
          cases hds
          exact h
      | cons d' cs =>
          cases hds
          exact .char hd (ih rfl)
  | @bracket k n p ds hp _ ih =>
      rcases List.eq_nil_or_concat ds with rfl | ⟨es, e, rfl⟩
      · -- the bracket is closed at the end
        have hclosed := hlast _ hp
        rw [List.append_nil] at hds
        rw [hds, List.getLast?_concat, Option.some.injEq] at hclosed
        exact absurd hclosed hc
      · rw [List.concat_eq_append, ← List.append_assoc] at hds
        obtain ⟨rfl, hsame⟩ := List.append_inj' hds rfl
        cases hsame
        exact .bracket hp (ih (List.concat_eq_append ..))

theorem trimEnd {n : Nat} {text : String} (h : Marks n text.toList) :
    Marks n (Text.trimEnd text).toList := by
  have hback : ∀ cs : List Char, Marks n cs.reverse →
      Marks n (cs.dropWhile Text.isWhite).reverse := by
    intro cs
    induction cs with
    | nil => exact id
    | cons c cs ih =>
        intro h
        rw [List.dropWhile_cons]
        split
        · rename_i hwhite
          refine ih (h.dropLast List.reverse_cons fun hc => ?_)
          rw [hc] at hwhite
          exact absurd hwhite (by decide)
        · exact h
  rw [Text.trimEnd, String.toList_ofList]
  exact hback _ (by rwa [List.reverse_reverse])

/-! Nothing but the bracket itself has the bracket for its capital. -/

theorem eq_of_ofNat_eq_lt {n : Nat} (h : Char.ofNat n = '<') : n = 60 := by
  unfold Char.ofNat at h
  by_cases hvalid : n.isValidChar
  · rw [dif_pos hvalid] at h
    exact congrArg Char.toNat h
  · rw [dif_neg hvalid] at h
    exact absurd h (by decide)

theorem lt_not_mem_upperChar {c : Char} (hc : c ≠ '<') : '<' ∉ Text.upperChar c := by
  have hcode : c.toNat ≠ 60 := fun h => hc (by rw [← Char.ofNat_toNat c, h])
  -- ASCII letters, capitals of several characters, capitals at a distance, and what is its own
  unfold Text.upperChar
  split
  · rename_i hascii
    have hletters : ∀ n < 0x80, n ≠ 60 → (Char.ofNat n).toUpper ≠ '<' := by decide
    rw [List.mem_singleton]
    have hupper := hletters _ hascii hcode
    rw [Char.ofNat_toNat] at hupper
    exact fun h => hupper h.symm
  · unfold Text.mapped
    split
    · rename_i ns hns
      have hsequences : ∀ p ∈ Text.upperSequences, 60 ∉ p.2 := by decide
      obtain ⟨front, back, hmem, -⟩ := List.lookup_eq_some_iff.mp hns
      have hsequence := hsequences (c.toNat, ns) (by rw [hmem]; simp)
      intro h
      obtain ⟨n, hn, heq⟩ := List.mem_map.mp h
      rw [eq_of_ofNat_eq_lt heq] at hn
      exact hsequence hn
    · split
      · rename_i run hrun
        have hruns : ∀ r ∈ Text.upperRuns, (60 : Int) < r.first + r.shift := by decide +kernel
        have hshift := hruns run (List.mem_of_find?_eq_some hrun)
        have hfirst : run.first ≤ c.toNat := by
          have hcovers := List.find?_some hrun
          simp only [Text.CaseRun.covers, Bool.and_eq_true, decide_eq_true_eq] at hcovers
          exact hcovers.1.1
        rw [List.mem_singleton]
        intro h
        have hsum := eq_of_ofNat_eq_lt h.symm
        omega
      · rw [List.mem_singleton]
        exact fun h => hcode (eq_of_ofNat_eq_lt h.symm)

theorem upperFirst {n : Nat} {text : String} (h : Marks n text.toList) :
    Marks n (Text.upperFirst text).toList := by
  have hopen : ∀ b ∈ brackets, b.1.head? = some '<' := by decide
  unfold Text.upperFirst
  split
  · rename_i hnil
    rwa [hnil] at h
  · rename_i c rest hcons
    rw [hcons] at h
    rw [String.toList_ofList]
    generalize hcs : c :: rest = cs at h
    cases h with
    | nil => cases hcs
    | char hc h =>
        cases hcs
        exact prepend (lt_not_mem_upperChar hc) h
    -- a bracket that begins here begins with a sign that is its own capital
    | @bracket k n p ds hp h =>
        have hhead := hopen _ hp
        cases p with
        | nil => cases hhead
        | cons d p =>
            cases hhead
            cases hcs
            have hsame : Text.upperChar '<' = ['<'] := by decide
            rw [hsame]
            exact bracket (p := '<' :: p) hp h

end Marks

end FeatureStudio
