/-
  FeatureStudio.Proofs.Text.Position: places in a text that are counted in bytes.

  A text can be cut where a character ends and nowhere else.  A stretch covers a text if it lies
  inside, begins and ends where characters end, and what stands there is that text.  What a search
  finds is covered by the stretch that it gives.

  Main statements:
    * `cutAt?_eq_some_iff`: when a text can be cut, and into what.
    * `findFrom_singleton_append`, `findFrom_singleton_eq_none_iff`: where a character is found.
    * `slice?_eq_some_iff`: what a stretch covers.
    * `tail?_eq_some_iff`, `dropBytes_of_tail?`: the text behind a place.
    * `slice?_of_find`: what is found is what was searched for.
-/
import FeatureStudio.Text.Basic
import Mathlib.Data.List.Basic

namespace FeatureStudio.Text

/-! ## §1. Cutting. -/

@[simp] theorem byteLength_nil : byteLength [] = 0 := rfl

@[simp] theorem byteLength_cons (c : Char) (cs : List Char) :
    byteLength (c :: cs) = c.utf8Size + byteLength cs := rfl

@[simp] theorem byteLength_append (before after : List Char) :
    byteLength (before ++ after) = byteLength before + byteLength after := by
  induction before with
  | nil => rw [List.nil_append, byteLength_nil, Nat.zero_add]
  | cons c before ih => rw [List.cons_append, byteLength_cons, byteLength_cons, ih, Nat.add_assoc]

/-- The text before a place and the text behind it.  There is none behind the end of the text, and
none inside a character. -/
def cutAt? : Nat → List Char → Option (List Char × List Char)
  | 0, cs => some ([], cs)
  | _ + 1, [] => none
  | n + 1, c :: cs =>
    if n + 1 < c.utf8Size then none
    else (cutAt? (n + 1 - c.utf8Size) cs).map fun p => (c :: p.1, p.2)

theorem cutAt?_append (before after : List Char) :
    cutAt? (byteLength before) (before ++ after) = some (before, after) := by
  induction before with
  | nil => cases after <;> rfl
  | cons c before ih =>
      obtain ⟨n, hn⟩ : ∃ n, byteLength (c :: before) = n + 1 :=
        ⟨c.utf8Size + byteLength before - 1, by
          have := c.utf8Size_pos
          rw [byteLength_cons]
          omega⟩
      have hrest : n + 1 - c.utf8Size = byteLength before := by
        rw [← hn, byteLength_cons, Nat.add_sub_cancel_left]
      have hle : ¬ n + 1 < c.utf8Size := by
        rw [← hn, byteLength_cons]
        omega
      rw [hn, List.cons_append, cutAt?, if_neg hle, hrest, ih, Option.map_some]

theorem of_cutAt?_eq_some {n : Nat} {cs before after : List Char}
    (h : cutAt? n cs = some (before, after)) : before ++ after = cs ∧ byteLength before = n := by
  induction cs generalizing n before with
  | nil =>
      cases n with
      | zero => cases h; exact ⟨rfl, rfl⟩
      | succ n => cases h
  | cons c cs ih =>
      cases n with
      | zero => cases h; exact ⟨rfl, rfl⟩
      | succ n =>
          -- the bytes of the first character are taken off what is to be cut
          rw [cutAt?] at h
          split at h
          · cases h
          · rename_i hle
            obtain ⟨⟨before', after'⟩, hcut, heq⟩ := Option.map_eq_some_iff.mp h
            cases heq
            obtain ⟨rfl, hlength⟩ := ih hcut
            refine ⟨rfl, ?_⟩
            rw [byteLength_cons, hlength]
            omega

/-- **A text is cut in two parts of which the first has as many bytes as the place says.** -/
theorem cutAt?_eq_some_iff {n : Nat} {cs before after : List Char} :
    cutAt? n cs = some (before, after) ↔ before ++ after = cs ∧ byteLength before = n := by
  refine ⟨of_cutAt?_eq_some, ?_⟩
  rintro ⟨rfl, rfl⟩
  exact cutAt?_append before after

/-! ## §2. Searching for a character. -/

theorem findFrom_singleton_cons (c d : Char) (offset : Nat) (cs : List Char) :
    findFrom [c] offset (d :: cs) =
      if c = d then some offset else findFrom [c] (offset + d.utf8Size) cs := by
  simp only [findFrom, List.isPrefixOf, Bool.and_true, beq_iff_eq]

/-- **A character is found where it stands first.** -/
theorem findFrom_singleton_append {c : Char} {before : List Char} (hbefore : c ∉ before)
    (offset : Nat) (after : List Char) :
    findFrom [c] offset (before ++ c :: after) = some (offset + byteLength before) := by
  induction before generalizing offset with
  | nil => rw [List.nil_append, findFrom_singleton_cons, if_pos rfl, byteLength_nil, Nat.add_zero]
  | cons d before ih =>
      obtain ⟨hne, hbefore⟩ := List.ne_and_not_mem_of_not_mem_cons hbefore
      rw [List.cons_append, findFrom_singleton_cons, if_neg hne, ih hbefore, byteLength_cons,
        Nat.add_assoc]

theorem findFrom_singleton_eq_none_iff {c : Char} {offset : Nat} {cs : List Char} :
    findFrom [c] offset cs = none ↔ c ∉ cs := by
  constructor
  · intro h hmem
    obtain ⟨before, after, rfl, hbefore⟩ := List.eq_append_cons_of_mem hmem
    rw [findFrom_singleton_append hbefore] at h
    cases h
  · intro h
    induction cs generalizing offset with
    | nil => rfl
    | cons d cs ih =>
        obtain ⟨hne, hcs⟩ := List.ne_and_not_mem_of_not_mem_cons h
        rw [findFrom_singleton_cons, if_neg hne, ih hcs]

/-! ## §3. Slices. -/

/-- The text behind a place, if it lies inside the text and not inside a character. -/
def tail? (text : String) (place : Nat) : Option String :=
  (cutAt? place text.toList).map fun p => String.ofList p.2

/-- The text that a stretch covers, if both of its ends lie inside the text and not inside a
character. -/
def slice? (text : String) (s : Span) : Option String := do
  let (_, behind) ← cutAt? s.offset text.toList
  let (covered, _) ← cutAt? s.length behind
  return String.ofList covered

theorem tail?_eq_some_iff {text rest : String} {place : Nat} :
    tail? text place = some rest ↔
      ∃ before, text.toList = before ++ rest.toList ∧ byteLength before = place := by
  unfold tail?
  constructor
  · intro h
    obtain ⟨⟨before, behind⟩, hcut, rfl⟩ := Option.map_eq_some_iff.mp h
    obtain ⟨htext, hplace⟩ := cutAt?_eq_some_iff.mp hcut
    exact ⟨before, by rw [String.toList_ofList, htext], hplace⟩
  · rintro ⟨before, htext, hplace⟩
    rw [cutAt?_eq_some_iff.mpr ⟨htext.symm, hplace⟩, Option.map_some, String.ofList_toList]

/-- **A stretch covers what stands behind as many bytes as it says, for as many as it says.** -/
theorem slice?_eq_some_iff {text covered : String} {s : Span} :
    slice? text s = some covered ↔
      ∃ before after, text.toList = before ++ (covered.toList ++ after)
        ∧ byteLength before = s.offset ∧ byteLength covered.toList = s.length := by
  unfold slice?
  constructor
  · intro h
    obtain ⟨⟨before, behind⟩, hcut, h⟩ := Option.bind_eq_some_iff.mp h
    obtain ⟨⟨inner, after⟩, hcut', h⟩ := Option.bind_eq_some_iff.mp h
    cases h
    obtain ⟨htext, hoffset⟩ := cutAt?_eq_some_iff.mp hcut
    obtain ⟨hbehind, hlength⟩ := cutAt?_eq_some_iff.mp hcut'
    refine ⟨before, after, ?_, hoffset, ?_⟩
    · rw [String.toList_ofList, ← htext, ← hbehind]
    · rw [String.toList_ofList, hlength]
  · rintro ⟨before, after, htext, hoffset, hlength⟩
    have hcut := cutAt?_eq_some_iff.mpr ⟨htext.symm, hoffset⟩
    have hcut' := cutAt?_eq_some_iff.mpr ⟨(rfl : covered.toList ++ after = _), hlength⟩
    simp only [hcut, hcut', Option.bind_eq_bind, Option.bind_some, String.ofList_toList, pure]

/-- A text can be cut behind what a stretch covers. -/
theorem exists_tail?_of_slice? {text covered : String} {s : Span}
    (h : slice? text s = some covered) : ∃ rest, tail? text s.stop = some rest := by
  obtain ⟨before, after, htext, hoffset, hlength⟩ := slice?_eq_some_iff.mp h
  refine ⟨String.ofList after, tail?_eq_some_iff.mpr ⟨before ++ covered.toList, ?_, ?_⟩⟩
  · rw [String.toList_ofList, htext, List.append_assoc]
  · rw [byteLength_append, hoffset, hlength]
    rfl

/-! ## §4. Dropping bytes. -/

theorem dropBytes_append (before after : List Char) :
    dropBytes (byteLength before) (before ++ after) = after := by
  induction before with
  | nil => exact dropBytes_zero after
  | cons c before ih =>
      have hle : ¬ c.utf8Size + byteLength before < c.utf8Size := by omega
      rw [List.cons_append, byteLength_cons, dropBytes, if_neg hle, Nat.add_sub_cancel_left, ih]

/-- Where a text can be cut, the bytes that are dropped are those in front. -/
theorem dropBytes_of_tail? {text rest : String} {place : Nat} (h : tail? text place = some rest) :
    String.ofList (dropBytes place text.toList) = rest := by
  obtain ⟨before, htext, rfl⟩ := tail?_eq_some_iff.mp h
  rw [htext, dropBytes_append, String.ofList_toList]

/-! ## §5. What is found. -/

theorem findFrom_eq_some {needle : List Char} {offset n : Nat} {cs : List Char}
    (h : findFrom needle offset cs = some n) :
    ∃ before after, cs = before ++ (needle ++ after) ∧ n = offset + byteLength before := by
  induction cs generalizing offset with
  | nil =>
      rw [findFrom] at h
      split at h
      · rename_i hneedle
        cases h
        exact ⟨[], [], by rw [List.isEmpty_iff.mp hneedle]; rfl, rfl⟩
      · cases h
  | cons c cs ih =>
      rw [findFrom] at h
      split at h
      · rename_i hprefix
        cases h
        obtain ⟨after, hafter⟩ := List.isPrefixOf_iff_prefix.mp hprefix
        exact ⟨[], after, hafter.symm, rfl⟩
      · obtain ⟨before, after, rfl, hn⟩ := ih h
        exact ⟨c :: before, after, rfl, by rw [hn, byteLength_cons, Nat.add_assoc]⟩

/-- What is found stands in the text, behind as many bytes as the stretch says. -/
theorem find_eq_some {text needle : String} {s : Span} (h : find text needle = some s) :
    ∃ before after, text.toList = before ++ (needle.toList ++ after)
      ∧ s = ⟨byteLength before, byteLength needle.toList⟩ := by
  obtain ⟨n, hfind, rfl⟩ := Option.map_eq_some_iff.mp h
  obtain ⟨before, after, htext, rfl⟩ := findFrom_eq_some hfind
  exact ⟨before, after, htext, by rw [Nat.zero_add]⟩

/-- **What is found is what was searched for.** -/
theorem slice?_of_find {text needle : String} {s : Span} (h : find text needle = some s) :
    slice? text s = some needle := by
  obtain ⟨before, after, htext, rfl⟩ := find_eq_some h
  exact slice?_eq_some_iff.mpr ⟨before, after, htext, rfl, rfl⟩

end FeatureStudio.Text
