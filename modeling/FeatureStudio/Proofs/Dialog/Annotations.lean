/-
  FeatureStudio.Proofs.Dialog.Annotations: annotations keep brackets balanced whatever they say.

  In the annotation of a parameter or a feature labels and further texts are quoted.  Lists of
  names and descriptions are written as they are, but are put together from literals, so they are
  balanced too.  What is asked for is that a filter is balanced, and a further text under one of
  the keys whose values are not quoted.

  Main statements:
    * `isBalanced_describe`, `isBalanced_quotedList`: texts that are put together from literals.
    * `ParameterAnnotations.writesBalanced`, `FeatureAnnotations.writesBalanced`: annotations.
-/
import FeatureStudio.Dialog.Annotations
import FeatureStudio.Proofs.Keyed
import FeatureStudio.Proofs.Script.Verbatim

namespace FeatureStudio

open Text (IsBalanced Scan)

/-! ## §1. Texts that are put together from literals. -/

/-- A description is balanced: every line of it is escaped, and every literal ends in its line. -/
theorem isBalanced_describe (description : String) : IsBalanced (describe description) := by
  have hopen : (Scan.awaiting []).Turns ⟨[], .inside⟩ "\"" := by decide
  have hlines : Scan.Turns ⟨[], .inside⟩ ⟨[], .inside⟩
      ("<br>\" ~\n\t\"".intercalate ((Text.split '\n' description).map Text.escape)) := by
    refine Scan.Turns.intercalate (by decide) fun text ht => ?_
    obtain ⟨line, -, rfl⟩ := List.mem_map.mp ht
    exact Text.turns_escape [] line
  exact (hopen.append hlines).append (by decide)

/-- A list of literals. -/
theorem isBalanced_quotedList (texts : List String) :
    IsBalanced ("[" ++ ", ".intercalate (texts.map Text.quote) ++ "]") := by
  refine (IsBalanced.intercalate (fun _ => by decide) fun text ht => ?_).bracketed
  obtain ⟨text, -, rfl⟩ := List.mem_map.mp ht
  exact Text.isBalanced_quote text

/-! ## §2. Maps put together entry by entry. -/

/-- A map with quoted keys, of whose values those that are not quoted are balanced. -/
structure MapBuilder.WritesBalanced (s : State) (m : MapBuilder) : Prop where
  quotesKey : ∀ key, m.style.quotesKey key = true
  typeName : m.style.typeName = none
  nodup : (Keyed.keys m.entries).Nodup
  values : ∀ p ∈ m.entries, m.style.quotes p.1 = false → ∀ e ∈ p.2,
    (Part.expr e).WritesBalanced (s.inScope .expression)

/-- What `key` is put to is the only value under it. -/
theorem Keyed.mem_put_of_nodup {α : Type} {m : Keyed α} (h : (keys m).Nodup) {key : String}
    {value : α} {p : String × α} (hp : p ∈ put m key value) :
    p = (key, value) ∨ p ∈ m ∧ p.1 ≠ key := by
  by_cases hkey : p.1 = key
  · have hget := get?_of_mem (nodup_keys_put h key value) (show (p.1, p.2) ∈ _ from hp)
    rw [hkey, get?_put_self, Option.some.injEq] at hget
    exact .inl (Prod.ext hkey hget.symm)
  · refine .inr ⟨(mem_put hp).resolve_right fun h => hkey (by rw [h]), hkey⟩

namespace MapBuilder.WritesBalanced

variable {s : State} {m : MapBuilder}

theorem empty (s : State) (inline : Bool) :
    MapBuilder.WritesBalanced s { style := { quoteValues := true, inline } } where
  quotesKey _ := rfl
  typeName := rfl
  nodup := List.nodup_nil
  values _ hp := by cases hp

theorem text (h : m.WritesBalanced s) (key : String) {value : String}
    (hvalue : m.style.quotes key = false → IsBalanced value) :
    (m.text key value).WritesBalanced s where
  quotesKey := h.quotesKey
  typeName := h.typeName
  nodup := Keyed.nodup_keys_put h.nodup key _
  values p hp hq e he := by
    rcases Keyed.mem_put_of_nodup h.nodup hp with rfl | ⟨hold, -⟩
    · cases he
      exact Expr.writesBalanced_token _ (hvalue hq)
    · exact h.values p hold hq e he

theorem bare (h : m.WritesBalanced s) (key : String) {e : Expr}
    (he : (Part.expr e).WritesBalanced (s.inScope .expression)) :
    (m.bare key e).WritesBalanced s where
  quotesKey := h.quotesKey
  typeName := h.typeName
  nodup := Keyed.nodup_keys_put h.nodup key _
  values p hp hq e' he' := by
    rcases Keyed.mem_put_of_nodup h.nodup hp with rfl | ⟨hold, hne⟩
    · cases he'
      exact he
    · -- no other key is exempt that was not before
      refine h.values p hold ?_ e' he'
      simpa [MapStyle.quotes, hne] using hq

theorem addBare (h : m.WritesBalanced s) (key : String) {value : Option Expr}
    (hvalue : ∀ e ∈ value, (Part.expr e).WritesBalanced (s.inScope .expression)) :
    (ParameterAnnotations.addBare m key value).WritesBalanced s := by
  cases value with
  | none => exact h
  | some e => exact h.bare key (hvalue e rfl)

theorem addTexts {texts : List (String × String)} (h : m.WritesBalanced s)
    (ht : ∀ p ∈ texts, m.style.quotes p.1 = false → IsBalanced p.2) :
    (texts.foldl (fun m p => m.text p.1 p.2) m).WritesBalanced s := by
  induction texts generalizing m with
  | nil => exact h
  | cons p texts ih =>
      exact ih (h.text p.1 (ht p List.mem_cons_self)) fun q hq => ht q (List.mem_cons_of_mem _ hq)

/-- The literal asks for nothing more. -/
theorem literal (h : m.WritesBalanced s) :
    (Part.literal m.literal).WritesBalanced s := by
  refine .of_shown (fun text ht => ?_) fun v hv => ?_
  · simp [Part.verbatim, MapBuilder.literal, h.typeName, h.quotesKey] at ht
  · have hparts : v ∈ if s.scope = .expression then
        (m.present.filter fun e => !m.style.quotes e.1).map (m.style.visit s) else [] := hv
    split at hparts
    · obtain ⟨p, hp, rfl⟩ := List.mem_map.mp hparts
      obtain ⟨hpresent, hq⟩ := List.mem_filter.mp hp
      obtain ⟨q, hentry, hvalue⟩ := List.mem_filterMap.mp hpresent
      obtain ⟨e, he, rfl⟩ := Option.map_eq_some_iff.mp hvalue
      obtain ⟨levels, hvisit⟩ := m.style.visit_eq s (q.1, e)
      rw [hvisit]
      exact h.values q hentry (by simpa using hq) e he
    · cases hparts

end MapBuilder.WritesBalanced

/-! ## §3. Annotations. -/

/-- Texts leave the style as it is. -/
theorem MapBuilder.style_addTexts (texts : List (String × String)) (m : MapBuilder) :
    (texts.foldl (fun m p => m.text p.1 p.2) m).style = m.style := by
  induction texts generalizing m with
  | nil => rfl
  | cons p texts ih => exact ih _

/-- A key that is exempt stays so. -/
theorem ParameterAnnotations.quotes_addBare {m : MapBuilder} {key : String}
    (h : m.style.quotes key = false) (other : String) (value : Option Expr) :
    (addBare m other value).style.quotes key = false := by
  cases value with
  | none => exact h
  | some e =>
      simp only [MapStyle.quotes, addBare, MapBuilder.style_bare, Bool.and_eq_false_imp,
        Bool.not_eq_false', List.contains_iff_mem, List.mem_append] at h ⊢
      exact fun hq => .inl (h hq)

variable {s : State}

/-- What annotations end with: further texts, and a description. -/
theorem MapBuilder.WritesBalanced.described {m : MapBuilder} (h : m.WritesBalanced s)
    {texts : List (String × String)} (key : String) (description : Option String) {l : MapLiteral}
    (hl : l = (ParameterAnnotations.addBare (texts.foldl (fun m p => m.text p.1 p.2) m) key
      (description.map fun d => .token (describe d))).literal)
    (ht : ∀ p ∈ texts, l.style.quotes p.1 = false → IsBalanced p.2) :
    (Part.literal l).WritesBalanced s := by
  have htexts : ∀ p ∈ texts, m.style.quotes p.1 = false → IsBalanced p.2 := by
    intro p hp hq
    refine ht p hp ?_
    rw [← MapBuilder.style_addTexts texts m] at hq
    rw [hl]
    exact ParameterAnnotations.quotes_addBare hq key _
  rw [hl]
  refine ((h.addTexts htexts).addBare key fun e he => ?_).literal
  obtain ⟨d, -, rfl⟩ := Option.map_eq_some_iff.mp he
  exact Expr.writesBalanced_token _ (isBalanced_describe d)

/-- **The annotation of a parameter** may have any label, default, hints and description. -/
theorem ParameterAnnotations.writesBalanced {a : ParameterAnnotations}
    (hfilter : ∀ e ∈ a.filter, (Part.expr e).WritesBalanced (s.inScope .expression))
    (ht : ∀ p ∈ a.additional, a.literal.style.quotes p.1 = false → IsBalanced p.2) :
    (Part.literal a.literal).WritesBalanced s := by
  -- entry by entry, in the order in which they are put in
  have hnamed : (MapBuilder.text { style := { quoteValues := true } } "Name"
      a.label).WritesBalanced s :=
    (MapBuilder.WritesBalanced.empty s true).text "Name" fun hq => by cases hq
  have hdefault : (addDefault (MapBuilder.text { style := { quoteValues := true } } "Name" a.label)
      a.default).WritesBalanced s := by
    cases a.default with
    | none => exact hnamed
    | some d =>
        cases d with
        | bool b =>
            have hvalue : IsBalanced (if b then "true" else "false") := by cases b <;> decide
            exact hnamed.bare "Default" (Expr.writesBalanced_token _ hvalue)
        | text t => exact hnamed.text "Default" fun hq => by cases hq
  have hhints : ∀ {m : MapBuilder}, m.WritesBalanced s →
      (addHints m a.hints).WritesBalanced s := by
    intro m hm
    cases a.hints with
    | none => exact hm
    | some hints =>
        unfold addHints
        dsimp only
        split
        · exact hm
        · exact hm.bare "UIHint" (Expr.writesBalanced_token _ (isBalanced_quotedList hints.names))
  have hpicks : ∀ e ∈ a.maxPicks.map fun n => Expr.token (toString n),
      (Part.expr e).WritesBalanced (s.inScope .expression) := by
    intro e he
    obtain ⟨n, -, rfl⟩ := Option.map_eq_some_iff.mp he
    exact Expr.writesBalanced_token _ (Text.isBalanced_of_numeral (Decimal.numeral_toString_nat n))
  exact (((hhints hdefault).addBare "Filter" hfilter).addBare "MaxNumberOfPicks" hpicks).described
    "Description" a.description rfl ht

/-- **The annotation of a feature** may have any title, tags and description. -/
theorem FeatureAnnotations.writesBalanced {a : FeatureAnnotations}
    (ht : ∀ p ∈ a.texts, a.literal.style.quotes p.1 = false → IsBalanced p.2) :
    (Part.literal a.literal).WritesBalanced s := by
  have htitle : ((MapBuilder.text { style := { quoteValues := true, inline := false } }
      "Feature Type Name" a.title).text "UIHint" "NO_PREVIEW_PROVIDED").WritesBalanced s :=
    ((MapBuilder.WritesBalanced.empty s false).text "Feature Type Name"
      fun hq => by cases hq).text "UIHint" fun hq => by cases hq
  refine MapBuilder.WritesBalanced.described ?_ "Feature Type Description" a.description rfl ht
  split
  · exact htitle
  · exact htitle.bare "Filter Selector"
      (Expr.writesBalanced_token _ (isBalanced_quotedList a.filterTags))

end FeatureStudio
