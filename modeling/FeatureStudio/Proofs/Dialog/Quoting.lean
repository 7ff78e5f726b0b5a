/-
  FeatureStudio.Proofs.Dialog.Quoting: which texts of a parameter's annotation are quoted.

  An annotation is put together from texts, which are to be quoted, and from values that are written
  as they are.  Whether a value is quoted is told by its key, and a text under a key that was used
  before takes the place of what was there.  So a further text under the key of a value that is
  written as it is, is not quoted.

  Main statements:
    * `literal_eq`: the literal, by what is asked for.
    * `build_annotations_eq`: the text of the annotation, row by row.
    * `of_text_mem_lastPairs`, `exists_text_mem_lastPairs`: the texts that survive under the key of
      an unquoted value.
    * `quotesTexts_iff`: when all texts that survive are quoted.
-/
import FeatureStudio.Proofs.Dialog.Reading

namespace FeatureStudio

open Build Render

/-! ## §1. Lengths. -/

namespace Text

section Intercalate

variable {α : Type} {f g : α → String} (sep : String)

theorem length_intercalate_map (f : α → String) (a next : α) (rest : List α) :
    (sep.intercalate ((a :: next :: rest).map f)).length
      = (f a).length + sep.length + (sep.intercalate ((next :: rest).map f)).length := by
  rw [List.map_cons, List.map_cons, String.intercalate_cons_cons, String.length_append,
    String.length_append]

theorem length_intercalate_le : ∀ {as : List α}, (∀ a ∈ as, (f a).length ≤ (g a).length) →
    (sep.intercalate (as.map f)).length ≤ (sep.intercalate (as.map g)).length
  | [], _ => Nat.le_refl _
  | [a], hle => by
      simpa using hle a List.mem_cons_self
  | a :: next :: rest, hle => by
      have hfirst := hle a List.mem_cons_self
      have hrest := length_intercalate_le fun a' ha' => hle a' (List.mem_cons_of_mem a ha')
      rw [length_intercalate_map, length_intercalate_map]
      omega

/-- Texts in a row are shorter than others if one of them is and none is longer. -/
theorem length_intercalate_lt : ∀ {as : List α}, (∀ a ∈ as, (f a).length ≤ (g a).length) →
    (∃ a ∈ as, (f a).length < (g a).length) →
    (sep.intercalate (as.map f)).length < (sep.intercalate (as.map g)).length
  | [], _, hlt => by
      obtain ⟨a, ha, -⟩ := hlt
      cases ha
  | [a], _, hlt => by
      obtain ⟨b, hb, hlt⟩ := hlt
      rw [List.mem_singleton.mp hb] at hlt
      simpa using hlt
  | a :: next :: rest, hle, hlt => by
      have hfirst := hle a List.mem_cons_self
      have hothers : ∀ a' ∈ next :: rest, (f a').length ≤ (g a').length :=
        fun a' ha' => hle a' (List.mem_cons_of_mem a ha')
      rw [length_intercalate_map, length_intercalate_map]
      obtain ⟨b, hb, hlt⟩ := hlt
      rcases List.mem_cons.mp hb with rfl | hb
      · have hrest := length_intercalate_le sep hothers
        omega
      · have hrest := length_intercalate_lt hothers ⟨b, hb, hlt⟩
        omega

end Intercalate

end Text

/-! ## §2. What is asked for. -/

/-- What an annotation is to say under a key: a text, or a value that is written as it is. -/
inductive Said where
  | text (s : String)
  | plain (e : Expr)

namespace Said

/-- The value as an expression. -/
def expr : Said → Expr
  | .text s => .token s
  | .plain e => e

/-- Whether the value is to be written as it is. -/
def isPlain : Said → Bool
  | .text _ => false
  | .plain _ => true

/-- How the value is to be written. -/
def written (c : Context) : Said → String
  | .text s => Text.quote s
  | .plain e => e.textIn c.inAnnotation

end Said

/-- The keys of the values that are to be written as they are. -/
def plainKeys (ps : List (String × Said)) : List String :=
  (ps.filter fun p => p.2.isPlain).map Prod.fst

/-- One more entry. -/
def MapBuilder.say (m : MapBuilder) (p : String × Said) : MapBuilder :=
  match p.2 with
  | .text s => m.text p.1 s
  | .plain e => m.bare p.1 e

/-- Entries one after the other, with the keys whose values are not quoted. -/
theorem MapBuilder.foldl_say (ps : List (String × Said)) (m : MapBuilder) :
    ps.foldl MapBuilder.say m
      = { style := { m.style with bareValues := m.style.bareValues ++ plainKeys ps }
          entries := ps.foldl (fun es p => Keyed.put es p.1 (some p.2.expr)) m.entries } := by
  induction ps generalizing m with
  | nil => simp [plainKeys]
  | cons p ps ih =>
      rw [List.foldl_cons, ih]
      obtain ⟨key, said⟩ := p
      cases said with
      | text s => rfl
      | plain e =>
          have hkeys : plainKeys ((key, .plain e) :: ps) = key :: plainKeys ps := rfl
          rw [hkeys, ← List.singleton_append, ← List.append_assoc]
          rfl

/-- A default is quoted if it is a text. -/
def DefaultValue.said : DefaultValue → Said
  | .bool b => .plain (.bool b)
  | .text s => .text s

namespace ParameterAnnotations

variable (a : ParameterAnnotations)

/-- The settings of the parameter, in order. -/
def settings : List (String × Said) :=
  (a.default.toList.map fun d => ("Default", d.said))
    ++ ((a.hints.toList.filter (· ≠ 0#10)).map fun h =>
      ("UIHint", .plain (.token (UiHints.literal h))))
    ++ (a.filter.toList.map fun e => ("Filter", .plain e))
    ++ a.maxPicks.toList.map fun n => ("MaxNumberOfPicks", .plain (.token (toString n)))

/-- The description, as the last entry. -/
def descriptionEntry : List (String × Said) :=
  a.description.toList.map fun d => ("Description", .plain (.token (describe d)))

/-- What the annotation is asked to say: the label, the settings, further texts and the
description. -/
def asked : List (String × Said) :=
  ("Name", .text a.label)
    :: (a.settings ++ (a.additional.map fun p => (p.1, .text p.2)) ++ a.descriptionEntry)

theorem addDefault_eq (m : MapBuilder) (d : Option DefaultValue) :
    addDefault m d = (d.toList.map fun d => ("Default", d.said)).foldl MapBuilder.say m := by
  cases d with
  | none => rfl
  | some d => cases d <;> rfl

theorem addHints_eq (m : MapBuilder) (hints : Option UiHints) :
    addHints m hints
      = ((hints.toList.filter (· ≠ 0#10)).map fun h =>
          ("UIHint", Said.plain (.token (UiHints.literal h)))).foldl MapBuilder.say m := by
  cases hints with
  | none => rfl
  | some h =>
      by_cases hempty : h = 0#10
      · simp [addHints, hempty]
      · simp [addHints, hempty, MapBuilder.say]

theorem addBare_eq (m : MapBuilder) (key : String) (e : Option Expr) :
    addBare m key e = (e.toList.map fun e => (key, Said.plain e)).foldl MapBuilder.say m := by
  cases e <;> rfl

/-- **The literal, by what is asked for**: the last entry of every key, and the keys of all values
that are written as they are. -/
theorem literal_eq :
    a.literal = .mk { quoteValues := true, bareValues := plainKeys a.asked }
      ((Keyed.lastPairs a.asked).map fun p => (p.1, p.2.expr)) := by
  -- each step of the builder is one entry that is asked for
  have hsay : a.literal
      = (a.asked.foldl MapBuilder.say { style := { quoteValues := true } }).literal := by
    unfold literal asked settings descriptionEntry
    simp only [addDefault_eq, addHints_eq, addBare_eq, List.foldl_cons, List.foldl_append,
      List.foldl_map, Option.toList_map]
    rfl
  have hentries : a.asked.foldl (fun es p => Keyed.put es p.1 (some p.2.expr)) []
      = (Keyed.lastPairs a.asked).map fun p => (p.1, some p.2.expr) := by
    have hofList := Keyed.ofList_map (fun said : Said => some said.expr) a.asked
    rw [Keyed.ofList_eq_lastPairs a.asked, Keyed.ofList, List.foldl_map] at hofList
    exact hofList
  rw [hsay, MapBuilder.foldl_say]
  unfold MapBuilder.literal MapBuilder.present
  simp only [hentries, List.filterMap_map]
  exact congrArg _ (congrFun List.filterMap_eq_map _)

/-! ## §3. Rows. -/

/-- A row of the annotation, as it is written. -/
def row (c : Context) (p : String × Said) : String :=
  Text.quote p.1 ++ " : "
    ++ if p.1 ∈ plainKeys a.asked then p.2.expr.textIn c.inAnnotation
      else Text.quote (p.2.expr.textIn c.inAnnotation)

/-- A row as it is to be written. -/
def askedRow (c : Context) (p : String × Said) : String :=
  Text.quote p.1 ++ " : " ++ p.2.written c

theorem lastPairs_asked_ne_nil : Keyed.lastPairs a.asked ≠ [] := by
  rw [← Keyed.ofList_eq_lastPairs]
  exact fun h => List.cons_ne_nil _ _ ((Keyed.ofList_eq_nil_iff _).mp h)

/-- **The text of the annotation**, row by row. -/
theorem build_annotations_eq (c : Context) :
    ((Node.annotations a.literal).build c).1
      = "annotation \x7b " ++ ", ".intercalate ((Keyed.lastPairs a.asked).map (a.row c))
        ++ " \x7d\n" := by
  obtain ⟨ds, hbuild⟩ := Node.build_annotations a.literal c
  let style : MapStyle := { quoteValues := true, bareValues := plainKeys a.asked }
  have hrow : ∀ p : String × Said,
      style.entryText p.1 (p.2.expr.textIn c.inAnnotation) = a.row c p := by
    intro p
    by_cases hkey : p.1 ∈ plainKeys a.asked
    · simp [style, row, MapStyle.entryText, MapStyle.keyText, MapStyle.valueText, hkey]
    · simp [style, row, MapStyle.entryText, MapStyle.keyText, MapStyle.valueText, hkey]
  obtain ⟨p, ps, hps⟩ := List.exists_cons_of_ne_nil a.lastPairs_asked_ne_nil
  have hopen : "annotation \x7b " = "annotation " ++ "\x7b " := rfl
  have hclose : " \x7d\n" = " \x7d" ++ "\n" := rfl
  have htext : a.literal.text c.inAnnotation
      = "\x7b " ++ ", ".intercalate ((Keyed.lastPairs a.asked).map (a.row c)) ++ " \x7d" := by
    rw [literal_eq, MapLiteral.text, MapLiteral.style, MapLiteral.entries, List.map_map]
    simp only [Function.comp_def, style, hps] at hrow ⊢
    simp only [hrow]
    rfl
  rw [hbuild, htext, hopen, hclose]
  simp only [String.append_assoc]

/-! ## §4. Exempt keys. -/

/-- The setting with the given key is written as it is. -/
inductive Exempts : String → Prop where
  | default {b : Bool} (h : a.default = some (.bool b)) : Exempts "Default"
  | hints {hints : UiHints} (h : a.hints = some hints) (hne : hints ≠ 0#10) : Exempts "UIHint"
  | filter {e : Expr} (h : a.filter = some e) : Exempts "Filter"
  | maxPicks {n : Nat} (h : a.maxPicks = some n) : Exempts "MaxNumberOfPicks"

theorem mem_plainKeys {ps : List (String × Said)} {key : String} :
    key ∈ plainKeys ps ↔ ∃ e, (key, .plain e) ∈ ps := by
  unfold plainKeys
  rw [List.mem_map]
  constructor
  · rintro ⟨⟨k, said⟩, hp, rfl⟩
    obtain ⟨hmem, hplain⟩ := List.mem_filter.mp hp
    cases said with
    | text s => cases hplain
    | plain e => exact ⟨e, hmem⟩
  · rintro ⟨e, hmem⟩
    exact ⟨_, List.mem_filter.mpr ⟨hmem, rfl⟩, rfl⟩

theorem mem_settings {key : String} {said : Said} :
    (key, said) ∈ a.settings ↔
      (∃ d, a.default = some d ∧ key = "Default" ∧ said = d.said) ∨
      (∃ h, a.hints = some h ∧ h ≠ 0#10 ∧ key = "UIHint"
        ∧ said = .plain (.token (UiHints.literal h))) ∨
      (∃ e, a.filter = some e ∧ key = "Filter" ∧ said = .plain e) ∨
      ∃ n, a.maxPicks = some n ∧ key = "MaxNumberOfPicks" ∧
        said = .plain (.token (toString n)) := by
  unfold settings
  simp only [List.mem_append, List.mem_map, List.mem_filter, Option.mem_toList, Prod.mk.injEq,
    decide_eq_true_eq, or_assoc, and_assoc, eq_comm (b := key), eq_comm (b := said)]

/-- Exempt are the keys of the settings that are not texts. -/
theorem exempts_iff {key : String} : a.Exempts key ↔ ∃ e, (key, .plain e) ∈ a.settings := by
  constructor
  · intro h
    cases h with
    | @default b h => exact ⟨.bool b, a.mem_settings.mpr (.inl ⟨_, h, rfl, rfl⟩)⟩
    | hints h hne => exact ⟨_, a.mem_settings.mpr (.inr (.inl ⟨_, h, hne, rfl, rfl⟩))⟩
    | filter h => exact ⟨_, a.mem_settings.mpr (.inr (.inr (.inl ⟨_, h, rfl, rfl⟩)))⟩
    | maxPicks h => exact ⟨_, a.mem_settings.mpr (.inr (.inr (.inr ⟨_, h, rfl, rfl⟩)))⟩
  · rintro ⟨e, he⟩
    rcases a.mem_settings.mp he with ⟨d, hd, rfl, hsaid⟩ | ⟨_, hh, hne, rfl, -⟩
      | ⟨_, hf, rfl, -⟩ | ⟨_, hn, rfl, -⟩
    · cases d with
      | bool b => exact .default hd
      | text s => cases hsaid
    · exact .hints hh hne
    · exact .filter hf
    · exact .maxPicks hn

/-- A setting that is a text is no exempt one. -/
theorem not_exempts_of_text {key s : String} (h : (key, .text s) ∈ a.settings) :
    ¬ a.Exempts key := by
  rcases a.mem_settings.mp h with ⟨d, hd, rfl, hsaid⟩ | ⟨_, -, -, -, hsaid⟩ | ⟨_, -, -, hsaid⟩
    | ⟨_, -, -, hsaid⟩
  · intro hexempt
    cases d with
    | bool b => cases hsaid
    | text s =>
        generalize hkey : "Default" = key at hexempt
        cases hexempt with
        | default hb =>
            rw [hd] at hb
            cases hb
        | hints => simp at hkey
        | filter => simp at hkey
        | maxPicks => simp at hkey
  · cases hsaid
  · cases hsaid
  · cases hsaid

/-- Neither the label nor the description has an exempt key. -/
theorem Exempts.ne {key : String} (h : a.Exempts key) : key ≠ "Name" ∧ key ≠ "Description" := by
  cases h <;> decide

/-! ## §5. Texts that survive. -/

theorem mem_asked {key : String} {said : Said} :
    (key, said) ∈ a.asked ↔
      (key = "Name" ∧ said = .text a.label) ∨ (key, said) ∈ a.settings ∨
      (∃ p ∈ a.additional, key = p.1 ∧ said = .text p.2) ∨
      ∃ d, a.description = some d ∧ key = "Description" ∧ said = .plain (.token (describe d)) := by
  unfold asked descriptionEntry
  simp only [List.mem_cons, List.mem_append, List.mem_map, Option.mem_toList, Prod.mk.injEq,
    or_assoc, eq_comm (b := key), eq_comm (b := said)]

/-- The description is the last entry, so it survives under its key. -/
theorem description_survives {d : String} (h : a.description = some d) {said : Said}
    (hsaid : ("Description", said) ∈ Keyed.lastPairs a.asked) :
    said = .plain (.token (describe d)) := by
  have hlast := Keyed.mem_lastPairs.mp hsaid
  unfold asked descriptionEntry at hlast
  rw [h, ← List.cons_append, List.filter_append] at hlast
  simpa [eq_comm] using hlast

/-- A text that survives under the key of an unquoted value is one of the further texts, and the
value is a setting. -/
theorem of_text_mem_lastPairs {key s : String} (h : (key, .text s) ∈ Keyed.lastPairs a.asked)
    (hkey : key ∈ plainKeys a.asked) : a.Exempts key ∧ ∃ p ∈ a.additional, p.1 = key := by
  have hexempt : a.Exempts key := by
    obtain ⟨e, he⟩ := mem_plainKeys.mp hkey
    rcases a.mem_asked.mp he with ⟨-, hsaid⟩ | hsetting | ⟨_, -, -, hsaid⟩ | ⟨d, hd, rfl, -⟩
    · cases hsaid
    · exact a.exempts_iff.mpr ⟨e, hsetting⟩
    · cases hsaid
    · cases a.description_survives hd h
  have hasked : (key, .text s) ∈ a.asked :=
    Keyed.mem_ofList ((Keyed.ofList_eq_lastPairs a.asked).symm ▸ h)
  refine ⟨hexempt, ?_⟩
  rcases a.mem_asked.mp hasked with ⟨hname, -⟩ | hsetting | ⟨p, hp, hk, -⟩ | ⟨_, -, hk, -⟩
  · exact absurd hname hexempt.ne.1
  · exact absurd hexempt (a.not_exempts_of_text hsetting)
  · exact ⟨p, hp, hk.symm⟩
  · exact absurd hk hexempt.ne.2

/-- Under an exempt key the last one of the further texts survives. -/
theorem exists_text_mem_lastPairs {p : String × String} (hp : p ∈ a.additional)
    (hexempt : a.Exempts p.1) : ∃ s, (p.1, .text s) ∈ Keyed.lastPairs a.asked := by
  let texts : List (String × Said) := a.additional.map fun p => (p.1, .text p.2)
  have hdescription : (a.descriptionEntry.filter fun q => q.1 = p.1) = [] := by
    unfold descriptionEntry
    cases a.description <;> simp [hexempt.ne.2.symm]
  have hmem : (p.1, Said.text p.2) ∈ texts.filter fun q => q.1 = p.1 :=
    List.mem_filter.mpr ⟨List.mem_map_of_mem hp, decide_eq_true rfl⟩
  have hne : (texts.filter fun q => q.1 = p.1) ≠ [] := List.ne_nil_of_mem hmem
  -- behind the further texts only the description stands, under another key
  have hlast : (a.asked.filter fun q => q.1 = p.1).getLast?
      = (texts.filter fun q => q.1 = p.1).getLast? := by
    unfold asked
    rw [← List.cons_append, ← List.cons_append, List.filter_append, List.filter_append,
      hdescription, List.append_nil, List.getLast?_append_of_ne_nil _ hne]
  have hq := List.getLast?_eq_some_getLast hne
  obtain ⟨hqmem, hqkey⟩ := List.mem_filter.mp (List.mem_of_getLast? hq)
  obtain ⟨r, -, hr⟩ : ∃ r ∈ a.additional, (r.1, Said.text r.2) = _ := List.mem_map.mp hqmem
  rw [← hr] at hq hqkey
  have hkey : r.1 = p.1 := of_decide_eq_true hqkey
  rw [hkey] at hq
  exact ⟨r.2, Keyed.mem_lastPairs.mpr (hlast.trans hq)⟩

/-! ## §6. Quoted texts. -/

/-- The annotation says what it is asked to say: the entries that survive, each text as one literal
that stands for it, and any other value as it is. -/
structure QuotesTexts : Prop where
  rows : ∀ c : Context, ((Node.annotations a.literal).build c).1
    = "annotation \x7b " ++ ", ".intercalate ((Keyed.lastPairs a.asked).map (askedRow c))
      ++ " \x7d\n"
  literals : ∀ key s, (key, .text s) ∈ Keyed.lastPairs a.asked → ∀ (c : Context) (rest : List Char),
    Text.readLiteral (((Said.text s).written c).toList ++ rest) = some (s, rest)

theorem mem_asked_of_mem_lastPairs {p : String × Said} (h : p ∈ Keyed.lastPairs a.asked) :
    p ∈ a.asked := Keyed.mem_ofList ((Keyed.ofList_eq_lastPairs a.asked).symm ▸ h)

theorem row_plain {key : String} {e : Expr} (h : (key, .plain e) ∈ a.asked) (c : Context) :
    a.row c (key, .plain e) = askedRow c (key, .plain e) := by
  rw [row, if_pos (mem_plainKeys.mpr ⟨e, h⟩)]
  rfl

theorem row_text {key : String} (h : key ∉ plainKeys a.asked) (s : String) (c : Context) :
    a.row c (key, .text s) = askedRow c (key, .text s) := by
  rw [row, if_neg h]
  rfl

/-- A text that is not quoted leaves a row too short. -/
theorem length_row_lt {key : String} (h : key ∈ plainKeys a.asked) (s : String) (c : Context) :
    (a.row c (key, .text s)).length < (askedRow c (key, .text s)).length := by
  rw [row, if_pos h, askedRow, String.length_append, String.length_append (Text.quote key ++ " : ")]
  exact Nat.add_lt_add_left (Text.length_lt_length_quote s) _

/-- No row is too long. -/
theorem length_row_le {p : String × Said} (h : p ∈ Keyed.lastPairs a.asked) (c : Context) :
    (a.row c p).length ≤ (askedRow c p).length := by
  obtain ⟨key, said⟩ := p
  cases said with
  | plain e => exact Nat.le_of_eq (congrArg _ (a.row_plain (a.mem_asked_of_mem_lastPairs h) c))
  | text s =>
      by_cases hkey : key ∈ plainKeys a.asked
      · exact Nat.le_of_lt (a.length_row_lt hkey s c)
      · exact Nat.le_of_eq (congrArg _ (a.row_text hkey s c))

/-- **All texts that survive are quoted exactly if no further text has an exempt key**, whatever the
label, the settings, the texts and the description. -/
theorem quotesTexts_iff : a.QuotesTexts ↔ ∀ p ∈ a.additional, ¬ a.Exempts p.1 := by
  constructor
  · intro h p hp hexempt
    obtain ⟨s, hs⟩ := a.exists_text_mem_lastPairs hp hexempt
    have hkey : p.1 ∈ plainKeys a.asked := by
      obtain ⟨e, he⟩ := a.exempts_iff.mp hexempt
      exact mem_plainKeys.mpr ⟨e, a.mem_asked.mpr (.inr (.inl he))⟩
    -- the two texts would have the same length
    have hrows := h.rows {}
    rw [build_annotations_eq, String.append_left_inj, String.append_right_inj] at hrows
    refine absurd (congrArg String.length hrows) (Nat.ne_of_lt (Text.length_intercalate_lt _ ?_ ?_))
    · exact fun q hq => a.length_row_le hq {}
    · exact ⟨_, hs, a.length_row_lt hkey s {}⟩
  · intro h
    refine ⟨fun c => ?_, fun _ s _ _ rest => Text.readLiteral_quote s rest⟩
    rw [build_annotations_eq]
    have hrows : (Keyed.lastPairs a.asked).map (a.row c)
        = (Keyed.lastPairs a.asked).map (askedRow c) := by
      refine List.map_congr_left fun p hp => ?_
      obtain ⟨key, said⟩ := p
      cases said with
      | plain e => exact a.row_plain (a.mem_asked_of_mem_lastPairs hp) c
      | text s =>
          refine a.row_text (fun hkey => ?_) s c
          obtain ⟨hexempt, q, hq, rfl⟩ := a.of_text_mem_lastPairs hp hkey
          exact h q hq hexempt
    rw [hrows]

/-- A further text under the key of a default takes its place, and is not quoted. -/
theorem default_not_quotesTexts :
    let a : ParameterAnnotations :=
      { label := "Edges", default := some (.bool true), additional := [("Default", "x")] }
    ¬ a.QuotesTexts ∧ ("Default", Said.text "x") ∈ Keyed.lastPairs a.asked ∧
      ((Node.annotations a.literal).build {}).1
        = "annotation \x7b \"Name\" : \"Edges\", \"Default\" : x \x7d\n" := by
  intro a
  have hkept : ("Default", Said.text "x") ∈ Keyed.lastPairs a.asked := Keyed.mem_lastPairs.mpr rfl
  have htext : ((Node.annotations a.literal).build {}).1
      = "annotation \x7b \"Name\" : \"Edges\", \"Default\" : x \x7d\n" := by decide +kernel
  refine ⟨fun h => ?_, hkept, htext⟩
  -- the row that is asked for has quotes
  have hrows := h.rows {}
  rw [htext] at hrows
  revert hrows
  decide +kernel

end ParameterAnnotations

end FeatureStudio
