/-
  FeatureStudio.Proofs.Manifest.Legality: whether the names that a studio declares are names.

  Validation looks at every name that a manifest gives.  The names of companion predicates are not
  among these: they are made from a template, the enumeration's name and the values.  Changing the
  case of letters and leaving out underscores keeps to the characters of names, so what is made is a
  name unless the template has other characters, or the whole comes out empty, with a digit in front
  or as a reserved word.

  Main statements:
    * `NameTemplate.isName_assemble_iff`: when a template gives a name.
    * `Manifest.isName_declaredNames_iff`: when all names of a studio are names.
    * `Manifest.keyworded_not_isName`: an accepted manifest whose studio declares a reserved word.
-/
import FeatureStudio.Proofs.Manifest.Namespace
import FeatureStudio.Proofs.Text.WordChar

namespace FeatureStudio

/-! ## §1. Names. -/

theorem IsName.isWordChar {name : String} (h : IsName name) :
    ∀ c ∈ name.toList, Text.isWordChar c := by
  refine Text.isWordChar_of_isIdentifier ?_
  unfold IsName Manifest.nameFault? at h
  unfold Text.isIdentifier
  cases hname : name.toList with
  | nil => simp [hname] at h
  | cons c rest =>
      simp only [hname] at h ⊢
      split at h
      · cases h
      · split at h
        · cases h
        · next hstart =>
            split at h
            · cases h
            · next hrest => simp_all

/-- A text of the right characters is a name unless it is empty, begins with a digit or is
reserved. -/
theorem isName_iff_of_isWordChar {name : String} (h : ∀ c ∈ name.toList, Text.isWordChar c) :
    IsName name ↔
      (∃ c rest, name.toList = c :: rest ∧ c.isDigit = false) ∧ name ∉ Manifest.reservedWords := by
  unfold IsName Manifest.nameFault?
  cases hname : name.toList with
  | nil => simp
  | cons c rest =>
      rw [hname] at h
      have hrest : rest.all Text.isWordChar = true :=
        List.all_eq_true.mpr fun d hd => h d (List.mem_cons_of_mem _ hd)
      dsimp only
      rw [Text.startsIdentifier_eq (h c List.mem_cons_self), hrest]
      cases hdigit : c.isDigit with
      | false => simp [hdigit]
      | true =>
          simp only [Bool.not_true, Bool.not_false, if_true, List.cons.injEq]
          split <;> simp [hdigit]

theorem isName_uiPredicateName {name : String} (h : IsName name) :
    IsName (uiPredicateName name) := by
  have hchars : ∀ c ∈ (uiPredicateName name).toList, Text.isWordChar c := by
    intro c hc
    rw [uiPredicateName, String.toList_append] at hc
    rcases List.mem_append.mp hc with hc | hc
    · exact h.isWordChar c hc
    · have hsuffix : "Predicate".toList.all Text.isWordChar := by decide
      exact List.all_eq_true.mp hsuffix c hc
  obtain ⟨⟨c, rest, hname, hdigit⟩, -⟩ := (isName_iff_of_isWordChar h.isWordChar).mp h
  refine (isName_iff_of_isWordChar hchars).mpr ⟨⟨c, rest ++ "Predicate".toList, ?_, hdigit⟩, ?_⟩
  · rw [uiPredicateName, String.toList_append, hname, List.cons_append]
  · -- no reserved word ends in this way
    have hreserved : ∀ word ∈ Manifest.reservedWords, ¬ "Predicate".toList <:+ word.toList := by
      decide
    intro hmem
    refine hreserved _ hmem ?_
    rw [uiPredicateName, String.toList_append]
    exact List.suffix_append _ _

/-! ## §2. Templates. -/

namespace NameTemplate

/-- What is asked of the pieces of a template so that they give a name for a value. -/
structure Names (enumName token : String) (pieces : List Piece) : Prop where
  /-- The template's own characters may stand in a name. -/
  literal : ∀ c, Piece.char c ∈ pieces → Text.isWordChar c
  /-- What is made is not empty and has no digit in front. -/
  start : ∃ c rest, (assemble enumName token pieces).toList = c :: rest ∧ c.isDigit = false
  free : assemble enumName token pieces ∉ Manifest.reservedWords

variable {enumName token : String}

/-- The characters that a piece gives: its own, or such as stand in names. -/
theorem isWordChar_text {piece : Piece} (hname : ∀ c ∈ enumName.toList, Text.isWordChar c)
    (htoken : ∀ c ∈ token.toList, Text.isWordChar c)
    (hpiece : ∀ c, piece = .char c → Text.isWordChar c) :
    (∀ c ∈ (piece.text enumName token).toList, Text.isWordChar c) ∧
      ∀ c ∈ (piece.leadingText enumName token).toList, Text.isWordChar c := by
  cases piece with
  | char d =>
      have hself : ∀ c ∈ (String.singleton d).toList, Text.isWordChar c := by
        intro c hc
        rw [String.toList_singleton, List.mem_singleton] at hc
        rw [hc]
        exact hpiece d rfl
      exact ⟨hself, hself⟩
  | name => exact ⟨hname, Text.isWordChar_lowerFirst hname⟩
  | value => exact ⟨Text.isWordChar_camelCase true htoken, Text.isWordChar_camelCase false htoken⟩

/-- The characters of a template's own all come out, at whatever place. -/
theorem mem_assemble {pieces : List Piece} {c : Char} (h : Piece.char c ∈ pieces) :
    c ∈ (assemble enumName token pieces).toList := by
  cases pieces with
  | nil => cases h
  | cons p rest =>
      rw [assemble, String.toList_append, List.mem_append]
      rcases List.mem_cons.mp h with rfl | h
      · exact .inl (by simp [Piece.leadingText])
      · refine .inr ?_
        rw [String.toList_join, List.mem_flatMap]
        exact ⟨_, List.mem_map_of_mem h, by simp [Piece.text]⟩

theorem isWordChar_assemble (hname : ∀ c ∈ enumName.toList, Text.isWordChar c)
    (htoken : ∀ c ∈ token.toList, Text.isWordChar c) {pieces : List Piece}
    (h : ∀ c, Piece.char c ∈ pieces → Text.isWordChar c) :
    ∀ c ∈ (assemble enumName token pieces).toList, Text.isWordChar c := by
  cases pieces with
  | nil => exact fun c hc => absurd hc (by simp [assemble])
  | cons p rest =>
      intro c hc
      rw [assemble, String.toList_append, List.mem_append] at hc
      rcases hc with hc | hc
      · refine (isWordChar_text hname htoken fun d hd => ?_).2 c hc
        exact h d (hd ▸ List.mem_cons_self)
      · rw [String.toList_join, List.mem_flatMap] at hc
        obtain ⟨_, hmem, hc⟩ := hc
        obtain ⟨q, hq, rfl⟩ := List.mem_map.mp hmem
        refine (isWordChar_text hname htoken fun d hd => ?_).1 c hc
        exact h d (List.mem_cons_of_mem _ (hd ▸ hq))

/-- **When a template gives a name** for a value, the enumeration and the value being named as they
may. -/
theorem isName_assemble_iff (hname : ∀ c ∈ enumName.toList, Text.isWordChar c)
    (htoken : ∀ c ∈ token.toList, Text.isWordChar c) (pieces : List Piece) :
    IsName (assemble enumName token pieces) ↔ Names enumName token pieces := by
  constructor
  · intro h
    have hchars := h.isWordChar
    obtain ⟨hstart, hfree⟩ := (isName_iff_of_isWordChar hchars).mp h
    exact ⟨fun c hc => hchars c (mem_assemble hc), hstart, hfree⟩
  · intro h
    exact (isName_iff_of_isWordChar (isWordChar_assemble hname htoken h.literal)).mpr
      ⟨h.start, h.free⟩

end NameTemplate

/-! ## §3. Companion predicates. -/

namespace EnumEntry

/-- The tokens of an enumeration that keeps the rules. -/
theorem WellFormed.isWordChar_token {e : EnumEntry} (h : e.WellFormed) {token : String}
    (ht : token ∈ e.tokens) : ∀ c ∈ token.toList, Text.isWordChar c := by
  rcases List.mem_append.mp ht with hv | hcustom
  · obtain ⟨v, hmem, rfl⟩ := List.mem_map.mp hv
    exact Text.isWordChar_upper (h.values v hmem).isWordChar
  · have hself : Enumeration.customToken.toList.all Text.isWordChar := by decide
    cases hc : e.custom <;> rw [hc] at hcustom
    · cases hcustom
    · rw [List.mem_singleton.mp hcustom]
      exact List.all_eq_true.mp hself

/-- The companion predicates of an enumeration are called by names exactly if the template gives
one for each value that has a companion. -/
theorem WellFormed.isName_companionNames_iff {e : EnumEntry} (h : e.WellFormed) :
    (∀ name ∈ e.companionNames, IsName name) ↔
      ∀ p ∈ Keyed.ofList e.pairs, p.2.predicate.getD e.predicates = true →
        ∃ pieces, NameTemplate.parse e.template.toList = some pieces ∧
          NameTemplate.Names e.name p.1 pieces := by
  obtain ⟨pieces, hpieces⟩ := Option.isSome_iff_exists.mp h.template
  -- the template has been checked, so that it gives a text for every value
  have hcompanion : ∀ p : String × ValueOptions, e.companion? p =
      if p.2.predicate.getD e.predicates then some (NameTemplate.assemble e.name p.1 pieces)
      else none := by
    intro p
    simp only [companion?, NameTemplate.expand, hpieces, Except.toOption]
  have hnames : ∀ p ∈ Keyed.ofList e.pairs,
      (IsName (NameTemplate.assemble e.name p.1 pieces)
        ↔ NameTemplate.Names e.name p.1 pieces) := by
    intro p hp
    refine NameTemplate.isName_assemble_iff h.name.isWordChar (h.isWordChar_token ?_) pieces
    rw [← fst_pairs]
    exact List.mem_map_of_mem (Keyed.mem_ofList hp)
  simp only [companionNames, List.mem_filterMap, hcompanion, hpieces, Option.some.injEq,
    exists_eq_left']
  constructor
  · intro hall p hp hpredicate
    exact (hnames p hp).mp (hall _ ⟨p, hp, if_pos hpredicate⟩)
  · rintro hall name ⟨p, hp, hname⟩
    split at hname
    · next hpredicate =>
        cases hname
        exact (hnames p hp).mpr (hall p hp hpredicate)
    · cases hname

end EnumEntry

/-! ## §4. Studios. -/

namespace Manifest

/-- **All names that a studio declares are names exactly if the templates give names** to the
companion predicates that are declared. -/
theorem isName_declaredNames_iff {m : Manifest} {source : String} {s : Studio}
    (h : m.validate source = .ok ()) (hs : m.toStudio = .ok s) :
    (∀ name ∈ s.declaredNames, IsName name) ↔
      ∀ e ∈ m.enums, ∀ p ∈ Keyed.ofList e.pairs, p.2.predicate.getD e.predicates = true →
        ∃ pieces, NameTemplate.parse e.template.toList = some pieces ∧
          NameTemplate.Names e.name p.1 pieces := by
  have hm := (m.validate_ok_iff source).mp h
  -- all other names are checked by validation, or made of names that are
  have hbounds : ∀ name ∈ m.bounds.map BoundEntry.name, IsName name :=
    List.forall_mem_map.mpr fun b hb => (hm.bounds b hb).name
  have hlookups : ∀ name ∈ m.lookups.map LookupEntry.name, IsName name :=
    List.forall_mem_map.mpr fun l hl => (hm.lookups l hl).name
  have hui : ∀ name ∈ m.ui.toList.map UiEntry.name, IsName name :=
    List.forall_mem_map.mpr fun ui hui => (hm.ui ui (Option.mem_toList.mp hui)).name
  have hpredicate : ∀ name ∈ m.ui.toList.map (fun ui => uiPredicateName ui.name), IsName name :=
    List.forall_mem_map.mpr fun ui hmem =>
      isName_uiPredicateName (hui _ (List.mem_map_of_mem hmem))
  have hfeature : ∀ name ∈ m.featureNames, IsName name := fun name hname =>
    hui name (m.featureNames_sublist.subset hname)
  -- what is left are the enumerations and their companion predicates
  have henums : (∀ name ∈ m.enumNames, IsName name) ↔
      ∀ e ∈ m.enums, ∀ name ∈ e.companionNames, IsName name := by
    simp only [enumNames, List.mem_flatMap]
    constructor
    · exact fun hall e he name hname => hall name ⟨e, he, List.mem_cons_of_mem _ hname⟩
    · rintro hall name ⟨e, he, hname⟩
      rcases List.mem_cons.mp hname with rfl | hname
      · exact (hm.enums e he).name
      · exact hall e he name hname
  rw [declaredNames_toStudio hs]
  simp only [List.forall_mem_append]
  rw [henums]
  constructor
  · rintro ⟨⟨⟨⟨hcompanions, -⟩, -⟩, -⟩, -⟩ e he
    exact (hm.enums e he).isName_companionNames_iff.mp (hcompanions e he)
  · intro hall
    exact ⟨⟨⟨⟨fun e he => (hm.enums e he).isName_companionNames_iff.mpr (hall e he), hbounds⟩,
      hpredicate⟩, hlookups⟩, hfeature⟩

/-- An enumeration whose companion predicate is called by its value alone, a reserved word in small
letters. -/
def keyworded : Manifest where
  studio := { name := "tube.fs", stdVersion := "2000.0", indent := .spaces 4 }
  imports := []
  documents := []
  enums :=
    [{ name := "Guard", parameter := none, predicates := true
       predicateTemplate := some "\x7bvalue\x7d", labelled := false, isPrivate := false
       custom := false, customLookup := none
       values := [{ value := "IF", name := none, lookup := none, hidden := false
                    predicate := none }] }]
  bounds := []
  lookups := []
  ui := none
  feature := none

/-- **An accepted manifest may declare what is no name.** -/
theorem keyworded_not_isName :
    keyworded.validate "" = .ok () ∧
      ∃ s, keyworded.toStudio = .ok s ∧ "if" ∈ s.declaredNames ∧
        nameFault? "if" = some .reserved ∧
        (s.rendered { stdVersion := "2000" }).1 =
          "FeatureScript 2000;\nimport(path : \"onshape/std/common.fs\", version : \"2000.0\");\n\n"
            ++ Render.banner ++ "\n\nexport enum Guard\n\x7b\n    IF\n\x7d\n"
            ++ "\nexport predicate if(definition is map)\n\x7b\n"
            ++ "    definition.guard == Guard.IF;\n\x7d\n" := by
  refine ⟨by rfl, _, rfl, by decide +kernel, by decide, ?_⟩
  decide +kernel

/-- The template of the standard gives names. -/
theorem sized_isName :
    sized.validate "" = .ok () ∧ ∃ s, sized.toStudio = .ok s ∧
      ∀ name ∈ s.declaredNames, IsName name := by
  have h : sized.validate "" = .ok () := by rfl
  refine ⟨h, _, rfl, (isName_declaredNames_iff h rfl).mpr fun e he p hp hpredicate => ?_⟩
  rw [List.mem_singleton.mp he] at hp hpredicate ⊢
  have hkept : p ∈ [("ONE_BY_ONE", _), ("CUSTOM", _)] := hp
  rcases List.mem_cons.mp hkept with rfl | hcustom
  · -- the value that is given again has no companion then
    cases hpredicate
  · rw [List.mem_singleton.mp hcustom]
    have hliteral : ∀ c, NameTemplate.Piece.char c ∈ [.char 'i', .char 's', .name, .value] →
        Text.isWordChar c := by
      intro c hc
      simp only [List.mem_cons, List.not_mem_nil, NameTemplate.Piece.char.injEq, reduceCtorEq,
        or_false] at hc
      rcases hc with rfl | rfl
      · rfl
      · rfl
    exact ⟨_, rfl, hliteral, ⟨'i', _, rfl, rfl⟩, by decide⟩

end Manifest

end FeatureStudio
