/-
  FeatureStudio.Proofs.Manifest.Namespace: the names that a studio declares at file level.

  The names that validation compares are read off the manifest, those of a studio off its
  declarations.  The two differ in two places.  A companion predicate of a value that is given again
  may be counted although it is not declared, which does no harm.  The UI predicate is counted under
  the name of the feature, but declared under `uiPredicateName` of it, which nothing else may be
  called.

  Main statements:
    * `Manifest.declaredNames_toStudio`: the names of the studio, from the manifest.
    * `Manifest.nodup_declaredNames_iff`: when no name is declared twice.
    * `Manifest.overlapping_not_nodup`: an accepted manifest whose studio declares a name twice.
-/
import FeatureStudio.Proofs.Manifest.Lowering
import FeatureStudio.Proofs.Render.Declared

namespace FeatureStudio

open Render (banner)

/-! ## §1. Companion predicates. -/

namespace EnumEntry

/-- The name of the companion predicate of a value, if it has one. -/
def companion? (e : EnumEntry) (p : String × ValueOptions) : Option String :=
  if p.2.predicate.getD e.predicates then (NameTemplate.expand e.template e.name p.1).toOption
  else none

/-- The names of the companion predicates that are declared: those of the values that are kept. -/
def companionNames (e : EnumEntry) : List String := (Keyed.ofList e.pairs).filterMap e.companion?

/-- Validation counts the companion predicates of all values, given again or not. -/
theorem predicateNames_eq (e : EnumEntry) : e.predicateNames = e.pairs.filterMap e.companion? := by
  unfold predicateNames predicateTokens pairs
  rw [List.filterMap_append, List.filterMap_append, List.filterMap_map, List.filterMap_map,
    List.filterMap_filter]
  congr 1
  cases e.custom <;> cases hp : e.predicates <;> simp [List.filterMap_cons, companion?, hp]

/-- A member has the companion predicate that its value has. -/
theorem companion_member {e : EnumEntry} {p : String × ValueOptions} {m : EnumMember}
    (ht : p.2.template = none) (h : e.filled.member p.1 p.2 = .ok m) :
    m.companion = e.companion? p := by
  have hcompanion : (if p.2.predicate.getD e.predicates then
      (NameTemplate.expand e.template e.name p.1).map some else .ok none) = .ok m.companion := by
    have hmade := (EnumBuilder.member_eq_ok h).2.2
    unfold EnumBuilder.companion at hmade
    rw [ht] at hmade
    exact hmade
  unfold companion?
  by_cases hpredicate : p.2.predicate.getD e.predicates = true
  · rw [if_pos hpredicate] at hcompanion ⊢
    obtain ⟨name, hname, hsome⟩ := map_eq_ok_iff.mp hcompanion
    rw [hname, ← hsome]
    rfl
  · rw [if_neg hpredicate] at hcompanion ⊢
    exact (Except.ok.inj hcompanion).symm

end EnumEntry

theorem subperm_filterMap {α β : Type} (f : α → Option β) {as bs : List α} (h : as.Subperm bs) :
    (as.filterMap f).Subperm (bs.filterMap f) := by
  obtain ⟨l, hperm, hsub⟩ := h
  exact ⟨l.filterMap f, hperm.filterMap f, hsub.filterMap f⟩

namespace EnumEntry

theorem companionNames_subperm (e : EnumEntry) : e.companionNames.Subperm e.predicateNames := by
  rw [predicateNames_eq]
  exact subperm_filterMap _ (Keyed.ofList_subperm e.pairs)

/-- The companion predicates of what is built have the names that are kept. -/
theorem companions_enumeration {e : EnumEntry} {built : Enumeration}
    (h : e.enumeration = .ok built) :
    built.declaration.companions.map Prod.fst = e.companionNames := by
  have hnames : ∀ (values : Keyed ValueOptions) (members : List EnumMember),
      (∀ p ∈ values, p.2.template = none) →
      List.Forall₂ (fun p m => e.filled.member p.1 p.2 = .ok m) values members →
        (members.map EnumMember.toEnumValue).filterMap EnumValue.companion
          = values.filterMap e.companion? := by
    intro values members htemplate hm
    -- the values of a manifest have no templates of their own, so that of the entry counts
    induction hm with
    | nil => rfl
    | @cons p m values members hpm _ ih =>
        have hcompanion := companion_member (htemplate p List.mem_cons_self) hpm
        have hrest := ih fun q hq => htemplate q (List.mem_cons_of_mem _ hq)
        rw [List.map_cons, List.filterMap_cons, List.filterMap_cons, hrest, hcompanion]
  rw [EnumDeclaration.companions_eq]
  exact hnames _ _ (fun p hp => template_of_mem_pairs (Keyed.mem_ofList hp)) (members_enumeration h)

end EnumEntry

/-! ## §2. The names of a studio. -/

theorem BoundEntry.name_spec (b : BoundEntry) : b.spec.name = b.name := by
  have hunits : ∀ (units : List (MeasureUnit × Decimal.Binary64)) (spec : BoundSpec),
      (units.foldl (fun spec u => spec.unitDefault u.1 u.2) spec).name = spec.name := by
    intro units
    induction units with
    | nil => intro spec; rfl
    | cons u units ih => intro spec; exact ih _
  refine (hunits _ _).trans ?_
  cases b.kind <;> rfl

theorem LookupEntry.name_function {l : LookupEntry} {d : Declared} {f : Function}
    (h : l.function d = .ok f) : f.name = l.name := by
  obtain ⟨e, g, -, hg, rfl⟩ := l.function_eq_ok h
  obtain ⟨returns, -, hg⟩ := bind_eq_ok_iff.mp hg
  obtain ⟨chain, -, hg⟩ := bind_eq_ok_iff.mp hg
  cases hg
  rfl

namespace Manifest

/-- The names of the enumerations, each followed by those of its companion predicates. -/
def enumNames (m : Manifest) : List String :=
  m.enums.flatMap fun e => e.name :: e.companionNames

/-- The names of all declarations but those made for the dialog. -/
def plainNames (m : Manifest) : List String :=
  m.enumNames ++ m.bounds.map BoundEntry.name ++ m.lookups.map LookupEntry.name

/-- The names of the feature, if there is one: that of its dialog. -/
def featureNames (m : Manifest) : List String := m.features.flatMap Node.declaredNames

theorem declaredNames_enums {m : Manifest} {enums : List Enumeration} (h : m.Builds enums) :
    (enums.map Enumeration.node).flatMap Node.declaredNames = m.enumNames := by
  have hnames : ∀ (entries : List EnumEntry) (enums : List Enumeration),
      List.Forall₂ (fun e built => e.enumeration = .ok built) entries enums →
        (enums.map Enumeration.node).flatMap Node.declaredNames
          = entries.flatMap fun e => e.name :: e.companionNames := by
    intro entries enums hbuilds
    induction hbuilds with
    | nil => rfl
    | @cons e built entries enums hb _ ih =>
        have hname : built.name = e.name := (EnumEntry.names_enumeration hb).1
        have hnode : built.node.declaredNames = e.name :: e.companionNames := by
          rw [← EnumEntry.companions_enumeration hb, ← hname]
          rfl
        rw [List.map_cons, List.flatMap_cons, List.flatMap_cons, ih, hnode]
  exact hnames _ _ h

/-- Nodes that declare one name each declare the names one by one. -/
theorem flatMap_declaredNames {α : Type} {name : α → String} {as : List α} {nodes : List Node}
    (h : List.Forall₂ (fun a n => n.declaredNames = [name a]) as nodes) :
    nodes.flatMap Node.declaredNames = as.map name := by
  induction h with
  | nil => rfl
  | cons hn _ ih =>
      rw [List.flatMap_cons, hn, ih]
      rfl

theorem declaredNames_uiNode {d : Declared} {ui : UiEntry} {n : Node} (h : uiNode d ui = .ok n) :
    n.declaredNames = [uiPredicateName ui.name] := by
  obtain ⟨ns, -, rfl⟩ := uiNode_eq_ok h
  rfl

theorem declaredNames_function {d : Declared} {l : LookupEntry} {f : Function}
    (h : l.function d = .ok f) : f.node.declaredNames = [l.name] := by
  rw [← LookupEntry.name_function h]
  rfl

/-- **The names of the studio, from the manifest.** -/
theorem declaredNames_toStudio {m : Manifest} {s : Studio} (h : m.toStudio = .ok s) :
    s.declaredNames = m.enumNames ++ m.bounds.map BoundEntry.name
      ++ m.ui.toList.map (fun ui => uiPredicateName ui.name)
      ++ m.lookups.map LookupEntry.name ++ m.featureNames := by
  obtain ⟨enums, ui, lookups, henums, hui, hlookups, rfl⟩ := (m.toStudio_eq_ok_iff s).mp h
  -- each section of the studio declares the names of one section of the manifest
  have hbounds : ((m.bounds.map BoundEntry.spec).map Node.boundSpec).flatMap Node.declaredNames
      = m.bounds.map BoundEntry.name := by
    refine flatMap_declaredNames ?_
    rw [List.map_map, List.forall₂_map_right_iff, List.forall₂_same]
    intro b _
    rw [← b.name_spec]
    rfl
  have hfunctions : (lookups.map Function.node).flatMap Node.declaredNames
      = m.lookups.map LookupEntry.name := by
    refine flatMap_declaredNames ?_
    rw [List.forall₂_map_right_iff]
    exact hlookups.imp fun _ _ hf => declaredNames_function hf
  have hpredicate : ui.flatMap Node.declaredNames
      = m.ui.toList.map fun ui => uiPredicateName ui.name :=
    flatMap_declaredNames (hui.imp fun _ _ hn => declaredNames_uiNode hn)
  unfold Studio.declaredNames bodyOf
  rw [List.flatMap_append, List.flatMap_append, List.flatMap_append, List.flatMap_append,
    declaredNames_enums henums, hbounds, hpredicate, hfunctions]
  rfl

/-! ## §3. Names declared twice. -/

theorem flatMap_subperm {α β : Type} {f g : α → List β} :
    ∀ as : List α, (∀ a ∈ as, (f a).Subperm (g a)) → (as.flatMap f).Subperm (as.flatMap g)
  | [], _ => List.Subperm.refl _
  | a :: as, h => by
      rw [List.flatMap_cons, List.flatMap_cons]
      exact (h a List.mem_cons_self).append
        (flatMap_subperm as fun a' ha' => h a' (List.mem_cons_of_mem _ ha'))

theorem featureNames_sublist (m : Manifest) :
    m.featureNames.Sublist (m.ui.toList.map UiEntry.name) := by
  unfold featureNames features
  cases m.ui with
  | none => exact List.nil_sublist _
  | some ui =>
      cases m.feature with
      | none => exact List.nil_sublist _
      | some feature => exact List.Sublist.refl _

/-- Apart from the UI predicate, validation counts all names that are declared. -/
theorem subperm_declaredNames (m : Manifest) :
    (m.plainNames ++ m.featureNames).Subperm m.declaredNames := by
  have henums : m.enumNames.Subperm (m.enums.flatMap fun e => e.name :: e.predicateNames) :=
    flatMap_subperm m.enums fun e _ =>
      (List.subperm_cons e.name).mpr e.companionNames_subperm
  unfold plainNames declaredNames
  exact ((henums.append (List.Subperm.refl _)).append (List.Subperm.refl _)).append
    m.featureNames_sublist.subperm

theorem uiPredicateName_ne (name : String) : uiPredicateName name ≠ name := by
  intro h
  -- the two differ in length
  have hlength := congrArg String.length h
  simp [uiPredicateName, String.length_append] at hlength

/-- **No name is declared twice exactly when nothing is called like the UI predicate.** -/
theorem nodup_declaredNames_iff {m : Manifest} {source : String} {s : Studio}
    (h : m.validate source = .ok ()) (hs : m.toStudio = .ok s) :
    s.declaredNames.Nodup ↔ ∀ ui ∈ m.ui, uiPredicateName ui.name ∉ m.plainNames := by
  have hnames := ((m.validate_ok_iff source).mp h).names
  -- names that are counted once are declared once at most
  have hrest : (m.plainNames ++ m.featureNames).Nodup := by
    obtain ⟨l, hperm, hsub⟩ := m.subperm_declaredNames
    exact hperm.nodup_iff.mp (hnames.sublist hsub)
  -- the UI predicate first, then everything that validation counts
  have hperm : s.declaredNames.Perm
      (m.ui.toList.map (fun ui => uiPredicateName ui.name)
        ++ (m.plainNames ++ m.featureNames)) := by
    rw [declaredNames_toStudio hs, plainNames, List.perm_iff_count]
    intro name
    simp only [List.count_append]
    omega
  rw [hperm.nodup_iff]
  cases hui : m.ui with
  | none =>
      refine ⟨fun _ ui hmem => absurd hmem (by simp), fun _ => hrest⟩
  | some ui =>
      -- the feature itself is called like the dialog, which is another name
      have hfeature : uiPredicateName ui.name ∉ m.featureNames := by
        intro hmem
        have hname := m.featureNames_sublist.subset hmem
        rw [hui] at hname
        exact uiPredicateName_ne ui.name (List.mem_singleton.mp hname)
      rw [Option.toList_some, List.map_cons, List.map_nil, List.singleton_append,
        List.nodup_cons, List.mem_append]
      constructor
      · rintro ⟨hnot, -⟩ ui' hmem
        cases hmem
        exact fun hplain => hnot (.inl hplain)
      · intro hplain
        exact ⟨fun hmem => hmem.elim (hplain ui rfl) hfeature, hrest⟩

/-- An enumeration with the name that the UI predicate is declared under. -/
def overlapping : Manifest where
  studio := { name := "tube.fs", stdVersion := "2000.0", indent := .spaces 4 }
  imports := []
  documents := []
  enums :=
    [{ name := "tubePredicate", parameter := none, predicates := false, predicateTemplate := none
       labelled := true, isPrivate := false, custom := true, customLookup := none, values := [] }]
  bounds := []
  lookups := []
  ui := some { name := "tube", parameters := [] }
  feature := none

/-- **An accepted manifest may declare a name twice.** -/
theorem overlapping_not_nodup :
    overlapping.validate "" = .ok () ∧
      ∃ s, overlapping.toStudio = .ok s ∧
        s.declaredNames = ["tubePredicate", "tubePredicate"] ∧ ¬s.declaredNames.Nodup ∧
        (s.rendered { stdVersion := "2000" }).1 =
          "FeatureScript 2000;\nimport(path : \"onshape/std/common.fs\", version : \"2000.0\");\n\n"
            ++ banner ++ "\n\nexport enum tubePredicate\n\x7b\n"
            ++ "    annotation \x7b \"Name\" : \"Custom\" \x7d\n    CUSTOM\n\x7d\n"
            ++ "\nexport predicate tubePredicate(definition is map)\n\x7b\n\x7d\n" := by
  refine ⟨by rfl, _, rfl, by rfl, ?_, ?_⟩
  · decide
  · decide +kernel

theorem sized_nodup :
    sized.validate "" = .ok () ∧ ∃ s, sized.toStudio = .ok s ∧ s.declaredNames.Nodup := by
  have h : sized.validate "" = .ok () := by rfl
  refine ⟨h, _, rfl, (nodup_declaredNames_iff h rfl).mpr ?_⟩
  intro ui hui
  cases hui
  decide +kernel

end Manifest

end FeatureStudio
