/-
  FeatureStudio.Proofs.Manifest.Lowering: the studio of a manifest that keeps the rules.

  Validation reads names off the manifest; the studio is put together from enumerations that have
  been built.  The two meet in `Manifest.declared_enum`: since no name is declared twice, the built
  enumeration of a name is the one built from the entry that validation found.

  Main statements:
    * `Manifest.toStudio_eq_ok_iff`: what a studio is put together from.
    * `ParameterEntry.node_ok`: parameters whose references resolve have nodes.
    * `Manifest.toStudio_of_validate`: a manifest that validation accepts describes a studio.
-/
import FeatureStudio.Proofs.Enumeration.Building

namespace FeatureStudio

/-! ## §1. What parameters refer to. -/

/-- What is declared has an enumeration of the given name with the given value, in any case. -/
def Declared.Finds (d : Declared) (enumName value : String) : Prop :=
  ∃ built member, d.enum enumName = .ok built ∧ built.get? value = some member

namespace Manifest

/-- What is declared, once the enumerations are built. -/
def declared (m : Manifest) (enums : List Enumeration) : Declared where
  enums := Keyed.ofList ((m.enums.map EnumEntry.name).zip enums)
  bounds := Keyed.ofList ((m.bounds.map BoundEntry.name).zip (m.bounds.map BoundEntry.spec))

/-- The enumerations are those of the entries, one by one. -/
def Builds (m : Manifest) (enums : List Enumeration) : Prop :=
  List.Forall₂ (fun e built => e.enumeration = .ok built) m.enums enums

theorem mem_enums_of_enum? {m : Manifest} {name : String} {e : EnumEntry}
    (h : m.enum? name = some e) : e ∈ m.enums ∧ e.name = name :=
  ⟨List.mem_of_find?_eq_some h, by simpa using List.find?_some h⟩

theorem enumNames_sublist : ∀ enums : List EnumEntry,
    (enums.map EnumEntry.name).Sublist (enums.flatMap fun e => e.name :: e.predicateNames)
  | [] => .slnil
  | e :: rest => by
      rw [List.map_cons, List.flatMap_cons]
      exact ((enumNames_sublist rest).trans (List.sublist_append_right _ _)).cons_cons e.name

theorem nodup_enumNames {m : Manifest} (h : m.Accepted) : (m.enums.map EnumEntry.name).Nodup := by
  have hnames := h.names
  unfold declaredNames at hnames
  rw [List.append_assoc, List.append_assoc] at hnames
  exact ((List.nodup_append.mp hnames).1).sublist (enumNames_sublist m.enums)

/-- **Where names do not repeat, a name stands for what was built from its entry.** -/
theorem declared_enum {m : Manifest} (h : m.Accepted) {enums : List Enumeration}
    (hbuilds : m.Builds enums) {name : String} {e : EnumEntry} (he : m.enum? name = some e) :
    ∃ built, e.enumeration = .ok built ∧ (m.declared enums).enum name = .ok built := by
  obtain ⟨hmem, rfl⟩ := mem_enums_of_enum? he
  obtain ⟨built, hzip, hbuilt⟩ := exists_mem_zip hbuilds hmem
  have hfst : ((m.enums.map EnumEntry.name).zip enums).map Prod.fst = m.enums.map EnumEntry.name :=
    List.map_fst_zip (by rw [List.length_map]; exact Nat.le_of_eq hbuilds.length_eq)
  have hnodup : (((m.enums.map EnumEntry.name).zip enums).map Prod.fst).Nodup := by
    rw [hfst]
    exact nodup_enumNames h
  -- validation finds the first entry of a name, looking up the last value put under it: without
  -- repetition the two belong together
  have hpair : (e.name, built) ∈ (m.enums.map EnumEntry.name).zip enums := by
    rw [List.zip_map_left]
    exact List.mem_map_of_mem (f := Prod.map EnumEntry.name id) hzip
  refine ⟨built, hbuilt, ?_⟩
  unfold Declared.enum declared
  rw [Keyed.ofList_eq_self hnodup, Keyed.get?_of_mem hnodup hpair]

/-- What is declared under a name is one of the enumerations. -/
theorem mem_of_declared {m : Manifest} {enums : List Enumeration} {name : String}
    {built : Enumeration} (h : (m.declared enums).enum name = .ok built) : built ∈ enums := by
  unfold Declared.enum at h
  split at h
  · next e he =>
      cases h
      exact (List.of_mem_zip (Keyed.mem_ofList (Keyed.mem_of_get? he))).2
  · cases h

/-- What is declared under a name was built from an entry. -/
theorem exists_entry {m : Manifest} {enums : List Enumeration} (hbuilds : m.Builds enums)
    {name : String} {built : Enumeration} (h : (m.declared enums).enum name = .ok built) :
    ∃ e ∈ m.enums, e.enumeration = .ok built :=
  exists_of_mem_right hbuilds (mem_of_declared h)

/-- A condition that names a value has a test: the call for the value that is found. -/
theorem declared_condition {m : Manifest} (h : m.Accepted) {enums : List Enumeration}
    (hbuilds : m.Builds enums) {condition : String} (hc : m.HasCondition condition) :
    ∃ test, (m.declared enums).condition condition = .ok test := by
  obtain ⟨enumName, value, e, hsplit, he, hvalue⟩ := hc
  obtain ⟨built, hbuilt, henum⟩ := declared_enum h hbuilds he
  rw [← EnumEntry.get?_isSome hbuilt] at hvalue
  obtain ⟨member, hmember⟩ := Option.isSome_iff_exists.mp hvalue
  refine ⟨member.call, ?_⟩
  simp only [Declared.condition, hsplit, Option.getD_some, henum, hmember]

end Manifest

/-! ## §2. Parameters. -/

/-- A node under a condition is a chain with the test for it. -/
theorem guarded_eq_ok {d : Declared} {n guarded : Node} {condition : String}
    (h : d.guarded n (some condition) = .ok guarded) :
    ∃ test, d.condition condition = .ok test ∧ guarded = IfChain.node { test, body := [n] } := by
  obtain ⟨test, htest, rfl⟩ := map_eq_ok_iff.mp h
  exact ⟨test, htest, rfl⟩

theorem guarded_ok {d : Declared} {condition : Option String}
    (h : ∀ c ∈ condition, ∃ test, d.condition c = .ok test) (n : Node) :
    ∃ guarded, d.guarded n condition = .ok guarded := by
  cases condition with
  | none => exact ⟨n, rfl⟩
  | some c =>
      obtain ⟨test, htest⟩ := h c rfl
      rw [Declared.guarded, htest]
      exact ⟨_, rfl⟩

namespace ParameterEntry

/-- What a parameter refers to by itself is declared: its condition and its enumeration. -/
def Resolves (d : Declared) (p : ParameterEntry) : Prop :=
  (∀ c ∈ p.when, ∃ test, d.condition c = .ok test) ∧
    ∀ enumName labels default style condition,
      p = .choice enumName labels default style condition → ∃ built, d.enum enumName = .ok built

mutual

/-- **Parameters whose references resolve have nodes**, those inside groups included. -/
theorem node_ok (d : Declared) :
    ∀ entry : ParameterEntry, (∀ q ∈ entry.family, q.Resolves d) →
      ∃ n, entry.node d = .ok n
  | .boolean .., h | .value .., h | .query .., h => guarded_ok (h _ List.mem_cons_self).1 _
  | .choice enumName labels default style condition, h => by
      obtain ⟨hwhen, hchoice⟩ := h _ List.mem_cons_self
      obtain ⟨built, hbuilt⟩ := hchoice _ _ _ _ _ rfl
      rw [ParameterEntry.node, hbuilt]
      exact guarded_ok hwhen _
  | .group name collapsed ps condition, h => by
      obtain ⟨body, hbody⟩ := parameterNodes_ok d ps fun q hq => h q (List.mem_cons_of_mem _ hq)
      rw [ParameterEntry.node, hbody]
      exact guarded_ok (h _ List.mem_cons_self).1 _
  | .drivenGroup name groupName description collapsed ps condition, h => by
      obtain ⟨body, hbody⟩ := parameterNodes_ok d ps fun q hq => h q (List.mem_cons_of_mem _ hq)
      rw [ParameterEntry.node, hbody]
      exact guarded_ok (h _ List.mem_cons_self).1 _

/-- The nodes of several parameters. -/
theorem parameterNodes_ok (d : Declared) :
    ∀ ps : List ParameterEntry, (∀ q ∈ families ps, q.Resolves d) →
      ∃ ns, parameterNodes d ps = .ok ns
  | [], _ => ⟨[], rfl⟩
  | p :: rest, h => by
      obtain ⟨n, hn⟩ := node_ok d p fun q hq => h q (List.mem_append_left _ hq)
      obtain ⟨ns, hns⟩ := parameterNodes_ok d rest fun q hq => h q (List.mem_append_right _ hq)
      exact ⟨n :: ns, bind_eq_ok_iff.mpr ⟨n, hn, bind_eq_ok_iff.mpr ⟨ns, hns, rfl⟩⟩⟩

end

mutual

/-- The conditions are those of the parameters that stand in groups and outside of them. -/
theorem whens_eq : ∀ entry : ParameterEntry, entry.whens = entry.family.map ParameterEntry.when
  | .boolean .. | .value .. | .query .. | .choice .. => rfl
  | .group name collapsed ps condition => by
      rw [whens, family, List.map_cons, ← allWhens_eq ps]
      rfl
  | .drivenGroup name groupName description collapsed ps condition => by
      rw [whens, family, List.map_cons, ← allWhens_eq ps]
      rfl

theorem allWhens_eq :
    ∀ ps : List ParameterEntry, allWhens ps = (families ps).map ParameterEntry.when
  | [] => rfl
  | p :: rest => by
      rw [allWhens, families, List.map_append, whens_eq p, allWhens_eq rest]

end

/-- A parameter that keeps the rules of an accepted manifest refers to what is declared. -/
theorem WellFormed.resolves {m : Manifest} {p : ParameterEntry} (h : m.Accepted)
    {enums : List Enumeration} (hbuilds : m.Builds enums) (hp : p.WellFormed m) :
    p.Resolves (m.declared enums) := by
  refine ⟨fun c hc => Manifest.declared_condition h hbuilds (hp.1 c hc), ?_⟩
  rintro enumName labels default style condition rfl
  obtain ⟨e, he, -⟩ := hp.2
  obtain ⟨built, -, henum⟩ := Manifest.declared_enum h hbuilds he
  exact ⟨built, henum⟩

end ParameterEntry

/-! ## §3. The studio. -/

theorem LookupEntry.WellFormed.function_ok {m : Manifest} {l : LookupEntry} (h : m.Accepted)
    {enums : List Enumeration} (hbuilds : m.Builds enums) (hl : l.WellFormed m) :
    ∃ f, l.function (m.declared enums) = .ok f := by
  obtain ⟨e, he, hmissing⟩ := hl.complete
  obtain ⟨built, hbuilt, henum⟩ := Manifest.declared_enum h hbuilds he
  obtain ⟨f, hf⟩ := Enumeration.lookupFunction_ok (EnumEntry.members_ne_nil hbuilt)
    (fun member hmember => EnumEntry.lookup_isSome hbuilt hmissing hmember) l.name
  exact ⟨_, bind_eq_ok_iff.mpr ⟨built, henum,
    bind_eq_ok_iff.mpr ⟨f, mapError_eq_ok_iff.mpr hf, rfl⟩⟩⟩

/-- The function that a lookup describes is the lookup function of its enumeration. -/
theorem LookupEntry.function_eq_ok {l : LookupEntry} {d : Declared} {f : Function}
    (h : l.function d = .ok f) :
    ∃ built g, d.enum l.enumName = .ok built ∧ built.lookupFunction l.name = .ok g ∧
      f = { g with returns := l.returns } := by
  obtain ⟨built, hbuilt, h⟩ := bind_eq_ok_iff.mp h
  obtain ⟨g, hg, h⟩ := bind_eq_ok_iff.mp h
  cases h
  exact ⟨built, g, hbuilt, mapError_eq_ok_iff.mp hg, rfl⟩

namespace Manifest

/-- The imports of the studio, before anything is declared. -/
def imported (m : Manifest) : Studio :=
  m.imports.foldl (fun s i => s.addImport i.importLine) (Studio.standard m.studio.name)

/-- The UI predicate with the nodes of its parameters. -/
def uiNode (d : Declared) (ui : UiEntry) : Except ManifestError Node :=
  (parameterNodes d ui.parameters).map (.uiPredicate ui.name)

theorem uiNode_eq_ok {d : Declared} {ui : UiEntry} {n : Node} (h : uiNode d ui = .ok n) :
    ∃ ns, parameterNodes d ui.parameters = .ok ns ∧ n = .uiPredicate ui.name ns := by
  obtain ⟨ns, hns, rfl⟩ := map_eq_ok_iff.mp h
  exact ⟨ns, hns, rfl⟩

/-- The feature that calls the UI predicate. -/
def features (m : Manifest) : List Node :=
  match m.ui, m.feature with
  | some ui, some feature => [(feature.feature ui.name).node]
  | _, _ => []

/-- What the studio declares, section by section. -/
def bodyOf (m : Manifest) (enums : List Enumeration) (ui : List Node) (lookups : List Function) :
    List Node :=
  enums.map Enumeration.node ++ (m.bounds.map BoundEntry.spec).map Node.boundSpec ++ ui
    ++ lookups.map Function.node ++ m.features

/-- **What a studio is put together from.** -/
theorem toStudio_eq_ok_iff (m : Manifest) (s : Studio) :
    m.toStudio = .ok s ↔ ∃ enums ui lookups,
      m.Builds enums ∧
      List.Forall₂ (fun ui n => uiNode (m.declared enums) ui = .ok n) m.ui.toList ui ∧
      List.Forall₂ (fun l f => l.function (m.declared enums) = .ok f) m.lookups lookups ∧
      s = { m.imported with body := m.bodyOf enums ui lookups } := by
  have hui : ∀ (d : Declared) (ui : UiEntry),
      (do return Node.uiPredicate ui.name (← parameterNodes d ui.parameters)) = uiNode d ui := by
    intro d ui
    unfold uiNode
    cases parameterNodes d ui.parameters <;> rfl
  unfold toStudio Builds
  simp only [hui, ← mapM_eq_ok_iff, bind_eq_ok_iff]
  constructor
  · rintro ⟨enums, henums, ui, hnodes, lookups, hlookups, h⟩
    cases h
    exact ⟨enums, ui, lookups, henums, hnodes, hlookups, rfl⟩
  · rintro ⟨enums, ui, lookups, henums, hnodes, hlookups, rfl⟩
    exact ⟨enums, henums, ui, hnodes, lookups, hlookups, rfl⟩

/-- An accepted manifest describes a studio, with enumerations built from all its entries. -/
theorem Accepted.toStudio_ok {m : Manifest} (h : m.Accepted) :
    ∃ enums s, m.Builds enums ∧ m.toStudio = .ok s := by
  obtain ⟨enums, henums⟩ := mapM_ok m.enums fun e he => (h.enums e he).enumeration_ok
  have hbuilds : m.Builds enums := (mapM_eq_ok_iff _ _).mp henums
  -- the dialog and the lookups refer to all enumerations, so these have to be there first
  obtain ⟨ui, hui⟩ := mapM_ok (f := uiNode (m.declared enums)) m.ui.toList fun ui hmem => by
    have hrules := (h.ui ui (Option.mem_toList.mp hmem)).parameters
    obtain ⟨ns, hns⟩ := ParameterEntry.parameterNodes_ok (m.declared enums) ui.parameters
      fun q hq => (hrules q hq).resolves h hbuilds
    exact ⟨_, by rw [uiNode, hns]; rfl⟩
  obtain ⟨lookups, hlookups⟩ := mapM_ok (f := fun l => l.function (m.declared enums)) m.lookups
    fun l hl => (h.lookups l hl).function_ok h hbuilds
  exact ⟨enums, _, hbuilds, (m.toStudio_eq_ok_iff _).mpr ⟨enums, ui, lookups, hbuilds,
    (mapM_eq_ok_iff _ _).mp hui, (mapM_eq_ok_iff _ _).mp hlookups, rfl⟩⟩

/-! ## §4. References. -/

theorem finds_of_hasValue {m : Manifest} (h : m.Accepted) {enums : List Enumeration}
    (hbuilds : m.Builds enums) {enumName value : String} {e : EnumEntry}
    (he : m.enum? enumName = some e) (hvalue : e.hasValue value) :
    (m.declared enums).Finds enumName value := by
  obtain ⟨built, hbuilt, henum⟩ := declared_enum h hbuilds he
  rw [← EnumEntry.get?_isSome hbuilt] at hvalue
  obtain ⟨member, hmember⟩ := Option.isSome_iff_exists.mp hvalue
  exact ⟨built, member, henum, hmember⟩

/-- The parameters of an accepted manifest keep the rules, at any depth. -/
theorem Accepted.parameters {m : Manifest} (h : m.Accepted) :
    ∀ p ∈ ParameterEntry.families m.parameters, p.WellFormed m := by
  intro p hp
  unfold Manifest.parameters at hp
  cases hui : m.ui with
  | none => rw [hui] at hp; cases hp
  | some ui => rw [hui] at hp; exact (h.ui ui hui).parameters p hp

/-- **A manifest that validation accepts describes a studio.**  Every enumeration is built with the
tokens of its entry, later repeats dropped, and everything that conditions, defaults and lookups
name is found among what was built. -/
theorem toStudio_of_validate {m : Manifest} {source : String} (h : m.validate source = .ok ()) :
    ∃ enums s, m.toStudio = .ok s ∧
      List.Forall₂ (fun e built => e.enumeration = .ok built ∧
        built.members.map (·.token) = e.tokens.eraseDups) m.enums enums ∧
      (∀ condition, some condition ∈ ParameterEntry.allWhens m.parameters →
        ∃ enumName value, Text.splitOnce '.' condition = some (enumName, value) ∧
          (m.declared enums).Finds enumName value) ∧
      (∀ enumName labels default style condition,
        .choice enumName labels (some default) style condition
            ∈ ParameterEntry.families m.parameters →
          (m.declared enums).Finds enumName default) ∧
      (∀ l ∈ m.lookups, ∃ built, (m.declared enums).enum l.enumName = .ok built ∧
        ∀ member ∈ built.members, member.lookup.isSome) := by
  have hm := (m.validate_ok_iff source).mp h
  obtain ⟨enums, s, hbuilds, hs⟩ := hm.toStudio_ok
  -- each rule on a reference gives the entry, which is built as one of the enumerations
  refine ⟨enums, s, hs, ?_, ?_, ?_, ?_⟩
  · exact List.Forall₂.imp (fun e built hb => ⟨hb, EnumEntry.tokens_enumeration hb⟩) hbuilds
  · intro condition hc
    rw [ParameterEntry.allWhens_eq] at hc
    obtain ⟨p, hp, hwhen⟩ := List.mem_map.mp hc
    obtain ⟨enumName, value, e, hsplit, he, hvalue⟩ := (hm.parameters p hp).1 condition hwhen
    exact ⟨enumName, value, hsplit, finds_of_hasValue hm hbuilds he hvalue⟩
  · intro enumName labels default style condition hp
    obtain ⟨e, he, hdefault⟩ := (hm.parameters _ hp).2
    exact finds_of_hasValue hm hbuilds he (hdefault default rfl)
  · intro l hl
    obtain ⟨e, he, hmissing⟩ := (hm.lookups l hl).complete
    obtain ⟨built, hbuilt, henum⟩ := declared_enum hm hbuilds he
    exact ⟨built, henum, fun _ hmember => EnumEntry.lookup_isSome hbuilt hmissing hmember⟩

/-- A dialog with a choice in a group, both under conditions in small letters. -/
def sized : Manifest where
  studio := { name := "tube.fs", stdVersion := "2000.0", indent := .spaces 4 }
  imports := []
  documents := []
  enums :=
    [{ name := "TubeSize", parameter := none, predicates := true, predicateTemplate := none
       labelled := true, isPrivate := false, custom := true, customLookup := some "definition.size"
       values :=
         [{ value := "one_by_one", name := none, lookup := some "1 * inch", hidden := false
            predicate := none },
          { value := "ONE_BY_ONE", name := none, lookup := some "25 * millimeter", hidden := false
            predicate := some false }] }]
  bounds := []
  lookups := [{ name := "tubeSize", enumName := "TubeSize", returns := none }]
  ui := some
    { name := "tube"
      parameters :=
        [.group "Size" false
          [.choice "TubeSize" ⟨none, none⟩ (some "custom") .dropdown (some "TubeSize.one_By_One")]
          (some "TubeSize.Custom")] }
  feature := none

theorem sized_toStudio : sized.validate "" = .ok () ∧ ∃ s, sized.toStudio = .ok s := by
  have h : sized.validate "" = .ok () := by rfl
  obtain ⟨_, s, hs, -⟩ := toStudio_of_validate h
  exact ⟨h, s, hs⟩

end Manifest

end FeatureStudio
