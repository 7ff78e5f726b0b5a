/-
  FeatureStudio.Proofs.Manifest.Accepted: the rules of a manifest, apart from how they are checked.

  Validation walks through a manifest with a place in the source at hand and stops at the first
  broken rule.  `Manifest.Accepted` states the same rules section by section, without order and
  without a source; parameters are taken out of their groups first.

  Main statements:
    * `ParameterEntry.check_ok_iff`: a parameter is accepted with all those inside it.
    * `Manifest.validate_ok_iff`: validation accepts exactly the manifests that keep the rules.
-/
import FeatureStudio.Manifest.Validation
import Mathlib.Tactic.Tauto

namespace FeatureStudio

open Manifest (Place nameFault?)

/-! ## §1. Checks. -/

@[simp]
theorem ensure_ok_iff (condition : Bool) (error : ManifestError) :
    ensure condition error = .ok () ↔ condition = true := by
  cases condition <;> simp [ensure]

@[simp]
theorem checkAll_ok_iff {α : Type} (check : α → Except ManifestError Unit) :
    ∀ l : List α, checkAll check l = .ok () ↔ ∀ a ∈ l, check a = .ok ()
  | [] => by simp [checkAll]
  | a :: rest => by
      have ih := checkAll_ok_iff check rest
      rw [checkAll, List.forall_mem_cons, ← ih]
      cases h : check a with
      | error e => simp
      | ok _ => simp

/-- A check followed by another accepts what both accept. -/
@[simp]
theorem check_bind_ok_iff (first : Except ManifestError Unit)
    (second : Unit → Except ManifestError Unit) :
    (first >>= second) = .ok () ↔ first = .ok () ∧ second () = .ok () := by
  cases first <;> simp [bind, Except.bind]

@[simp]
theorem refuse_ne_ok {α : Type} (violation : Violation) (span : Option Text.Span) (a : α) :
    Place.refuse violation span ≠ .ok a := by
  simp [Place.refuse]

/-- A text that may name a declaration. -/
def IsName (name : String) : Prop := nameFault? name = none

@[simp]
theorem checkName_ok_iff (p : Place) (name kind : String) :
    p.checkName name kind = .ok () ↔ IsName name := by
  unfold Place.checkName IsName
  cases nameFault? name <;> simp

theorem firstRepeated_eq_none_iff :
    ∀ seen names : List String,
      firstRepeated seen names = none ↔ names.Nodup ∧ ∀ name ∈ names, name ∉ seen
  | _, [] => by simp [firstRepeated]
  | seen, name :: rest => by
      have ih := firstRepeated_eq_none_iff (name :: seen) rest
      unfold firstRepeated
      split
      · next h =>
          have hseen : name ∈ seen := List.contains_iff_mem.mp h
          simp [hseen]
      · next h =>
          -- a name that is new has been seen by all names behind it
          have hseen : name ∉ seen := fun hm => h (List.contains_iff_mem.mpr hm)
          rw [ih, List.nodup_cons]
          constructor
          · rintro ⟨hrest, hnew⟩
            refine ⟨⟨fun hm => hnew name hm List.mem_cons_self, hrest⟩, ?_⟩
            intro n hn
            rcases List.mem_cons.mp hn with rfl | hn
            · exact hseen
            · exact fun hs => hnew n hn (List.mem_cons_of_mem _ hs)
          · rintro ⟨⟨hname, hrest⟩, hnew⟩
            refine ⟨hrest, fun n hn hs => ?_⟩
            rcases List.mem_cons.mp hs with rfl | hs
            · exact hname hn
            · exact hnew n (List.mem_cons_of_mem _ hn) hs

/-- The names are refused exactly when one of them repeats. -/
@[simp]
theorem Manifest.checkNames_ok_iff (m : Manifest) (source : String) :
    m.checkNames source = .ok () ↔ m.declaredNames.Nodup := by
  have h := firstRepeated_eq_none_iff [] m.declaredNames
  unfold checkNames
  split
  · next hn => simpa [hn] using h
  · next name hn => simpa [hn] using h

/-! ## §2. Declarations. -/

/-- An import names one studio: of the standard library, of a document, or by its path. -/
structure ImportEntry.WellFormed (i : ImportEntry) : Prop where
  unambiguous : ¬(i.document.isSome ∧ i.path.isSome)
  studio : i.document.isSome → i.studio.isSome
  target : i.studio.isSome ∨ i.path.isSome
  unversioned : i.document = none → i.path = none → i.version = none

theorem ImportEntry.check_ok_iff (p : Place) (i : ImportEntry) :
    i.check p = .ok () ↔ i.WellFormed := by
  have hfields : i.WellFormed ↔
      ¬(i.document.isSome ∧ i.path.isSome) ∧ (i.document.isSome → i.studio.isSome) ∧
        (i.studio.isSome ∨ i.path.isSome) ∧
        (i.document = none → i.path = none → i.version = none) :=
    ⟨fun h => ⟨h.1, h.2, h.3, h.4⟩, fun ⟨h₁, h₂, h₃, h₄⟩ => ⟨h₁, h₂, h₃, h₄⟩⟩
  rw [hfields]
  obtain ⟨studio, document, path, version, exported⟩ := i
  cases studio <;> cases document <;> cases path <;> cases version <;> simp [check]

/-- An enumeration has values, each with a name of its own kind, and a template that can be read. -/
structure EnumEntry.WellFormed (e : EnumEntry) : Prop where
  name : IsName e.name
  parameter : ∀ parameter ∈ e.parameter, IsName parameter
  inhabited : e.values ≠ [] ∨ e.custom
  values : ∀ v ∈ e.values, IsName v.value
  customOnce : e.custom → ∀ v ∈ e.values,
    ¬Text.sameIgnoringCase v.value Enumeration.customToken
  template : (NameTemplate.parse e.template.toList).isSome

theorem template_standard : (NameTemplate.parse NameTemplate.standard.toList).isSome := by
  decide

/-- A template is checked at one value and expands at every other. -/
theorem EnumEntry.checkTemplate_ok_iff (e : EnumEntry) (p : Place) (token : String) :
    (∀ template, e.predicateTemplate = some template →
        (match NameTemplate.expand template e.name token with
          | .ok _ => .ok ()
          | .error error =>
            Place.refuse (.template error) (p.findValue "predicate_template" template)) =
          Except.ok ())
      ↔ (NameTemplate.parse e.template.toList).isSome := by
  unfold template
  cases e.predicateTemplate with
  | none => simpa using template_standard
  | some template =>
      rw [Option.getD_some, ← NameTemplate.expand_ok_iff template e.name token]
      cases h : NameTemplate.expand template e.name token <;> simp [h]

theorem EnumEntry.check_ok_iff (p : Place) (e : EnumEntry) :
    e.check p = .ok () ↔ e.WellFormed := by
  unfold check
  simp only [check_bind_ok_iff, checkName_ok_iff, checkAll_ok_iff, ensure_ok_iff,
    Option.mem_toList, Bool.or_eq_true, Bool.not_eq_true',
    Bool.and_eq_false_imp]
  constructor
  · rintro ⟨hname, hparameter, hinhabited, hvalues, htemplate⟩
    exact
      { name := hname
        parameter := hparameter
        inhabited := hinhabited.imp_left fun h => by simpa using h
        values := fun v hv => (hvalues v hv).1
        customOnce := fun hc v hv => by simpa using (hvalues v hv).2 hc
        template := (e.checkTemplate_ok_iff p _).mp htemplate }
  · intro h
    refine ⟨h.name, h.parameter, h.inhabited.imp_left fun hv => by simpa using hv,
      fun v hv => ⟨h.values v hv, fun hc => by simpa using h.customOnce hc v hv⟩,
      (e.checkTemplate_ok_iff p _).mpr h.template⟩

/-- A bound spec gives finite numbers in order, in units of its kind. -/
structure BoundEntry.WellFormed (b : BoundEntry) : Prop where
  name : IsName b.name
  finite : ∀ g ∈ b.given, g.2.isFinite
  ordered : b.spec.min.le b.spec.default ∧ b.spec.default.le b.spec.max
  units : ∀ u ∈ b.units, b.kind.accepts u.1

theorem BoundEntry.check_ok_iff (p : Place) (b : BoundEntry) :
    b.check p = .ok () ↔ b.WellFormed := by
  unfold check
  simp only [check_bind_ok_iff, checkName_ok_iff, checkAll_ok_iff, ensure_ok_iff,
    Bool.and_eq_true]
  exact ⟨fun ⟨hname, hfinite, hordered, hunits⟩ => ⟨hname, hfinite, hordered, hunits⟩,
    fun h => ⟨h.name, h.finite, h.ordered, h.units⟩⟩

/-- A lookup function has an expression for every value of its enumeration. -/
structure LookupEntry.WellFormed (m : Manifest) (l : LookupEntry) : Prop where
  name : IsName l.name
  returns : ∀ returns ∈ l.returns, IsName returns
  complete : ∃ e, m.enum? l.enumName = some e ∧ e.missingLookup? = none

theorem LookupEntry.check_ok_iff (p : Place) (m : Manifest) (l : LookupEntry) :
    l.check p m = .ok () ↔ l.WellFormed m := by
  have hfields : l.WellFormed m ↔
      IsName l.name ∧ (∀ returns ∈ l.returns, IsName returns) ∧
        ∃ e, m.enum? l.enumName = some e ∧ e.missingLookup? = none :=
    ⟨fun h => ⟨h.1, h.2, h.3⟩, fun ⟨h₁, h₂, h₃⟩ => ⟨h₁, h₂, h₃⟩⟩
  rw [hfields]
  unfold check
  simp only [check_bind_ok_iff, checkName_ok_iff, checkAll_ok_iff, Option.mem_toList]
  refine and_congr_right fun _ => and_congr_right fun _ => ?_
  cases m.enum? l.enumName with
  | none => simp
  | some e => cases h : e.missingLookup? <;> simp [h]

/-! ## §3. Parameters. -/

/-- A condition `Enum.VALUE` names an enumeration and one of its values, in any case. -/
def Manifest.HasCondition (m : Manifest) (condition : String) : Prop :=
  ∃ enumName value e, Text.splitOnce '.' condition = some (enumName, value) ∧
    m.enum? enumName = some e ∧ e.hasValue value

/-- A default that is given for a choice is a value of its enumeration, in any case. -/
def Manifest.HasChoice (m : Manifest) (enumName : String) (default : Option String) : Prop :=
  ∃ e, m.enum? enumName = some e ∧ ∀ token ∈ default, e.hasValue token

/-- Bounds that a parameter names are declared for its kind, or not declared at all. -/
def Manifest.HasBounds (m : Manifest) (kind : BoundKind) (bounds : String) : Prop :=
  match m.bounds? bounds with
  | some b => b.kind = kind
  | none => IsName bounds

theorem checkCondition_ok_iff (p : Place) (m : Manifest) (condition : String) :
    checkCondition p m condition = .ok () ↔ m.HasCondition condition := by
  unfold checkCondition Manifest.HasCondition
  cases Text.splitOnce '.' condition with
  | none => simp
  | some pair =>
      obtain ⟨enumName, value⟩ := pair
      cases he : m.enum? enumName with
      | none =>
          refine ⟨fun h => absurd h (by simp [he]), ?_⟩
          rintro ⟨_, _, e, hsplit, hfound, -⟩
          cases hsplit
          exact absurd (he.symm.trans hfound) (by simp)
      | some e =>
          simp only [he, ensure_ok_iff]
          refine ⟨fun h => ⟨enumName, value, e, rfl, he, h⟩, ?_⟩
          rintro ⟨_, _, e', hsplit, hfound, h⟩
          cases hsplit
          cases he.symm.trans hfound
          exact h

theorem checkChoice_ok_iff (p : Place) (m : Manifest) (enumName : String)
    (default : Option String) :
    checkChoice p m enumName default = .ok () ↔ m.HasChoice enumName default := by
  unfold checkChoice Manifest.HasChoice
  cases m.enum? enumName <;> simp

theorem checkBounds_ok_iff (p : Place) (m : Manifest) (name : String) (kind : BoundKind)
    (bounds : String) :
    checkBounds p m name kind bounds = .ok () ↔ m.HasBounds kind bounds := by
  unfold checkBounds Manifest.HasBounds
  cases m.bounds? bounds <;> simp

namespace ParameterEntry

/-- Whether the parameter is a group. -/
def isGroup : ParameterEntry → Bool
  | .group .. | .drivenGroup .. => true
  | .boolean .. | .choice .. | .value .. | .query .. => false

mutual

/-- A parameter and those inside it, at any depth. -/
def family : ParameterEntry → List ParameterEntry
  | p@(.group _ _ ps _) | p@(.drivenGroup _ _ _ _ ps _) => p :: families ps
  | p@(.boolean ..) | p@(.choice ..) | p@(.value ..) | p@(.query ..) => [p]

/-- Several parameters and those inside them. -/
def families : List ParameterEntry → List ParameterEntry
  | [] => []
  | p :: rest => p.family ++ families rest

end

/-- What is asked of a parameter apart from its condition and from those inside it. -/
def KeepsRules (m : Manifest) : ParameterEntry → Prop
  | .boolean _ name _ _ _ | .query name _ _ _ _ => IsName name
  | .choice enumName _ default _ _ => m.HasChoice enumName default
  | .value kind name bounds _ _ => IsName name ∧ ∀ b ∈ bounds, m.HasBounds kind b
  | .group _ _ ps _ => ∀ p ∈ ps, p.isGroup = false
  | .drivenGroup name _ _ _ ps _ => IsName name ∧ ∀ p ∈ ps, p.isGroup = false

/-- A parameter keeps the rules, its condition included. -/
def WellFormed (m : Manifest) (p : ParameterEntry) : Prop :=
  (∀ condition ∈ p.when, m.HasCondition condition) ∧ p.KeepsRules m

mutual

/-- A parameter is accepted with all those inside it. -/
theorem check_ok_iff (p : Place) (m : Manifest) (nested : Bool) :
    ∀ entry : ParameterEntry, entry.check p m nested = .ok () ↔
      (nested → entry.isGroup = false) ∧ ∀ q ∈ entry.family, q.WellFormed m
  | .boolean .. | .query .. | .choice .. | .value .. => by
      simp [ParameterEntry.check, family, WellFormed, KeepsRules, ParameterEntry.when, isGroup,
        checkCondition_ok_iff, checkChoice_ok_iff, checkBounds_ok_iff]
  | .group name collapsed ps condition => by
      -- whatever stands in a group is nested, so the group answers for it
      have ih := checkParameters_ok_iff p m true ps
      have hself : (ParameterEntry.group name collapsed ps condition).WellFormed m ↔
          (∀ c ∈ condition, m.HasCondition c) ∧ ∀ q ∈ ps, q.isGroup = false := Iff.rfl
      rw [ParameterEntry.check, family, List.forall_mem_cons, hself]
      simp only [check_bind_ok_iff, checkAll_ok_iff, ensure_ok_iff, checkCondition_ok_iff, ih,
        Option.mem_toList, isGroup, Bool.not_eq_true', Bool.true_eq_false, imp_false,
        Bool.not_eq_true, forall_const]
      tauto
  | .drivenGroup name groupName description collapsed ps condition => by
      have ih := checkParameters_ok_iff p m true ps
      have hself :
          (ParameterEntry.drivenGroup name groupName description collapsed ps condition).WellFormed m
            ↔ (∀ c ∈ condition, m.HasCondition c) ∧ IsName name ∧
              ∀ q ∈ ps, q.isGroup = false := Iff.rfl
      rw [ParameterEntry.check, family, List.forall_mem_cons, hself]
      simp only [check_bind_ok_iff, checkAll_ok_iff, checkName_ok_iff, ensure_ok_iff,
        checkCondition_ok_iff, ih, Option.mem_toList, isGroup, Bool.not_eq_true',
        Bool.true_eq_false, imp_false, Bool.not_eq_true, forall_const]
      tauto

/-- Parameters are accepted one by one. -/
theorem checkParameters_ok_iff (p : Place) (m : Manifest) (nested : Bool) :
    ∀ ps : List ParameterEntry, checkParameters p m nested ps = .ok () ↔
      (nested → ∀ q ∈ ps, q.isGroup = false) ∧ ∀ q ∈ families ps, q.WellFormed m
  | [] => by simp [checkParameters, families]
  | entry :: rest => by
      have hentry := check_ok_iff p m nested entry
      have hrest := checkParameters_ok_iff p m nested rest
      rw [checkParameters, check_bind_ok_iff, hentry, hrest]
      simp only [families, List.forall_mem_cons, List.forall_mem_append]
      tauto

end

end ParameterEntry

/-- The dialog has a name, and its parameters keep the rules at any depth. -/
structure UiEntry.WellFormed (m : Manifest) (ui : UiEntry) : Prop where
  name : IsName ui.name
  parameters : ∀ p ∈ ParameterEntry.families ui.parameters, p.WellFormed m

theorem UiEntry.check_ok_iff (p : Place) (m : Manifest) (ui : UiEntry) :
    ui.check p m = .ok () ↔ ui.WellFormed m := by
  rw [check, check_bind_ok_iff, checkName_ok_iff, ParameterEntry.checkParameters_ok_iff]
  exact ⟨fun ⟨hname, _, hparameters⟩ => ⟨hname, hparameters⟩,
    fun h => ⟨h.name, fun hn => absurd hn (by simp), h.parameters⟩⟩

/-! ## §4. The whole. -/

/-- The widths that statements may be set in by. -/
def Indent.IsAllowed : Indent → Prop
  | .spaces width => 1 ≤ width ∧ width ≤ 8
  | .tab => True

namespace Manifest

/-- A manifest that keeps all rules. -/
structure Accepted (m : Manifest) : Prop where
  studioName : Text.isBlank m.studio.name = false
  indent : m.studio.indent.IsAllowed
  feature : m.feature.isSome → m.ui.isSome
  names : m.declaredNames.Nodup
  imports : ∀ i ∈ m.imports, i.WellFormed
  documents : ∀ d ∈ m.documents, "" ∉ Keyed.keys d.2
  enums : ∀ e ∈ m.enums, e.WellFormed
  bounds : ∀ b ∈ m.bounds, b.WellFormed
  lookups : ∀ l ∈ m.lookups, l.WellFormed m
  ui : ∀ ui ∈ m.ui, ui.WellFormed m

theorem checkStudio_ok_iff (m : Manifest) (p : Place) :
    m.checkStudio p = .ok () ↔
      Text.isBlank m.studio.name = false ∧ m.studio.indent.IsAllowed ∧
        (m.feature.isSome → m.ui.isSome) := by
  have hfeature : (m.feature.isNone || m.ui.isSome) = true ↔ (m.feature.isSome → m.ui.isSome) := by
    cases m.feature <;> cases m.ui <;> simp
  unfold checkStudio
  cases m.studio.indent with
  | spaces width => simp [Indent.IsAllowed, hfeature]
  | tab => simp [Indent.IsAllowed, hfeature]

/-- **Validation accepts exactly the manifests that keep the rules**, whatever the source. -/
theorem validate_ok_iff (m : Manifest) (source : String) :
    m.validate source = .ok () ↔ m.Accepted := by
  unfold validate
  simp only [check_bind_ok_iff, checkStudio_ok_iff, checkNames_ok_iff, checkAll_ok_iff,
    ImportEntry.check_ok_iff, EnumEntry.check_ok_iff, BoundEntry.check_ok_iff,
    LookupEntry.check_ok_iff, UiEntry.check_ok_iff, Option.mem_toList]
  -- of a document only the names of its studios are looked at
  have hdocument : ∀ d : String × Keyed ImportTarget,
      checkDocument d.1 d.2 = .ok () ↔ "" ∉ Keyed.keys d.2 := fun d => by
    simp [checkDocument]
  constructor
  · rintro ⟨⟨hname, hindent, hfeature⟩, hnames, himports, hdocuments, henums, hbounds,
      hlookups, hui⟩
    exact
      { studioName := hname
        indent := hindent
        feature := hfeature
        names := hnames
        imports := himports
        documents := fun d hd => (hdocument d).mp (hdocuments d hd)
        enums := henums
        bounds := hbounds
        lookups := hlookups
        ui := hui }
  · intro h
    exact ⟨⟨h.studioName, h.indent, h.feature⟩, h.names, h.imports,
      fun d hd => (hdocument d).mpr (h.documents d hd), h.enums, h.bounds, h.lookups, h.ui⟩

end Manifest

end FeatureStudio
