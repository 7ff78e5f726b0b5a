/-
  FeatureStudio.Proofs.Manifest.Labels: where the errors of a manifest point to.

  An error points to stretches of the source, found again by searching for what the error is about:
  the header of a section, a key, or a value in quotes behind its key.  `Manifest.PointsTo` says for
  each kind of error which text that is.  A check is `IsLocated` if all of its errors keep to this;
  checks one after the other do if each of them does.

  Main statements:
    * `slice?_of_findValue`: what is found for a value is the value.
    * `lt_of_findValueAfter`: a value that is found again begins behind the end of the first one.
    * `Manifest.labels_located`: every label of a refused manifest, and the slices taken on the way.
-/
import FeatureStudio.Manifest.Validation
import FeatureStudio.Proofs.Text.Position

namespace FeatureStudio

open Manifest (Place)
open Text (Span slice? tail? byteLength)

/-! ## §1. Values behind their keys. -/

namespace Manifest

/-- A value in quotes behind a key: something in front of it, the value, and one more character. -/
theorem exists_of_mem_assignments {key value pattern : String}
    (h : pattern ∈ assignments key value) :
    ∃ front quote, front ≠ [] ∧ quote.utf8Size = 1
      ∧ pattern.toList = front ++ (value.toList ++ [quote]) := by
  have hpattern : ∀ opening closing : String, ∀ quote, opening.toList ≠ [] → quote.utf8Size = 1 →
      closing.toList = [quote] → pattern = key ++ opening ++ value ++ closing →
      ∃ front quote, front ≠ [] ∧ quote.utf8Size = 1
        ∧ pattern.toList = front ++ (value.toList ++ [quote]) := by
    rintro opening closing quote hopening hquote hclosing rfl
    refine ⟨(key ++ opening).toList, quote, ?_, hquote, ?_⟩
    · simp [hopening]
    · rw [String.toList_append, String.toList_append, hclosing, List.append_assoc]
  simp only [assignments, List.mem_cons, List.not_mem_nil, or_false] at h
  obtain h | h | h | h := h
  · exact hpattern " = \"" "\"" '"' (by decide) rfl rfl h
  · exact hpattern "=\"" "\"" '"' (by decide) rfl rfl h
  · exact hpattern " = '" "'" '\'' (by decide) rfl rfl h
  · exact hpattern "='" "'" '\'' (by decide) rfl rfl h

/-- The stretch that is given stands behind the part of the pattern in front of the value. -/
theorem findBeforeLast_eq_some {text pattern value : String} {s : Span} {front : List Char}
    {quote : Char} (hquote : quote.utf8Size = 1)
    (hpattern : pattern.toList = front ++ (value.toList ++ [quote]))
    (h : findBeforeLast text pattern value = some s) :
    ∃ before after, text.toList = (before ++ front) ++ (value.toList ++ after)
      ∧ s = ⟨byteLength (before ++ front), byteLength value.toList⟩ := by
  obtain ⟨found, hfind, rfl⟩ := Option.map_eq_some_iff.mp h
  obtain ⟨before, after, htext, rfl⟩ := Text.find_eq_some hfind
  refine ⟨before, quote :: after, ?_, ?_⟩
  · rw [htext, hpattern]
    simp only [List.append_assoc, List.cons_append, List.nil_append]
  -- the value ends one byte, the quote, in front of where the pattern ends
  · have hlength : byteLength pattern.toList
        = byteLength front + (byteLength value.toList + 1) := by
      rw [hpattern, Text.byteLength_append, Text.byteLength_append, Text.byteLength_cons, hquote,
        Text.byteLength_nil]
    have hoffset : Span.stop ⟨byteLength before, byteLength pattern.toList⟩
        - byteLength value.toList - 1 = byteLength (before ++ front) := by
      rw [hlength, Text.byteLength_append]
      show byteLength before + (byteLength front + (byteLength value.toList + 1))
        - byteLength value.toList - 1 = byteLength before + byteLength front
      omega
    rw [hoffset]

/-- A value that is found has something in front of it. -/
theorem findValue_eq_some {text key value : String} {s : Span}
    (h : findValue text key value = some s) :
    ∃ before after, before ≠ [] ∧ text.toList = before ++ (value.toList ++ after)
      ∧ s = ⟨byteLength before, byteLength value.toList⟩ := by
  obtain ⟨pattern, hmem, hfound⟩ := List.exists_of_findSome?_eq_some h
  obtain ⟨front, quote, hfront, hquote, hpattern⟩ := exists_of_mem_assignments hmem
  obtain ⟨before, after, htext, hs⟩ := findBeforeLast_eq_some hquote hpattern hfound
  exact ⟨before ++ front, after, fun hnil => hfront (List.append_eq_nil_iff.mp hnil).2, htext, hs⟩

/-- **What is found for a value is the value.** -/
theorem slice?_of_findValue {text key value : String} {s : Span}
    (h : findValue text key value = some s) : slice? text s = some value := by
  obtain ⟨before, after, -, htext, rfl⟩ := findValue_eq_some h
  exact Text.slice?_eq_some_iff.mpr ⟨before, after, htext, rfl, rfl⟩

/-- A value is searched again in what stands behind the first one, which can be cut off there. -/
theorem exists_findValueAfter_eq {text covered : String} (key value : String) {first : Span}
    (hfirst : slice? text first = some covered) :
    ∃ rest, tail? text first.stop = some rest
      ∧ findValueAfter text key value first
        = (findValue rest key value).map fun s => ⟨first.stop + s.offset, s.length⟩ := by
  obtain ⟨rest, hrest⟩ := Text.exists_tail?_of_slice? hfirst
  refine ⟨rest, hrest, ?_⟩
  unfold findValueAfter
  rw [Text.dropBytes_of_tail? hrest]

theorem findValueAfter_eq_some {text key value covered : String} {first second : Span}
    (hfirst : slice? text first = some covered)
    (h : findValueAfter text key value first = some second) :
    ∃ rest s, tail? text first.stop = some rest ∧ findValue rest key value = some s
      ∧ second = ⟨first.stop + s.offset, s.length⟩ := by
  obtain ⟨rest, hrest, hafter⟩ := exists_findValueAfter_eq key value hfirst
  rw [hafter] at h
  obtain ⟨s, hfound, rfl⟩ := Option.map_eq_some_iff.mp h
  exact ⟨rest, s, hrest, hfound, rfl⟩

theorem slice?_of_findValueAfter {text key value covered : String} {first second : Span}
    (hfirst : slice? text first = some covered)
    (h : findValueAfter text key value first = some second) :
    slice? text second = some value := by
  obtain ⟨rest, s, hrest, hfound, rfl⟩ := findValueAfter_eq_some hfirst h
  obtain ⟨before, htext, hplace⟩ := Text.tail?_eq_some_iff.mp hrest
  obtain ⟨before', after, -, hrest', rfl⟩ := findValue_eq_some hfound
  refine Text.slice?_eq_some_iff.mpr ⟨before ++ before', after, ?_, ?_, rfl⟩
  · rw [htext, hrest', List.append_assoc]
  · rw [Text.byteLength_append, hplace]

/-- **A value that is found again begins behind the end of the first one.** -/
theorem lt_of_findValueAfter {text key value covered : String} {first second : Span}
    (hfirst : slice? text first = some covered)
    (h : findValueAfter text key value first = some second) : first.stop < second.offset := by
  obtain ⟨rest, s, -, hfound, rfl⟩ := findValueAfter_eq_some hfirst h
  obtain ⟨before, after, hbefore, -, rfl⟩ := findValue_eq_some hfound
  obtain ⟨c, before, rfl⟩ := List.exists_cons_of_ne_nil hbefore
  have hpos : 0 < byteLength (c :: before) := by
    rw [Text.byteLength_cons]
    exact Nat.add_pos_left c.utf8Size_pos _
  exact Nat.lt_add_of_pos_right hpos

theorem slice?_of_findName {p : Place} {name : String} {s : Span} (h : p.findName name = some s) :
    slice? p.source s = some name := by
  unfold Place.findName at h
  cases hvalue : p.findValue "name" name with
  | some found =>
      rw [hvalue] at h
      cases h
      exact slice?_of_findValue hvalue
  | none =>
      rw [hvalue] at h
      have hpattern : ("\"" ++ name ++ "\"").toList = ['"'] ++ (name.toList ++ ['"']) := by
        rw [String.toList_append, String.toList_append, List.append_assoc]
        rfl
      obtain ⟨before, after, htext, rfl⟩ := findBeforeLast_eq_some rfl hpattern h
      exact Text.slice?_eq_some_iff.mpr ⟨_, after, htext, rfl, rfl⟩

end Manifest

/-! ## §2. What errors point to. -/

/-- The header or key that a violation is found at, or the name or condition that it is about, as
far as the violation itself says so. -/
def Violation.subject? : Violation → Option String
  | .blankStudioName => some "[studio]"
  | .indentWidth _ => some "indent"
  | .featureWithoutUi => some "[feature]"
  | .importAmbiguous | .importWithoutStudio | .importWithoutTarget | .importVersioned =>
    some "[[imports]]"
  | .enumWithoutValues name => some name
  | .notFinite bounds _ _ | .rangeOrder bounds _ _ _ => some bounds
  | .lookupMissing lookup _ _ => some lookup
  | .conditionForm condition => some condition
  | .kindMismatch _ _ bounds _ => some bounds
  | .unnamedStudio _ | .customListed _ | .template _ | .unitMismatch .. | .notAValue .. |
    .nestedGroup | .other _ => none

/-- The text of the manifest that an error points to.  What is wrong with a condition is found where
the whole condition is given, what is wrong with a default where its value is given. -/
inductive Manifest.PointsTo (m : Manifest) (source : String) : ManifestError → String → Prop
  | subject {violation : Violation} {span : Option Span} {text : String}
      (h : violation.subject? = some text) : m.PointsTo source (.invalid violation span) text
  /-- The value that is listed besides the one that the enumeration brings itself. -/
  | custom {e : EnumEntry} {v : EnumValueEntry} {span : Option Span} (he : e ∈ m.enums)
      (hv : v ∈ e.values) (h : Text.sameIgnoringCase v.value Enumeration.customToken) :
    m.PointsTo source (.invalid (.customListed e.name) span) v.value
  | template {e : EnumEntry} {template : String} {error : UsageError} {span : Option Span}
      (he : e ∈ m.enums) (ht : template ∈ e.predicateTemplate)
      (h : NameTemplate.expand template e.name Enumeration.customToken = .error error) :
    m.PointsTo source (.invalid (.template error) span) template
  /-- The bound spec that gives a value for a unit of another kind. -/
  | unit {b : BoundEntry} {unit : MeasureUnit} {span : Option Span} (hb : b ∈ m.bounds)
      (h : unit ∈ b.units.map (·.1)) :
    m.PointsTo source (.invalid (.unitMismatch unit b.kind) span) b.name
  | conditionValue {condition enumName value : String}
      (h : Text.splitOnce '.' condition = some (enumName, value)) :
    m.PointsTo source
      (.invalid (.notAValue value enumName) (Manifest.findValue source "when" condition)) condition
  | default {value enumName : String} :
    m.PointsTo source
      (.invalid (.notAValue value enumName) (Manifest.findValue source "default" value)) value
  | identifier {name context : String} {fault : NameFault} {span : Option Span} :
    m.PointsTo source (.invalidIdentifier name context fault span) name
  | choiceEnum {name : String} {span : Option Span} :
    m.PointsTo source (.unknownEnum name "an enum parameter" span) name
  | lookupEnum {l : LookupEntry} {span : Option Span} (hl : l ∈ m.lookups) :
    m.PointsTo source (.unknownEnum l.enumName ("lookup '" ++ l.name ++ "'") span) l.enumName
  | conditionEnum {condition name value : String}
      (h : Text.splitOnce '.' condition = some (name, value)) :
    m.PointsTo source (.unknownEnum name ("condition '" ++ condition ++ "'")
      (Manifest.findValue source "when" condition)) condition
  | duplicate {name : String} {first second : Option Span} :
    m.PointsTo source (.duplicateName name first second) name

/-- The second place of a name is the first one in what stands behind the end of the first place,
where the source can be cut. -/
def Manifest.FoundBehind (source name : String) (first : Span) (second : Option Span) : Prop :=
  ∃ rest, tail? source first.stop = some rest
    ∧ second = (findValue rest "name" name).map fun s => ⟨first.stop + s.offset, s.length⟩

/-- An error keeps to the source: its labels cover what it points to.  If it is about a name that
is declared twice, the source can be cut behind the first place, and the second place begins behind
the end of the first. -/
structure ManifestError.KeepsTo (m : Manifest) (source : String) (e : ManifestError) : Prop where
  covers : ∀ l ∈ e.labels, ∃ text, m.PointsTo source e text ∧ slice? source l.1 = some text
  cuts : ∀ name first second, e = .duplicateName name first second →
    ∀ s ∈ first, Manifest.FoundBehind source name s second
  ordered : ∀ name first second, e = .duplicateName name (some first) (some second) →
    first.stop < second.offset

/-! ## §3. Checks whose errors keep to the source. -/

/-- Every error of the check keeps to the source. -/
def IsLocated (m : Manifest) (source : String) (check : Except ManifestError Unit) : Prop :=
  ∀ e, check = .error e → e.KeepsTo m source

section

variable {m : Manifest} {source : String}

/-- An error with one label, if any. -/
theorem ManifestError.keepsTo_of_label {e : ManifestError} {span : Option Span} {note text : String}
    (hlabels : e.labels = label span note) (he : ∀ name first second,
      e ≠ .duplicateName name first second) (hpoints : m.PointsTo source e text)
    (hspan : ∀ s ∈ span, slice? source s = some text) : e.KeepsTo m source where
  covers l hl := by
    rw [hlabels] at hl
    obtain ⟨s, hs, rfl⟩ := List.mem_map.mp hl
    exact ⟨text, hpoints, hspan s (Option.mem_toList.mp hs)⟩
  cuts name first second h := absurd h (he name first second)
  ordered name first second h := absurd h (he name (some first) (some second))

theorem keepsTo_invalid {violation : Violation} {span : Option Span} {text : String}
    (hpoints : m.PointsTo source (.invalid violation span) text)
    (hspan : ∀ s ∈ span, slice? source s = some text) :
    (ManifestError.invalid violation span).KeepsTo m source :=
  ManifestError.keepsTo_of_label rfl (fun _ _ _ h => by cases h) hpoints hspan

/-- A violation without a place. -/
theorem keepsTo_unplaced (violation : Violation) :
    (ManifestError.invalid violation none).KeepsTo m source where
  covers _ hl := absurd hl List.not_mem_nil
  cuts _ _ _ h := by cases h
  ordered _ _ _ h := by cases h

theorem keepsTo_unknownEnum {name context : String} {span : Option Span} {text : String}
    (hpoints : m.PointsTo source (.unknownEnum name context span) text)
    (hspan : ∀ s ∈ span, slice? source s = some text) :
    (ManifestError.unknownEnum name context span).KeepsTo m source :=
  ManifestError.keepsTo_of_label rfl (fun _ _ _ h => by cases h) hpoints hspan

namespace IsLocated

theorem ok : IsLocated m source (.ok ()) := fun _ h => by cases h

theorem error {e : ManifestError} (h : e.KeepsTo m source) : IsLocated m source (.error e) :=
  fun _ he => by cases he; exact h

theorem bind {first : Except ManifestError Unit} {second : Unit → Except ManifestError Unit}
    (h : IsLocated m source first) (h' : IsLocated m source (second ())) :
    IsLocated m source (first >>= second) := by
  intro e he
  cases first with
  | error e' =>
      cases he
      exact h _ rfl
  | ok a => exact h' e he

theorem ensure {condition : Bool} {e : ManifestError}
    (h : condition = false → e.KeepsTo m source) : IsLocated m source (ensure condition e) := by
  cases condition with
  | true => exact ok
  | false => exact error (h rfl)

theorem checkAll {α : Type} {check : α → Except ManifestError Unit} {l : List α}
    (h : ∀ a ∈ l, IsLocated m source (check a)) : IsLocated m source (checkAll check l) := by
  induction l with
  | nil => exact ok
  | cons a rest ih =>
      have hrest := ih fun b hb => h b (List.mem_cons_of_mem _ hb)
      have ha := h a List.mem_cons_self
      intro e he
      rw [FeatureStudio.checkAll] at he
      cases hcheck : check a with
      | error e' =>
          rw [hcheck] at he
          cases he
          exact ha e hcheck
      | ok _ =>
          rw [hcheck] at he
          exact hrest e he

end IsLocated

variable {p : Place}

theorem isLocated_checkName (name kind : String) :
    IsLocated m p.source (p.checkName name kind) := by
  unfold Place.checkName
  split
  · exact .error (ManifestError.keepsTo_of_label rfl (fun _ _ _ h => by cases h) .identifier
      fun s hs => Manifest.slice?_of_findName hs)
  · exact .ok

/-! ## §4. Declarations. -/

theorem ImportEntry.isLocated_check (i : ImportEntry) : IsLocated m p.source (i.check p) := by
  have hrefuse : ∀ violation : Violation, violation.subject? = some "[[imports]]" →
      IsLocated m p.source (Place.refuse violation (p.find "[[imports]]")) := fun violation h =>
    .error (keepsTo_invalid (.subject h) fun s hs => Text.slice?_of_find hs)
  unfold ImportEntry.check
  split
  · exact hrefuse _ rfl
  · exact hrefuse _ rfl
  · exact hrefuse _ rfl
  · split
    · exact hrefuse _ rfl
    · exact .ok
  · exact .ok

theorem EnumEntry.isLocated_check {e : EnumEntry} (he : e ∈ m.enums) :
    IsLocated m p.source (e.check p) := by
  unfold EnumEntry.check
  refine .bind (isLocated_checkName e.name "enum") (.bind (.checkAll fun name _ =>
    isLocated_checkName name "enum parameter") (.bind (.ensure fun _ => ?_)
      (.bind (.checkAll fun v hv => .bind ?_ (.ensure fun hcustom => ?_))
        (.checkAll fun template ht => ?_))))
  · exact keepsTo_invalid (.subject rfl) fun s hs => Manifest.slice?_of_findValue hs
  · exact isLocated_checkName (p := p.enter e.name) v.value "enum value"
  · have hlisted : Text.sameIgnoringCase v.value Enumeration.customToken := by
      simp only [Bool.not_eq_false', Bool.and_eq_true] at hcustom
      exact hcustom.2
    exact keepsTo_invalid (.custom he hv hlisted) fun s hs => Manifest.slice?_of_findValue hs
  · cases hexpand : NameTemplate.expand template e.name Enumeration.customToken with
    | ok _ => exact .ok
    | error error =>
        exact .error (keepsTo_invalid (.template he (Option.mem_toList.mp ht) hexpand) fun s hs =>
          Manifest.slice?_of_findValue hs)

theorem BoundEntry.isLocated_check {b : BoundEntry} (hb : b ∈ m.bounds) :
    IsLocated m p.source (b.check p) := by
  have hname : ∀ s ∈ p.findValue "name" b.name, slice? p.source s = some b.name :=
    fun s hs => Manifest.slice?_of_findValue hs
  unfold BoundEntry.check
  refine .bind (isLocated_checkName b.name "bound spec") (.bind (.checkAll fun given _ =>
    .ensure fun _ => ?_) (.bind (.ensure fun _ => ?_) (.checkAll fun given hgiven =>
      .ensure fun _ => ?_)))
  · exact keepsTo_invalid (.subject rfl) hname
  · exact keepsTo_invalid (.subject rfl) hname
  · exact keepsTo_invalid (.unit hb (List.mem_map_of_mem hgiven)) hname

theorem LookupEntry.isLocated_check {l : LookupEntry} (hl : l ∈ m.lookups) :
    IsLocated m p.source (l.check p m) := by
  unfold LookupEntry.check
  refine .bind (isLocated_checkName l.name "lookup") (.bind (.checkAll fun name _ =>
    isLocated_checkName name "return type") ?_)
  split
  · exact .error (keepsTo_unknownEnum (.lookupEnum hl) fun s hs => Manifest.slice?_of_findValue hs)
  · split
    · exact .error (keepsTo_invalid (.subject rfl) fun s hs => Manifest.slice?_of_findValue hs)
    · exact .ok

/-! ## §5. Parameters. -/

theorem isLocated_checkCondition (condition : String) :
    IsLocated m p.source (checkCondition p m condition) := by
  have hspan : ∀ s ∈ p.findValue "when" condition, slice? p.source s = some condition :=
    fun s hs => Manifest.slice?_of_findValue hs
  unfold checkCondition
  split
  · exact .error (keepsTo_invalid (.subject rfl) hspan)
  · next enumName value hsplit =>
      split
      · exact .error (keepsTo_unknownEnum (.conditionEnum hsplit) hspan)
      · exact .ensure fun _ => keepsTo_invalid (.conditionValue hsplit) hspan

theorem isLocated_checkChoice (enumName : String) (default : Option String) :
    IsLocated m p.source (checkChoice p m enumName default) := by
  unfold checkChoice
  split
  · exact .error (keepsTo_unknownEnum .choiceEnum fun s hs => Manifest.slice?_of_findValue hs)
  · exact .checkAll fun token _ => .ensure fun _ =>
      keepsTo_invalid .default fun s hs => Manifest.slice?_of_findValue hs

theorem isLocated_checkBounds (name : String) (kind : BoundKind) (bounds : String) :
    IsLocated m p.source (checkBounds p m name kind bounds) := by
  unfold checkBounds
  split
  · exact .ensure fun _ => keepsTo_invalid (.subject rfl) fun s hs =>
      Manifest.slice?_of_findValue hs
  · exact isLocated_checkName bounds "bound spec"

mutual

theorem ParameterEntry.isLocated_check (nested : Bool) :
    ∀ entry : ParameterEntry, IsLocated m p.source (entry.check p m nested)
  | .boolean .. | .query .. => by
      rw [ParameterEntry.check]
      exact .bind (.checkAll fun c _ => isLocated_checkCondition c) (isLocated_checkName _ _)
  | .choice .. => by
      rw [ParameterEntry.check]
      exact .bind (.checkAll fun c _ => isLocated_checkCondition c) (isLocated_checkChoice _ _)
  | .value kind name .. => by
      rw [ParameterEntry.check]
      exact .bind (.checkAll fun c _ => isLocated_checkCondition c)
        (.bind (isLocated_checkName _ _) (.checkAll fun b _ => isLocated_checkBounds name kind b))
  | .group _ _ parameters _ => by
      rw [ParameterEntry.check]
      exact .bind (.checkAll fun c _ => isLocated_checkCondition c)
        (.bind (.ensure fun _ => keepsTo_unplaced _) (isLocated_checkParameters true parameters))
  | .drivenGroup _ _ _ _ parameters _ => by
      rw [ParameterEntry.check]
      exact .bind (.checkAll fun c _ => isLocated_checkCondition c)
        (.bind (isLocated_checkName _ _)
          (.bind (.ensure fun _ => keepsTo_unplaced _) (isLocated_checkParameters true parameters)))

theorem isLocated_checkParameters (nested : Bool) :
    ∀ entries : List ParameterEntry, IsLocated m p.source (checkParameters p m nested entries)
  | [] => .ok
  | entry :: rest => by
      rw [checkParameters]
      exact .bind (entry.isLocated_check nested) (isLocated_checkParameters nested rest)

end

theorem UiEntry.isLocated_check (ui : UiEntry) : IsLocated m p.source (ui.check p m) :=
  .bind (isLocated_checkName ui.name "ui predicate")
    (isLocated_checkParameters (p := p.enter ui.name) false ui.parameters)

end

/-! ## §6. The whole. -/

namespace Manifest

theorem isLocated_checkStudio (m : Manifest) (p : Place) :
    IsLocated m p.source (m.checkStudio p) := by
  have hensure : ∀ (condition : Bool) (violation : Violation) (text : String),
      violation.subject? = some text →
      IsLocated m p.source (ensure condition (.invalid violation (p.find text))) :=
    fun _ _ _ h => .ensure fun _ => keepsTo_invalid (.subject h) fun s hs =>
      Text.slice?_of_find hs
  unfold checkStudio
  refine .bind (hensure _ _ _ rfl) ?_
  cases m.studio.indent with
  | spaces width => exact .bind (hensure _ _ _ rfl) (hensure _ _ _ rfl)
  | tab => exact .bind .ok (hensure _ _ _ rfl)

/-- A name is searched where it is declared first, and from there on. -/
theorem isLocated_checkNames (m : Manifest) (source : String) :
    IsLocated m source (m.checkNames source) := by
  unfold checkNames
  split
  · exact .ok
  · next name _ =>
      have hfirst : ∀ s, findValue source "name" name = some s → slice? source s = some name :=
        fun s hs => slice?_of_findValue hs
      refine .error ⟨fun l hl => ⟨name, .duplicate, ?_⟩, ?_, ?_⟩
      · obtain hl | hl := List.mem_append.mp hl
        · obtain ⟨s, hs, rfl⟩ := List.mem_map.mp hl
          exact hfirst s (Option.mem_toList.mp hs)
        · obtain ⟨s, hs, rfl⟩ := List.mem_map.mp hl
          obtain ⟨first, hfound, hagain⟩ := Option.bind_eq_some_iff.mp (Option.mem_toList.mp hs)
          exact slice?_of_findValueAfter (hfirst first hfound) hagain
      · intro _ first second h s hs
        obtain ⟨rfl, rfl, rfl⟩ := ManifestError.duplicateName.inj h
        obtain ⟨rest, hrest, hafter⟩ := exists_findValueAfter_eq "name" name (hfirst s hs)
        have hfound : findValue source "name" name = some s := hs
        exact ⟨rest, hrest, by rw [hfound, Option.bind_some, hafter]⟩
      · intro _ first second h
        obtain ⟨rfl, hfound, hagain⟩ := ManifestError.duplicateName.inj h
        rw [hfound] at hagain
        exact lt_of_findValueAfter (hfirst first hfound) hagain

/-- **Every label of a refused manifest lies in the source and covers what the error is about**:
the name, condition, default, bounds or template that is reported, or the header or key that the
violation is found at.  Both ends of a label lie where characters end, so that no slice taken on
the way fails, and of a name that is declared twice the first label ends before the second
begins. -/
theorem labels_located {m : Manifest} {source : String} {e : ManifestError}
    (h : m.validate source = .error e) :
    (∀ l ∈ e.labels, ∃ text, m.PointsTo source e text ∧ slice? source l.1 = some text)
    ∧ (∀ name first second, e = .duplicateName name first second →
      ∀ s ∈ first, FoundBehind source name s second)
    ∧ ∀ name first second, e = .duplicateName name (some first) (some second) →
      first.stop < second.offset := by
  let p : Place := { source }
  have hlocated : IsLocated m source (m.validate source) :=
    .bind (m.isLocated_checkStudio p) (.bind (m.isLocated_checkNames source)
      (.bind (.checkAll fun i _ => i.isLocated_check (p := p))
        (.bind (.checkAll fun d _ => .ensure fun _ => keepsTo_unplaced _)
          (.bind (.checkAll fun _ he => EnumEntry.isLocated_check (p := p) he)
            (.bind (.checkAll fun _ hb => BoundEntry.isLocated_check (p := p) hb)
              (.bind (.checkAll fun _ hl => LookupEntry.isLocated_check (p := p) hl)
                (.checkAll fun ui _ => ui.isLocated_check (p := p))))))))
  exact ⟨(hlocated e h).covers, (hlocated e h).cuts, (hlocated e h).ordered⟩

/-- An enumeration and a bound spec of one name, in which some characters have two bytes. -/
def doubled : Manifest where
  studio := { name := "a.fs", stdVersion := "2144", indent := .spaces 4 }
  imports := []
  documents := []
  enums :=
    [{ name := "Größe", parameter := none, predicates := false, predicateTemplate := none
       labelled := true, isPrivate := false, custom := true, customLookup := none, values := [] }]
  bounds :=
    [{ name := "Größe", kind := .real, min := none, default := none, max := none, units := []
       isPrivate := false }]
  lookups := []
  ui := none
  feature := none

/-- Its source, with different quotes and spaces. -/
def doubledSource : String :=
  "[studio]\nname = \"a.fs\"\n[[enums]]\nname=\"Größe\"\ncustom = true\n"
    ++ "[[bounds]]\nname = 'Größe'\nkind = \"real\"\n"

theorem doubled_labels_located :
    let e : ManifestError := .duplicateName "Größe" (some ⟨39, 7⟩) (some ⟨81, 7⟩)
    doubled.validate doubledSource = .error e
    ∧ (∀ l ∈ e.labels, ∃ text, doubled.PointsTo doubledSource e text ∧ slice? doubledSource l.1 = some text)
    ∧ FoundBehind doubledSource "Größe" ⟨39, 7⟩ (some ⟨81, 7⟩)
    ∧ Span.stop ⟨39, 7⟩ < (⟨81, 7⟩ : Span).offset := by
  intro e
  have h : doubled.validate doubledSource = .error e := by rfl
  obtain ⟨hcovers, hcuts, hordered⟩ := labels_located h
  exact ⟨h, hcovers, hcuts _ _ _ rfl _ rfl, hordered _ _ _ rfl⟩

end Manifest

end FeatureStudio
