/-
  FeatureStudio.Proofs.Dialog.BoundSpec: what the constant of a bound spec says.

  A bound spec is put together step by step and declared as a constant whose map holds the range
  and the defaults by unit.  The entries of the map are put under text keys, and the range has the
  key of a unit, `(meter)` or `(degree)`, where the kind has units at all.  So the range is there
  unless that very unit is given a default, which then stands in its place.

  Main statements:
    * `after_eq_asked`: what any steps leave, by the last ones of each kind.
    * `entries_eq`: the entries of the map, the first of which may be a default.
    * `run_boundSpec`: the constant at file level.
    * `keepsRange_iff`: when the constant has the range and the defaults that the steps ask for.
-/
import FeatureStudio.Manifest.Studio
import FeatureStudio.Proofs.Decimal.Text
import FeatureStudio.Proofs.Keyed
import FeatureStudio.Proofs.Render.Composition
import FeatureStudio.Proofs.Text.Indentation

namespace FeatureStudio

open Decimal (Binary64 Numeral)

/-! ## §1. Steps. -/

/-- A step in putting a bound spec together. -/
inductive BoundStep where
  | min (value : Binary64)
  | default (value : Binary64)
  | max (value : Binary64)
  | unitDefault (unit : MeasureUnit) (value : Binary64)
  deriving DecidableEq

namespace BoundStep

/-- The spec behind the step. -/
def apply (spec : BoundSpec) : BoundStep → BoundSpec
  | .min value => { spec with min := value }
  | .default value => { spec with default := value }
  | .max value => { spec with max := value }
  | .unitDefault unit value => spec.unitDefault unit value

def min? : BoundStep → Option Binary64
  | .min value => some value
  | _ => none

def default? : BoundStep → Option Binary64
  | .default value => some value
  | _ => none

def max? : BoundStep → Option Binary64
  | .max value => some value
  | _ => none

def unitDefault? : BoundStep → Option (MeasureUnit × Binary64)
  | .unitDefault unit value => some (unit, value)
  | _ => none

end BoundStep

/-- The assignments that no later one to the same unit takes back, in order. -/
def lastAssigned : List (MeasureUnit × Binary64) → List (MeasureUnit × Binary64)
  | [] => []
  | a :: rest => if a.1 ∈ rest.map Prod.fst then lastAssigned rest else a :: lastAssigned rest

namespace BoundSpec

/-- The spec after some steps. -/
def after (start : BoundSpec) (steps : List BoundStep) : BoundSpec :=
  steps.foldl BoundStep.apply start

/-- The spec that some steps ask for: of every value the last one given, and of the defaults the
last one given for every unit, in the order of these last assignments. -/
def asked (start : BoundSpec) (steps : List BoundStep) : BoundSpec :=
  { start with
    min := (steps.filterMap BoundStep.min?).getLast?.getD start.min
    default := (steps.filterMap BoundStep.default?).getLast?.getD start.default
    max := (steps.filterMap BoundStep.max?).getLast?.getD start.max
    unitDefaults := lastAssigned (steps.filterMap BoundStep.unitDefault?) }

end BoundSpec

theorem mem_of_mem_lastAssigned {as : List (MeasureUnit × Binary64)} {a : MeasureUnit × Binary64}
    (h : a ∈ lastAssigned as) : a ∈ as := by
  induction as with
  | nil => exact h
  | cons b rest ih =>
      unfold lastAssigned at h
      split at h
      · exact List.mem_cons_of_mem _ (ih h)
      · rcases List.mem_cons.mp h with rfl | hrest
        · exact List.mem_cons_self
        · exact List.mem_cons_of_mem _ (ih hrest)

/-- Every unit that is assigned has a last assignment. -/
theorem units_lastAssigned (as : List (MeasureUnit × Binary64)) (unit : MeasureUnit) :
    unit ∈ (lastAssigned as).map Prod.fst ↔ unit ∈ as.map Prod.fst := by
  induction as with
  | nil => rfl
  | cons a rest ih =>
      unfold lastAssigned
      split
      · next hagain =>
          rw [ih, List.map_cons, List.mem_cons]
          exact ⟨.inr, fun h => h.elim (fun heq => heq ▸ hagain) id⟩
      · rw [List.map_cons, List.map_cons, List.mem_cons, List.mem_cons, ih]

/-- No unit has two last assignments. -/
theorem nodup_lastAssigned (as : List (MeasureUnit × Binary64)) :
    ((lastAssigned as).map Prod.fst).Nodup := by
  induction as with
  | nil => exact List.nodup_nil
  | cons a rest ih =>
      unfold lastAssigned
      split
      · exact ih
      · next hlast =>
          rw [List.map_cons, List.nodup_cons, units_lastAssigned]
          exact ⟨hlast, ih⟩

/-- One more assignment takes back the one to the same unit and comes last. -/
theorem lastAssigned_append_single (as : List (MeasureUnit × Binary64))
    (a : MeasureUnit × Binary64) :
    lastAssigned (as ++ [a]) = (lastAssigned as).filter (fun b => b.1 ≠ a.1) ++ [a] := by
  induction as with
  | nil => rfl
  | cons b rest ih =>
      rw [List.cons_append]
      unfold lastAssigned
      rw [ih, List.map_append]
      -- the new assignment is one more behind `b`, which may be for the same unit
      by_cases hrest : b.1 ∈ rest.map Prod.fst
      · rw [if_pos hrest, if_pos (List.mem_append_left _ hrest)]
      · rw [if_neg hrest, List.filter_cons]
        by_cases hunit : b.1 = a.1
        · rw [if_pos (by simp [hunit]), if_neg (by simp [hunit])]
        · have hkeep : b.1 ∉ rest.map Prod.fst ++ [a].map Prod.fst := by
            rw [List.mem_append, not_or]
            exact ⟨hrest, by simpa using hunit⟩
          rw [if_neg hkeep, if_pos (by simpa using hunit), List.cons_append]

/-- **After any steps the spec is the one that they ask for.** -/
theorem BoundSpec.after_eq_asked {start : BoundSpec} (h : start.unitDefaults = [])
    (steps : List BoundStep) : start.after steps = start.asked steps := by
  -- the last step counts, so the induction is on the end of the steps
  induction steps using List.reverseRecOn with
  | nil =>
      cases start
      cases h
      rfl
  | append_singleton steps step ih =>
      have hstep : start.after (steps ++ [step]) = step.apply (start.asked steps) := by
        rw [after, List.foldl_append, ← ih]
        rfl
      rw [hstep]
      unfold asked
      simp only [List.filterMap_append, List.filterMap_cons, List.filterMap_nil]
      -- every step counts for one of the four values and for none of the others
      cases step <;> simp [BoundStep.apply, unitDefault, BoundStep.min?, BoundStep.default?,
        BoundStep.max?, BoundStep.unitDefault?, lastAssigned_append_single]

/-! ## §2. Entries. -/

/-- The unit in which the range of a kind is given. -/
def BoundKind.rangeUnit? : BoundKind → Option MeasureUnit
  | .length => some .meter
  | .angle => some .degree
  | .integer | .real => none

/-- The key of the default for a unit. -/
def MeasureUnit.key (unit : MeasureUnit) : String := "(" ++ unit.text ++ ")"

theorem MeasureUnit.key_injective : Function.Injective MeasureUnit.key := by
  intro u v
  cases u <;> cases v <;> decide

/-- A key is a word in parentheses. -/
theorem MeasureUnit.not_mem_key (unit : MeasureUnit) :
    '[' ∉ unit.key.toList ∧ '\n' ∉ unit.key.toList := by
  cases unit <;> decide

theorem BoundKind.lineFeed_not_mem_rangeKey (kind : BoundKind) : '\n' ∉ kind.rangeKey.toList := by
  cases kind <;> decide

/-- The range has the key of its unit. -/
theorem BoundKind.rangeKey_eq_iff (kind : BoundKind) (unit : MeasureUnit) :
    unit.key = kind.rangeKey ↔ kind.rangeUnit? = some unit := by
  cases kind <;> cases unit <;> decide

namespace BoundSpec

/-- The defaults as entries of the map. -/
def unitEntries (spec : BoundSpec) : List (String × String) :=
  spec.unitDefaults.map fun d => (d.1.key, spec.number d.2)

/-- The range and behind it the defaults, as entries of the map. -/
def askedEntries (spec : BoundSpec) : List (String × String) :=
  (spec.kind.rangeKey, spec.rangeText) :: spec.unitEntries

theorem numeral_number (spec : BoundSpec) (x : Binary64) : Numeral (spec.number x) := by
  unfold number
  split
  · exact Decimal.numeral_toString _
  · exact Decimal.numeral_text x

/-- Which keys the defaults have. -/
theorem key_mem_unitEntries (spec : BoundSpec) :
    spec.kind.rangeKey ∈ Keyed.keys spec.unitEntries
      ↔ ∃ d ∈ spec.unitDefaults, spec.kind.rangeUnit? = some d.1 := by
  unfold Keyed.keys unitEntries
  rw [List.map_map, List.mem_map]
  exact exists_congr fun d => and_congr_right fun _ => spec.kind.rangeKey_eq_iff d.1

theorem nodup_keys_unitEntries {spec : BoundSpec} (h : (spec.unitDefaults.map Prod.fst).Nodup) :
    (Keyed.keys spec.unitEntries).Nodup := by
  have hmap : Keyed.keys spec.unitEntries
      = (spec.unitDefaults.map Prod.fst).map MeasureUnit.key := by
    unfold Keyed.keys unitEntries
    rw [List.map_map, List.map_map]
    rfl
  rw [hmap]
  exact h.map MeasureUnit.key_injective

/-- **The entries of the map**: under the range's key stands the default for the unit of the range,
if there is one, and else the range; the other defaults follow. -/
theorem entries_eq {spec : BoundSpec} (h : (spec.unitDefaults.map Prod.fst).Nodup) :
    spec.entries
      = (spec.kind.rangeKey,
          (Keyed.get? spec.unitEntries spec.kind.rangeKey).getD spec.rangeText)
        :: spec.unitEntries.filter fun p => p.1 ≠ spec.kind.rangeKey :=
  Keyed.ofList_cons (nodup_keys_unitEntries h) _ _

/-- Where the unit of the range is given no default, the map has the entries that are asked for. -/
theorem entries_eq_asked {spec : BoundSpec} (h : (spec.unitDefaults.map Prod.fst).Nodup)
    (hunit : ¬ ∃ d ∈ spec.unitDefaults, spec.kind.rangeUnit? = some d.1) :
    spec.entries = spec.askedEntries := by
  have hkey : spec.kind.rangeKey ∉ Keyed.keys spec.unitEntries := fun hmem =>
    hunit ((key_mem_unitEntries spec).mp hmem)
  have hall : ∀ p ∈ spec.unitEntries, decide (p.1 ≠ spec.kind.rangeKey) = true := fun p hp =>
    decide_eq_true fun heq => hkey (List.mem_map.mpr ⟨p, hp, heq⟩)
  rw [entries_eq h, Keyed.get?_of_not_mem hkey, List.filter_eq_self.mpr hall]
  rfl

/-- Where it is given one, no entry has a list for its value. -/
theorem bracket_not_mem_entries {spec : BoundSpec} (h : (spec.unitDefaults.map Prod.fst).Nodup)
    (hunit : ∃ d ∈ spec.unitDefaults, spec.kind.rangeUnit? = some d.1) :
    ∀ p ∈ spec.entries, '[' ∉ p.1.toList ∧ '[' ∉ p.2.toList := by
  have hentry : ∀ p ∈ spec.unitEntries, '[' ∉ p.1.toList ∧ '[' ∉ p.2.toList := by
    intro p hp
    obtain ⟨d, -, rfl⟩ := List.mem_map.mp hp
    exact ⟨d.1.not_mem_key.1, (spec.numeral_number d.2).not_mem (by decide)⟩
  obtain ⟨q, hq, hqkey⟩ := List.mem_map.mp ((key_mem_unitEntries spec).mpr hunit)
  have hget : Keyed.get? spec.unitEntries spec.kind.rangeKey = some q.2 :=
    Keyed.get?_of_mem (nodup_keys_unitEntries h) (hqkey ▸ hq)
  intro p hp
  rw [entries_eq h, hget, ← hqkey] at hp
  rcases List.mem_cons.mp hp with rfl | hp
  · exact hentry q hq
  · exact hentry p (List.mem_of_mem_filter hp)

end BoundSpec

/-! ## §3. The constant. -/

namespace BoundSpec

/-- The constant at file level whose map has the given entries, one a line. -/
def declaration (spec : BoundSpec) (entries : List (String × String)) (indent : Indent) : String :=
  exportText spec.exported ++ "const " ++ spec.name ++ " = "
    ++ ("\x7b\n" ++ (",\n".intercalate (entries.map fun p => indent.unit ++ (p.1 ++ " : " ++ p.2))
      ++ "\n") ++ "\x7d" ++ " as " ++ spec.kind.typeName) ++ ";\n"

end BoundSpec

namespace Render

open Build

variable {w : World} {s : State}

/-- Entries with texts for their values. -/
def tokenEntries (entries : List (String × String)) : List (String × Operand) :=
  entries.map fun p => (p.1, Operand.token p.2)

theorem ensures_tokenEntries (style : MapStyle) (entries : List (String × String)) :
    Ensures w s (fun _ => entryTexts style (tokenEntries entries)) fun texts _ =>
      texts = fun _ => entries.map fun p => style.entryText p.1 p.2 := by
  induction entries with
  | nil => exact ensures_pure rfl
  | cons entry rest ih =>
      have htext : Ensures w s (fun _ => (Operand.token entry.2).text) fun text _ =>
          text = fun _ => entry.2 := Operand.ensures_text (ensures_pure rfl)
      refine htext.bind fun text _ htext => ih.map fun texts _ htexts => ?_
      subst htext htexts
      rfl

/-- A literal whose entries are texts, one a line. -/
theorem ensures_tokenLiteral {style : MapStyle} {typeName : String}
    {entries : List (String × String)} (hs : s.scope = .expression) (hlines : style.inline = false)
    (htype : style.typeName = some typeName) (hne : entries ≠ []) :
    Ensures w s (fun _ => mapLiteral style (tokenEntries entries)) fun text _ =>
      text = fun u => "\x7b\n"
        ++ u.lines (",\n".intercalate (entries.map fun p => style.entryText p.1 p.2) ++ "\n") 1
        ++ "\x7d" ++ " as " ++ typeName := by
  refine ensures_scope ?_
  rw [if_neg fun h => h hs, hlines, htype]
  refine (ensures_tokenEntries style entries).bind fun texts _ htexts => ?_
  subst htexts
  -- without entries there would be no lines to indent
  obtain ⟨entry, rest, rfl⟩ := List.exists_cons_of_ne_nil hne
  have hbody : Ensures w s
      (fun u => indented (",\n".intercalate ((entry :: rest).map fun p => style.entryText p.1 p.2)
        ++ "\n") 1)
      fun body _ => body = fun (u : Indent) => u.lines (",\n".intercalate
        ((entry :: rest).map fun p => style.entryText p.1 p.2) ++ "\n") 1 := ensures_indented 1 rfl
  refine hbody.bind fun body _ hbody => ensures_pure ?_
  subst hbody
  rfl

/-- The entries of a bound spec's map, indented. -/
theorem lines_boundEntries (u : Indent) (kind : BoundKind) {entries : List (String × String)}
    (hne : entries ≠ []) (hlines : ∀ p ∈ entries, '\n' ∉ p.1.toList ∧ '\n' ∉ p.2.toList) :
    u.lines (",\n".intercalate (entries.map fun p => (boundStyle kind).entryText p.1 p.2) ++ "\n") 1
      = ",\n".intercalate (entries.map fun p => u.unit ++ (p.1 ++ " : " ++ p.2)) ++ "\n" := by
  have hrows : (entries.map fun p => (boundStyle kind).entryText p.1 p.2) ≠ [] :=
    fun h => hne (List.map_eq_nil_iff.mp h)
  refine (u.lines_intercalate (show '\n' ∉ ",".toList by decide) hrows fun l hl => ?_).trans ?_
  · obtain ⟨p, hp, rfl⟩ := List.mem_map.mp hl
    obtain ⟨hkey, hvalue⟩ := hlines p hp
    show '\n' ∉ (p.1 ++ " : " ++ p.2).toList ∧ p.1 ++ " : " ++ p.2 ≠ ""
    refine ⟨?_, fun h => ?_⟩
    · rw [String.toList_append, String.toList_append, List.mem_append, List.mem_append, not_or,
        not_or]
      exact ⟨⟨hkey, by decide⟩, hvalue⟩
    · have hcolon := (String.append_eq_empty_iff.mp (String.append_eq_empty_iff.mp h).1).2
      exact absurd hcolon (by decide)
  · rw [List.map_map]
    rfl

theorem ensures_boundSpec {spec : BoundSpec} (hs : s.scope = .top) (hne : spec.entries ≠ [])
    (hlines : ∀ p ∈ spec.entries, '\n' ∉ p.1.toList ∧ '\n' ∉ p.2.toList) :
    Ensures w s (fun _ => boundSpec spec) fun text _ =>
      text = spec.declaration spec.entries := by
  have hmap : Ensures w ((s.inScope .top).inScope .expression)
      (fun _ => (Operand.wrapped
        (mapLiteral (boundStyle spec.kind) (tokenEntries spec.entries))).render) fun text _ =>
      text = fun u => "\x7b\n" ++ u.lines (",\n".intercalate (spec.entries.map fun p =>
        (boundStyle spec.kind).entryText p.1 p.2) ++ "\n") 1 ++ "\x7d" ++ " as "
        ++ spec.kind.typeName := Ensures.run (ensures_tokenLiteral rfl rfl rfl hne)
  refine ensures_scope ?_
  rw [hs]
  refine Ensures.run (ensures_scope ?_)
  refine (Operand.ensures_text hmap).map fun text _ htext => ?_
  subst htext
  funext u
  show exportText spec.exported ++ "const " ++ spec.name ++ " = "
    ++ ("\x7b\n" ++ u.lines (",\n".intercalate (spec.entries.map fun p =>
        (boundStyle spec.kind).entryText p.1 p.2) ++ "\n") 1 ++ "\x7d" ++ " as "
        ++ spec.kind.typeName) ++ ";\n" = _
  rw [lines_boundEntries u spec.kind hne hlines]
  rfl

end Render

namespace BoundSpec

theorem lineFeed_not_mem_askedEntries (spec : BoundSpec) :
    ∀ p ∈ spec.askedEntries, '\n' ∉ p.1.toList ∧ '\n' ∉ p.2.toList := by
  intro p hp
  rcases List.mem_cons.mp hp with rfl | hp
  · have hnumber : ∀ x, '\n' ∉ (spec.number x).toList := fun x =>
      (spec.numeral_number x).not_mem (by decide)
    refine ⟨spec.kind.lineFeed_not_mem_rangeKey, ?_⟩
    simp only [rangeText, String.toList_append, List.mem_append, not_or]
    exact ⟨⟨⟨⟨⟨⟨by decide, hnumber _⟩, by decide⟩, hnumber _⟩, by decide⟩, hnumber _⟩, by decide⟩
  · obtain ⟨d, -, rfl⟩ := List.mem_map.mp hp
    exact ⟨d.1.not_mem_key.2, (spec.numeral_number d.2).not_mem (by decide)⟩

/-- **At file level a bound spec is declared with the entries of its map.** -/
theorem run_boundSpec {spec : BoundSpec} (h : (spec.unitDefaults.map Prod.fst).Nodup)
    (c : Context) :
    (Build.run (.inScope .top) (Node.boundSpec spec).build c).1
      = spec.declaration spec.entries c.indent := by
  have hne : spec.entries ≠ [] := by
    rw [entries_eq h]
    exact List.cons_ne_nil _ _
  have hlines : ∀ p ∈ spec.entries, '\n' ∉ p.1.toList ∧ '\n' ∉ p.2.toList := fun p hp =>
    spec.lineFeed_not_mem_askedEntries p (Keyed.mem_ofList hp)
  obtain ⟨text, ds, hstep, rfl⟩ := Build.Ensures.run (o := .inScope .top)
    (w := ⟨c.stdVersion, c.documents, false⟩) (s := c.state)
    (Render.ensures_boundSpec rfl hne hlines)
  exact congrArg Prod.fst (hstep c ⟨rfl, rfl, .refl _⟩)

/-! ## §4. The range. -/

/-- A constant none of whose entries holds a list is not one with the range. -/
theorem declaration_ne_asked {spec : BoundSpec} {entries : List (String × String)}
    (h : ∀ p ∈ entries, '[' ∉ p.1.toList ∧ '[' ∉ p.2.toList) (indent : Indent) :
    spec.declaration entries indent ≠ spec.declaration spec.askedEntries indent := by
  intro heq
  -- both have the same head and the same end, so the rows between them agree
  unfold declaration at heq
  rw [String.append_left_inj, String.append_right_inj, String.append_left_inj,
    String.append_left_inj, String.append_left_inj, String.append_right_inj,
    String.append_left_inj] at heq
  have hunit : '[' ∉ indent.unit.toList := fun hmem => by
    rcases Indent.mem_unit hmem with hc | hc <;> cases hc
  have hnone : '[' ∉ (",\n".intercalate
      (entries.map fun p => indent.unit ++ (p.1 ++ " : " ++ p.2))).toList := by
    refine Text.not_mem_intercalate (by decide) fun l hl => ?_
    obtain ⟨p, hp, rfl⟩ := List.mem_map.mp hl
    obtain ⟨hkey, hvalue⟩ := h p hp
    simp only [String.toList_append, List.mem_append, not_or]
    exact ⟨hunit, ⟨hkey, by decide⟩, hvalue⟩
  have hsome : '[' ∈ (",\n".intercalate
      (spec.askedEntries.map fun p => indent.unit ++ (p.1 ++ " : " ++ p.2))).toList := by
    refine Text.mem_intercalate_head ?_ _ _
    have hrange : '[' ∈ spec.rangeText.toList := by simp [rangeText]
    rw [String.toList_append, String.toList_append]
    exact List.mem_append_right _ (List.mem_append_right _ hrange)
  rw [heq] at hnone
  exact hnone hsome

/-- Wherever the spec is declared at file level, it is declared with the range and the defaults of
`asked`. -/
def Declares (spec asked : BoundSpec) : Prop :=
  ∀ c : Context, (Build.run (.inScope .top) (Node.boundSpec spec).build c).1
    = asked.declaration asked.askedEntries c.indent

/-- A spec whose defaults are for different units is declared with its range unless one of them is
for the unit of the range. -/
theorem declares_self_iff {spec : BoundSpec} (h : (spec.unitDefaults.map Prod.fst).Nodup) :
    spec.Declares spec ↔ ∀ d ∈ spec.unitDefaults, spec.kind.rangeUnit? ≠ some d.1 := by
  constructor
  · intro hdeclares d hd hunit
    have heq := hdeclares {}
    rw [run_boundSpec h] at heq
    exact declaration_ne_asked (bracket_not_mem_entries h ⟨d, hd, hunit⟩) _ heq
  · intro hunit c
    have hnone : ¬ ∃ d ∈ spec.unitDefaults, spec.kind.rangeUnit? = some d.1 :=
      fun ⟨d, hd, heq⟩ => hunit d hd heq
    rw [run_boundSpec h, entries_eq_asked h hnone]

/-- Steps leave a spec that is declared as they ask unless they give a default for the unit of the
range. -/
theorem declares_after_iff {start : BoundSpec} (h : start.unitDefaults = [])
    (steps : List BoundStep) :
    (start.after steps).Declares (start.asked steps)
      ↔ ∀ d ∈ steps.filterMap BoundStep.unitDefault?, start.kind.rangeUnit? ≠ some d.1 := by
  have hunits : ∀ d ∈ steps.filterMap BoundStep.unitDefault?,
      ∃ e ∈ (start.asked steps).unitDefaults, e.1 = d.1 := fun d hd =>
    List.mem_map.mp ((units_lastAssigned _ d.1).mpr (List.mem_map_of_mem hd))
  rw [after_eq_asked h, declares_self_iff (nodup_lastAssigned _)]
  constructor
  · intro hasked d hd
    obtain ⟨e, he, heq⟩ := hunits d hd
    rw [← heq]
    exact hasked e he
  · intro hsteps d hd
    exact hsteps d (mem_of_mem_lastAssigned hd)

end BoundSpec

/-! ## §5. Bound specs of a manifest. -/

namespace BoundEntry

/-- The steps that an entry stands for: the values that it gives, and its defaults in order. -/
def steps (b : BoundEntry) : List BoundStep :=
  (b.min.map BoundStep.min).toList ++ (b.default.map BoundStep.default).toList
    ++ (b.max.map BoundStep.max).toList ++ b.units.map fun d => .unitDefault d.1 d.2

/-- The spec that the steps begin with. -/
def start (b : BoundEntry) : BoundSpec :=
  { BoundSpec.standard b.kind b.name with exported := !b.isPrivate }

theorem unitDefaults_start (b : BoundEntry) : b.start.unitDefaults = [] := by
  unfold start BoundSpec.standard
  cases b.kind <;> rfl

theorem kind_start (b : BoundEntry) : b.start.kind = b.kind := by
  unfold start BoundSpec.standard
  cases b.kind <;> rfl

/-- The spec of an entry is put together by its steps. -/
theorem spec_eq_after (b : BoundEntry) : b.spec = b.start.after b.steps := by
  have hunits : ∀ spec : BoundSpec,
      b.units.foldl (fun spec d => spec.unitDefault d.1 d.2) spec
        = (b.units.map fun d => BoundStep.unitDefault d.1 d.2).foldl BoundStep.apply spec := by
    intro spec
    rw [List.foldl_map]
    rfl
  unfold BoundEntry.spec BoundSpec.after steps
  rw [List.foldl_append, ← hunits]
  cases b.min <;> cases b.default <;> cases b.max <;> rfl

theorem filterMap_steps (b : BoundEntry) :
    b.steps.filterMap BoundStep.unitDefault? = b.units := by
  have hunits : (b.units.map fun d => BoundStep.unitDefault d.1 d.2).filterMap
      BoundStep.unitDefault? = b.units := by
    rw [List.filterMap_map]
    exact List.filterMap_some
  unfold steps
  rw [List.filterMap_append, hunits]
  cases b.min <;> cases b.default <;> cases b.max <;> rfl

end BoundEntry

/-- **A bound spec is declared with its range and its defaults exactly if none of the defaults is
for the unit of the range**, whatever the steps that put it together, and so for the bound specs of
a manifest. -/
theorem BoundSpec.keepsRange_iff (name : String) (kind : BoundKind) (min default max : Binary64)
    (exported : Bool) (steps : List BoundStep) :
    let start : BoundSpec := ⟨name, kind, min, default, max, [], exported⟩
    ((start.after steps).Declares (start.asked steps)
        ↔ ∀ unit value, kind.rangeUnit? = some unit → .unitDefault unit value ∉ steps)
      ∧ ∀ b : BoundEntry, b.spec.Declares (b.start.asked b.steps)
          ↔ ∀ d ∈ b.units, b.kind.rangeUnit? ≠ some d.1 := by
  intro start
  constructor
  · -- the defaults that are asked for are those that some step gives
    have hmem : ∀ unit value, (unit, value) ∈ steps.filterMap BoundStep.unitDefault?
        ↔ .unitDefault unit value ∈ steps := by
      intro unit value
      rw [List.mem_filterMap]
      constructor
      · rintro ⟨step, hstep, heq⟩
        cases step <;> cases heq
        exact hstep
      · exact fun hstep => ⟨_, hstep, rfl⟩
    rw [declares_after_iff rfl]
    constructor
    · intro h unit value hunit hstep
      exact h (unit, value) ((hmem unit value).mpr hstep) hunit
    · intro h d hd hunit
      exact h d.1 d.2 hunit ((hmem d.1 d.2).mp hd)
  · intro b
    rw [b.spec_eq_after, declares_after_iff b.unitDefaults_start, b.filterMap_steps, b.kind_start]

/-- A default in meters takes the place of the range of a length. -/
theorem BoundSpec.length_not_declares :
    let start := BoundSpec.standard .length "WALL"
    let steps : List BoundStep := [.unitDefault .meter (.ofDecimal false 5 (-1))]
    ¬ (start.after steps).Declares (start.asked steps)
      ∧ (Build.run (.inScope .top) (Node.boundSpec (start.after steps)).build {}).1
        = "export const WALL = \x7b\n    (meter) : 0.5\n\x7d as LengthBoundSpec;\n"
      ∧ (start.asked steps).askedEntries
        = [("(meter)", "[-100000, 0, 100000]"), ("(meter)", "0.5")] := by
  intro start steps
  refine ⟨?_, by decide +kernel, by decide +kernel⟩
  rw [declares_after_iff rfl]
  exact fun h => h (.meter, .ofDecimal false 5 (-1)) List.mem_cons_self rfl

end FeatureStudio
