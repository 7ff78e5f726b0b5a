/-
  FeatureStudio.Proofs.Script.Map: map literals as their steps tell them.

  A step assigns a value to a key, clears the key, or changes how the literal is written.  A key has
  its place from the first step that names it, cleared or not, and the value that was assigned last.
  Quoting is settled when the literal is written, so it does not matter whether the steps that ask
  for it come before or after the entries.

  Main statements:
    * `MapBuilder.apply_told`: what one step changes.
    * `MapBuilder.construct_eq_told`: what steps make of a new builder.
    * `MapBuilder.keys_listed`: which keys are written, and in which order.
    * `MapBuilder.construct_congr`: it does not matter when settings are made.
    * `MapBuilder.madeAsTold`: the literal, its length and what is found in it.
-/
import FeatureStudio.Proofs.Keyed
import FeatureStudio.Proofs.Render.Literal
import FeatureStudio.Script.Map

namespace FeatureStudio

open Build

namespace MapBuilder

/-! ## §1. Steps. -/

/-- A step in putting a map literal together. -/
inductive Step where
  | entry (key : String) (value : Expr)
  /-- Without a value the key is cleared. -/
  | entryOpt (key : String) (value : Option Expr)
  | insert (key : String) (value : Expr)
  | unquotedKeys
  | quoteValues
  | excludeKey (key : String)
  | excludeValue (key : String)
  | block
  | typed (typeName : String)

/-- The step on a builder. -/
def apply (m : MapBuilder) : Step → MapBuilder
  | .entry key value => m.entry key value
  | .entryOpt key value => m.entry? key value
  | .insert key value => m.entry key value
  | .unquotedKeys => m.unquotedKeys
  | .quoteValues => m.quoteValues
  | .excludeKey key => m.excludeKey key
  | .excludeValue key => m.excludeValue key
  | .block => m.block
  | .typed typeName => m.typed typeName

/-- The map that steps make. -/
def construct (steps : List Step) : MapBuilder := steps.foldl apply {}

namespace Step

/-- The key that a step sets or clears. -/
def assigned? : Step → Option (String × Option Expr)
  | .entry key value | .insert key value => some (key, some value)
  | .entryOpt key value => some (key, value)
  | _ => none

/-- A step that sets or clears a key; the others are settings. -/
def assigns (s : Step) : Bool := s.assigned?.isSome

/-- The key that a step exempts from quoting. -/
def excludedKey? : Step → Option String
  | .excludeKey key => some key
  | _ => none

/-- The key whose value a step exempts from quoting. -/
def excludedValue? : Step → Option String
  | .excludeValue key => some key
  | _ => none

/-- The type that a step casts the literal to. -/
def typeName? : Step → Option String
  | .typed typeName => some typeName
  | _ => none

end Step

/-! ## §2. What steps tell. -/

section Told

variable (steps : List Step)

/-- The keys that are set or cleared, in order. -/
def assignments : List (String × Option Expr) := steps.filterMap Step.assigned?

/-- Every key where it is named first. -/
def places : List String := ((assignments steps).map Prod.fst).eraseDups

/-- What is assigned to a key last, if it is a value. -/
def lastValue? (key : String) : Option Expr :=
  (((assignments steps).filter fun p => p.1 = key).getLast?).bind Prod.snd

/-- The pairs that are written: the keys in their places, without those that are cleared last. -/
def listed : List (String × Expr) :=
  (places steps).filterMap fun key => (lastValue? steps key).map fun value => (key, value)

/-- A key is quoted unless all are written as they are, or this one is. -/
def quotesKey (key : String) : Bool :=
  !steps.any (· matches .unquotedKeys) && !(steps.filterMap Step.excludedKey?).contains key

/-- A value is quoted if all are and this one is not exempt. -/
def quotesValue (key : String) : Bool :=
  steps.any (· matches .quoteValues) && !(steps.filterMap Step.excludedValue?).contains key

/-- A pair as it is written. -/
def row (c : Context) (p : String × Expr) : String :=
  (if quotesKey steps p.1 then Text.quote p.1 else p.1) ++ " : "
    ++ if quotesValue steps p.1 then Text.quote (p.2.textIn c) else p.2.textIn c

/-- Layout and quoting. -/
def toldStyle : MapStyle where
  quoteKeys := !steps.any (· matches .unquotedKeys)
  bareKeys := steps.filterMap Step.excludedKey?
  quoteValues := steps.any (· matches .quoteValues)
  bareValues := steps.filterMap Step.excludedValue?
  inline := !steps.any (· matches .block)
  typeName := (steps.filterMap Step.typeName?).getLast?

/-- The builder that the steps tell. -/
def told : MapBuilder where
  style := toldStyle steps
  entries := Keyed.ofList (assignments steps)

/-- The cast behind the literal, to the type that is named last. -/
def cast : String :=
  match (steps.filterMap Step.typeName?).getLast? with
  | some typeName => " as " ++ typeName
  | none => ""

end Told

theorem assignments_append_single (steps : List Step) (s : Step) :
    assignments (steps ++ [s]) = assignments steps ++ s.assigned?.toList := by
  unfold assignments
  rw [List.filterMap_append]
  cases s <;> rfl

/-- What one more step changes of what is told. -/
theorem told_append_single (steps : List Step) (s : Step) :
    told (steps ++ [s]) =
      { style :=
          { quoteKeys := (toldStyle steps).quoteKeys && !(s matches .unquotedKeys)
            bareKeys := (toldStyle steps).bareKeys ++ s.excludedKey?.toList
            quoteValues := (toldStyle steps).quoteValues || (s matches .quoteValues)
            bareValues := (toldStyle steps).bareValues ++ s.excludedValue?.toList
            inline := (toldStyle steps).inline && !(s matches .block)
            typeName := s.typeName?.or (toldStyle steps).typeName }
        entries := s.assigned?.toList.foldl (fun m p => Keyed.put m p.1 p.2)
          (told steps).entries } := by
  unfold told toldStyle
  rw [assignments_append_single]
  cases s <;> simp [Keyed.ofList_append_single, Step.assigned?, Step.excludedKey?,
    Step.excludedValue?, Step.typeName?]

/-- **A step on the builder that is told gives the one that is told with the step.** -/
theorem apply_told (steps : List Step) (s : Step) :
    (told steps).apply s = told (steps ++ [s]) := by
  rw [told_append_single]
  cases s <;> simp [apply, told, entry, entry?, unquotedKeys, quoteValues, excludeKey, excludeValue,
    block, typed, Step.assigned?, Step.excludedKey?, Step.excludedValue?, Step.typeName?]

/-- **What steps make of a new builder** is what they tell. -/
theorem construct_eq_told (steps : List Step) : construct steps = told steps := by
  -- the last step is the one that acts on what the others make
  induction steps using List.reverseRecOn with
  | nil => rfl
  | append_singleton steps s ih =>
      rw [← apply_told, ← ih]
      exact List.foldl_append

/-! ## §3. Pairs. -/

section Pairs

variable (steps : List Step)

theorem entries_told : (told steps).entries = Keyed.lastPairs (assignments steps) :=
  Keyed.ofList_eq_lastPairs _

/-- The pairs that are present are those that are listed. -/
theorem present_told : (told steps).present = listed steps := by
  unfold present listed places
  rw [entries_told, Keyed.lastPairs, List.filterMap_filterMap]
  refine List.filterMap_congr fun key _ => ?_
  unfold lastValue?
  cases hlast : ((assignments steps).filter fun p => p.1 = key).getLast? with
  | none => rfl
  | some p =>
      have hkey : p.1 = key := by simpa using (List.mem_filter.mp (List.mem_of_getLast? hlast)).2
      rw [← hkey]
      rfl

theorem get?_told (key : String) : (told steps).get? key = lastValue? steps key := by
  unfold get? lastValue?
  rw [told, Keyed.get?_ofList]
  cases ((assignments steps).filter fun p => p.1 = key).getLast? <;> rfl

/-- **The keys that are listed** are those whose last assigned value is present, in the order in
which they were named first. -/
theorem keys_listed :
    Keyed.keys (listed steps) = (places steps).filter fun key => (lastValue? steps key).isSome := by
  unfold listed Keyed.keys
  rw [List.map_filterMap, ← List.filterMap_eq_filter]
  refine List.filterMap_congr fun key _ => ?_
  cases hvalue : lastValue? steps key with
  | none => simp [Option.guard, hvalue]
  | some value => simp [Option.guard, hvalue]

theorem nodup_keys_listed : (Keyed.keys (listed steps)).Nodup := by
  have hplaces : (places steps).Nodup := by
    unfold places
    rw [← Keyed.keys_ofList]
    exact Keyed.nodup_keys_ofList _
  rw [keys_listed]
  exact hplaces.filter _

theorem mem_listed {key : String} {value : Expr} :
    (key, value) ∈ listed steps ↔ lastValue? steps key = some value := by
  unfold listed
  simp only [List.mem_filterMap, Option.map_eq_some_iff, Prod.mk.injEq]
  constructor
  · rintro ⟨_, -, _, hvalue, rfl, rfl⟩
    exact hvalue
  · intro hvalue
    refine ⟨key, ?_, value, hvalue, rfl, rfl⟩
    -- a key without a place has no value
    unfold lastValue? at hvalue
    obtain ⟨p, hlast, -⟩ := Option.bind_eq_some_iff.mp hvalue
    obtain ⟨hmem, hkey⟩ := List.mem_filter.mp (List.mem_of_getLast? hlast)
    exact List.mem_eraseDups.mpr (List.mem_map.mpr ⟨p, hmem, of_decide_eq_true hkey⟩)

/-- What is listed under a key is what is assigned to it last. -/
theorem get?_listed (key : String) : Keyed.get? (listed steps) key = lastValue? steps key := by
  cases hvalue : lastValue? steps key with
  | some value =>
      exact Keyed.get?_of_mem (nodup_keys_listed steps) ((mem_listed steps).mpr hvalue)
  | none =>
      refine Keyed.get?_of_not_mem fun hkey => ?_
      rw [keys_listed, List.mem_filter, hvalue] at hkey
      exact absurd hkey.2 (by decide)

end Pairs

/-! ## §4. Text. -/

section Text

variable (steps : List Step) (c : Context)

theorem typed_toldStyle (literal : String) :
    (toldStyle steps).typed literal = literal ++ cast steps := by
  unfold MapStyle.typed cast toldStyle
  cases (steps.filterMap Step.typeName?).getLast? with
  | none => simp
  | some typeName => simp only [String.append_assoc]

/-- The text of the literal, row by row. -/
theorem text_told :
    (runIn .expression (Node.map (told steps).literal).build c).1
      = (toldStyle steps).braced c.indent ((listed steps).map (row steps c)) ++ cast steps := by
  rw [Node.text_map, ← typed_toldStyle, ← present_told]
  rfl

/-- Only a literal without rows is written as two braces. -/
theorem braced_eq_empty_iff (style : MapStyle) (indent : Indent) (rows : List String) :
    style.braced indent rows = "\x7b\x7d" ↔ rows = [] := by
  constructor
  · intro h
    cases rows with
    | nil => rfl
    | cons r rows =>
        -- behind the opening brace there is a blank or a line end
        have hsecond : (style.braced indent (r :: rows)).toList[1]? = some '\x7d' := by
          rw [h]
          rfl
        unfold MapStyle.braced at hsecond
        cases hinline : style.inline <;>
          simp [hinline, String.toList_append, List.isEmpty] at hsecond
  · rintro rfl
    rfl

/-- The literal is empty exactly if nothing is listed. -/
theorem isEmpty_told_iff :
    (told steps).isEmpty = true
      ↔ (runIn .expression (Node.map (told steps).literal).build c).1
          = "\x7b\x7d" ++ cast steps := by
  rw [text_told, String.append_left_inj, braced_eq_empty_iff, List.map_eq_nil_iff, isEmpty, length,
    present_told, beq_iff_eq, List.length_eq_zero_iff]

end Text

/-! ## §5. The order of steps. -/

/-- An assignment and a setting do not see each other. -/
theorem apply_comm (m : MapBuilder) {a s : Step} (ha : a.assigns) (hs : ¬ s.assigns) :
    (m.apply s).apply a = (m.apply a).apply s := by
  cases s with
  | entry | entryOpt | insert => exact absurd rfl hs
  | _ => cases a <;> first | rfl | cases ha

theorem foldl_apply_comm (m : MapBuilder) {a : Step} (ha : a.assigns) (settings : List Step)
    (hs : ∀ s ∈ settings, ¬ s.assigns) :
    (settings.foldl apply m).apply a = settings.foldl apply (m.apply a) := by
  induction settings generalizing m with
  | nil => rfl
  | cons s settings ih =>
      rw [List.foldl_cons, List.foldl_cons, ih _ fun t ht => hs t (List.mem_cons_of_mem _ ht),
        apply_comm m ha (hs s List.mem_cons_self)]

/-- All settings may come behind all assignments. -/
theorem foldl_apply_filter (steps : List Step) (m : MapBuilder) :
    steps.foldl apply m = (steps.filter (!·.assigns)).foldl apply
      ((steps.filter Step.assigns).foldl apply m) := by
  induction steps using List.reverseRecOn with
  | nil => rfl
  | append_singleton steps s ih =>
      rw [List.foldl_append, ih, List.filter_append, List.filter_append, List.foldl_append,
        List.foldl_append]
      by_cases hs : s.assigns
      · -- an assignment goes past the settings before it
        have hcomm := foldl_apply_comm ((steps.filter Step.assigns).foldl apply m) hs
          (steps.filter (!·.assigns)) fun t ht => by simpa using (List.mem_filter.mp ht).2
        simpa [hs] using hcomm
      · simp [hs]

/-- **It does not matter where between the assignments settings are made.** -/
theorem construct_congr {steps steps' : List Step}
    (hassigns : steps'.filter Step.assigns = steps.filter Step.assigns)
    (hsets : steps'.filter (!·.assigns) = steps.filter (!·.assigns)) :
    construct steps' = construct steps := by
  unfold construct
  rw [foldl_apply_filter steps', foldl_apply_filter steps, hassigns, hsets]

/-! ## §6. The map as a whole. -/

/-- The map that steps make, as they tell it. -/
structure MadeAsTold (steps : List Step) : Prop where
  /-- The keys whose last value is present, in the order in which they are named first. -/
  keys : Keyed.keys (listed steps)
    = (places steps).filter fun key => (lastValue? steps key).isSome
  values : ∀ key value, (key, value) ∈ listed steps ↔ lastValue? steps key = some value
  /-- The pairs that are listed, quoted as all the steps together ask for, behind one another or on
  lines of their own. -/
  text : ∀ c, (runIn .expression (Node.map (construct steps).literal).build c).1
    = (toldStyle steps).braced c.indent ((listed steps).map (row steps c)) ++ cast steps
  length : (construct steps).length = (listed steps).length
  isEmpty : ∀ c, (construct steps).isEmpty = true
    ↔ (runIn .expression (Node.map (construct steps).literal).build c).1
        = "\x7b\x7d" ++ cast steps
  get? : ∀ key, (construct steps).get? key = Keyed.get? (listed steps) key
  /-- It does not matter where between the assignments settings are made. -/
  order : ∀ steps' : List Step,
    steps'.filter Step.assigns = steps.filter Step.assigns →
    steps'.filter (!·.assigns) = steps.filter (!·.assigns) →
      construct steps' = construct steps

/-- **Every sequence of steps makes the map that it tells.** -/
theorem madeAsTold (steps : List Step) : MadeAsTold steps where
  keys := keys_listed steps
  values _ _ := mem_listed steps
  text c := by rw [construct_eq_told, text_told]
  length := by rw [construct_eq_told, length, present_told]
  isEmpty c := by rw [construct_eq_told, isEmpty_told_iff]
  get? key := by rw [construct_eq_told, get?_told, get?_listed]
  order _ hassigns hsets := construct_congr hassigns hsets

/-- A key that is cleared and set again keeps its place. -/
example :
    (construct [.entry "a" (.token "1"), .entry "b" (.token "2"), .excludeValue "b",
      .entryOpt "a" none, .quoteValues, .insert "a" (.token "3")]).literal.text {}
      = "\x7b \"a\" : \"3\", \"b\" : 2 \x7d" := by decide +kernel

end MapBuilder

end FeatureStudio
