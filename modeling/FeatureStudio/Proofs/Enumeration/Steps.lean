/-
  FeatureStudio.Proofs.Enumeration.Steps: enumerations as their steps tell them.

  Of the steps that add a value under one token the last one counts, at the place of the first.  The
  settings of the whole enumeration are kept apart from the values until it is built, so it does not
  matter when they are made: of names and templates the last one counts.

  Main statements:
    * `EnumBuilder.foldlM_apply`: what steps make of a new builder.
    * `EnumBuilder.isMember_of_member`: the value that is made for a token.
    * `EnumBuilder.mapM_member_eq_error_iff`: the template that is reported is the first one that is
      refused.
    * `EnumBuilder.isBuilt_of_construct`: the enumeration that is built.
    * `EnumBuilder.construct_eq_of_filter`: it does not matter when settings are made.
    * `EnumBuilder.asTold`: what is built, and what is said if nothing is.
-/
import FeatureStudio.Proofs.Enumeration.Lookup

namespace FeatureStudio

/-- The test for a value, as it is written. -/
theorem EnumValue.render_test (v : EnumValue) (parameter : String) (c : Context) :
    (v.test parameter).render c
      = ("definition." ++ parameter ++ " == " ++ v.qualified, c) := by
  have hrender : (v.test parameter).render c
      = ("definition." ++ parameter ++ " " ++ "==" ++ " " ++ v.qualified, c) := rfl
  have hoperator : " == " = " " ++ "==" ++ " " := rfl
  rw [hrender, hoperator]
  simp only [String.append_assoc]

namespace EnumBuilder

/-! ## §1. Steps. -/

/-- A step in putting an enumeration together. -/
inductive Step where
  | value (token : String) (options : ValueOptions)
  | custom (options : ValueOptions)
  | parameterName (name : String)
  | notExported
  | unlabelled
  | withPredicates
  | template (template : String)

/-- The step on a builder. -/
def apply (b : EnumBuilder) : Step → Except UsageError EnumBuilder
  | .value token options => .ok (b.add token options)
  | .custom options => b.addCustom options
  | .parameterName name => .ok { b with parameterName := some name }
  | .notExported => .ok { b with exported := false }
  | .unlabelled => .ok { b with labelled := false }
  | .withPredicates => .ok { b with predicates := true }
  | .template template => .ok { b with template }

/-- The enumeration that steps make. -/
def construct (name : String) (steps : List Step) : Except UsageError Enumeration :=
  steps.foldlM apply { name } >>= build

namespace Step

/-- The value that a step adds. -/
@[simp] def added? : Step → Option (String × ValueOptions)
  | .value token options => some (token, options)
  | .custom options => some (Enumeration.customToken, options)
  | _ => none

/-- Whether the step adds the custom value. -/
@[simp] def isCustom : Step → Bool
  | .custom _ => true
  | _ => false

/-- The parameter name that a step sets. -/
@[simp] def parameterName? : Step → Option String
  | .parameterName text => some text
  | _ => none

/-- The template that a step sets. -/
@[simp] def template? : Step → Option String
  | .template text => some text
  | _ => none

end Step

/-! ## §2. What steps tell. -/

section Told

variable (name : String) (steps : List Step)

/-- The values that are added, in order. -/
def additions : List (String × ValueOptions) := steps.filterMap Step.added?

/-- The same with tokens in capitals. -/
def pairs : List (String × ValueOptions) :=
  (additions steps).map fun p => (Text.upper p.1, p.2)

/-- The tokens, every one where it is added first. -/
def tokens : List String := ((pairs steps).map Prod.fst).eraseDups

/-- The options with which a token is added last. -/
def options? (token : String) : Option ValueOptions :=
  (((pairs steps).filter fun p => p.1 = token).getLast?).map Prod.snd

/-- The name of the parameter: the one that is set last. -/
def parameterOf : String :=
  ((steps.filterMap Step.parameterName?).getLast?).getD (Text.lowerFirst name)

/-- The template of the whole enumeration: the one that is set last. -/
def templateOf : String :=
  ((steps.filterMap Step.template?).getLast?).getD NameTemplate.standard

/-- The template for the companion of a value with the given options, if it has one. -/
def needed? (options : ValueOptions) : Option String :=
  if options.predicate.getD (steps.any (· matches .withPredicates)) then
    some (options.template.getD (templateOf steps))
  else none

/-- The builder that the steps tell. -/
def told : EnumBuilder where
  name
  parameterName := (steps.filterMap Step.parameterName?).getLast?
  exported := !steps.any (· matches .notExported)
  labelled := !steps.any (· matches .unlabelled)
  predicates := steps.any (· matches .withPredicates)
  template := templateOf steps
  values := Keyed.ofList (pairs steps)
  hasCustom := steps.any Step.isCustom

end Told

theorem pairs_append_single (steps : List Step) (s : Step) :
    pairs (steps ++ [s])
      = pairs steps ++ s.added?.toList.map fun p => (Text.upper p.1, p.2) := by
  unfold pairs additions
  rw [List.filterMap_append, List.map_append]
  cases s <;> rfl

/-- What one more step changes of what is told. -/
theorem told_append_single (name : String) (steps : List Step) (s : Step) :
    told name (steps ++ [s]) =
      { told name steps with
        parameterName := s.parameterName?.or (told name steps).parameterName
        exported := (told name steps).exported && !(s matches .notExported)
        labelled := (told name steps).labelled && !(s matches .unlabelled)
        predicates := (told name steps).predicates || (s matches .withPredicates)
        template := s.template?.getD (told name steps).template
        values := s.added?.toList.foldl (fun m p => Keyed.put m (Text.upper p.1) p.2)
          (told name steps).values
        hasCustom := (told name steps).hasCustom || s.isCustom } := by
  unfold told templateOf
  rw [pairs_append_single]
  cases s <;> simp [Keyed.ofList_append_single]

/-- A step on the builder that is told gives the one that is told with the step, unless it adds the
custom value once more. -/
theorem apply_told (name : String) (steps : List Step) (s : Step) :
    (told name steps).apply s =
      if s.isCustom && steps.any Step.isCustom then .error (.duplicateCustom name)
      else .ok (told name (steps ++ [s])) := by
  rw [told_append_single]
  cases s with
  | custom options =>
      simp only [apply, addCustom, Step.isCustom, Bool.true_and]
      cases h : steps.any Step.isCustom <;> simp [told, h, add]
  | _ => simp [apply, told, add]

theorem foldlM_append_single (b : EnumBuilder) (steps : List Step) (s : Step) :
    (steps ++ [s]).foldlM apply b = (steps.foldlM apply b).bind (·.apply s) := by
  rw [List.foldlM_append]
  cases steps.foldlM apply b with
  | error error => rfl
  | ok b' => exact bind_pure (b'.apply s)

/-- **What steps make of a new builder**: the one that they tell, unless the custom value is added
twice. -/
theorem foldlM_apply (name : String) (steps : List Step) :
    steps.foldlM apply { name } =
      if steps.countP Step.isCustom ≤ 1 then .ok (told name steps)
      else .error (.duplicateCustom name) := by
  induction steps using List.reverseRecOn with
  | nil => rfl
  | append_singleton steps s ih =>
      rw [foldlM_append_single, ih, List.countP_append, List.countP_singleton]
      by_cases honce : steps.countP Step.isCustom ≤ 1
      · have hany : steps.any Step.isCustom ↔ 0 < steps.countP Step.isCustom := by
          rw [List.countP_pos_iff, List.any_eq_true]
        -- the step is the second that adds the custom value
        have htwice : (s.isCustom && steps.any Step.isCustom) = true
            ↔ ¬ steps.countP Step.isCustom + (if s.isCustom then 1 else 0) ≤ 1 := by
          rw [Bool.and_eq_true, hany]
          cases s.isCustom <;> grind
        rw [if_pos honce, Except.bind, apply_told]
        by_cases hs : (s.isCustom && steps.any Step.isCustom) = true
        · rw [if_pos hs, if_neg (htwice.mp hs)]
        · rw [if_neg hs, if_pos (not_not.mp fun h => hs (htwice.mpr h))]
      · rw [if_neg honce, if_neg (by omega)]
        rfl

/-! ## §3. Values. -/

section Values

variable {name : String} {steps : List Step}

theorem mem_values_iff {token : String} {options : ValueOptions} :
    (token, options) ∈ Keyed.ofList (pairs steps) ↔ options? steps token = some options := by
  unfold options?
  rw [← Keyed.get?_ofList]
  exact ⟨Keyed.get?_of_mem (Keyed.nodup_keys_ofList _), Keyed.mem_of_get?⟩

/-- The template that a token needs for its companion cannot be filled in. -/
def Refuses (name : String) (steps : List Step) (token template : String) : Prop :=
  ∃ options, options? steps token = some options ∧ needed? steps options = some template ∧
    NameTemplate.expand template name token = .error (.invalidTemplate template)

/-- The template is refused for a token, and for no token before it one is. -/
def RefusesFirst (name : String) (steps : List Step) (template : String) : Prop :=
  ∃ before token after, tokens steps = before ++ token :: after ∧
    Refuses name steps token template ∧ ∀ u ∈ before, ∀ t, ¬ Refuses name steps u t

/-- A value as the steps tell it. -/
structure IsMember (name : String) (steps : List Step) (m : EnumMember) (options : ValueOptions) :
    Prop where
  lastAdded : options? steps m.token = some options
  enumName : m.enumName = name
  parameterName : m.parameterName = parameterOf name steps
  label : m.label = options.label.getD (Text.tokenLabel m.token)
  labelled : m.labelled = !steps.any (· matches .unlabelled)
  hidden : m.hidden = options.hidden
  lookup : m.lookup = options.lookup
  /-- A value that needs no template has no companion. -/
  predicate_none : needed? steps options = none → m.predicate? = none
  /-- Else it has one that is named by the template and tests for it. -/
  predicate_some : ∀ template, needed? steps options = some template →
    ∃ predicate, NameTemplate.expand template name m.token = .ok predicate ∧
      m.predicate? = some { name := predicate, tests := [m.test m.parameterName] }
  test : ∀ c, (m.test m.parameterName).render c
    = ("definition." ++ parameterOf name steps ++ " == " ++ name ++ "." ++ m.token, c)

/-- The value that the steps tell, with the given companion. -/
def memberOf (name : String) (steps : List Step) (token : String) (options : ValueOptions)
    (companion : Option String) : EnumMember where
  token
  enumName := name
  parameterName := parameterOf name steps
  label := options.label.getD (Text.tokenLabel token)
  labelled := !steps.any (· matches .unlabelled)
  hidden := options.hidden
  companion
  lookup := options.lookup

theorem member_told (token : String) (options : ValueOptions) :
    (told name steps).member token options
      = ((told name steps).companion token options).map (memberOf name steps token options) := rfl

theorem companion_told (token : String) (options : ValueOptions) :
    (told name steps).companion token options =
      match needed? steps options with
      | some template => (NameTemplate.expand template name token).map some
      | none => .ok none := by
  unfold companion needed?
  by_cases h : options.predicate.getD (steps.any (· matches .withPredicates)) = true
  · rw [if_pos h]
    exact if_pos h
  · rw [if_neg h]
    exact if_neg h

theorem isMember_memberOf {token : String} {options : ValueOptions} {companion : Option String}
    (hoptions : options? steps token = some options)
    (hnone : needed? steps options = none → companion = none)
    (hsome : ∀ template, needed? steps options = some template →
      ∃ predicate, NameTemplate.expand template name token = .ok predicate ∧
        companion = some predicate) :
    IsMember name steps (memberOf name steps token options companion) options where
  lastAdded := hoptions
  enumName := rfl
  parameterName := rfl
  label := rfl
  labelled := rfl
  hidden := rfl
  lookup := rfl
  predicate_none hneeded := by
    rw [hnone hneeded]
    rfl
  predicate_some template hneeded := by
    obtain ⟨predicate, hexpand, rfl⟩ := hsome template hneeded
    exact ⟨predicate, hexpand, rfl⟩
  test c := by
    rw [EnumValue.render_test]
    simp only [EnumValue.qualified, memberOf, String.append_assoc]

/-- **A value is made as the steps tell it**, if it can be made. -/
theorem isMember_of_member {token : String} {options : ValueOptions} {m : EnumMember}
    (hoptions : options? steps token = some options)
    (h : (told name steps).member token options = .ok m) : IsMember name steps m options := by
  rw [member_told, companion_told] at h
  cases hneeded : needed? steps options with
  | none =>
      rw [hneeded] at h
      cases h
      exact isMember_memberOf hoptions (fun _ => rfl) (by simp [hneeded])
  | some template =>
      rw [hneeded] at h
      obtain ⟨companion, hcompanion, rfl⟩ := map_eq_ok_iff.mp h
      obtain ⟨predicate, hname, rfl⟩ := map_eq_ok_iff.mp hcompanion
      exact isMember_memberOf hoptions (by simp [hneeded]) (by simp [hneeded, hname])

/-- A value cannot be made exactly if a template is needed for it that is refused. -/
theorem member_eq_error_iff {token : String} {options : ValueOptions} {error : UsageError} :
    (told name steps).member token options = .error error ↔
      ∃ template, needed? steps options = some template ∧ error = .invalidTemplate template ∧
        NameTemplate.expand template name token = .error (.invalidTemplate template) := by
  rw [member_told, companion_told]
  cases needed? steps options with
  | none => simp [Except.map]
  | some template =>
      simp only [Option.some.injEq, exists_eq_left']
      unfold NameTemplate.expand
      cases NameTemplate.parse template.toList <;> simp [Except.map, eq_comm]

/-- For a value that is kept, the options added last decide whether its template is refused. -/
theorem refuses_iff {p : String × ValueOptions} (hp : p ∈ Keyed.ofList (pairs steps))
    (template : String) :
    Refuses name steps p.1 template ↔
      (told name steps).member p.1 p.2 = .error (.invalidTemplate template) := by
  rw [member_eq_error_iff]
  unfold Refuses
  rw [mem_values_iff.mp hp]
  constructor
  · rintro ⟨options, hoptions, hneeded, hexpand⟩
    cases hoptions
    exact ⟨template, hneeded, rfl, hexpand⟩
  · rintro ⟨template', hneeded, heq, hexpand⟩
    cases heq
    exact ⟨p.2, rfl, hneeded, hexpand⟩

/-- A value that is kept can be made exactly if no template is refused for it. -/
theorem member_ok_iff {p : String × ValueOptions} (hp : p ∈ Keyed.ofList (pairs steps)) :
    (∃ m, (told name steps).member p.1 p.2 = .ok m) ↔ ∀ t, ¬ Refuses name steps p.1 t := by
  simp only [refuses_iff hp]
  cases h : (told name steps).member p.1 p.2 with
  | ok m => simp
  | error error =>
      obtain ⟨template, -, rfl, -⟩ := member_eq_error_iff.mp h
      simp

/-- **The first token whose template is refused is the one that is reported.** -/
theorem mapM_member_eq_error_iff {error : UsageError} :
    (Keyed.ofList (pairs steps)).mapM (fun p => (told name steps).member p.1 p.2) = .error error ↔
      ∃ template, error = .invalidTemplate template ∧ RefusesFirst name steps template := by
  have hkeys : tokens steps = (Keyed.ofList (pairs steps)).map Prod.fst :=
    (Keyed.keys_ofList _).symm
  unfold RefusesFirst
  rw [mapM_eq_error_iff, hkeys]
  -- the first value that is refused, seen among the values and among their tokens
  constructor
  · rintro ⟨before, p, after, heq, herror, hbefore⟩
    obtain ⟨template, -, rfl, -⟩ := member_eq_error_iff.mp herror
    have hmem : ∀ q ∈ before ++ p :: after, q ∈ Keyed.ofList (pairs steps) := fun q hq => heq ▸ hq
    refine ⟨template, rfl, before.map Prod.fst, p.1, after.map Prod.fst, by simp [heq], ?_, ?_⟩
    · exact (refuses_iff (hmem p (by simp)) template).mpr herror
    · intro u hu
      obtain ⟨q, hq, rfl⟩ := List.mem_map.mp hu
      exact (member_ok_iff (hmem q (by simp [hq]))).mp (hbefore q hq)
  · rintro ⟨template, rfl, tokens, token, tokens', heq, hrefuses, hbefore⟩
    obtain ⟨before, rest, hvalues, rfl, hrest⟩ := List.map_eq_append_iff.mp heq
    obtain ⟨p, after, rfl, rfl, rfl⟩ := List.map_eq_cons_iff.mp hrest
    have hmem : ∀ q ∈ before ++ p :: after, q ∈ Keyed.ofList (pairs steps) :=
      fun q hq => hvalues ▸ hq
    refine ⟨before, p, after, hvalues, (refuses_iff (hmem p (by simp)) template).mp hrefuses,
      fun q hq => ?_⟩
    exact (member_ok_iff (hmem q (by simp [hq]))).mpr (hbefore q.1 (List.mem_map_of_mem hq))

end Values

/-! ## §4. Enumerations. -/

/-- An enumeration as the steps tell it. -/
structure IsBuilt (name : String) (steps : List Step) (e : Enumeration) : Prop where
  enumName : e.name = name
  parameterName : e.parameterName = parameterOf name steps
  exported : e.exported = !steps.any (· matches .notExported)
  tokens : e.members.map (·.token) = tokens steps
  members : ∀ m ∈ e.members, ∃ options, IsMember name steps m options
  /-- A value is found in any case of its token. -/
  found : ∀ s, (∃ m, e.get? s = some m) ↔ ∃ p ∈ additions steps, Text.upper p.1 = Text.upper s

section Construct

variable {name : String} {steps : List Step}

theorem construct_eq (hcustom : steps.countP Step.isCustom ≤ 1) :
    construct name steps = (told name steps).build := by
  rw [construct, foldlM_apply, if_pos hcustom]
  rfl

theorem construct_twice (hcustom : 1 < steps.countP Step.isCustom) :
    construct name steps = .error (.duplicateCustom name) := by
  rw [construct, foldlM_apply, if_neg (Nat.not_le.mpr hcustom)]
  rfl

theorem values_told_eq_nil_iff : (told name steps).values = [] ↔ additions steps = [] := by
  have hvalues : (told name steps).values = Keyed.ofList (pairs steps) := rfl
  rw [hvalues, Keyed.ofList_eq_nil_iff, pairs, List.map_eq_nil_iff]

/-- **What comes of steps that add the custom value once at most.** -/
theorem construct_eq_error_iff (hcustom : steps.countP Step.isCustom ≤ 1) {error : UsageError} :
    construct name steps = .error error ↔
      (additions steps = [] ∧ error = .emptyEnum name) ∨
        ∃ template, error = .invalidTemplate template ∧ RefusesFirst name steps template := by
  rw [construct_eq hcustom, build, members_eq_mapM]
  by_cases hnil : additions steps = []
  · have htokens : tokens steps = [] := by
      rw [tokens, pairs, hnil]
      rfl
    rw [values_told_eq_nil_iff.mpr hnil]
    simp [told, hnil, RefusesFirst, htokens, eq_comm]
  · have hvalues : (told name steps).values.isEmpty = false :=
      List.isEmpty_eq_false_iff.mpr fun h => hnil (values_told_eq_nil_iff.mp h)
    rw [hvalues, if_neg Bool.false_ne_true, ← mapM_member_eq_error_iff]
    rw [map_eq_error_iff]
    simp only [hnil, false_and, false_or]
    rfl

theorem mem_tokens_iff (token : String) :
    token ∈ tokens steps ↔ ∃ p ∈ additions steps, Text.upper p.1 = token := by
  rw [tokens, List.mem_eraseDups, pairs, List.map_map, List.mem_map]
  rfl

theorem countP_of_construct {e : Enumeration} (h : construct name steps = .ok e) :
    steps.countP Step.isCustom ≤ 1 := by
  by_contra htwice
  rw [construct_twice (Nat.not_le.mp htwice)] at h
  cases h

/-- **What is built of steps.** -/
theorem isBuilt_of_construct {e : Enumeration} (h : construct name steps = .ok e) :
    IsBuilt name steps e := by
  rw [construct_eq (countP_of_construct h)] at h
  obtain ⟨-, members, hmembers, rfl⟩ := ((told name steps).build_eq_ok_iff e).mp h
  have htokens : members.map (·.token) = tokens steps :=
    (map_token_eq_keys hmembers).trans (Keyed.keys_ofList _)
  refine { enumName := rfl
           parameterName := rfl
           exported := rfl
           tokens := htokens
           members := fun m hm => ?_
           found := fun s => ?_ }
  · obtain ⟨p, hp, hpm⟩ := exists_of_mem_right hmembers hm
    exact ⟨p.2, isMember_of_member (mem_values_iff.mp hp) hpm⟩
  · rw [← mem_tokens_iff, ← htokens, ← Option.isSome_iff_exists, Enumeration.get?,
      List.find?_isSome, List.mem_map]
    simp only [decide_eq_true_eq]

/-- An enumeration that is built has values. -/
theorem members_ne_nil_of_construct {e : Enumeration} (h : construct name steps = .ok e) :
    e.members ≠ [] := by
  have hadditions : additions steps ≠ [] := by
    intro hnil
    have hempty : construct name steps = .error (.emptyEnum name) :=
      (construct_eq_error_iff (countP_of_construct h)).mpr (.inl ⟨hnil, rfl⟩)
    cases h.symm.trans hempty
  obtain ⟨p, hp⟩ := List.exists_mem_of_ne_nil _ hadditions
  have htoken : Text.upper p.1 ∈ e.members.map (·.token) := by
    rw [(isBuilt_of_construct h).tokens, mem_tokens_iff]
    exact ⟨p, hp, rfl⟩
  intro hnil
  rw [hnil] at htoken
  cases htoken

/-- What is taken from some of the steps only is not changed by the others. -/
theorem filterMap_eq_of_filter {β : Type} {p : Step → Bool} {f : Step → Option β}
    (hf : ∀ s, p s = false → f s = none) {steps' : List Step}
    (h : steps'.filter p = steps.filter p) : steps'.filterMap f = steps.filterMap f := by
  have hfilter : ∀ l : List Step, (l.filter p).filterMap f = l.filterMap f := by
    intro l
    rw [List.filterMap_filter]
    refine List.filterMap_congr fun s _ => ?_
    cases hp : p s <;> simp [hf s, hp]
  rw [← hfilter steps', h, hfilter]

theorem countP_eq_of_filter {p q : Step → Bool} (hq : ∀ s, q s → p s) {steps' : List Step}
    (h : steps'.filter p = steps.filter p) : steps'.countP q = steps.countP q := by
  have hfilter : ∀ l : List Step, (l.filter p).countP q = l.countP q := by
    intro l
    rw [List.countP_filter]
    refine List.countP_congr fun s _ => ?_
    simpa using hq s
  rw [← hfilter steps', h, hfilter]

theorem any_eq_of_filter {p q : Step → Bool} (hq : ∀ s, q s → p s) {steps' : List Step}
    (h : steps'.filter p = steps.filter p) : steps'.any q = steps.any q := by
  have hany : ∀ l : List Step, l.any q = decide (0 < l.countP q) := by
    intro l
    rw [Bool.eq_iff_iff, decide_eq_true_eq, List.countP_pos_iff, List.any_eq_true]
  rw [hany, hany, countP_eq_of_filter hq h]

/-- Settings are told from the steps that add nothing, in their order, and values from the others.
-/
theorem told_eq_of_filter {steps' : List Step}
    (hadds : steps'.filter (·.added?.isSome) = steps.filter (·.added?.isSome))
    (hsets : steps'.filter (·.added?.isNone) = steps.filter (·.added?.isNone)) :
    told name steps' = told name steps := by
  have hparameter : steps'.filterMap Step.parameterName? = steps.filterMap Step.parameterName? :=
    filterMap_eq_of_filter (fun s => by cases s <;> simp) hsets
  have htemplate : steps'.filterMap Step.template? = steps.filterMap Step.template? :=
    filterMap_eq_of_filter (fun s => by cases s <;> simp) hsets
  have hadded : steps'.filterMap Step.added? = steps.filterMap Step.added? :=
    filterMap_eq_of_filter (fun s => by cases s <;> simp) hadds
  have hcustom : steps'.any Step.isCustom = steps.any Step.isCustom :=
    any_eq_of_filter (fun s => by cases s <;> simp) hadds
  have hset : ∀ q : Step → Bool, (∀ s, q s → s.added?.isNone) → steps'.any q = steps.any q :=
    fun q hq => any_eq_of_filter hq hsets
  unfold told templateOf pairs additions
  rw [hparameter, htemplate, hadded, hcustom, hset _ (fun s => by cases s <;> simp),
    hset _ (fun s => by cases s <;> simp), hset _ (fun s => by cases s <;> simp)]

/-- **It does not matter where between the values settings are made.** -/
theorem construct_eq_of_filter {steps' : List Step}
    (hadds : steps'.filter (·.added?.isSome) = steps.filter (·.added?.isSome))
    (hsets : steps'.filter (·.added?.isNone) = steps.filter (·.added?.isNone)) :
    construct name steps' = construct name steps := by
  have hcount : steps'.countP Step.isCustom = steps.countP Step.isCustom :=
    countP_eq_of_filter (fun s => by cases s <;> simp) hadds
  rw [construct, construct, foldlM_apply, foldlM_apply, hcount, told_eq_of_filter hadds hsets]

/-- The custom value is a value. -/
theorem additions_ne_nil (hcustom : 0 < steps.countP Step.isCustom) : additions steps ≠ [] := by
  obtain ⟨s, hs, hs'⟩ := List.countP_pos_iff.mp hcustom
  intro hnil
  have hnone := List.filterMap_eq_nil_iff.mp hnil s hs
  cases s <;> simp at hs' hnone

end Construct

/-- What is built of steps, and what is said if nothing is. -/
structure AsTold (name : String) (steps : List Step) : Prop where
  /-- The custom value is added once at most. -/
  duplicate : ∀ n, construct name steps = .error (.duplicateCustom n) ↔
    1 < steps.countP Step.isCustom ∧ n = name
  empty : ∀ n, construct name steps = .error (.emptyEnum n) ↔ additions steps = [] ∧ n = name
  /-- The template that is reported is the one of the first token for which it is refused. -/
  invalid : ∀ template, construct name steps = .error (.invalidTemplate template) ↔
    steps.countP Step.isCustom ≤ 1 ∧ RefusesFirst name steps template
  failure : ∀ error, construct name steps = .error error →
    (∃ n, error = .duplicateCustom n) ∨ (∃ n, error = .emptyEnum n) ∨
      ∃ template, error = .invalidTemplate template
  built : ∀ e, construct name steps = .ok e → IsBuilt name steps e
  /-- It does not matter where between the values settings are made. -/
  interleaved : ∀ steps' : List Step,
    steps'.filter (·.added?.isSome) = steps.filter (·.added?.isSome) →
      steps'.filter (·.added?.isNone) = steps.filter (·.added?.isNone) →
        construct name steps' = construct name steps

/-- **An enumeration is built as its steps tell it.** -/
theorem asTold (name : String) (steps : List Step) : AsTold name steps := by
  -- adding the custom value again is refused at once, whatever else is wrong
  by_cases hcustom : steps.countP Step.isCustom ≤ 1
  · have herror : ∀ error, construct name steps = .error error ↔ _ :=
      fun _ => construct_eq_error_iff hcustom
    exact
      { duplicate := fun n => by simp [herror, Nat.not_lt.mpr hcustom]
        empty := fun n => by simp [herror]
        invalid := fun template => by simp [herror, hcustom]
        failure := fun error h => by
          rcases (herror error).mp h with ⟨-, rfl⟩ | ⟨template, rfl, -⟩
          · exact .inr (.inl ⟨name, rfl⟩)
          · exact .inr (.inr ⟨template, rfl⟩)
        built := fun _ => isBuilt_of_construct
        interleaved := fun _ => construct_eq_of_filter }
  · have htwice := Nat.not_le.mp hcustom
    have herror : construct name steps = _ := construct_twice htwice
    have hne := additions_ne_nil (Nat.lt_of_succ_lt htwice)
    exact
      { duplicate := fun n => by simp [herror, htwice, eq_comm]
        empty := fun n => by simp [herror, hne]
        invalid := fun template => by simp [herror, hcustom]
        failure := fun error h => by
          cases herror.symm.trans h
          exact .inl ⟨name, rfl⟩
        built := fun _ => isBuilt_of_construct
        interleaved := fun _ => construct_eq_of_filter }

end EnumBuilder

end FeatureStudio
