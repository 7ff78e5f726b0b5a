/-
  FeatureStudio.Proofs.Enumeration.Building: the enumeration that an entry of a manifest describes.

  Values are added one after the other, and one that comes again replaces the earlier one.  What is
  built is told by `EnumEntry.pairs`, the values as they are added: one member for every token, in
  the order in which tokens first came, made from the options that came last.

  Main statements:
    * `EnumBuilder.build_eq_ok_iff`: when an enumeration can be built, and which.
    * `EnumEntry.enumeration_eq_ok_iff`: the same for an entry of a manifest.
    * `EnumEntry.tokens_enumeration`: the tokens are those of the entry, every one once.
    * `EnumEntry.get?_isSome`: the values that are found are those the entry says it has.
-/
import FeatureStudio.Manifest.Studio
import FeatureStudio.Proofs.Fallible
import FeatureStudio.Proofs.Keyed
import FeatureStudio.Proofs.Manifest.Accepted

namespace FeatureStudio

/-! ## §1. Builders. -/

namespace EnumBuilder

theorem members_eq_mapM (b : EnumBuilder) :
    ∀ values : Keyed ValueOptions, b.members values = values.mapM fun p => b.member p.1 p.2
  | [] => rfl
  | (token, options) :: rest => by
      rw [EnumBuilder.members, members_eq_mapM b rest, List.mapM_cons]

/-- **An enumeration is built from the values there are**, unless there are none. -/
theorem build_eq_ok_iff (b : EnumBuilder) (built : Enumeration) :
    b.build = .ok built ↔
      b.values ≠ [] ∧ ∃ members,
        List.Forall₂ (fun p m => b.member p.1 p.2 = .ok m) b.values members ∧
        built =
          { name := b.name, parameterName := b.parameter, exported := b.exported, members } := by
  unfold build
  cases hv : b.values with
  | nil => simp
  | cons p rest =>
      simp only [List.isEmpty_cons, Bool.false_eq_true, if_false, ne_eq, reduceCtorEq,
        not_false_eq_true, true_and, ← mapM_eq_ok_iff, ← members_eq_mapM, map_eq_ok_iff]
      exact exists_congr fun members => and_congr_right' eq_comm

/-- What is known of a member from the value it was made from. -/
theorem member_eq_ok {b : EnumBuilder} {token : String} {options : ValueOptions} {m : EnumMember}
    (h : b.member token options = .ok m) :
    m.token = token ∧ m.lookup = options.lookup ∧ b.companion token options = .ok m.companion := by
  obtain ⟨companion, hcompanion, rfl⟩ := map_eq_ok_iff.mp h
  exact ⟨rfl, rfl, hcompanion⟩

/-- Members have the tokens of the values they were made from. -/
theorem map_token_eq_keys {b : EnumBuilder} {values : Keyed ValueOptions}
    {members : List EnumMember}
    (h : List.Forall₂ (fun p m => b.member p.1 p.2 = .ok m) values members) :
    members.map (·.token) = Keyed.keys values := by
  induction h with
  | nil => rfl
  | cons hm _ ih =>
      rw [List.map_cons, ih, (member_eq_ok hm).1]
      rfl

/-- A value can be made as long as the template for its companion can be read. -/
theorem member_ok {b : EnumBuilder} {options : ValueOptions}
    (h : (NameTemplate.parse (options.template.getD b.template).toList).isSome) (token : String) :
    ∃ m, b.member token options = .ok m := by
  obtain ⟨name, hname⟩ :=
    (NameTemplate.expand_ok_iff (options.template.getD b.template) b.name token).mpr h
  unfold member companion
  split
  · rw [hname]
    exact ⟨_, rfl⟩
  · exact ⟨_, rfl⟩

/-- Values added one after the other change nothing but the values. -/
theorem foldl_add (vs : List EnumValueEntry) :
    ∀ b : EnumBuilder, vs.foldl (fun b v => b.add v.value v.options) b =
      { b with
        values := (vs.map fun v => (Text.upper v.value, v.options)).foldl
          (fun m p => Keyed.put m p.1 p.2) b.values } := by
  induction vs with
  | nil => intro b; rfl
  | cons v vs ih =>
      intro b
      show vs.foldl _ (b.add v.value v.options) = _
      rw [ih]
      rfl

end EnumBuilder

/-! ## §2. Entries. -/

namespace EnumEntry

/-- The values as they are added, the custom one last. -/
def pairs (e : EnumEntry) : List (String × ValueOptions) :=
  e.values.map (fun v => (Text.upper v.value, v.options))
    ++ if e.custom then
        [(Enumeration.customToken, { lookup := e.customLookup.map Expr.token })]
      else []

theorem fst_pairs (e : EnumEntry) : e.pairs.map Prod.fst = e.tokens := by
  unfold pairs tokens
  cases e.custom <;> simp

theorem template_of_mem_pairs {e : EnumEntry} {p : String × ValueOptions} (h : p ∈ e.pairs) :
    p.2.template = none := by
  rcases List.mem_append.mp h with hv | hc
  · obtain ⟨v, -, rfl⟩ := List.mem_map.mp hv
    rfl
  · cases hcustom : e.custom <;> rw [hcustom] at hc
    · cases hc
    · rw [List.mem_singleton.mp hc]

theorem pairs_ne_nil {e : EnumEntry} (h : e.values ≠ [] ∨ e.custom) : e.pairs ≠ [] := by
  unfold pairs
  rcases h with hvalues | hcustom
  · simp [hvalues]
  · simp [hcustom]

theorem lookup_isSome_of_mem_pairs {e : EnumEntry} (h : e.missingLookup? = none)
    {p : String × ValueOptions} (hp : p ∈ e.pairs) : p.2.lookup.isSome := by
  unfold missingLookup? at h
  rw [Option.orElse_eq_orElse, Option.orElse_eq_or, Option.or_eq_none_iff,
    Option.map_eq_none_iff, List.find?_eq_none] at h
  obtain ⟨hvalues, hcustom⟩ := h
  -- a value of the entry, or the custom one behind them
  rcases List.mem_append.mp hp with hv | hc
  · obtain ⟨v, hmem, rfl⟩ := List.mem_map.mp hv
    have hlookup := hvalues v hmem
    simpa [EnumValueEntry.options, Option.isSome_iff_ne_none] using hlookup
  · cases hc' : e.custom with
    | false => simp [hc'] at hc
    | true =>
        simp only [hc', if_true, List.mem_singleton] at hc
        simpa [hc', hc, Option.isSome_iff_ne_none] using hcustom

/-- The enumeration before it is built, with all its values. -/
def filled (e : EnumEntry) : EnumBuilder where
  name := e.name
  parameterName := e.parameter
  exported := !e.isPrivate
  labelled := e.labelled
  predicates := e.predicates
  template := e.template
  values := Keyed.ofList e.pairs
  hasCustom := e.custom

theorem upper_customToken : Text.upper Enumeration.customToken = Enumeration.customToken := by
  decide +kernel

/-- An entry is built from all its values at once. -/
theorem enumeration_eq (e : EnumEntry) :
    e.enumeration = e.filled.build.mapError (.unbuildable ("enum '" ++ e.name ++ "'")) := by
  unfold enumeration builder
  rw [EnumBuilder.foldl_add]
  -- the custom value is put like any other, behind those of the entry
  cases hc : e.custom with
  | false =>
      have hpairs : e.pairs = e.values.map fun v => (Text.upper v.value, v.options) := by
        rw [pairs, hc]
        simp
      unfold filled
      rw [hpairs, hc]
      rfl
  | true =>
      have hpairs : e.pairs = (e.values.map fun v => (Text.upper v.value, v.options))
          ++ [(Enumeration.customToken, { lookup := e.customLookup.map Expr.token })] := by
        rw [pairs, hc]
        simp
      unfold filled
      rw [hpairs, Keyed.ofList_append_single, hc]
      simp only [EnumBuilder.addCustom, EnumBuilder.add, upper_customToken]
      rfl

/-- **What an entry is built to**: one member for every value that is kept. -/
theorem enumeration_eq_ok_iff (e : EnumEntry) (built : Enumeration) :
    e.enumeration = .ok built ↔
      Keyed.ofList e.pairs ≠ [] ∧ ∃ members,
        List.Forall₂ (fun p m => e.filled.member p.1 p.2 = .ok m) (Keyed.ofList e.pairs) members ∧
        built =
          { name := e.name
            parameterName := e.filled.parameter
            exported := !e.isPrivate
            members } := by
  rw [enumeration_eq]
  exact mapError_eq_ok_iff.trans (e.filled.build_eq_ok_iff built)

section Built

variable {e : EnumEntry} {built : Enumeration}

/-- An enumeration has the names that its entry gives. -/
theorem names_enumeration (h : e.enumeration = .ok built) :
    built.name = e.name ∧ built.parameterName = e.filled.parameter := by
  obtain ⟨-, members, -, rfl⟩ := (e.enumeration_eq_ok_iff built).mp h
  exact ⟨rfl, rfl⟩

theorem members_enumeration (h : e.enumeration = .ok built) :
    List.Forall₂ (fun p m => e.filled.member p.1 p.2 = .ok m) (Keyed.ofList e.pairs)
      built.members := by
  obtain ⟨-, members, hmembers, rfl⟩ := (e.enumeration_eq_ok_iff built).mp h
  exact hmembers

/-- **The tokens of what is built are those of the entry**, every one where it came first. -/
theorem tokens_enumeration (h : e.enumeration = .ok built) :
    built.members.map (·.token) = e.tokens.eraseDups := by
  rw [EnumBuilder.map_token_eq_keys (members_enumeration h), Keyed.keys_ofList, fst_pairs]

theorem exists_token_iff (h : e.enumeration = .ok built) (token : String) :
    (∃ m ∈ built.members, m.token = token) ↔ token ∈ e.tokens := by
  rw [← List.mem_eraseDups, ← tokens_enumeration h, List.mem_map]

/-- **A value is found in what is built exactly when the entry has it**, in any case. -/
theorem get?_isSome (h : e.enumeration = .ok built) (text : String) :
    (built.get? text).isSome = e.hasValue text := by
  rw [Bool.eq_iff_iff, Enumeration.get?, List.find?_isSome, hasValue, List.contains_iff_mem,
    ← exists_token_iff h]
  simp

/-- A member comes from one of the values of the entry. -/
theorem exists_pair_of_mem (h : e.enumeration = .ok built) {m : EnumMember}
    (hm : m ∈ built.members) : ∃ p ∈ e.pairs, e.filled.member p.1 p.2 = .ok m := by
  obtain ⟨p, hp, hpm⟩ := exists_of_mem_right (members_enumeration h) hm
  exact ⟨p, Keyed.mem_ofList hp, hpm⟩

/-- Where no lookup expression is missing, every member has one. -/
theorem lookup_isSome (h : e.enumeration = .ok built) (hl : e.missingLookup? = none)
    {m : EnumMember} (hm : m ∈ built.members) : m.lookup.isSome := by
  obtain ⟨p, hp, hpm⟩ := exists_pair_of_mem h hm
  rw [(EnumBuilder.member_eq_ok hpm).2.1]
  exact lookup_isSome_of_mem_pairs hl hp

end Built

/-- **An entry that keeps the rules can be built.** -/
theorem WellFormed.enumeration_ok {e : EnumEntry} (h : e.WellFormed) :
    ∃ built, e.enumeration = .ok built := by
  obtain ⟨members, hmembers⟩ := mapM_ok (f := fun p => e.filled.member p.1 p.2)
    (Keyed.ofList e.pairs) fun p hp => by
      refine EnumBuilder.member_ok ?_ p.1
      rw [template_of_mem_pairs (Keyed.mem_ofList hp)]
      exact h.template
  -- of values given more than once one is kept, so some are left
  have hkept : Keyed.ofList e.pairs ≠ [] :=
    fun hnil => pairs_ne_nil h.inhabited ((Keyed.ofList_eq_nil_iff e.pairs).mp hnil)
  exact ⟨_, (e.enumeration_eq_ok_iff _).mpr
    ⟨hkept, members, (mapM_eq_ok_iff _ _).mp hmembers, rfl⟩⟩

theorem members_ne_nil {e : EnumEntry} {built : Enumeration} (h : e.enumeration = .ok built) :
    built.members ≠ [] := by
  obtain ⟨hkept, members, hmembers, rfl⟩ := (e.enumeration_eq_ok_iff built).mp h
  rintro rfl
  exact hkept (List.forall₂_nil_right_iff.mp hmembers)

end EnumEntry

/-! ## §3. Lookup functions. -/

namespace Enumeration

/-- Where every value has a lookup expression, all of them are returned in order. -/
theorem lookupReturns_eq (e : Enumeration) :
    ∀ members : List EnumMember, (∀ m ∈ members, m.lookup.isSome) →
      e.lookupReturns members = .ok (members.filterMap fun m => m.lookup.map .returning)
  | [], _ => rfl
  | m :: rest, h => by
      obtain ⟨value, hvalue⟩ := Option.isSome_iff_exists.mp (h m List.mem_cons_self)
      have ih := lookupReturns_eq e rest fun m' hm' => h m' (List.mem_cons_of_mem _ hm')
      simp [lookupReturns, hvalue, ih, Except.map]

theorem length_lookups :
    ∀ members : List EnumMember, (∀ m ∈ members, m.lookup.isSome) →
      (members.filterMap fun m => m.lookup.map Node.returning).length = members.length
  | [], _ => rfl
  | m :: rest, h => by
      obtain ⟨value, hvalue⟩ := Option.isSome_iff_exists.mp (h m List.mem_cons_self)
      have ih := length_lookups rest fun m' hm' => h m' (List.mem_cons_of_mem _ hm')
      simp [hvalue, ih]

/-- A chain with as many statements as tests, and at least one, can be put together. -/
theorem ofBranches_ok {tests : List Expr} {statements : List Node}
    (hlength : tests.length = statements.length) (hne : tests ≠ []) (otherwise : Option Node) :
    ∃ chain, IfChain.ofBranches tests statements otherwise = .ok chain := by
  cases tests with
  | nil => exact absurd rfl hne
  | cons test tests =>
      cases statements with
      | nil => cases hlength
      | cons statement statements =>
          refine ⟨_, if_neg (not_not_intro hlength)⟩

/-- **A lookup function can be made** as soon as every value has a lookup expression. -/
theorem lookupFunction_ok {e : Enumeration} (hne : e.members ≠ [])
    (hlookup : ∀ m ∈ e.members, m.lookup.isSome) (name : String) :
    ∃ f, e.lookupFunction name = .ok f := by
  have hlength : (e.values.map EnumValue.call).length
      = (e.members.filterMap fun m => m.lookup.map Node.returning).length := by
    rw [length_lookups _ hlookup]
    simp [values]
  have hvalues : e.values.map EnumValue.call ≠ [] := by simpa [values] using hne
  obtain ⟨chain, hchain⟩ := ofBranches_ok hlength hvalues none
  exact ⟨_, bind_eq_ok_iff.mpr ⟨_, lookupReturns_eq e _ hlookup,
    bind_eq_ok_iff.mpr ⟨chain, hchain, rfl⟩⟩⟩

end Enumeration

end FeatureStudio
