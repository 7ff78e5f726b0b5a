/-
  FeatureStudio.Proofs.Manifest.Lookup: lookup functions compute the table of the manifest.

  The chain of a lookup function asks for one value after the other.  Which branch is taken depends
  on what the field of the enumeration holds, where values are told apart and companion predicates
  mean what they are declared to test.

  Main statements:
    * `EnumEntry.value_test`: the test for a value holds if the field holds the value.
    * `Manifest.outcome_lookup`: what a lookup function returns.
-/
import FeatureStudio.Proofs.Manifest.Lowering
import FeatureStudio.Proofs.Script.Outcome

namespace FeatureStudio

/-! ## §1. Tests for values. -/

namespace EnumEntry

/-- The field of `definition` that holds the enumeration. -/
def parameterName (e : EnumEntry) : String := e.parameter.getD (Text.lowerFirst e.name)

/-- A value with the name of the enumeration. -/
def qualified (e : EnumEntry) (token : String) : String := e.name ++ "." ++ token

end EnumEntry

/-- The values of an enumeration are told apart, and its companion predicates mean their tests. -/
structure Interpretation.Respects (I : Interpretation) (e : EnumEntry) (built : Enumeration) :
    Prop where
  distinct : ∀ token ∈ e.tokens, ∀ token' ∈ e.tokens,
    I.token (e.qualified token) = I.token (e.qualified token') → token = token'
  companions : ∀ p ∈ built.predicates,
    I.call p.name [I.token "definition"] = .all (Expr.values I p.tests)

namespace EnumEntry

variable {e : EnumEntry} {built : Enumeration}

/-- A member tests the field of its enumeration for its own value. -/
theorem test_member (h : e.enumeration = .ok built) {m : EnumMember} (hm : m ∈ built.members) :
    m.test m.parameterName
      = (Expr.definition e.parameterName).equal (.token (e.qualified m.token)) := by
  obtain ⟨p, -, hpm⟩ := exists_pair_of_mem h hm
  obtain ⟨companion, -, rfl⟩ := map_eq_ok_iff.mp hpm
  rfl

/-- **The test for a value holds if the field holds the value**, be it a comparison or the call of
a companion predicate. -/
theorem value_test (h : e.enumeration = .ok built) {I : Interpretation} (hI : I.Respects e built)
    {m : EnumMember} (hm : m ∈ built.members) :
    (m.call.written false).value I
      = .truth (I.token ("definition." ++ e.parameterName) = I.token (e.qualified m.token)) := by
  have htest : (m.test m.parameterName).value I
      = .truth (I.token ("definition." ++ e.parameterName) = I.token (e.qualified m.token)) := by
    rw [test_member h hm]
    rfl
  unfold EnumValue.call EnumValue.predicate?
  cases hc : m.companion with
  | none => exact htest
  | some name =>
      -- the predicate that is called is one of those declared with the enumeration
      have hmem : ({ name, tests := [m.test m.parameterName] } : TestPredicate)
          ∈ built.predicates := by
        refine List.mem_filterMap.mpr ⟨m.toEnumValue, List.mem_map_of_mem hm, ?_⟩
        rw [EnumValue.predicate?, hc]
        rfl
      have hcall := hI.companions _ hmem
      show I.call name [I.token "definition"] = _
      rw [hcall, ← htest]
      rfl

/-- A branch for a value: it calls the test for the value and returns its lookup expression. -/
def IsBranch (e : EnumEntry) (built : Enumeration) (token : String)
    (branch : Expr × List Node) : Prop :=
  (∃ m ∈ built.members, m.token = token ∧ branch.1 = m.call) ∧
    ∃ lookup, e.lookupOf token = some lookup ∧ branch.2 = [.returning (.token lookup)]

/-- The lookup expression of a branch is a text of the entry. -/
theorem isBranch_of_looksUp (h : e.enumeration = .ok built) {m : EnumMember}
    (hm : m ∈ built.members) {branch : Expr × List Node} (hb : Enumeration.LooksUp m branch) :
    e.IsBranch built m.token branch := by
  obtain ⟨value, hvalue, rfl⟩ := hb
  rw [lookup_member h hm] at hvalue
  obtain ⟨lookup, hlookup, rfl⟩ := Option.map_eq_some_iff.mp hvalue
  exact ⟨⟨m, hm, rfl, rfl⟩, lookup, hlookup, rfl⟩

/-- There is one branch for every token, where it came first. -/
theorem forall₂_isBranch (h : e.enumeration = .ok built) {branches : List (Expr × List Node)}
    (hb : List.Forall₂ Enumeration.LooksUp built.members branches) :
    List.Forall₂ (e.IsBranch built) e.tokens.eraseDups branches := by
  rw [← tokens_enumeration h, List.forall₂_map_left_iff]
  refine List.forall₂_iff_zip.mpr ⟨hb.length_eq, fun hmem => ?_⟩
  exact isBranch_of_looksUp h (List.of_mem_zip hmem).1 ((List.forall₂_iff_zip.mp hb).2 hmem)

/-- Values are told apart, so the first member that the field holds is that of its value. -/
theorem find?_member (h : e.enumeration = .ok built) {I : Interpretation} (hI : I.Respects e built)
    {token : String} (htoken : token ∈ e.tokens)
    (hholds : I.token ("definition." ++ e.parameterName) = I.token (e.qualified token)) :
    ∃ m ∈ built.members, m.token = token ∧ built.members.find? (fun m => decide
      (I.token ("definition." ++ e.parameterName) = I.token (e.qualified m.token))) = some m := by
  obtain ⟨own, hown, rfl⟩ := (exists_token_iff h token).mpr htoken
  have hsome : (built.members.find? fun m => decide
      (I.token ("definition." ++ e.parameterName) = I.token (e.qualified m.token))).isSome :=
    List.find?_isSome.mpr ⟨own, hown, decide_eq_true hholds⟩
  obtain ⟨found, hfound⟩ := Option.isSome_iff_exists.mp hsome
  have hmem := List.mem_of_find?_eq_some hfound
  have hfield : I.token ("definition." ++ e.parameterName)
      = I.token (e.qualified found.token) := by simpa using List.find?_some hfound
  refine ⟨found, hmem, ?_, hfound⟩
  exact hI.distinct _ ((exists_token_iff h _).mp ⟨found, hmem, rfl⟩) _ htoken
    (hfield.symm.trans hholds)

/-- What branches for all values return: the lookup expression of the one that the field holds. -/
theorem outcome_branches (h : e.enumeration = .ok built) {branches : List (Expr × List Node)}
    (hb : List.Forall₂ Enumeration.LooksUp built.members branches) {I : Interpretation}
    (hI : I.Respects e built) :
    (∀ token ∈ e.tokens,
      I.token ("definition." ++ e.parameterName) = I.token (e.qualified token) →
        ∃ lookup, e.lookupOf token = some lookup ∧
          branchesOutcome I .passed branches = .returned (.token lookup)) ∧
    ((∀ token ∈ e.tokens,
      I.token ("definition." ++ e.parameterName) ≠ I.token (e.qualified token)) →
        branchesOutcome I .passed branches = .passed) := by
  have htests : List.Forall₂ (fun m b =>
      ((b : Expr × List Node).1.written false).value I = .truth
          (I.token ("definition." ++ e.parameterName) = I.token (e.qualified m.token)) ∧
        b.2 = [.returning (.token ((e.lookupOf (EnumMember.toEnumValue m).token).getD ""))])
      built.members branches := by
    refine List.forall₂_iff_zip.mpr ⟨hb.length_eq, fun {m b} hmem => ?_⟩
    have hm := (List.of_mem_zip hmem).1
    obtain ⟨value, hvalue, rfl⟩ := (List.forall₂_iff_zip.mp hb).2 hmem
    rw [lookup_member h hm] at hvalue
    obtain ⟨lookup, hlookup, rfl⟩ := Option.map_eq_some_iff.mp hvalue
    exact ⟨value_test h hI hm, by rw [hlookup]; rfl⟩
  -- the first branch whose test holds is that of the first member that the field holds
  rw [branchesOutcome_of_tests htests]
  constructor
  · intro token htoken hholds
    obtain ⟨m, hm, rfl, hfound⟩ := find?_member h hI htoken hholds
    obtain ⟨branch, -, hbranch⟩ := exists_mem_zip hb hm
    obtain ⟨-, lookup, hlookup, -⟩ := isBranch_of_looksUp h hm hbranch
    rw [hfound]
    refine ⟨lookup, hlookup, ?_⟩
    show Outcome.returned (.token ((e.lookupOf m.token).getD "")) = _
    rw [hlookup]
    rfl
  · intro hnone
    have hall : built.members.find? (fun m => decide
        (I.token ("definition." ++ e.parameterName) = I.token (e.qualified m.token))) = none := by
      rw [List.find?_eq_none]
      exact fun m hm hholds =>
        hnone m.token ((exists_token_iff h _).mp ⟨m, hm, rfl⟩) (of_decide_eq_true hholds)
    rw [hall]

end EnumEntry

/-! ## §2. Lookup functions. -/

namespace Manifest

/-- **Lookup functions compute the table of the manifest.**  The body is one chain without a last
branch, which has a branch for every value, in the order in which values first came, that returns
the lookup expression of the value.  Where the field of the enumeration holds a value, that value's
expression is returned; where it holds none of them, nothing is. -/
theorem outcome_lookup {m : Manifest} {source : String} (h : m.validate source = .ok ())
    {l : LookupEntry} (hl : l ∈ m.lookups) :
    ∃ (s : Studio) (e : EnumEntry) (built : Enumeration) (f : Function) (chain : IfChain),
      m.toStudio = .ok s ∧ m.enum? l.enumName = some e ∧ e.enumeration = .ok built ∧
      built.node ∈ s.body ∧ f.node ∈ s.body ∧ f.name = l.name ∧
      f.body = [chain.node] ∧ chain.otherwise = none ∧
      List.Forall₂ (e.IsBranch built) e.tokens.eraseDups chain.testedBranches ∧
      ∀ I : Interpretation, I.Respects e built →
        (∀ token ∈ e.tokens,
          I.token ("definition." ++ e.parameterName) = I.token (e.qualified token) →
            ∃ lookup, e.lookupOf token = some lookup ∧
              bodyOutcome I f.body = .returned (.token lookup)) ∧
        ((∀ token ∈ e.tokens,
          I.token ("definition." ++ e.parameterName) ≠ I.token (e.qualified token)) →
            bodyOutcome I f.body = .passed) := by
  have hm := (m.validate_ok_iff source).mp h
  obtain ⟨_, s, -, hs⟩ := hm.toStudio_ok
  obtain ⟨enums, ui, lookups, hbuilds, -, hlookups, hbody⟩ := (m.toStudio_eq_ok_iff s).mp hs
  obtain ⟨e, he, -⟩ := (hm.lookups l hl).complete
  -- the enumeration and the function are those that the studio declares
  obtain ⟨built, hbuilt, henum⟩ := declared_enum hm hbuilds he
  obtain ⟨f, hzip, hf⟩ := exists_mem_zip hlookups hl
  obtain ⟨built', g, hbuilt', hg, hreturns⟩ := LookupEntry.function_eq_ok hf
  cases henum.symm.trans hbuilt'
  obtain ⟨chain, hotherwise, hbranches, hchain⟩ := Enumeration.lookupFunction_eq_ok hg
  have hf : f.name = l.name ∧ f.body = [chain.node] := by
    rw [hreturns, hchain]
    exact ⟨rfl, rfl⟩
  refine ⟨s, e, built, f, chain, hs, he, hbuilt, ?_, ?_, hf.1, hf.2, hotherwise,
    EnumEntry.forall₂_isBranch hbuilt hbranches, fun I hI => ?_⟩
  · rw [hbody]
    simp only [bodyOf, List.mem_append, List.mem_map]
    exact .inl (.inl (.inl (.inl ⟨built, mem_of_declared henum, rfl⟩)))
  · rw [hbody]
    simp only [bodyOf, List.mem_append, List.mem_map]
    exact .inl (.inr ⟨f, (List.of_mem_zip hzip).2, rfl⟩)
  · rw [hf.2, IfChain.outcome_node I hotherwise]
    exact EnumEntry.outcome_branches hbuilt hbranches hI

/-- The size is one by one: what was said of this value last counts, and no predicate is called
for it. -/
theorem sized_outcome_lookup :
    sized.validate "" = .ok () ∧ ∃ (e : EnumEntry) (built : Enumeration) (f : Function)
      (I : Interpretation), sized.enum? "TubeSize" = some e ∧ e.enumeration = .ok built ∧
        built.predicates.map TestPredicate.name = ["isTubeSizeCustom"] ∧ I.Respects e built ∧
        f.name = "tubeSize" ∧ bodyOutcome I f.body = .returned (.token "25 * millimeter") := by
  have h : sized.validate "" = .ok () := by rfl
  obtain ⟨s, e, built, f, chain, -, he, hbuilt, -, -, hname, -, -, -, houtcome⟩ :=
    outcome_lookup h (List.mem_singleton.mpr rfl)
  have hpredicates : built.predicates = [
      { name := "isTubeSizeCustom"
        tests := [(Expr.definition "tubeSize").equal (.token "TubeSize.CUSTOM")] }] := by
    cases he
    cases hbuilt
    rfl
  -- tokens stand for themselves, apart from the field
  let I : Interpretation :=
    { token := fun text =>
        .object (if text = "definition.tubeSize" then "TubeSize.ONE_BY_ONE" else text)
      call := fun _ _ => .truth false
      index := fun _ _ => .undefined }
  have hI : I.Respects e built := by
    constructor
    · cases he
      decide +kernel
    · rw [hpredicates]
      intro p hp
      rw [List.mem_singleton.mp hp]
      rfl
  have htoken : "ONE_BY_ONE" ∈ e.tokens := by
    cases he
    decide +kernel
  have hfield : I.token ("definition." ++ e.parameterName)
      = I.token (e.qualified "ONE_BY_ONE") := by
    cases he
    rfl
  obtain ⟨lookup, hlookup, hreturned⟩ := (houtcome I hI).1 "ONE_BY_ONE" htoken hfield
  have hvalue : some lookup = some "25 * millimeter" := by
    rw [← hlookup]
    cases he
    decide +kernel
  rw [Option.some.inj hvalue] at hreturned
  exact ⟨h, e, built, f, I, he, hbuilt, by rw [hpredicates]; rfl, hI, hname, hreturned⟩

end Manifest

end FeatureStudio
