/-
  FeatureStudio.Proofs.Enumeration.Lookup: what lookup functions are put together from.

  A lookup function is one if chain with a branch for every value.  The branch tests for the value
  and returns its lookup expression, which is a text of the manifest: the one that was listed last
  for the value, and for the custom value the one given for it.

  Main statements:
    * `Enumeration.lookupFunction_eq_ok`: the chain, branch by branch.
    * `EnumEntry.lookup_member`: the lookup expression of a value.
-/
import FeatureStudio.Proofs.Enumeration.Building

namespace FeatureStudio

/-! ## §1. Chains. -/

/-- The branches of a chain that have a test. -/
def IfChain.testedBranches (c : IfChain) : List (Expr × List Node) := (c.test, c.body) :: c.elseIfs

/-- A chain has one branch for every test, with the statement at its place. -/
theorem IfChain.ofBranches_eq_ok {tests : List Expr} {statements : List Node} {chain : IfChain}
    (h : IfChain.ofBranches tests statements none = .ok chain) :
    tests.length = statements.length ∧ chain.otherwise = none ∧
      chain.testedBranches = (tests.zip statements).map fun p => (p.1, [p.2]) := by
  unfold ofBranches at h
  by_cases hlength : tests.length = statements.length
  · rw [if_neg (not_not_intro hlength)] at h
    refine ⟨hlength, ?_⟩
    cases hzip : tests.zip statements with
    | nil =>
        rw [hzip] at h
        cases h
    | cons p rest =>
        rw [hzip] at h
        cases h
        exact ⟨rfl, rfl⟩
  · rw [if_pos hlength] at h
    cases h

namespace Enumeration

/-- What is returned are the lookup expressions of the values, in order. -/
theorem lookupReturns_eq_ok (e : Enumeration) : ∀ {members : List EnumMember} {ns : List Node},
    e.lookupReturns members = .ok ns →
      List.Forall₂ (fun m n => ∃ value, m.lookup = some value ∧ n = .returning value) members ns
  | [], ns, h => by
      cases h
      exact .nil
  | m :: rest, ns, h => by
      unfold lookupReturns at h
      cases hvalue : m.lookup with
      | none =>
          rw [hvalue] at h
          cases h
      | some value =>
          rw [hvalue] at h
          obtain ⟨ns', hrest, rfl⟩ := map_eq_ok_iff.mp h
          exact .cons ⟨value, hvalue, rfl⟩ (lookupReturns_eq_ok e hrest)

/-- The branch of a value tests for it and returns its lookup expression. -/
def LooksUp (m : EnumMember) (branch : Expr × List Node) : Prop :=
  ∃ value, m.lookup = some value ∧ branch = (m.call, [.returning value])

/-- Tests and statements that come from the same values belong together. -/
theorem looksUp_zip {members : List EnumMember} {ns : List Node}
    (h : List.Forall₂ (fun m n => ∃ value, m.lookup = some value ∧ n = .returning value)
      members ns) :
    List.Forall₂ LooksUp members
      ((((members.map EnumMember.toEnumValue).map EnumValue.call).zip ns).map
        fun p => (p.1, [p.2])) := by
  induction h with
  | nil => exact .nil
  | cons hfirst _ ih =>
      obtain ⟨value, hvalue, rfl⟩ := hfirst
      exact .cons ⟨value, hvalue, rfl⟩ ih

/-- **A lookup function is one chain**, with a branch for every value and none without a test. -/
theorem lookupFunction_eq_ok {e : Enumeration} {name : String} {f : Function}
    (h : e.lookupFunction name = .ok f) :
    ∃ chain : IfChain, chain.otherwise = none ∧
      List.Forall₂ LooksUp e.members chain.testedBranches ∧
      f = { kind := .function, name, parameters := [.definition], body := [chain.node] } := by
  obtain ⟨ns, hns, h⟩ := bind_eq_ok_iff.mp h
  obtain ⟨chain, hchain, h⟩ := bind_eq_ok_iff.mp h
  cases h
  obtain ⟨-, hotherwise, hbranches⟩ := IfChain.ofBranches_eq_ok hchain
  refine ⟨chain, hotherwise, ?_, rfl⟩
  rw [hbranches]
  exact looksUp_zip (lookupReturns_eq_ok e hns)

end Enumeration

/-! ## §2. Lookup expressions. -/

namespace EnumEntry

/-- The lookup expression of a value: that of the custom value, or the one listed last. -/
def lookupOf (e : EnumEntry) (token : String) : Option String :=
  if e.custom ∧ token = Enumeration.customToken then e.customLookup
  else ((e.values.filter fun v => Text.upper v.value = token).getLast?).bind (·.lookup)

/-- The options that count for a value are those that were added last. -/
theorem lookup_getLast? (e : EnumEntry) (token : String) :
    ((e.pairs.filter fun p => p.1 = token).getLast?).bind (fun p => p.2.lookup)
      = (e.lookupOf token).map Expr.token := by
  have hvalues : (((e.values.map fun v => (Text.upper v.value, v.options)).filter
        fun p => p.1 = token).getLast?).bind (fun p => p.2.lookup)
      = (((e.values.filter fun v => Text.upper v.value = token).getLast?).bind
          (·.lookup)).map Expr.token := by
    rw [List.filter_map, List.getLast?_map, Option.bind_map, Option.map_bind]
    rfl
  unfold lookupOf pairs
  rw [List.filter_append]
  cases hc : e.custom with
  | false => simpa using hvalues
  | true =>
      by_cases htoken : token = Enumeration.customToken
      · subst htoken
        simp
      · have hne : Enumeration.customToken ≠ token := fun heq => htoken heq.symm
        simpa [htoken, hne] using hvalues

/-- **The lookup expression of a member is the one listed last for its token.** -/
theorem lookup_member {e : EnumEntry} {built : Enumeration} (h : e.enumeration = .ok built)
    {m : EnumMember} (hm : m ∈ built.members) :
    m.lookup = (e.lookupOf m.token).map Expr.token := by
  obtain ⟨p, hp, hpm⟩ := exists_of_mem_right (members_enumeration h) hm
  obtain ⟨htoken, hlookup, -⟩ := EnumBuilder.member_eq_ok hpm
  -- no key repeats, so what is kept under the token is what looking up finds
  have hfound : Keyed.get? (Keyed.ofList e.pairs) m.token = some p.2 := by
    rw [htoken]
    exact Keyed.get?_of_mem (Keyed.nodup_keys_ofList e.pairs) hp
  rw [Keyed.get?_ofList] at hfound
  obtain ⟨q, hq, hq2⟩ := Option.map_eq_some_iff.mp hfound
  rw [hlookup, ← lookup_getLast?, hq, ← hq2]
  rfl

end EnumEntry

end FeatureStudio
