/-
  FeatureStudio.Proofs.Script.Outcome: what statements return.

  Only statements that decide what is returned have an outcome: chains, blocks and returns.  A test
  is evaluated as it is written outside of test predicates, where the call of a test predicate is a
  call on `definition`.  A test that is no truth value, like any other statement, fails.

  Main statements:
    * `branchesOutcome_of_tests`: the first branch whose test holds is the one that is taken.
    * `IfChain.outcome_node`: a chain without a last branch passes if none of its tests holds.
-/
import FeatureStudio.Proofs.Expression.TestCalls
import FeatureStudio.Proofs.Enumeration.Lookup

namespace FeatureStudio

/-- What comes of statements. -/
inductive Outcome where
  | returned (value : Expr)
  /-- Nothing is returned. -/
  | passed
  | failed

mutual

/-- What comes of a statement. -/
def Node.outcome (I : Interpretation) : Node → Outcome
  | .returning value => .returned value
  | .block _ body => bodyOutcome I body
  | .ifChain test body elseIfs otherwise =>
    match (test.written false).value I with
    | .truth true => bodyOutcome I body
    | .truth false => branchesOutcome I (lastOutcome I otherwise) elseIfs
    | _ => .failed
  | _ => .failed

/-- What comes of statements in a row: the first one that does not pass decides. -/
def bodyOutcome (I : Interpretation) : List Node → Outcome
  | [] => .passed
  | n :: rest =>
    match n.outcome I with
    | .passed => bodyOutcome I rest
    | outcome => outcome

/-- What comes of branches in a row, and `last` if none of them is taken. -/
def branchesOutcome (I : Interpretation) (last : Outcome) : List (Expr × List Node) → Outcome
  | [] => last
  | (test, body) :: rest =>
    match (test.written false).value I with
    | .truth true => bodyOutcome I body
    | .truth false => branchesOutcome I last rest
    | _ => .failed

/-- What comes of the branch without a test. -/
def lastOutcome (I : Interpretation) : Option (List Node) → Outcome
  | none => .passed
  | some body => bodyOutcome I body

end

/-- A chain without a last branch is its branches in a row. -/
theorem IfChain.outcome_node (I : Interpretation) {chain : IfChain}
    (h : chain.otherwise = none) :
    bodyOutcome I [chain.node] = branchesOutcome I .passed chain.testedBranches := by
  obtain ⟨test, body, elseIfs, otherwise⟩ := chain
  cases h
  have hnode : Node.outcome I (.ifChain test body elseIfs none)
      = branchesOutcome I .passed ((test, body) :: elseIfs) := rfl
  show (match Node.outcome I (.ifChain test body elseIfs none) with
    | .passed => bodyOutcome I []
    | outcome => outcome) = _
  rw [hnode]
  show _ = branchesOutcome I .passed ((test, body) :: elseIfs)
  cases branchesOutcome I .passed ((test, body) :: elseIfs) <;> rfl

/-- **The first branch whose test holds is taken**, and what it returns is returned. -/
theorem branchesOutcome_of_tests {I : Interpretation} {α : Type} {holds : α → Bool}
    {value : α → Expr} {as : List α} {branches : List (Expr × List Node)}
    (h : List.Forall₂ (fun a b => (b.1.written false).value I = .truth (holds a) ∧
      b.2 = [.returning (value a)]) as branches) (last : Outcome) :
    branchesOutcome I last branches
      = match as.find? holds with
        | some a => .returned (value a)
        | none => last := by
  induction h with
  | nil => rfl
  | @cons a b as branches hfirst _ ih =>
      obtain ⟨test, body⟩ := b
      obtain ⟨htest, rfl⟩ := hfirst
      rw [branchesOutcome, htest]
      cases hholds : holds a with
      | true =>
          rw [List.find?_cons_of_pos hholds]
          rfl
      | false =>
          rw [List.find?_cons_of_neg (by simp [hholds])]
          exact ih

end FeatureStudio
