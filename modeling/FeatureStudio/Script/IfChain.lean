/-
  FeatureStudio.Script.IfChain: if chains put together branch by branch.

  A block starts with a branch for its first test.  Further branches are opened behind it, and
  statements go to the branch opened last.  A branch without a test closes the block: behind it no
  other is opened.  In a tree such a block is a chain, which has a place for each kind of branch.

  Main statements:
    * `elseIf_closed`, `orElse_closed`: a closed block takes no further branch.
-/
import FeatureStudio.Script.Node
import FeatureStudio.Script.Function

namespace FeatureStudio

/-! ## §1. Blocks. -/

/-- What opens a branch. -/
inductive BranchHead where
  | first (test : Expr)
  | further (test : Expr)
  /-- The branch without a test. -/
  | last

/-- A branch with its statements. -/
structure Branch where
  head : BranchHead
  body : List Node := []

/-- Branches put together one after the other. -/
structure IfBlock where
  head : Branch
  /-- The branches behind the first, in the order in which they were opened. -/
  rest : List Branch := []
  /-- No further branch can be opened. -/
  closed : Bool := false

namespace IfBlock

/-- The block that has only a first branch. -/
def start (test : Expr) : IfBlock := { head := { head := .first test } }

/-- The branches in order. -/
def branches (b : IfBlock) : List Branch := b.head :: b.rest

/-- Opens a branch with a test. -/
def elseIf (b : IfBlock) (test : Expr) : Except UsageError IfBlock :=
  if b.closed then .error .chainClosed
  else .ok { b with rest := b.rest ++ [{ head := .further test }] }

/-- Opens the branch without a test. -/
def orElse (b : IfBlock) : Except UsageError IfBlock :=
  if b.closed then .error .chainClosed
  else .ok { b with rest := b.rest ++ [{ head := .last }], closed := true }

/-- The branch opened last. -/
def active (b : IfBlock) : Branch := b.rest.getLast?.getD b.head

/-- Changes the branch opened last. -/
def updateActive (b : IfBlock) (change : Branch → Branch) : IfBlock :=
  match b.rest.getLast? with
  | some branch => { b with rest := b.rest.dropLast ++ [change branch] }
  | none => { b with head := change b.head }

/-- Appends a statement to the branch opened last. -/
def add (b : IfBlock) (n : Node) : IfBlock :=
  b.updateActive fun branch => { branch with body := branch.body ++ [n] }

/-- Opens a branch for every pair of a test and a statement. -/
def addPairs (b : IfBlock) (pairs : List (Expr × Node)) : Except UsageError IfBlock :=
  pairs.foldlM (fun b (test, statement) => return (← b.elseIf test).add statement) b

/-- The block with one test for every statement, and possibly a statement for when none holds. -/
def ofBranches (tests : List Expr) (statements : List Node) (otherwise : Option Node) :
    Except UsageError IfBlock :=
  if tests.length ≠ statements.length then
    .error (.mismatchedBranches tests.length statements.length)
  else
    match tests.zip statements with
    | [] => .error .emptyChain
    | (test, statement) :: pairs => do
      let b ← ((start test).add statement).addPairs pairs
      match otherwise with
      | none => return b
      | some statement => return (← b.orElse).add statement

theorem elseIf_closed {b : IfBlock} (h : b.closed) (test : Expr) :
    b.elseIf test = .error .chainClosed := if_pos h

theorem orElse_closed {b : IfBlock} (h : b.closed) : b.orElse = .error .chainClosed := if_pos h

end IfBlock

/-! ## §2. Chains. -/

/-- An if chain. -/
structure IfChain where
  test : Expr
  body : List Node := []
  elseIfs : List (Expr × List Node) := []
  otherwise : Option (List Node) := none

namespace IfChain

/-- The chain as a node. -/
def node (c : IfChain) : Node := .ifChain c.test c.body c.elseIfs c.otherwise

/-- The chain with one test for every statement, and possibly a statement for when none holds. -/
def ofBranches (tests : List Expr) (statements : List Node) (otherwise : Option Node) :
    Except UsageError IfChain :=
  if tests.length ≠ statements.length then
    .error (.mismatchedBranches tests.length statements.length)
  else
    match tests.zip statements with
    | [] => .error .emptyChain
    | (test, statement) :: rest =>
      .ok
        { test
          body := [statement]
          elseIfs := rest.map fun (test, statement) => (test, [statement])
          otherwise := otherwise.map fun statement => [statement] }

end IfChain

/-- The branches behind the first one as those of a chain. -/
def Branch.split? : List Branch → Option (List (Expr × List Node) × Option (List Node))
  | [] => some ([], none)
  | ⟨.further test, body⟩ :: rest =>
    (split? rest).map fun (elseIfs, otherwise) => ((test, body) :: elseIfs, otherwise)
  | [⟨.last, body⟩] => some ([], some body)
  | _ => none

/-- The chain with the branches of a block. -/
def IfBlock.chain? (b : IfBlock) : Option IfChain :=
  match b.head with
  | ⟨.first test, body⟩ =>
    (Branch.split? b.rest).map fun (elseIfs, otherwise) => { test, body, elseIfs, otherwise }
  | _ => none

end FeatureStudio
