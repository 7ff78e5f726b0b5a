/-
  FeatureStudio.Proofs.Script.Chain: if blocks as the branches that were opened.

  A block is put together by opening branches and adding statements.  A step opens a branch at the
  end or adds to the last one; once there is a branch without a test, no other can be opened.  So
  whatever the steps are, the branches are those of a chain: one with the first test, those with
  further tests in order, and one without a test at the end exactly if the block is closed.

  Main statements:
    * `IfBlock.exists_active`, `IfBlock.next_of_open`, `IfBlock.next_of_closed`: what a step does to
      the branches.
    * `IfBlock.Ordered.next`, `IfBlock.ordered_after`: a block has the branches of a chain.
    * `IfBlock.branches_after`: the branches that steps leave, with what was added to each.
    * `IfChain.build_node`: the chain in a tree is written as the block.
    * `IfBlock.ofBranches_eq_extend`: a block of tests and statements is made step by step.
    * `IfBlock.ofBranches_cases`: what comes of tests and statements.
    * `IfBlock.keepsBranches`: what holds of blocks however they are put together.
-/
import FeatureStudio.Proofs.Fallible
import FeatureStudio.Proofs.Script.Outcome

namespace FeatureStudio

open Build Render

/-! ## §1. Chains as blocks. -/

namespace IfChain

/-- The block that has the branches of a chain. -/
def block (c : IfChain) : IfBlock where
  head := ⟨.first c.test, c.body⟩
  rest := c.elseIfs.map (fun p => ⟨.further p.1, p.2⟩)
    ++ (c.otherwise.map fun body => ⟨.last, body⟩).toList
  closed := c.otherwise.isSome

/-- Branches with tests come first, and one without a test is the last. -/
theorem heads_block (c : IfChain) :
    c.block.branches.map Branch.head
      = .first c.test :: (c.elseIfs.map Prod.fst).map .further
        ++ if c.block.closed then [.last] else [] := by
  obtain ⟨test, body, elseIfs, otherwise⟩ := c
  cases otherwise <;> simp [block, IfBlock.branches, Function.comp_def]

/-- A chain can be told from its block. -/
theorem chain?_block (c : IfChain) : c.block.chain? = some c := by
  obtain ⟨test, body, elseIfs, otherwise⟩ := c
  have hsplit : Branch.split? (elseIfs.map (fun p => ⟨.further p.1, p.2⟩)
      ++ (otherwise.map fun body => ⟨.last, body⟩).toList) = some (elseIfs, otherwise) := by
    induction elseIfs with
    | nil => cases otherwise <;> rfl
    | cons p elseIfs ih => rw [List.map_cons, List.cons_append, Branch.split?, ih]; rfl
  exact congrArg (Option.map fun p => (⟨test, body, p.1, p.2⟩ : IfChain)) hsplit

section

variable {c : IfChain} {test test' : Expr} {body body' : List Node}
  {elseIfs : List (Expr × List Node)}

theorem elseIf_block (h : c.otherwise = none) (test : Expr) :
    c.block.elseIf test = .ok (block { c with elseIfs := c.elseIfs ++ [(test, [])] }) := by
  simp [block, IfBlock.elseIf, h]

theorem orElse_block (h : c.otherwise = none) :
    c.block.orElse = .ok (block { c with otherwise := some [] }) := by
  simp [block, IfBlock.orElse, h]

theorem add_block_otherwise (n : Node) :
    (block ⟨test, body, elseIfs, some body'⟩).add n
      = block ⟨test, body, elseIfs, some (body' ++ [n])⟩ := by
  simp [block, IfBlock.add, IfBlock.updateActive]

theorem add_block_elseIf (n : Node) :
    (block ⟨test, body, elseIfs ++ [(test', body')], none⟩).add n
      = block ⟨test, body, elseIfs ++ [(test', body' ++ [n])], none⟩ := by
  simp [block, IfBlock.add, IfBlock.updateActive]

theorem add_block_first (n : Node) :
    (block ⟨test, body, [], none⟩).add n = block ⟨test, body ++ [n], [], none⟩ := rfl

end

/-- What is added to a block is added to a branch of the chain. -/
theorem exists_add_block (c : IfChain) (n : Node) :
    ∃ d : IfChain, d.test = c.test ∧ c.block.add n = d.block := by
  obtain ⟨test, body, elseIfs, otherwise⟩ := c
  cases otherwise with
  | some last => exact ⟨⟨test, body, elseIfs, some (last ++ [n])⟩, rfl, add_block_otherwise n⟩
  | none =>
      rcases List.eq_nil_or_concat' elseIfs with rfl | ⟨bs, ⟨test', body'⟩, rfl⟩
      · exact ⟨⟨test, body ++ [n], [], none⟩, rfl, add_block_first n⟩
      · exact ⟨⟨test, body, bs ++ [(test', body' ++ [n])], none⟩, rfl, add_block_elseIf n⟩

end IfChain

namespace IfBlock

variable {b : IfBlock} {test : Expr}

/-! ## §2. Steps. -/

/-- **The branch opened last is the last one**, and no other is changed. -/
theorem exists_active (b : IfBlock) :
    ∃ init, b.branches = init ++ [b.active] ∧
      ∀ change, (b.updateActive change).branches = init ++ [change b.active] := by
  obtain ⟨head, rest, closed⟩ := b
  rcases List.eq_nil_or_concat' rest with rfl | ⟨rest, branch, rfl⟩
  · exact ⟨[], rfl, fun _ => rfl⟩
  · refine ⟨head :: rest, ?_, fun change => ?_⟩
    · simp [branches, active]
    · simp [branches, active, updateActive]

theorem closed_add (b : IfBlock) (n : Node) : (b.add n).closed = b.closed := by
  unfold add updateActive
  split <;> rfl

/-- A step in putting a block together. -/
inductive Step where
  | add (n : Node)
  | elseIf (test : Expr)
  | orElse

/-- Whether the step is the one that closes a block. -/
def Step.closes : Step → Bool
  | .orElse => true
  | _ => false

/-- What opens the branch that a step is to open. -/
def Step.opens? : Step → Option BranchHead
  | .add _ => none
  | .elseIf test => some (.further test)
  | .orElse => some .last

/-- The step on a block. -/
def apply (b : IfBlock) : Step → Except UsageError IfBlock
  | .add n => .ok (b.add n)
  | .elseIf test => b.elseIf test
  | .orElse => b.orElse

/-- The block after a step.  A step that fails leaves the block as it was. -/
def next (b : IfBlock) (s : Step) : IfBlock := (b.apply s).toOption.getD b

/-- The block that steps make of the one that has only a first branch. -/
def after (test : Expr) (steps : List Step) : IfBlock := steps.foldl next (start test)

theorem after_append_single (test : Expr) (steps : List Step) (s : Step) :
    after test (steps ++ [s]) = (after test steps).next s := List.foldl_concat ..

/-- A closed block stays as it is, whatever branch is to be opened. -/
theorem next_of_closed (h : b.closed) {s : Step} {head : BranchHead}
    (hs : s.opens? = some head) : b.next s = b := by
  cases s with
  | add n => cases hs
  | elseIf test =>
      rw [next, apply, elseIf_closed h]
      rfl
  | orElse =>
      rw [next, apply, orElse_closed h]
      rfl

/-- An open block gets the branch at the end, empty. -/
theorem next_of_open (h : b.closed = false) {s : Step} {head : BranchHead}
    (hs : s.opens? = some head) :
    (b.next s).closed = s.closes ∧ (b.next s).branches = b.branches ++ [⟨head, []⟩] := by
  cases s with
  | add n => cases hs
  | elseIf test =>
      cases hs
      simp [next, apply, elseIf, h, Except.toOption, branches, Step.closes]
  | orElse =>
      cases hs
      simp [next, apply, orElse, h, Except.toOption, branches, Step.closes]

theorem closed_next (b : IfBlock) (s : Step) : (b.next s).closed = (b.closed || s.closes) := by
  cases hs : s.opens? with
  | none =>
      cases s with
      | add n => exact (closed_add b n).trans (Bool.or_false _).symm
      | elseIf test => cases hs
      | orElse => cases hs
  | some head =>
      cases h : b.closed with
      | true => rw [next_of_closed h hs, h, Bool.true_or]
      | false => rw [(next_of_open h hs).1, Bool.false_or]

/-- **A block is closed as soon as one of the steps closes it.** -/
theorem closed_after (test : Expr) (steps : List Step) :
    (after test steps).closed = steps.any Step.closes := by
  induction steps using List.reverseRecOn with
  | nil => rfl
  | append_singleton steps s ih =>
      rw [after_append_single, closed_next, ih, List.any_append, List.any_cons, List.any_nil,
        Bool.or_false]

/-- The branches of a block are in order: they are those of a chain with the first test. -/
def Ordered (test : Expr) (b : IfBlock) : Prop := ∃ c : IfChain, c.test = test ∧ b = c.block

/-- **A step leaves the branches in order.** -/
theorem Ordered.next (h : b.Ordered test) (s : Step) : (b.next s).Ordered test := by
  obtain ⟨c, hc, rfl⟩ := h
  cases s with
  | add n =>
      obtain ⟨d, hd, hadd⟩ := c.exists_add_block n
      exact ⟨d, hd.trans hc, hadd⟩
  | elseIf test' =>
      cases hlast : c.otherwise with
      | some body => exact ⟨c, hc, next_of_closed (by simp [IfChain.block, hlast]) rfl⟩
      | none =>
          refine ⟨{ c with elseIfs := c.elseIfs ++ [(test', [])] }, hc, ?_⟩
          rw [IfBlock.next, apply, IfChain.elseIf_block hlast]
          rfl
  | orElse =>
      cases hlast : c.otherwise with
      | some body => exact ⟨c, hc, next_of_closed (by simp [IfChain.block, hlast]) rfl⟩
      | none =>
          refine ⟨{ c with otherwise := some [] }, hc, ?_⟩
          rw [IfBlock.next, apply, IfChain.orElse_block hlast]
          rfl

/-- **However a block is put together, its branches are in order.** -/
theorem ordered_after (test : Expr) (steps : List Step) : (after test steps).Ordered test := by
  induction steps using List.reverseRecOn with
  | nil => exact ⟨{ test }, rfl, rfl⟩
  | append_singleton steps s ih =>
      rw [after_append_single]
      exact ih.next s

/-! ## §3. What is in each branch. -/

/-- What opens the branches that steps open: none is opened behind the one without a test. -/
def openings : List Step → List BranchHead
  | [] => []
  | .add _ :: rest => openings rest
  | .elseIf test :: rest => .further test :: openings rest
  | .orElse :: _ => [.last]

theorem openings_append (steps rest : List Step) :
    openings (steps ++ rest)
      = openings steps ++ if steps.any Step.closes then [] else openings rest := by
  induction steps with
  | nil => rfl
  | cons s steps ih =>
      cases s with
      | add n => exact ih
      | elseIf test => exact congrArg (BranchHead.further test :: ·) ih
      | orElse => rfl

/-- The statements that are added while `k` branches have been opened behind the first, in order. -/
def addedTo (k : Nat) (steps : List Step) : List Node :=
  steps.zipIdx.filterMap fun p =>
    match p.1 with
    | .add n => if (openings (steps.take p.2)).length = k then some n else none
    | _ => none

theorem addedTo_append_single (k : Nat) (steps : List Step) (s : Step) :
    addedTo k (steps ++ [s]) = addedTo k steps ++
      match s with
      | .add n => if (openings steps).length = k then [n] else []
      | _ => [] := by
  unfold addedTo
  rw [List.zipIdx_append, List.filterMap_append]
  congr 1
  · -- what was opened before a step is not changed by later ones
    refine List.filterMap_congr fun p hp => ?_
    have hle : p.2 ≤ steps.length := by
      have := List.snd_lt_of_mem_zipIdx hp
      omega
    rw [List.take_append_of_le_length hle]
  · cases s with
    | add n => by_cases h : (openings steps).length = k <;> simp [h]
    | elseIf test => rfl
    | orElse => rfl

theorem addedTo_append_of_opens {s : Step} {head : BranchHead} (hs : s.opens? = some head) (k : Nat)
    (steps : List Step) : addedTo k (steps ++ [s]) = addedTo k steps := by
  rw [addedTo_append_single]
  cases s with
  | add n => cases hs
  | elseIf test => exact List.append_nil _
  | orElse => exact List.append_nil _

/-- Nothing is added to a branch that is not opened. -/
theorem addedTo_of_lt {k : Nat} {steps : List Step} (h : (openings steps).length < k) :
    addedTo k steps = [] := by
  induction steps using List.reverseRecOn with
  | nil => rfl
  | append_singleton steps s ih =>
      have hlt : (openings steps).length < k := by
        rw [openings_append, List.length_append] at h
        omega
      rw [addedTo_append_single, ih hlt]
      cases s with
      | add n => simp [Nat.ne_of_lt hlt]
      | elseIf test => rfl
      | orElse => rfl

/-- The branches that steps leave, as they are told from the steps. -/
def told (test : Expr) (steps : List Step) : List Branch :=
  (BranchHead.first test :: openings steps).zipIdx.map fun p => ⟨p.1, addedTo p.2 steps⟩

/-- Adding a statement changes the last branch only. -/
theorem told_add (test : Expr) (steps : List Step) (n : Node) :
    ∃ init head body, told test steps = init ++ [⟨head, body⟩] ∧
      told test (steps ++ [.add n]) = init ++ [⟨head, body ++ [n]⟩] := by
  -- the last branch has the number of those that were opened
  obtain ⟨heads, head, hheads⟩ : ∃ heads head,
      BranchHead.first test :: openings steps = heads ++ [head] :=
    ⟨_, _, (List.dropLast_append_getLast (List.cons_ne_nil _ _)).symm⟩
  have hlength : (openings steps).length = heads.length := by
    have := congrArg List.length hheads
    simpa using this
  have hopenings : openings (steps ++ [.add n]) = openings steps := by
    rw [openings_append]
    split <;> simp [openings]
  refine ⟨heads.zipIdx.map fun p => ⟨p.1, addedTo p.2 steps⟩, head, addedTo heads.length steps,
    ?_, ?_⟩
  · rw [told, hheads, List.zipIdx_append, List.map_append]
    simp
  · rw [told, hopenings, hheads, List.zipIdx_append, List.map_append]
    congr 1
    · refine List.map_congr_left fun p hp => ?_
      have hlt := List.snd_lt_of_mem_zipIdx hp
      have hne : (openings steps).length ≠ p.2 := by omega
      simp [addedTo_append_single, hne]
    · simp [addedTo_append_single, hlength]

/-- Opening a branch in an open chain puts it at the end, empty. -/
theorem told_opening {test : Expr} {steps : List Step} {s : Step} {head : BranchHead}
    (hopen : steps.any Step.closes = false) (hs : s.opens? = some head) :
    told test (steps ++ [s]) = told test steps ++ [⟨head, []⟩] := by
  have hopenings : openings [s] = [head] := by cases s <;> cases hs <;> rfl
  have hnone := addedTo_of_lt (Nat.lt_succ_self (openings steps).length)
  unfold told
  rw [openings_append, hopen, if_neg Bool.false_ne_true, hopenings, ← List.cons_append,
    List.zipIdx_append, List.map_append]
  simp [addedTo_append_of_opens hs, hnone]

/-- A closed chain has the branches that it had. -/
theorem told_closed {test : Expr} {steps : List Step} {s : Step} {head : BranchHead}
    (hclosed : steps.any Step.closes) (hs : s.opens? = some head) :
    told test (steps ++ [s]) = told test steps := by
  unfold told
  rw [openings_append, if_pos hclosed, List.append_nil]
  simp only [addedTo_append_of_opens hs]

/-- **The branches that steps leave**: the first, those that were opened, and in each what was
added to it while it was the last one. -/
theorem branches_after (test : Expr) (steps : List Step) :
    (after test steps).branches = told test steps := by
  induction steps using List.reverseRecOn with
  | nil => rfl
  | append_singleton steps s ih =>
      rw [after_append_single]
      cases hs : s.opens? with
      | none =>
          obtain ⟨n, rfl⟩ : ∃ n, s = .add n := by
            cases s with
            | add n => exact ⟨n, rfl⟩
            | elseIf test => cases hs
            | orElse => cases hs
          -- both lists change in their last branch only, and before the step they are the same
          obtain ⟨init, hbranches, hchanged⟩ := (after test steps).exists_active
          obtain ⟨init', head, body, htold, htold'⟩ := told_add test steps n
          have hsame := hbranches.symm.trans (ih.trans htold)
          obtain ⟨rfl, hlast⟩ := List.append_inj' hsame rfl
          have hactive : (after test steps).active = ⟨head, body⟩ := by simpa using hlast
          have hadded := hchanged fun branch => { branch with body := branch.body ++ [n] }
          rw [hactive] at hadded
          exact hadded.trans htold'.symm
      | some head =>
          have hclosed := closed_after test steps
          cases hany : steps.any Step.closes with
          | true => rw [next_of_closed (hclosed.trans hany) hs, told_closed hany hs, ih]
          | false => rw [(next_of_open (hclosed.trans hany) hs).2, told_opening hany hs, ih]

end IfBlock

/-! ## §4. Text. -/

theorem testedBranch_eq (word : String) (test : Expr) (body : List Node) :
    testedBranch word test.operand (buildAll body) = runIn .statement do
      let line ← testLine word test
      return line ++ "\n" ++ (← runIn .statement (block false (buildAll body))) := by
  have hline : ")\n" = ")" ++ "\n" := rfl
  unfold testedBranch testLine
  simp only [hline, bind_assoc, pure_bind, String.append_assoc]

theorem run_first (test : Expr) (body : List Node) :
    run (.inScope .statement) (Branch.build ⟨.first test, body⟩)
      = testedBranch "if" ⟨test.shape, test.render⟩ (buildAll body) :=
  (testedBranch_eq "if" test body).symm

theorem run_further (test : Expr) (body : List Node) :
    run (.inScope .statement) (Branch.build ⟨.further test, body⟩)
      = testedBranch "else if" ⟨test.shape, test.render⟩ (buildAll body) :=
  (testedBranch_eq "else if" test body).symm

theorem run_last (body : List Node) :
    run (.inScope .statement) (Branch.build ⟨.last, body⟩) = elseBranch (buildAll body) := rfl

theorem elseIfBranches_eq (bs : List (Expr × List Node)) :
    elseIfBranches (branches bs) = do
      return String.join (← runAll (.inScope .statement)
        ((bs.map fun p => (⟨.further p.1, p.2⟩ : Branch)).map Branch.build)) := by
  induction bs with
  | nil => rfl
  | cons b bs ih =>
      simp only [branches, elseIfBranches, ih, List.map_cons, runAll, run_further,
        bind_assoc, pure_bind, String.join_cons]

theorem runAll_append (o : Overrides) (parts rest : List Rendering) :
    runAll o (parts ++ rest) = do
      let texts ← runAll o parts
      return texts ++ (← runAll o rest) := by
  induction parts with
  | nil => simp [runAll]
  | cons part parts ih => simp [runAll, ih]

/-- **A chain in a tree is written as the block**, branch by branch. -/
theorem IfChain.build_node (c : IfChain) : c.node.build = c.block.build := by
  obtain ⟨test, body, elseIfs, otherwise⟩ := c
  unfold IfBlock.build
  cases otherwise with
  | none =>
      simp only [node, Node.build, ifChain, IfChain.block, IfBlock.branches, elseIfBranches_eq,
        buildOption, Option.map_none, Option.toList_none, List.append_nil, List.map_cons, runAll,
        run_first, bind_assoc, pure_bind, String.join_cons, String.append_empty]
  | some last =>
      simp only [node, Node.build, ifChain, IfChain.block, IfBlock.branches, elseIfBranches_eq,
        buildOption, Option.map_some, Option.toList_some, List.map_append, List.map_cons,
        List.map_nil, runAll_append, runAll, run_first, run_last, bind_assoc, pure_bind,
        String.join_cons, String.join_append, String.join_nil, String.append_empty,
        String.append_assoc]

namespace IfBlock

variable {b : IfBlock} {test : Expr}

/-- What a block is in a tree: a chain with the same text. -/
theorem Ordered.chained (h : b.Ordered test) :
    ∃ chain, b.chain? = some chain ∧ chain.block = b ∧ chain.node.build = b.build := by
  obtain ⟨c, -, rfl⟩ := h
  exact ⟨c, c.chain?_block, rfl, c.build_node⟩

/-! ## §5. Blocks of tests and statements. -/

/-- What steps make of a block, if none of them fails. -/
def extend (b : IfBlock) (steps : List Step) : Except UsageError IfBlock := steps.foldlM apply b

/-- The steps that open a branch for every pair, and one without a test if there is a statement for
it. -/
def pairSteps (pairs : List (Expr × Node)) (otherwise : Option Node) : List Step :=
  pairs.flatMap (fun p => [.elseIf p.1, .add p.2])
    ++ otherwise.toList.flatMap fun n => [.orElse, .add n]

theorem extend_append (b : IfBlock) (steps rest : List Step) :
    b.extend (steps ++ rest) = (b.extend steps).bind (·.extend rest) := List.foldlM_append

theorem addPairs_cons (b : IfBlock) (p : Expr × Node) (pairs : List (Expr × Node)) :
    b.addPairs (p :: pairs) = (b.elseIf p.1).bind fun b => (b.add p.2).addPairs pairs := by
  obtain ⟨test, statement⟩ := p
  rw [addPairs, List.foldlM_cons]
  dsimp only
  cases b.elseIf test <;> rfl

theorem extend_pair (b : IfBlock) (test : Expr) (n : Node) :
    b.extend [.elseIf test, .add n] = (b.elseIf test).map (·.add n) := by
  unfold extend
  rw [List.foldlM_cons, apply]
  cases b.elseIf test <;> rfl

/-- Pairs are added step by step. -/
theorem addPairs_eq_extend (b : IfBlock) (pairs : List (Expr × Node)) :
    b.addPairs pairs = b.extend (pairs.flatMap fun p => [.elseIf p.1, .add p.2]) := by
  induction pairs generalizing b with
  | nil => rfl
  | cons p pairs ih =>
      rw [addPairs_cons, List.flatMap_cons, extend_append, extend_pair]
      cases b.elseIf p.1 with
      | error error => rfl
      | ok b' => exact ih (b'.add p.2)

/-- **A block of tests and statements is made step by step.** -/
theorem ofBranches_eq_extend {tests : List Expr} {statements : List Node} {test : Expr}
    {statement : Node} {pairs : List (Expr × Node)} (otherwise : Option Node)
    (hlength : tests.length = statements.length)
    (hzip : tests.zip statements = (test, statement) :: pairs) :
    ofBranches tests statements otherwise
      = (start test).extend (.add statement :: pairSteps pairs otherwise) := by
  have hfirst : (start test).extend (.add statement :: pairSteps pairs otherwise)
      = ((start test).add statement).extend (pairSteps pairs otherwise) := rfl
  rw [hfirst, pairSteps, extend_append, ← addPairs_eq_extend, ofBranches,
    if_neg (not_not_intro hlength), hzip]
  refine congrArg (((start test).add statement).addPairs pairs).bind (funext fun b => ?_)
  cases otherwise with
  | none => rfl
  | some n =>
      show _ = b.extend [.orElse, .add n]
      rw [extend, List.foldlM_cons, apply]
      cases b.orElse <;> rfl

/-- Pairs of tests and statements become branches of an open block. -/
theorem addPairs_block (test : Expr) (body : List Node) (elseIfs : List (Expr × List Node))
    (pairs : List (Expr × Node)) :
    (IfChain.block ⟨test, body, elseIfs, none⟩).addPairs pairs
      = .ok (IfChain.block ⟨test, body, elseIfs ++ pairs.map (fun p => (p.1, [p.2])), none⟩) := by
  induction pairs generalizing elseIfs with
  | nil =>
      rw [List.map_nil, List.append_nil]
      rfl
  | cons p pairs ih =>
      rw [addPairs_cons, IfChain.elseIf_block rfl, Except.bind, IfChain.add_block_elseIf, ih,
        List.nil_append, List.append_assoc]
      rfl

/-- **A block of tests and statements has the branches of the chain**, and where there is no chain
there is no block, for the same reason. -/
theorem ofBranches_eq_map_block (tests : List Expr) (statements : List Node)
    (otherwise : Option Node) :
    ofBranches tests statements otherwise
      = (IfChain.ofBranches tests statements otherwise).map IfChain.block := by
  unfold ofBranches IfChain.ofBranches
  split
  · rfl
  · cases tests.zip statements with
    | nil => rfl
    | cons p pairs =>
        obtain ⟨test, statement⟩ := p
        -- all branches are opened in an open block, so no step fails
        have hpairs := addPairs_block test [statement] [] pairs
        rw [List.nil_append] at hpairs
        have hstart : (start test).add statement = IfChain.block ⟨test, [statement], [], none⟩ :=
          rfl
        simp only [hstart, hpairs]
        cases otherwise with
        | none => rfl
        | some n =>
            have hlast := IfChain.orElse_block
              (c := ⟨test, [statement], pairs.map fun p => (p.1, [p.2]), none⟩) rfl
            simp only [bind, Except.bind, hlast, pure, Except.pure, IfChain.add_block_otherwise]
            rfl

/-- What comes of tests and statements: every test is taken together with the statement at its
place. -/
structure Pairs (tests : List Expr) (statements : List Node) (otherwise : Option Node) : Prop where
  mismatched : ∀ n m, ofBranches tests statements otherwise = .error (.mismatchedBranches n m) ↔
    tests.length ≠ statements.length ∧ n = tests.length ∧ m = statements.length
  empty : ofBranches tests statements otherwise = .error .emptyChain ↔
    tests = [] ∧ statements = []
  paired : tests.length = statements.length → tests ≠ [] →
    ∃ b, ofBranches tests statements otherwise = .ok b ∧ b.closed = otherwise.isSome ∧
      b.branches
        = (tests.zip statements).mapIdx
            (fun i p => ⟨if i = 0 then .first p.1 else .further p.1, [p.2]⟩)
          ++ (otherwise.map fun n => ⟨.last, [n]⟩).toList
  stepwise : ∀ test statement pairs, tests.length = statements.length →
    tests.zip statements = (test, statement) :: pairs →
      ofBranches tests statements otherwise
        = (start test).extend (.add statement :: pairSteps pairs otherwise)
  /-- A tree has the same branches. -/
  chained : ofBranches tests statements otherwise
    = (IfChain.ofBranches tests statements otherwise).map IfChain.block

theorem branches_pairs (test : Expr) (statement : Node) (pairs : List (Expr × Node))
    (otherwise : Option Node) :
    (IfChain.block ⟨test, [statement], pairs.map (fun p => (p.1, [p.2])),
        otherwise.map fun n => [n]⟩).branches
      = ((test, statement) :: pairs).mapIdx
          (fun i p => ⟨if i = 0 then .first p.1 else .further p.1, [p.2]⟩)
        ++ (otherwise.map fun n => ⟨.last, [n]⟩).toList := by
  have hfurther : (pairs.map fun p => (p.1, [p.2])).map
        (fun p => (⟨.further p.1, p.2⟩ : Branch))
      = pairs.mapIdx fun i p => ⟨if i + 1 = 0 then .first p.1 else .further p.1, [p.2]⟩ := by
    refine List.ext_getElem? fun i => ?_
    simp [Function.comp_def]
  rw [branches, IfChain.block, hfurther, List.mapIdx_cons, if_pos rfl, Option.map_map]
  rfl

/-- The three things that come of tests and statements: no block for either of two reasons, or the
block of the pairs. -/
theorem ofBranches_cases (tests : List Expr) (statements : List Node) (otherwise : Option Node) :
    (tests.length ≠ statements.length ∧ ofBranches tests statements otherwise
        = .error (.mismatchedBranches tests.length statements.length)) ∨
      (tests = [] ∧ statements = [] ∧ ofBranches tests statements otherwise = .error .emptyChain) ∨
      ∃ test statement pairs, tests.length = statements.length ∧ tests ≠ [] ∧
        tests.zip statements = (test, statement) :: pairs ∧
        ofBranches tests statements otherwise
          = .ok (IfChain.block ⟨test, [statement], pairs.map (fun p => (p.1, [p.2])),
              otherwise.map fun n => [n]⟩) := by
  by_cases hlength : tests.length = statements.length
  · cases tests with
    | nil =>
        have hnil : statements = [] := List.length_eq_zero_iff.mp hlength.symm
        exact .inr (.inl ⟨rfl, hnil, by rw [hnil]; rfl⟩)
    | cons test tests =>
        obtain ⟨statement, statements, rfl⟩ := List.exists_cons_of_length_eq_add_one hlength.symm
        refine .inr (.inr ⟨test, statement, tests.zip statements, hlength, List.cons_ne_nil _ _,
          rfl, ?_⟩)
        rw [ofBranches_eq_map_block, IfChain.ofBranches, if_neg (not_not_intro hlength)]
        rfl
  · exact .inl ⟨hlength, by rw [ofBranches, if_pos hlength]⟩

/-- Tests and statements of different numbers make no block, nor does none of them. -/
theorem pairs (tests : List Expr) (statements : List Node) (otherwise : Option Node) :
    Pairs tests statements otherwise where
  mismatched n m := by
    rcases ofBranches_cases tests statements otherwise with
      ⟨hlength, h⟩ | ⟨rfl, rfl, h⟩ | ⟨_, _, _, hlength, -, -, h⟩
    · simp [h, hlength, @eq_comm Nat _ tests.length, @eq_comm Nat _ statements.length]
    · simp [h]
    · simp [h, hlength]
  empty := by
    rcases ofBranches_cases tests statements otherwise with
      ⟨hlength, h⟩ | ⟨rfl, rfl, h⟩ | ⟨_, _, _, -, hne, -, h⟩
    · have hsome : ¬ (tests = [] ∧ statements = []) := by
        rintro ⟨rfl, rfl⟩
        exact hlength rfl
      simp [h, hsome]
    · simp [h]
    · simp [h, hne]
  paired hlength hne := by
    obtain ⟨hlength', -⟩ | ⟨hnil, -⟩ | ⟨test, statement, pairs, -, -, hzip, h⟩ :=
      ofBranches_cases tests statements otherwise
    · exact absurd hlength hlength'
    · exact absurd hnil hne
    · refine ⟨_, h, by cases otherwise <;> rfl, ?_⟩
      rw [hzip]
      exact branches_pairs test statement pairs otherwise
  stepwise _ _ _ := ofBranches_eq_extend otherwise
  chained := ofBranches_eq_map_block tests statements otherwise

/-! ## §6. Blocks however they are put together. -/

/-- What holds of the block that steps make. -/
structure KeepsBranches (test : Expr) (steps : List Step) : Prop where
  /-- There is one branch with the first test, then those with further tests, and one without a
  test at the end exactly if the block is closed. -/
  heads : ∃ tests : List Expr, (after test steps).branches.map Branch.head
    = .first test :: tests.map .further
      ++ if (after test steps).closed then [.last] else []
  closed : (after test steps).closed ↔ Step.orElse ∈ steps
  elseIf : ∀ test' error, (after test steps).elseIf test' = .error error ↔
    error = .chainClosed ∧ (after test steps).closed
  orElse : ∀ error, (after test steps).orElse = .error error ↔
    error = .chainClosed ∧ (after test steps).closed
  /-- The branch opened last is the last one, and what is added to the block is added to it. -/
  active : ∃ init, (after test steps).branches = init ++ [(after test steps).active] ∧
    ∀ n, ((after test steps).add n).branches
      = init ++ [⟨(after test steps).active.head, (after test steps).active.body ++ [n]⟩]
  /-- Every statement is in the branch that was opened last before it, in the order in which they
  were added. -/
  branches : (after test steps).branches
    = (BranchHead.first test :: openings steps).zipIdx.map fun p => ⟨p.1, addedTo p.2 steps⟩
  /-- As a statement the text is that of the branches in order. -/
  text : ∀ c : Context, c.state.scope = .statement →
    (after test steps).build c
      = let written := runAll (.inScope .statement)
          ((after test steps).branches.map Branch.build) c
        (String.join written.1, written.2)
  /-- A tree has the same branches, and the same text. -/
  chained : ∃ chain, (after test steps).chain? = some chain ∧ chain.block = after test steps ∧
    chain.node.build = (after test steps).build

theorem any_closes_iff (steps : List Step) : steps.any Step.closes ↔ Step.orElse ∈ steps := by
  rw [List.any_eq_true]
  constructor
  · rintro ⟨s, hs, hcloses⟩
    cases s with
    | add n => cases hcloses
    | elseIf test => cases hcloses
    | orElse => exact hs
  · exact fun h => ⟨_, h, rfl⟩

theorem elseIf_eq_error_iff {test : Expr} {error : UsageError} :
    b.elseIf test = .error error ↔ error = .chainClosed ∧ b.closed := by
  cases h : b.closed with
  | true => simp [elseIf_closed h, @eq_comm _ UsageError.chainClosed]
  | false => simp [elseIf, h]

theorem orElse_eq_error_iff {error : UsageError} :
    b.orElse = .error error ↔ error = .chainClosed ∧ b.closed := by
  cases h : b.closed with
  | true => simp [orElse_closed h, @eq_comm _ UsageError.chainClosed]
  | false => simp [orElse, h]

theorem Ordered.heads (h : b.Ordered test) :
    ∃ tests : List Expr, b.branches.map Branch.head
      = .first test :: tests.map .further ++ if b.closed then [.last] else [] := by
  obtain ⟨c, rfl, rfl⟩ := h
  exact ⟨_, c.heads_block⟩

/-- As a statement a block is written branch by branch. -/
theorem build_eq (b : IfBlock) {c : Context} (hc : c.state.scope = .statement) :
    b.build c
      = let written := runAll (.inScope .statement) (b.branches.map Branch.build) c
        (String.join written.1, written.2) := by
  show (if c.state.scope ≠ .statement then _ else _ : Rendering) c = _
  rw [if_neg (not_not_intro hc)]
  rfl

/-- **However a block is put together, its branches are those that were opened**, with a branch
without a test at most at the end.  So blocks of tests and statements have a branch for every test,
with the statement at its place. -/
theorem keepsBranches :
    (∀ test steps, KeepsBranches test steps) ∧
      ∀ tests statements otherwise, Pairs tests statements otherwise := by
  refine ⟨fun test steps => ?_, pairs⟩
  have hordered := ordered_after test steps
  obtain ⟨init, hactive, hchanged⟩ := (after test steps).exists_active
  exact {
    heads := hordered.heads
    closed := by rw [closed_after, any_closes_iff]
    elseIf := fun _ _ => elseIf_eq_error_iff
    orElse := fun _ => orElse_eq_error_iff
    active := ⟨init, hactive, fun _ => hchanged _⟩
    branches := branches_after test steps
    text := fun _ => build_eq _
    chained := hordered.chained }

end IfBlock

end FeatureStudio
