/-
  FeatureStudio.Proofs.Render.Balance: forms of expression and node keep brackets balanced.

  Every form puts braces, brackets and quotes around the texts of its parts, each of them by hand.
  If the texts of the parts are balanced, and those that the form writes as they are, so is the
  text of the form, in every scope.  What is quoted may be any text.

  Main statements:
    * `balances_call`, `balances_conjunction`, …: forms of expression.
    * `balances_mapLiteral`, `balances_joined`: literals, and parts in a row.
    * `balances_functionDeclaration`, `balances_enumDeclaration`, …: forms of node.
-/
import FeatureStudio.Proofs.Keyed
import FeatureStudio.Proofs.Render.Composition
import FeatureStudio.Proofs.Render.Imports
import FeatureStudio.Proofs.Script.Verbatim

namespace FeatureStudio

open Build Render
open Text (IsBalanced Scan)

/-! ## §1. Balanced steps. -/

/-- The step gives a text that is balanced, for every indentation. -/
abbrev Balances (w : World) (s : State) (step : Rendering) : Prop :=
  Ensures w s (fun _ => step) fun f _ => ∀ u, IsBalanced (f u)

/-- So does the step, save that it may change the state. -/
abbrev BalancesPart (w : World) (s : State) (step : Rendering) : Prop :=
  Leaves w s (fun _ => step) fun f _ => ∀ u, IsBalanced (f u)

/-- In its place as an operand the text is balanced. -/
abbrev BalancesOperand (w : World) (s : State) (o : Operand) : Prop :=
  Balances w (s.inScope .expression) o.render

/-- A row of `n` texts that are balanced, for every indentation. -/
structure BalancedRow (n : Nat) (fs : Indent → List String) : Prop where
  length : ∀ u, (fs u).length = n
  balanced : ∀ u, ∀ text ∈ fs u, IsBalanced text

namespace BalancedRow

variable {n : Nat} {f : Indent → String} {fs : Indent → List String}

theorem nil : BalancedRow 0 fun _ => [] := ⟨fun _ => rfl, fun _ _ h => by cases h⟩

theorem cons (h : ∀ u, IsBalanced (f u)) (hs : BalancedRow n fs) :
    BalancedRow (n + 1) fun u => f u :: fs u where
  length u := congrArg (· + 1) (hs.length u)
  balanced u text ht := (List.mem_cons.mp ht).elim (fun ht => ht ▸ h u) (hs.balanced u text)

/-- Whether there is a text does not depend on the indentation. -/
theorem isEmpty (h : BalancedRow n fs) (u : Indent) : (fs u).isEmpty = (n == 0) := by
  rw [← h.length u]
  cases fs u <;> rfl

theorem intercalate (h : BalancedRow n fs) (separator : String)
    (hs : 1 < n → IsBalanced separator) (u : Indent) :
    IsBalanced (separator.intercalate (fs u)) :=
  IsBalanced.intercalate (fun hn => hs (h.length u ▸ hn)) (h.balanced u)

end BalancedRow

namespace Render

variable {w : World} {s : State} {a b c : Operand} {os : List Operand} {parts : List Rendering}

/-! ## §2. Expressions. -/

theorem ensures_balanced {f : Indent → String} (h : ∀ u, IsBalanced (f u)) :
    Ensures w s (fun u => return f u) fun g _ => ∀ u, IsBalanced (g u) := ensures_pure h

theorem balances_text {text : String} (h : IsBalanced text) : Balances w s (return text) :=
  ensures_balanced fun _ => h

/-- Two texts, one behind the other. -/
theorem balances_behind {head rest : Rendering} (hhead : Balances w s head)
    (hrest : Balances w s rest) :
    Balances w s (do
      let text ← head
      return text ++ (← rest)) :=
  hhead.bind fun _ _ hf => hrest.map fun _ _ hg u => (hf u).append (hg u)

/-- A marker is balanced. -/
theorem balances_expectedScope (expected : List Scope) : Balances w s (expectedScope expected) :=
  ensures_expectedScope expected fun _ =>
    show IsBalanced (sentinel "invalid scope") by decide

theorem ensures_indentedBalanced {f : Indent → String} (levels : Nat)
    (h : ∀ u, IsBalanced (f u)) :
    Ensures w s (fun u => indented (f u) levels) fun g _ => ∀ u, IsBalanced (g u) :=
  ensures_indented levels fun u => (h u).lines u levels

/-- What stands in one scope only is a marker elsewhere. -/
theorem balances_onlyIn {only : Scope} {expected : List Scope} {step : Rendering}
    (h : s.scope = only → Balances w s step) :
    Balances w s (do if (← scope) ≠ only then expectedScope expected else step) := by
  refine ensures_scope ?_
  by_cases hs : s.scope = only
  · rw [if_neg fun hne => hne hs]
    exact h hs
  · rw [if_pos hs]
    exact balances_expectedScope _

theorem balances_expression {render : Rendering} (h : s.scope ≠ .top → Balances w s render) :
    Balances w s (expression render) := by
  refine ensures_scope ?_
  split
  · exact balances_expectedScope _
  · rename_i hs
    refine (h hs).bind fun f ds hf => ensures_scope ?_
    cases hscope : s.scope with
    | top => exact absurd hscope hs
    | expression => exact ensures_pure hf
    | statement => exact ensures_pure fun u => (hf u).append (by decide)

theorem balances_operand (h : BalancesOperand w s a) : Balances w s a.text :=
  Operand.ensures_text h

theorem balances_above (least : Nat) (h : BalancesOperand w s a) :
    Balances w s (a.above least) := by
  refine (balances_operand h).map fun f ds hf u => ?_
  split
  · exact hf u
  · exact (hf u).parenthesized

theorem ensures_operands (h : ∀ o ∈ os, BalancesOperand w s o) :
    Ensures w s (fun _ => Operand.texts os) fun fs _ => BalancedRow os.length fs := by
  induction os with
  | nil => exact ensures_pure .nil
  | cons o os ih =>
      have hrest := ih fun o ho => h o (List.mem_cons_of_mem _ ho)
      exact (balances_operand (h o List.mem_cons_self)).bind fun _ _ hf =>
        hrest.map fun _ _ hfs => .cons hf hfs

theorem balances_parens (h : BalancesOperand w s a) : Balances w s (Operand.parens a).render :=
  (balances_operand h).map fun _ _ hf u => (hf u).parenthesized

theorem balances_unary (op : UnaryOp) (h : BalancesOperand w s a) :
    Balances w s (Operand.unary op a).render := by
  have hop : IsBalanced op.text := by cases op <;> decide
  refine (balances_above _ h).map fun f ds hf u => hop.append ?_
  split
  · exact (hf u).parenthesized
  · exact hf u

/-- Two texts and an operator between them. -/
theorem balances_infix {op : String} (hop : IsBalanced op) {left right : Rendering}
    (hl : Balances w s left) (hr : Balances w s right) :
    Balances w s (do
      let left ← left
      let right ← right
      return left ++ " " ++ op ++ " " ++ right) :=
  hl.bind fun _ _ hf => hr.map fun _ _ hg u =>
    ((((hf u).append (by decide)).append hop).append (by decide)).append (hg u)

theorem balances_binary (op : BinaryOp) (ha : BalancesOperand w s a) (hb : BalancesOperand w s b) :
    Balances w s (Operand.binary a op b).render :=
  balances_infix (by cases op <;> decide) (balances_above _ ha) (balances_above _ hb)

theorem balances_equality (op : EqualityOp) (ha : BalancesOperand w s a)
    (hb : BalancesOperand w s b) : Balances w s (Operand.equality a op b).render :=
  balances_infix (by cases op <;> decide) (balances_above _ ha) (balances_above _ hb)

theorem balances_ternary (ha : BalancesOperand w s a) (hb : BalancesOperand w s b)
    (hc : BalancesOperand w s c) : Balances w s (Operand.ternary a b c).render := by
  refine (balances_above _ ha).bind fun f ds hf => ?_
  refine (balances_operand hb).bind fun g es hg => ?_
  refine (balances_operand hc).map fun h fs hh u => ?_
  exact ((((hf u).append (by decide)).append (hg u)).append (by decide)).append (hh u)

theorem balances_access (ha : BalancesOperand w s a) (hs : ∀ o ∈ os, BalancesOperand w s o) :
    Balances w s (Operand.access a os).render := by
  refine (balances_above _ ha).bind fun f ds hf => (ensures_operands hs).map fun fs es hfs u => ?_
  refine (hf u).append (IsBalanced.join fun text ht => ?_)
  obtain ⟨key, hkey, rfl⟩ := List.mem_map.mp ht
  exact (hfs.balanced u key hkey).bracketed

theorem balances_call {name : String} (hname : IsBalanced name) (multiline : Bool)
    (hs : ∀ o ∈ os, BalancesOperand w s o) :
    Balances w s (Operand.call name os multiline).render := by
  have hcall : ∀ {text opening closing : String}, IsBalanced text →
      (Scan.awaiting []).Turns (.awaiting [')']) opening →
      (Scan.awaiting [')']).Turns (.awaiting []) closing →
        IsBalanced (name ++ opening ++ text ++ closing) := fun h ho hc =>
    h.between [')'] (Scan.Turns.append hname ho) hc
  refine (ensures_operands hs).bind fun fs ds hfs => ?_
  -- the layout depends on whether there are arguments, which no indentation changes
  simp only [hfs.isEmpty]
  split
  · have hlines := hfs.intercalate ",\n" fun _ => by decide
    exact (ensures_indentedBalanced 1 hlines).map fun f es hf u =>
      hcall (hf u) (by decide) (by decide)
  · exact ensures_pure fun u =>
      hcall (hfs.intercalate ", " (fun _ => by decide) u) (by decide) (by decide)

theorem balances_grouped (h : BalancesOperand w s a) : BalancesOperand w s a.grouped := by
  unfold Operand.grouped
  split
  · exact h
  · exact balances_parens h

theorem balances_foldl (hs : ∀ o ∈ os, BalancesOperand w s o) {acc : Operand}
    (hacc : BalancesOperand w s acc) :
    BalancesOperand w s (os.foldl (fun acc next => .binary acc .and next.grouped) acc) := by
  induction os generalizing acc with
  | nil => exact hacc
  | cons o os ih =>
      exact ih (fun o ho => hs o (List.mem_cons_of_mem _ ho))
        (balances_binary .and hacc (balances_grouped (hs o List.mem_cons_self)))

theorem balances_conjunction (hs : ∀ o ∈ os, BalancesOperand w s o) :
    BalancesOperand w s (Operand.conjunction os) := by
  cases os with
  | nil => exact balances_grouped (balances_text (by decide))
  | cons o os =>
      exact balances_grouped (balances_foldl (fun o ho => hs o (List.mem_cons_of_mem _ ho))
        (balances_grouped (hs o List.mem_cons_self)))

/-! ## §3. Literals. -/

/-- What is written of an entry as it is, its key or its value, is balanced. -/
structure BalancesEntry (w : World) (s : State) (style : MapStyle) (entry : String × Operand) :
    Prop where
  key : style.quotesKey entry.1 = false → IsBalanced entry.1
  value : Ensures w (s.inScope .expression) (fun _ => entry.2.render) fun f _ =>
    style.quotes entry.1 = false → ∀ u, IsBalanced (f u)

variable {style : MapStyle} {entries : List (String × Operand)}

theorem isBalanced_entryText {key value : String}
    (hkey : style.quotesKey key = false → IsBalanced key)
    (hvalue : style.quotes key = false → IsBalanced value) :
    IsBalanced (style.entryText key value) := by
  have hkeyText : IsBalanced (style.keyText key) := by
    unfold MapStyle.keyText
    split
    · exact Text.isBalanced_quote key
    · rename_i hquotes
      exact hkey (Bool.eq_false_iff.mpr hquotes)
  have hvalueText : IsBalanced (style.valueText key value) := by
    unfold MapStyle.valueText
    split
    · exact Text.isBalanced_quote value
    · rename_i hquotes
      exact hvalue (Bool.eq_false_iff.mpr hquotes)
  exact (hkeyText.append (by decide)).append hvalueText

theorem ensures_entriesBalanced (hs : ∀ e ∈ entries, BalancesEntry w s style e) :
    Ensures w s (fun _ => entryTexts style entries) fun fs _ => BalancedRow entries.length fs := by
  induction entries with
  | nil => exact ensures_pure .nil
  | cons e entries ih =>
      have hfirst := hs e List.mem_cons_self
      have hrest := ih fun e he => hs e (List.mem_cons_of_mem _ he)
      exact (Operand.ensures_text hfirst.value).bind fun f _ hf => hrest.map fun fs _ hfs =>
        .cons (fun u => isBalanced_entryText hfirst.key fun hq => hf hq u) hfs

/-- A literal with its type behind it, if it has one. -/
theorem isBalanced_typed {literal : String} {typeName : Option String} (h : IsBalanced literal) :
    (∀ t ∈ typeName, IsBalanced t) → IsBalanced (match typeName with
      | some typeName => literal ++ " as " ++ typeName
      | none => literal) := by
  intro htype
  cases typeName with
  | some typeName => exact (h.append (by decide)).append (htype typeName rfl)
  | none => exact h

theorem balances_mapLiteral (htype : s.scope = .expression → ∀ t ∈ style.typeName, IsBalanced t)
    (hs : s.scope = .expression → ∀ e ∈ entries, BalancesEntry w s style e) :
    Balances w s (mapLiteral style entries) := by
  refine balances_onlyIn fun hscope => ?_
  have htype' := htype hscope
  refine (ensures_entriesBalanced (hs hscope)).bind fun fs ds hfs => ?_
  simp only [hfs.isEmpty]
  split
  · exact (ensures_balanced (f := fun _ => "\x7b\x7d") fun _ => by decide).map
      fun f es hf u => isBalanced_typed (hf u) htype'
  · split
    · have hrow := hfs.intercalate ", " fun _ => by decide
      have hline : ∀ u, IsBalanced ("\x7b " ++ ", ".intercalate (fs u) ++ " \x7d") := fun u =>
        (hrow u).between ['\x7d'] (by decide) (by decide)
      exact (ensures_balanced hline).map fun f es hf u => isBalanced_typed (hf u) htype'
    · have hlines := hfs.intercalate ",\n" fun _ => by decide
      refine (ensures_indentedBalanced 1 fun u => (hlines u).append (by decide)).bind
        fun f es hf => ?_
      have hbody : ∀ u, IsBalanced ("\x7b\n" ++ f u ++ "\x7d") := fun u =>
        (hf u).between ['\x7d'] (by decide) (by decide)
      exact (ensures_balanced hbody).map fun f es hf u => isBalanced_typed (hf u) htype'

/-- A literal as an annotation, in any scope. -/
theorem balances_annotationLine
    (h : Balances w (s.inScope .expression) (mapLiteral style entries)) :
    Balances w s (annotationLine style entries) :=
  (Ensures.run h).map fun _ _ hf u => (IsBalanced.append (by decide) (hf u)).append (by decide)

/-! ## §4. Parts in a row. -/

theorem ensures_row {o : Overrides} (hs : ∀ p ∈ parts, BalancesPart w (s.override o) p) :
    Ensures w s (fun _ => runAll o parts) fun fs _ => BalancedRow parts.length fs := by
  induction parts with
  | nil => exact ensures_pure .nil
  | cons p parts ih =>
      have hrest := ih fun p hp => hs p (List.mem_cons_of_mem _ hp)
      exact (Leaves.run (hs p List.mem_cons_self)).bind fun _ _ hf =>
        hrest.map fun _ _ hfs => .cons hf hfs

/-- The state in which joined parts are rendered. -/
def Join.state (join : Join) (s : State) : State :=
  (if join.indented then { s with indentDepth := s.indentDepth + 1 } else s).override
    { scope := join.scope }

theorem balances_joined {join : Join}
    (hseparator : 1 < parts.length → IsBalanced (join.separator ++ join.ending))
    (hending : IsBalanced join.ending)
    (hs : ∀ p ∈ parts, BalancesPart w (join.state s) p) :
    Balances w s (joined join parts) := by
  -- a separator stands between two parts only, the ending also behind the last one
  have hrow : ∀ fs : Indent → List String, BalancedRow parts.length fs → ∀ u, IsBalanced
      ((join.separator ++ join.ending).intercalate (fs u) ++ join.ending) := fun fs hfs u =>
    (hfs.intercalate _ hseparator u).append hending
  unfold joined
  cases hdeep : join.indented with
  | false =>
      simp only [Join.state, hdeep, Bool.false_eq_true, if_false] at hs ⊢
      refine (ensures_row hs).bind fun fs ds hfs => ?_
      simp only [hfs.isEmpty]
      split
      · exact balances_text (by decide)
      · exact ensures_pure (hrow fs hfs)
  | true =>
      simp only [Join.state, hdeep, if_true] at hs ⊢
      refine Ensures.within uniform_deeper (fun t _ => rfl) (ensures_row hs) fun fs ds hfs => ?_
      simp only [hfs.isEmpty]
      split
      · exact balances_text (by decide)
      · exact ensures_indentedBalanced 1 (hrow fs hfs)

/-- A block of statements. -/
theorem balances_block (spaced : Bool) (hs : ∀ p ∈ parts, BalancesPart w s.inBody p) :
    Balances w s (block spaced parts) := by
  have hending : IsBalanced "" := by decide
  have hseparator : ∀ apart : Bool, IsBalanced ((if apart then "\n" else "") ++ "") := by decide
  have hbody : Balances w s (blockBody spaced parts) :=
    ensures_state (fun _ t ht => by rw [ht.inUi])
      (balances_joined (fun _ => hseparator _) hending hs)
  -- the braces are in the text of the block, around what was indented
  exact hbody.map fun f ds hf u => (hf u).between ['\x7d'] (by decide) (by decide)

theorem balances_sequence {separator : String}
    (hseparator : 1 < parts.length → IsBalanced separator)
    (hs : ∀ p ∈ parts, BalancesPart w (s.inScope .statement) p) :
    Balances w s (sequence separator parts) :=
  have hending : IsBalanced "" := by decide
  balances_joined (fun hlength => (hseparator hlength).append hending) hending hs

/-! ## §5. Statements. -/

theorem isBalanced_exportText (exported : Bool) : IsBalanced (exportText exported) := by
  cases exported <;> decide

theorem balances_constant {name : String} (hname : IsBalanced name) (exported : Bool)
    (h : s.scope ≠ .expression → BalancesOperand w s a) :
    Balances w s (constant name a exported) := by
  have hdeclared : ∀ head, IsBalanced head → s.scope ≠ .expression →
      Balances w s (constant.declaration name a head) := by
    intro head hhead hs
    refine (balances_operand (h hs)).map fun f ds hf u => ?_
    have hopen : IsBalanced (head ++ "const " ++ name ++ " = ") :=
      ((hhead.append (by decide)).append hname).append (by decide)
    exact (hopen.append (hf u)).append (by decide)
  refine ensures_scope ?_
  cases hscope : s.scope with
  | expression => exact balances_text hname
  | top => exact hdeclared _ (isBalanced_exportText exported) (by rw [hscope]; decide)
  | statement => exact hdeclared "" (by decide) (by rw [hscope]; decide)

theorem balances_declare {name : String} {value : Option Operand}
    (hname : s.scope = .statement → IsBalanced name)
    (h : s.scope = .statement → ∀ o ∈ value, BalancesOperand w s o) :
    Balances w s (declare name value) := by
  refine balances_onlyIn fun hs => ?_
  have hhead : IsBalanced ("var " ++ name) := IsBalanced.append (by decide) (hname hs)
  cases value with
  | none => exact balances_text (hhead.append (by decide))
  | some value =>
      exact (balances_operand (h hs value rfl)).map fun f ds hf u =>
        ((hhead.append (by decide)).append (hf u)).append (by decide)

theorem balances_assign (ha : s.scope ≠ .top → BalancesOperand w s a)
    (hb : s.scope ≠ .top → BalancesOperand w s b) : Balances w s (assign a b) :=
  balances_expression fun hs => (balances_operand (ha hs)).bind fun _ _ hf =>
    (balances_operand (hb hs)).map fun _ _ hg u => ((hf u).append (by decide)).append (hg u)

theorem balances_returning (h : s.scope = .statement → BalancesOperand w s a) :
    Balances w s (returning a) :=
  balances_onlyIn fun hs => (balances_operand (h hs)).map fun _ _ hf u =>
    (IsBalanced.append (by decide) (hf u)).append (by decide)

/-- The test of a branch and the statements of its body are balanced. -/
structure BalancesBranch (w : World) (s : State) (branch : Operand × List Rendering) : Prop where
  test : BalancesOperand w s branch.1
  body : ∀ p ∈ branch.2, BalancesPart w s.inBody p

theorem balances_testedBranch {word : String} (hword : IsBalanced word)
    {branch : Operand × List Rendering} (h : BalancesBranch w s branch) :
    Balances w s (testedBranch word branch.1 branch.2) := by
  refine Ensures.run ((balances_operand (s := s.inScope .statement) h.test).bind
    fun f ds hf => ?_)
  have hblock : Balances w (s.inScope .statement) (runIn .statement (block false branch.2)) :=
    Ensures.run (balances_block false h.body)
  refine hblock.map fun g es hg u => IsBalanced.append ?_ (hg u)
  exact (hf u).between [')'] (Scan.Turns.append hword (by decide)) (by decide)

theorem balances_elseBranch (h : ∀ p ∈ parts, BalancesPart w s.inBody p) :
    Balances w s (elseBranch parts) := by
  have hblock : Balances w (s.inScope .statement) (runIn .statement (block false parts)) :=
    Ensures.run (balances_block false h)
  exact Ensures.run (hblock.map fun _ _ hf u => IsBalanced.append (by decide) (hf u))

theorem balances_elseIfBranches {branches : List (Operand × List Rendering)}
    (hs : ∀ b ∈ branches, BalancesBranch w s b) : Balances w s (elseIfBranches branches) := by
  induction branches with
  | nil => exact balances_text (by decide)
  | cons b branches ih =>
      have hrest := ih fun b hb => hs b (List.mem_cons_of_mem _ hb)
      exact balances_behind (balances_testedBranch (by decide) (hs b List.mem_cons_self)) hrest

theorem balances_ifChain {elseIfs : List (Operand × List Rendering)}
    {otherwise : Option (List Rendering)}
    (hfirst : s.scope = .statement → BalancesBranch w s (a, parts))
    (hrest : s.scope = .statement → ∀ b ∈ elseIfs, BalancesBranch w s b)
    (hlast : s.scope = .statement → ∀ p ∈ otherwise.getD [], BalancesPart w s.inBody p) :
    Balances w s (ifChain a parts elseIfs otherwise) := by
  refine balances_onlyIn fun hs => ?_
  refine (balances_testedBranch (by decide) (hfirst hs)).bind fun f ds hf => ?_
  refine (balances_elseIfBranches (hrest hs)).bind fun g es hg => ?_
  cases otherwise with
  | none =>
      exact (balances_text (show IsBalanced "" by decide)).map fun h fs hh u =>
        ((hf u).append (hg u)).append (hh u)
  | some body =>
      exact (balances_elseBranch (hlast hs)).map fun h fs hh u =>
        ((hf u).append (hg u)).append (hh u)

/-! ## §6. Functions and predicates. -/

theorem isBalanced_formal {p : FormalParameter} (h : ∀ t ∈ p.texts, IsBalanced t) :
    IsBalanced p.text := by
  have hname : IsBalanced p.name := h _ List.mem_cons_self
  unfold FormalParameter.text
  cases ht : p.typeName with
  | none => exact hname
  | some typeName =>
      refine (hname.append (by decide)).append (h typeName ?_)
      rw [FormalParameter.texts, ht]
      exact List.mem_cons_of_mem _ List.mem_cons_self

/-- The head of a declaration behind its name: parameters and the type of the result. -/
theorem isBalanced_signature {h : FunctionHeader} (ht : ∀ t ∈ h.texts, IsBalanced t) :
    IsBalanced ("(" ++ h.parameterText ++ ")" ++ h.returnsText ++ "\n") := by
  have hparameters : IsBalanced h.parameterText := by
    refine IsBalanced.intercalate (fun _ => by decide) fun t hmem => ?_
    obtain ⟨p, hp, rfl⟩ := List.mem_map.mp hmem
    refine isBalanced_formal fun t hmem => ht t ?_
    exact List.mem_cons_of_mem _ (List.mem_append_right _ (List.mem_flatMap.mpr ⟨p, hp, hmem⟩))
  have hreturns : IsBalanced h.returnsText := by
    unfold FunctionHeader.returnsText
    cases hr : h.returns with
    | none => decide
    | some typeName =>
        refine IsBalanced.append (by decide) (ht typeName ?_)
        rw [FunctionHeader.texts, hr]
        exact List.mem_cons_of_mem _ (List.mem_append_left _ List.mem_cons_self)
  exact (hparameters.parenthesized.append hreturns).append (by decide)

theorem balances_functionDeclaration {h : FunctionHeader} (ht : ∀ t ∈ h.texts, IsBalanced t)
    (hs : ∀ p ∈ parts, BalancesPart w s.inBody p) :
    Balances w s (functionDeclaration h parts) := by
  have hname : IsBalanced h.name := ht _ List.mem_cons_self
  have hkeyword : IsBalanced h.kind.keyword := by cases h.kind <;> decide
  have hexport := isBalanced_exportText h.exported
  have hsignature := isBalanced_signature ht
  have hblock : Balances w s (runIn .statement (block h.spaced parts)) :=
    Ensures.run (balances_block h.spaced hs)
  refine hblock.bind fun f ds hf => ?_
  cases h.lambda with
  | true =>
      -- the line feed behind the last brace gives way to a semicolon
      refine ensures_pure fun u => ?_
      exact ((((((hexport.append (by decide)).append hname).append (by decide)).append
        hkeyword).append hsignature).append (hf u).trimLineFeeds).append (by decide)
  | false =>
      refine ensures_pure fun u => ?_
      exact ((((hexport.append hkeyword).append (by decide)).append hname).append
        hsignature).append (hf u)

/-- A call in a scope where it can stand. -/
theorem balances_callHere {name : String} (hname : IsBalanced name)
    (hs : ∀ o ∈ os, BalancesOperand w s o) : Balances w s (callHere name os) := by
  have hcall : Balances w (s.override {}) (Operand.call name os false).render :=
    balances_call hname false hs
  exact Ensures.run (balances_expression fun _ => hcall)

theorem balances_function {h : FunctionHeader} (hname : IsBalanced h.name)
    (ht : s.scope = .top → ∀ t ∈ h.texts, IsBalanced t)
    (hbody : s.scope = .top → ∀ p ∈ parts, BalancesPart w s.inBody p)
    (harguments : s.scope ≠ .top → ∀ o ∈ os, BalancesOperand w s o) :
    Balances w s (function h os parts) := by
  refine ensures_scope ?_
  split
  · rename_i hs
    exact balances_functionDeclaration (ht hs) (hbody hs)
  · rename_i hs
    exact balances_callHere hname (harguments hs)

/-- The argument of predicates on `definition`. -/
theorem balances_definitionArgument : ∀ o ∈ definitionArgument, BalancesOperand w s o := by
  intro o ho
  rw [List.mem_singleton.mp ho]
  exact balances_text (by decide)

theorem balances_uiPredicate {name : String} (hname : IsBalanced name)
    (hbody : s.scope = .top → ∀ p ∈ parts, BalancesPart w { s with inUi := true }.inBody p) :
    Balances w s (uiPredicate name parts) := by
  have hfull : IsBalanced (uiPredicateName name) := hname.append (by decide)
  have htexts : ∀ t ∈ (uiPredicateHeader name).texts, IsBalanced t := by
    intro t ht
    rcases List.mem_cons.mp ht with rfl | ht
    · exact hfull
    · have hdefinition : ∀ t ∈ ["definition", "map"], IsBalanced t := by decide
      exact hdefinition t ht
  refine ensures_scope ?_
  split
  · rename_i hs
    exact Ensures.run (balances_function hfull (fun _ => htexts) (fun _ => hbody hs)
      fun _ => balances_definitionArgument)
  · exact balances_callHere hfull balances_definitionArgument

/-! ## §7. Test predicates. -/

/-- The body, below the body as it was on one line. -/
theorem isBalanced_testBody {standard inlined : String} (hs : IsBalanced standard)
    (hi : IsBalanced inlined) : IsBalanced (testBody standard inlined) := by
  unfold testBody
  split
  · exact hs
  · exact ((IsBalanced.append (by decide) hs.trimEnd.onOneLine).append (by decide)).append hi

theorem balances_testStatements (inlined : Bool)
    (hs : ∀ o ∈ os, Balances w (s.inTests inlined) o.render) :
    Balances w s.inBody (testStatements inlined os) := by
  have hparts : ∀ p ∈ os.map fun o => expression o.render,
      BalancesPart w (s.inTests inlined) p := by
    intro p hp
    obtain ⟨o, ho, rfl⟩ := List.mem_map.mp hp
    exact (balances_expression fun _ => hs o ho).leaves
  refine ensures_state (fun _ t ht => by rw [ht.inTest]) ?_
  refine Ensures.within (uniform_setTest inlined) (fun t ht => ?_)
    (balances_joined (fun _ => by decide) (by decide) hparts) fun f ds hf => ensures_pure hf
  show { t with inTest := s.inBody.inTest } = t
  rw [← ht.inTest]

theorem balances_testPredicate {name : String} (hname : IsBalanced name) (exported : Bool)
    (hs : s.scope = .top → ∀ inlined, ∀ o ∈ os, Balances w (s.inTests inlined) o.render) :
    BalancesPart w s (testPredicate name exported os) := by
  refine leaves_scope ?_
  split
  · exact (balances_callHere hname balances_definitionArgument).leaves
  · rename_i hscope
    have htests := hs (Decidable.not_not.mp hscope)
    refine leaves_setState uniform_inBody (Ensures.leaves ?_)
    -- both bodies count: the one as it was may stand in the comment
    refine (balances_testStatements false (htests false)).bind fun f ds hf => ?_
    refine (balances_testStatements true (htests true)).bind fun g es hg => ?_
    refine (ensures_indentedBalanced 1 fun u => isBalanced_testBody (hf u) (hg u)).map
      fun h fs hh u => ?_
    have hhead : IsBalanced (exportText exported ++ "predicate " ++ name) :=
      ((isBalanced_exportText exported).append (by decide)).append hname
    have hcall : (Scan.awaiting []).Turns (.awaiting [')']) "(" := by decide
    have hparameter : IsBalanced FormalParameter.definition.text := by decide
    have hopen := ((Scan.Turns.append hhead hcall).append (hparameter.keeps [')'])).append
      (show (Scan.awaiting [')']).Turns (.awaiting ['\x7d']) ")\n\x7b\n" by decide)
    exact (hh u).between ['\x7d'] hopen (by decide)

theorem balances_testCall {name : String}
    (hname : s.scope ≠ .top → s.inTest = false → IsBalanced name)
    (hs : s.scope ≠ .top → s.inTest = true → ∀ o ∈ os, BalancesOperand w s o) :
    Balances w s (testCall name os) := by
  refine balances_expression fun hne => ensures_state (fun _ t ht => by rw [ht.inTest]) ?_
  split
  · rename_i htest
    exact balances_operand (balances_conjunction (hs hne htest))
  · rename_i htest
    exact balances_call (hname hne (Bool.eq_false_iff.mpr htest)) false balances_definitionArgument

/-! ## §8. Enumerations. -/

theorem balances_definitionField {name : String} (h : IsBalanced name) :
    BalancesOperand w s (definitionField name) :=
  balances_text (IsBalanced.append (by decide) h)

theorem balances_enumTest {v : EnumValue} (ht : ∀ t ∈ v.testTexts, IsBalanced t) :
    Balances w s (enumTest v).render := by
  have hqualified : IsBalanced v.qualified :=
    ((ht v.enumName (by simp [EnumValue.testTexts])).append (by decide)).append
      (ht v.token (by simp [EnumValue.testTexts]))
  exact balances_equality .equal
    (balances_definitionField (ht v.parameterName List.mem_cons_self))
    (balances_text hqualified)

theorem balances_enumTests {v : EnumValue} (ht : ∀ t ∈ v.testTexts, IsBalanced t) :
    ∀ o ∈ [enumTest v], Balances w s o.render := fun o ho => by
  rw [List.mem_singleton.mp ho]
  exact balances_enumTest ht

/-- The label of a value is quoted. -/
theorem balances_enumLabel (v : EnumValue) : Balances w s (enumLabel v) := by
  have hname : ∀ style : MapStyle, style.quotesKey "Name" → style.quotes "Name" →
      BalancesEntry w (s.inScope .expression) style ("Name", .token v.label) :=
    fun style hkey hvalue => {
      key := fun h => by rw [hkey] at h; cases h
      value := ensures_pure fun h => by rw [hvalue] at h; cases h }
  unfold enumLabel
  split
  · refine balances_annotationLine (balances_mapLiteral (fun _ _ h => by cases h) fun _ e he => ?_)
    rcases List.mem_cons.mp he with rfl | he
    · exact hname _ (by decide) (by decide)
    · rw [List.mem_singleton.mp he]
      exact ⟨fun _ => by decide, ensures_pure fun _ _ => by decide⟩
  · refine balances_annotationLine (balances_mapLiteral (fun _ _ h => by cases h) fun _ e he => ?_)
    rw [List.mem_singleton.mp he]
    exact hname _ (by decide) (by decide)

theorem balances_enumValue {v : EnumValue} (ht : ∀ t ∈ v.verbatim s, IsBalanced t) :
    Balances w s (enumValue v) := by
  unfold EnumValue.verbatim at ht
  refine ensures_state (fun _ t h => by rw [h.inEnum]) ?_
  split
  · rename_i henum
    rw [if_pos henum] at ht
    have htoken : IsBalanced v.token := ht _ List.mem_cons_self
    unfold enumValueDeclaration
    split
    · have hlabel : Balances w s (runIn .expression (enumLabel v)) :=
        Ensures.run (balances_enumLabel v)
      exact hlabel.map fun _ _ hf u => (hf u).append htoken
    · exact balances_text htoken
  · rename_i henum
    rw [if_neg henum] at ht
    refine ensures_scope ?_
    split
    · rename_i hscope
      rw [if_pos hscope] at ht
      refine balances_operand ?_
      unfold enumCall
      cases hcompanion : v.companion with
      | none =>
          rw [hcompanion] at ht
          exact balances_enumTest ht
      | some name =>
          -- inside a test predicate the call is written out, and its name is not
          simp only [hcompanion] at ht
          refine Ensures.run (balances_testCall (fun _ htest => ?_) fun _ htest => ?_)
          · have htest : ¬ s.inTest = true := fun h => by
              rw [show s.inTest = false from htest] at h
              cases h
            rw [if_neg htest] at ht
            exact ht name List.mem_cons_self
          · rw [if_pos (show s.inTest = true from htest)] at ht
            exact balances_enumTests ht
    · exact balances_expectedScope _

theorem balances_companionPredicates {companions : List (String × EnumValue)}
    (ht : ∀ p ∈ companions, ∀ t ∈ p.1 :: p.2.testTexts, IsBalanced t) :
    Balances w s (companionPredicates companions) := by
  induction companions with
  | nil => exact balances_text (by decide)
  | cons p companions ih =>
      obtain ⟨name, v⟩ := p
      have hown := ht _ List.mem_cons_self
      have hfirst : Balances w s (runIn .top (testPredicate name true [enumTest v])) :=
        Leaves.run (balances_testPredicate (hown _ List.mem_cons_self) true fun _ _ =>
          balances_enumTests fun t hmem => hown t (List.mem_cons_of_mem _ hmem))
      exact hfirst.bind fun _ _ hf => (ih fun p hp => ht p (List.mem_cons_of_mem _ hp)).map
        fun _ _ hg u => (IsBalanced.append (by decide) (hf u)).append (hg u)

variable {d : EnumDeclaration}

theorem balances_enumDeclaration (hname : IsBalanced d.name)
    (hs : ∀ v ∈ d.values, BalancesPart w s.inEnumBody (enumValue v))
    (hcompanions : ∀ p ∈ d.companions, ∀ t ∈ p.1 :: p.2.testTexts, IsBalanced t) :
    BalancesPart w s (enumDeclaration d) := by
  have hhead : IsBalanced (exportText d.exported ++ "enum " ++ d.name) :=
    ((isBalanced_exportText _).append (by decide)).append hname
  have hopen : (Scan.awaiting []).Turns (.awaiting ['\x7d']) "\n\x7b\n" := by decide
  have hvalues : Balances w { s with inEnum := true } (joined
      { separator := ",\n", indented := true, scope := some .expression }
      (d.values.map enumValue)) := by
    refine balances_joined (fun _ => by decide) (by decide) fun p hp => ?_
    obtain ⟨v, hv, rfl⟩ := List.mem_map.mp hp
    exact hs v hv
  refine leaves_setState (uniform_setEnum true) (hvalues.bindLeaves fun f ds hf => ?_)
  refine leaves_setState (uniform_setEnum false) (Ensures.leaves ?_)
  refine (balances_companionPredicates hcompanions).map fun g es hg u => ?_
  exact ((hf u).between ['\x7d'] (Scan.Turns.append hhead hopen) (by decide)).append (hg u)

theorem balances_enumeration (ht : ∀ t ∈ d.verbatim s, IsBalanced t)
    (hs : s.scope = .top → ∀ v ∈ d.values, BalancesPart w s.inEnumBody (enumValue v)) :
    BalancesPart w s (enumeration d) := by
  unfold EnumDeclaration.verbatim at ht
  refine leaves_scope ?_
  cases hscope : s.scope with
  | top =>
      rw [hscope] at ht
      refine balances_enumDeclaration (ht _ List.mem_cons_self) (hs hscope) fun p hp t hmem => ?_
      exact ht t (List.mem_cons_of_mem _ (List.mem_flatMap.mpr ⟨p, hp, hmem⟩))
  | statement => exact (balances_expectedScope _).leaves
  | expression =>
      rw [hscope] at ht
      exact (balances_operand (balances_definitionField (ht _ List.mem_cons_self))).leaves

/-! ## §9. The dialog. -/

theorem isBalanced_number (spec : BoundSpec) (x : Decimal.Binary64) :
    IsBalanced (spec.number x) := by
  unfold BoundSpec.number
  split
  · exact Text.isBalanced_of_numeral (Decimal.numeral_toString _)
  · exact Text.isBalanced_of_numeral (Decimal.numeral_text x)

theorem isBalanced_boundEntries (spec : BoundSpec) :
    ∀ p ∈ spec.entries, IsBalanced p.1 ∧ IsBalanced p.2 := by
  have hrange : IsBalanced spec.rangeText := by
    have hcomma : IsBalanced ", " := by decide
    have hnumbers := ((((isBalanced_number spec spec.min).append hcomma).append
      (isBalanced_number spec spec.default)).append hcomma).append (isBalanced_number spec spec.max)
    have hbracketed := hnumbers.bracketed
    simp only [BoundSpec.rangeText, String.append_assoc] at hbracketed ⊢
    exact hbracketed
  have hunit : ∀ unit : MeasureUnit, IsBalanced unit.text := by
    intro unit
    cases unit <;> decide
  have hkey : ∀ kind : BoundKind, IsBalanced kind.rangeKey := by
    intro kind
    cases kind <;> decide
  intro p hp
  rcases List.mem_cons.mp (Keyed.mem_ofList hp) with rfl | hp
  · exact ⟨hkey spec.kind, hrange⟩
  · obtain ⟨d, -, rfl⟩ := List.mem_map.mp hp
    exact ⟨(hunit d.1).parenthesized, isBalanced_number spec d.2⟩

theorem balances_boundSpec {spec : BoundSpec}
    (hname : s.scope ≠ .statement → IsBalanced spec.name) :
    Balances w s (boundSpec spec) := by
  have hentries : ∀ t : State, ∀ e ∈ spec.entries.map fun p => (p.1, Operand.token p.2),
      BalancesEntry w t (boundStyle spec.kind) e := by
    intro t e he
    obtain ⟨p, hp, rfl⟩ := List.mem_map.mp he
    obtain ⟨hkey, htext⟩ := isBalanced_boundEntries spec p hp
    exact ⟨fun _ => hkey, ensures_pure fun _ _ => htext⟩
  have htype : ∀ t ∈ (boundStyle spec.kind).typeName, IsBalanced t := by
    rintro t ⟨⟩
    cases spec.kind <;> decide
  refine ensures_scope ?_
  cases hscope : s.scope with
  | statement => exact balances_expectedScope _
  | expression => exact balances_text (hname (by rw [hscope]; decide))
  | top =>
      have hmap : BalancesOperand w (s.inScope .top) (.wrapped (mapLiteral (boundStyle spec.kind)
          (spec.entries.map fun p => (p.1, Operand.token p.2)))) :=
        Ensures.run (balances_mapLiteral (fun _ => htype) fun _ => hentries _)
      exact Ensures.run (balances_constant (hname (by rw [hscope]; decide)) spec.exported
        fun _ => hmap)

theorem balances_boundsOperand {bounds : Bounds} (hname : IsBalanced bounds.name) :
    BalancesOperand w s (boundsOperand bounds) := by
  cases bounds with
  | named name => exact balances_text hname
  | spec spec => exact Ensures.run (balances_boundSpec fun _ => hname)

theorem balances_parameterDeclaration {name : String} {d : ParameterDeclaration}
    (hname : IsBalanced name) (ht : ∀ t ∈ d.texts, IsBalanced t) :
    Balances w s (parameterDeclaration name d) := by
  cases d with
  | typed typeName =>
      have htype : IsBalanced typeName := ht _ List.mem_cons_self
      exact balances_text ((((IsBalanced.append (by decide) hname).append (by decide)).append
        htype).append (by decide))
  | bounded predicate bounds =>
      have hpredicate : IsBalanced predicate := ht _ List.mem_cons_self
      have hbounds : IsBalanced bounds.name := ht _ (List.mem_cons_of_mem _ List.mem_cons_self)
      have harguments : ∀ o ∈ [definitionField name, boundsOperand bounds],
          BalancesOperand w (s.inScope .statement) o := by
        intro o ho
        rcases List.mem_cons.mp ho with rfl | ho
        · exact balances_definitionField hname
        · rw [List.mem_singleton.mp ho]
          exact balances_boundsOperand hbounds
      exact Ensures.run (balances_expression fun _ => balances_call hpredicate false harguments)

theorem balances_uiParameter {name : String} {d : ParameterDeclaration} {annotations : Rendering}
    (ht : s.scope = .statement → ∀ t ∈ name :: d.texts, IsBalanced t)
    (h : s.scope = .statement → Balances w (s.inScope .statement) annotations) :
    Balances w s (uiParameter name annotations d) := by
  refine balances_onlyIn fun hs => ensures_state (fun _ t h => by rw [h.inUi]) ?_
  have hdeclaration : Balances w s (parameterDeclaration name d) :=
    balances_parameterDeclaration (ht hs _ List.mem_cons_self)
      fun t hmem => ht hs t (List.mem_cons_of_mem _ hmem)
  have hboth := balances_behind (Ensures.run (h hs)) hdeclaration
  split
  · exact Ensures.warnedAt hboth
  · exact hboth

/-- Of a group's annotation only the truth value is not quoted. -/
theorem balances_groupEntries (g : GroupHeader) :
    ∀ e ∈ groupEntries g, BalancesEntry w s groupStyle e := by
  have hkey : ∀ {key : String}, groupStyle.quotesKey key = false → IsBalanced key :=
    fun h => by cases h
  intro e he
  rcases List.mem_cons.mp he with rfl | he
  · exact ⟨hkey, ensures_pure fun h => by cases h⟩
  · rcases List.mem_cons.mp he with rfl | he
    · refine ⟨hkey, ensures_pure fun _ _ => ?_⟩
      cases g.collapsed <;> decide
    · obtain ⟨n, -, rfl⟩ := List.mem_map.mp he
      exact ⟨hkey, ensures_pure fun h => by cases h⟩

theorem balances_group (g : GroupHeader) (hs : ∀ p ∈ parts, BalancesPart w s.inBody p) :
    Balances w s (group g parts) := by
  have hhead : Balances w s (runIn .statement (annotationLine groupStyle (groupEntries g))) :=
    Ensures.run (balances_annotationLine (balances_mapLiteral (fun _ _ h => by cases h)
      fun _ => balances_groupEntries g))
  have hblock : Balances w s (runIn .statement (block true parts)) :=
    Ensures.run (balances_block true hs)
  have hboth := balances_behind hhead hblock
  refine ensures_state (fun _ t h => by rw [h.inUi]) ?_
  split
  · -- no parameter in the group
    split
    · exact Ensures.warnedAt (Ensures.warnedAt hboth)
    · exact Ensures.warnedAt hboth
  · split
    · exact Ensures.warnedAt hboth
    · exact hboth

/-! ## §10. Files. -/

/-- Both literals of an import line stand for any text. -/
theorem isBalanced_importLine (i : Import) (target : ImportTarget) :
    IsBalanced (i.line target ++ "\n") := by
  have hopen : (Scan.awaiting []).Turns (.awaiting [')']) "import(path : " := by decide
  have hbetween : (Scan.awaiting [')']).Turns (.awaiting [')']) ", version : " := by decide
  have hclose : (Scan.awaiting [')']).Turns (.awaiting []) ");" := by decide
  have hpath := (Text.isBalanced_quote target.path).keeps [')']
  have hversion := (Text.isBalanced_quote target.version).keeps [')']
  exact (((((Scan.Turns.append (isBalanced_exportText i.exported) hopen).append hpath).append
    hbetween).append hversion).append hclose).append (by decide)

theorem isBalanced_importLines (imports : List Import) : IsBalanced (w.importLines imports) := by
  refine IsBalanced.join fun text ht => ?_
  obtain ⟨i, -, rfl⟩ := List.mem_map.mp ht
  exact isBalanced_importLine i _

theorem balances_importLine (i : Import) : Balances w s (importLine i) := by
  by_cases hs : s.scope = .top
  · refine (ensures_importLine i hs).mono fun f ds hf u => ?_
    rw [hf.1]
    exact isBalanced_importLine i _
  · refine ensures_scope ?_
    rw [if_pos hs]
    exact balances_expectedScope _

theorem balances_studio (stdImports imports : List Import)
    (hversion : s.scope = .top → IsBalanced w.stdVersion)
    (hs : s.scope = .top → ∀ p ∈ parts, BalancesPart w s p) :
    Balances w s (studio stdImports imports parts) := by
  by_cases hscope : s.scope = .top
  · have hbody : Balances w s (joined { separator := "\n", scope := some .top } parts) := by
      refine balances_joined (fun _ => by decide) (by decide) fun p hp => ?_
      -- the declarations are rendered at file level, where the file itself is
      have hsame : Join.state { separator := "\n", scope := some .top } s = s := by
        show s.override { scope := some .top } = s
        rw [← hscope]
        rfl
      rw [hsame]
      exact hs hscope p hp
    have hhead : IsBalanced (w.fileHead stdImports imports) := by
      have hgap : IsBalanced (if (w.importLines stdImports).isEmpty
          || (w.importLines imports).isEmpty then "" else "\n") := by
        split <;> decide
      have hfirst : IsBalanced ("FeatureScript " ++ w.stdVersion ++ ";\n") :=
        (IsBalanced.append (by decide) (hversion hscope)).append (by decide)
      exact (((((hfirst.append (isBalanced_importLines stdImports)).append hgap).append
        (isBalanced_importLines imports)).append (by decide)).append (by decide)).append (by decide)
    exact ensures_studio hscope (hbody.mono fun f fs hf ds hds u => hhead.append (hf u))
  · refine ensures_scope ?_
    rw [if_pos hscope]
    exact balances_expectedScope _

/-- The definition of a feature: both of its blocks stand in the parentheses of one call. -/
theorem isBalanced_feature {head name unit ui body : String} (hhead : IsBalanced head)
    (hname : IsBalanced name) (hunit : IsBalanced unit) (hui : IsBalanced ui)
    (hbody : IsBalanced body) :
    IsBalanced (head ++ "export const " ++ name
      ++ " = defineFeature(function(context is Context, id is Id, definition is map)\n"
      ++ unit ++ "precondition\n" ++ unit ++ "\x7b\n" ++ ui ++ unit ++ "\x7d\n"
      ++ unit ++ "\x7b\n" ++ body ++ unit ++ "\x7d);\n") := by
  -- the parenthesis of the call is awaited up to the last line
  have hdefine : (Scan.awaiting []).Turns (.awaiting [')'])
      " = defineFeature(function(context is Context, id is Id, definition is map)\n" := by decide
  have hprecondition : (Scan.awaiting [')']).Turns (.awaiting [')']) "precondition\n" := by decide
  have hopen : (Scan.awaiting [')']).Turns (.awaiting ['\x7d', ')']) "\x7b\n" := by decide
  have hclose : (Scan.awaiting ['\x7d', ')']).Turns (.awaiting [')']) "\x7d\n" := by decide
  have hend : (Scan.awaiting ['\x7d', ')']).Turns (.awaiting []) "\x7d);\n" := by decide
  have hnamed : IsBalanced (head ++ "export const " ++ name) :=
    (hhead.append (by decide)).append hname
  have hfirst := ((((Scan.Turns.append hnamed hdefine).append (hunit.keeps _)).append
    hprecondition).append (hunit.keeps _)).append hopen
  have hsecond := ((((hfirst.append (hui.keeps _)).append (hunit.keeps _)).append
    hclose).append (hunit.keeps _)).append hopen
  exact ((hsecond.append (hbody.keeps _)).append (hunit.keeps _)).append hend

theorem balances_feature {name : String} {annotations : Rendering}
    (hname : s.scope = .top → IsBalanced name)
    (hannotations : s.scope = .top → Balances w (s.inScope .statement) annotations)
    (hui : s.scope = .top → Balances w { s.inScope .statement with inUi := true } a.render)
    (hbody : s.scope = .top → Balances w (s.inScope .statement) b.render) :
    Balances w s (feature name annotations a b) := by
  refine balances_onlyIn fun hscope => ?_
  refine ensures_get (fun u => do
    let unit := u.unit
    let head ← runIn .statement annotations
    let ui ← run { scope := some .statement, inUi := some true } (expression a.render)
    let body ← runIn .statement (expression b.render)
    let ui ← indented ui 2
    let body ← indented body 2
    return head ++ "export const " ++ name
      ++ " = defineFeature(function(context is Context, id is Id, definition is map)\n"
      ++ unit ++ "precondition\n" ++ unit ++ "\x7b\n" ++ ui ++ unit ++ "\x7d\n"
      ++ unit ++ "\x7b\n" ++ body ++ unit ++ "\x7d);\n") (fun c hc => rfl) ?_
  refine (Ensures.run (hannotations hscope)).bind fun f ds hf => ?_
  refine (Ensures.run (balances_expression fun _ => hui hscope)).bind fun g es hg => ?_
  refine (Ensures.run (balances_expression fun _ => hbody hscope)).bind fun h fs hh => ?_
  refine (ensures_indentedBalanced 2 hg).bind fun g' _ hg' => ?_
  refine (ensures_indentedBalanced 2 hh).map fun h' _ hh' u => ?_
  have hunit : IsBalanced u.unit := Text.isBalanced_of_plain fun c hc => Text.isPlain_unit hc
  exact isBalanced_feature (hf u) (hname hscope) hunit (hg' u) (hh' u)

end Render

end FeatureStudio
