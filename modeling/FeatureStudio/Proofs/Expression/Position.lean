/-
  FeatureStudio.Proofs.Expression.Position: nodes in the place of an operand.

  A wrapped node counts as an atom, whatever it is rendered as, so that its text is put into the
  place of an operand without parentheses.  Read back, it is that operand if what it stands for
  binds tighter than the place asks for.  A test for a value that no predicate is declared for is
  a comparison, and does not; what is cast, assigned or labelled is no operand at all.

  Main statements:
    * `Position.exists_tree`, `Position.Has.least_lt`: what a place asks for is what it takes.
    * `Expr.Stands.coheres`: expressions with nodes in them are read as their form says.
    * `Node.isOperandAt_iff`: the places at which a node is read as one operand.
-/
import FeatureStudio.Proofs.Expression.Braces
import FeatureStudio.Proofs.Expression.Inlining
import FeatureStudio.Proofs.Expression.Spelling

namespace FeatureStudio

open Build Reading Render

/-! ## §1. Places. -/

/-- The place of an operand, with the operator and what else there is around it. -/
inductive Position where
  | prefixed (op : UnaryOp)
  | left (op : BinaryOp) (rhs : Expr)
  | right (lhs : Expr) (op : BinaryOp)
  | compared (op : EqualityOp) (rhs : Expr)
  | comparing (lhs : Expr) (op : EqualityOp)
  | test (yes no : Expr)
  | base (key : Expr) (keys : List Expr)

namespace Position

/-- The expression with an operand in the place. -/
def put (e : Expr) : Position → Expr
  | prefixed op => .unary op e
  | left op rhs => .binary e op rhs
  | right lhs op => .binary lhs op e
  | compared op rhs => .equality e op rhs
  | comparing lhs op => .equality lhs op e
  | test yes no => .ternary e yes no
  | base key keys => .access e (key :: keys)

/-- What else there is. -/
def others : Position → List Expr
  | prefixed _ => []
  | left _ rhs | compared _ rhs => [rhs]
  | right lhs _ | comparing lhs _ => [lhs]
  | test yes no => [yes, no]
  | base key keys => key :: keys

/-- How tightly the whole binds. -/
def level : Position → Nat
  | prefixed _ => Precedence.unary
  | left op _ | right _ op => op.precedence
  | compared .. | comparing .. => Precedence.equality
  | test .. => Precedence.ternary
  | base .. => Precedence.atom

/-- What an operand has to bind tighter than to stand in the place. -/
def least : Position → Nat
  | prefixed _ => Precedence.unary - 1
  | left op _ => op.precedence - 1
  | right _ op => op.precedence
  | compared .. => Precedence.equality - 1
  | comparing .. => Precedence.equality
  | test .. => Precedence.ternary
  | base .. => Precedence.unary

/-- Behind a minus sign another one is set apart by parentheses. -/
def setsApart : Position → String → Bool
  | prefixed op, text => op = .neg && text.toList.head? == some '-'
  | _, _ => false

/-- The text around that of the operand. -/
def textAround (c : Context) (text : String) : Position → String
  | prefixed op =>
    op.text ++ if (prefixed op).setsApart text then "(" ++ text ++ ")" else text
  | left op rhs =>
    text ++ " " ++ op.text ++ " " ++ rhs.aboveIn (Operand.rightLeast op rhs.shape) c
  | right lhs op => lhs.aboveIn (op.precedence - 1) c ++ " " ++ op.text ++ " " ++ text
  | compared op rhs => text ++ " " ++ op.text ++ " " ++ rhs.aboveIn Precedence.equality c
  | comparing lhs op =>
    lhs.aboveIn (Precedence.equality - 1) c ++ " " ++ op.text ++ " " ++ text
  | test yes no => text ++ " ? " ++ yes.textIn c ++ " : " ++ no.textIn c
  | base key keys =>
    text ++ String.join (((key :: keys).map (·.textIn c)).map fun key => "[" ++ key ++ "]")

/-- The operand as it stands in the place. -/
def operand (p : Position) (text : String) (own : Expr) : Expr :=
  if p.setsApart text then .parens own else own

/-- What is read has the operand in the place.  On its left an operator may go on with further
ones of its level, and keys are those of one access. -/
def Has (operand tree : Expr) : Position → Prop
  | prefixed op => tree = .unary op operand
  | left op _ => Leads op operand tree
  | right _ op => ∃ l, tree = .binary l op operand
  | compared op _ => ∃ r, tree = .equality operand op r
  | comparing _ op => ∃ l, tree = .equality l op operand
  | test .. => ∃ y n, tree = .ternary operand y n
  | base .. => ∃ k ks, tree = (k :: ks).foldl Expr.index operand

theorem precedence_put (p : Position) (e : Expr) : (p.put e).precedence = p.level := by
  cases p <;> rfl

theorem least_lt_atom (p : Position) : p.least < Precedence.atom := by
  have hpred : ∀ op : BinaryOp, op.precedence - 1 < Precedence.atom := fun op =>
    Nat.lt_of_le_of_lt (Nat.pred_le _) op.precedence_lt_atom
  cases p with
  | left op rhs => exact hpred op
  | right lhs op => exact op.precedence_lt_atom
  | prefixed | compared | comparing | test | base => exact Nat.le_of_ble_eq_true rfl

/-- **A node is put into the place as it is.** -/
theorem textIn_put (p : Position) (n : Node) (c : Context) :
    (p.put (.node n)).textIn c = p.textAround c ((Expr.node n).textIn c) := by
  have hbare : (Expr.node n).aboveIn p.least c = (Expr.node n).textIn c := if_pos p.least_lt_atom
  rw [← hbare]
  cases p with
  | prefixed op => exact Expr.textIn_unary op _ c
  | left op rhs => exact Expr.textIn_binary _ op rhs c
  | right lhs op => exact Expr.textIn_binary lhs op _ c
  | compared op rhs => exact Expr.textIn_equality _ op rhs c
  | comparing lhs op => exact Expr.textIn_equality lhs op _ c
  | test yes no => exact Expr.textIn_ternary _ yes no c
  | base key keys => exact Expr.textIn_access _ (key :: keys) c

end Position

/-! ## §2. What a place takes. -/

/-- The text of the expression is read as one that binds as tightly as its form says. -/
def Expr.Coheres (c : Context) (e : Expr) : Prop :=
  ∃ own, Groups (e.textIn c) own ∧ own.precedence = e.precedence

/-- In parentheses where its form asks for them, an expression stands where it has to. -/
theorem Expr.Coheres.above {c : Context} {e : Expr} (h : e.Coheres c) {least : Nat}
    (hleast : least < Precedence.atom) :
    ∃ own, GroupsAt (least + 1) (e.aboveIn least c) own := by
  obtain ⟨own, hown, hlevel⟩ := h
  unfold Expr.aboveIn
  split
  · next hlt => exact ⟨own, hown.above (hlevel ▸ hlt)⟩
  · exact ⟨.parens own, hown.parens.lower hleast⟩

namespace Position

variable {c : Context} {text : String} {own tree : Expr}

/-- Texts of expressions that cohere are read one by one. -/
theorem exists_keys : ∀ {es : List Expr}, (∀ e ∈ es, e.Coheres c) →
    ∃ owns, List.Forall₂ Groups (es.map (·.textIn c)) owns
  | [], _ => ⟨[], .nil⟩
  | e :: es, h => by
      obtain ⟨own, hown, -⟩ := h e List.mem_cons_self
      obtain ⟨owns, howns⟩ := exists_keys fun e' he' => h e' (List.mem_cons_of_mem _ he')
      exact ⟨own :: owns, .cons hown howns⟩

/-- **What binds tighter than the place asks for is read as its operand**, and so is what is set
apart from a minus sign. -/
theorem exists_tree (p : Position) (hothers : ∀ e ∈ p.others, e.Coheres c)
    (hown : Groups text own) (h : p.least < own.precedence ∨ p.setsApart text) :
    ∃ tree, GroupsAt p.level (p.textAround c text) tree ∧ tree.precedence = p.level ∧
      p.Has (p.operand text own) tree := by
  cases p with
  | prefixed op =>
      refine ⟨.unary op ((prefixed op).operand text own), ?_, rfl, rfl⟩
      show GroupsAt Precedence.unary (op.text ++ if (prefixed op).setsApart text then _ else _)
        (.unary op (if (prefixed op).setsApart text then _ else _))
      -- parentheses are a token of their own behind the sign, and an operand anywhere
      by_cases hapart : (prefixed op).setsApart text
      · rw [if_pos hapart, if_pos hapart]
        exact .unary op (hown.parens.lower (by decide)) fun _ => by simp
      · rw [if_neg hapart, if_neg hapart]
        refine .unary op (hown.above (h.resolve_right hapart)) fun hop hhead => hapart ?_
        simp [setsApart, hop, hhead]
  | left op rhs =>
      have hlt : op.precedence - 1 < own.precedence := h.resolve_right (by simp [setsApart])
      have hleast : op.precedence - 1 ≤ Operand.rightLeast op rhs.shape
          ∧ Operand.rightLeast op rhs.shape < Precedence.atom := by
        have hatom := op.precedence_lt_atom
        unfold Operand.rightLeast
        split <;> omega
      -- the right operand may be of the same level, and joins the chain that is led by the left
      obtain ⟨own', hown'⟩ := (hothers rhs List.mem_cons_self).above hleast.2
      have hl := hown.above hlt
      rw [op.pred_precedence] at hl
      have hpred := op.pred_precedence
      have hr : GroupsAt op.precedence _ own' := hown'.lower (by omega)
      obtain ⟨tree, htree, hleads⟩ := hl.behind hr
      exact ⟨tree, htree, hleads.precedence_eq, hleads⟩
  | right lhs op =>
      have hlt : op.precedence < own.precedence := h.resolve_right (by simp [setsApart])
      have hatom : op.precedence - 1 < Precedence.atom :=
        Nat.lt_of_le_of_lt (Nat.pred_le _) op.precedence_lt_atom
      obtain ⟨own', hown'⟩ := (hothers lhs List.mem_cons_self).above hatom
      rw [op.pred_precedence] at hown'
      exact ⟨_, hown'.binary (hown.above hlt), rfl, own', rfl⟩
  | compared op rhs =>
      have hlt : Precedence.equality - 1 < own.precedence := h.resolve_right (by simp [setsApart])
      have hatom : Precedence.equality < Precedence.atom := by decide
      obtain ⟨own', hown'⟩ := (hothers rhs List.mem_cons_self).above hatom
      exact ⟨_, .equality op (hown.above hlt) hown', rfl, own', rfl⟩
  | comparing lhs op =>
      have hlt : Precedence.equality < own.precedence := h.resolve_right (by simp [setsApart])
      have hatom : Precedence.equality - 1 < Precedence.atom := by decide
      obtain ⟨own', hown'⟩ := (hothers lhs List.mem_cons_self).above hatom
      exact ⟨_, .equality op hown' (hown.above hlt), rfl, own', rfl⟩
  | test yes no =>
      have hlt : Precedence.ternary < own.precedence := h.resolve_right (by simp [setsApart])
      obtain ⟨y, hy, -⟩ := hothers yes List.mem_cons_self
      obtain ⟨n, hn, -⟩ := hothers no (List.mem_cons_of_mem _ List.mem_cons_self)
      exact ⟨_, (hown.above hlt).ternary hy hn, rfl, y, n, rfl⟩
  | base key keys =>
      have hlt : Precedence.unary < own.precedence := h.resolve_right (by simp [setsApart])
      obtain ⟨owns, howns⟩ := exists_keys hothers
      have htree := GroupsAt.keyed howns (hown.above hlt)
      refine ⟨_, htree, Nat.le_antisymm (Expr.precedence_le_atom _) htree.le_precedence, ?_⟩
      cases howns with
      | cons hk hks => exact ⟨_, _, rfl⟩

/-- **What is read as the operand of a place binds tighter than the place asks for.** -/
theorem Has.least_lt {p : Position} {operand : Expr} (h : p.Has operand tree) {level : Nat}
    (htree : GroupsAt level text tree) : p.least < operand.precedence := by
  -- the derivation of the whole holds one of the operand, at the level that the place asks for
  obtain ⟨ts, -, hd⟩ := htree
  cases p with
  | prefixed op =>
      cases h
      obtain ⟨ts', ho⟩ := hd.operands
      exact ho.le_precedence
  | left op rhs =>
      have hle := Leads.le_precedence h hd
      have hpred := op.pred_precedence
      show op.precedence - 1 < _
      omega
  | right lhs op =>
      obtain ⟨l, rfl⟩ := h
      obtain ⟨-, ts', ho⟩ := hd.operands
      exact ho.le_precedence
  | compared op rhs =>
      obtain ⟨r, rfl⟩ := h
      obtain ⟨⟨ts', ho⟩, -⟩ := hd.operands
      exact ho.le_precedence
  | comparing lhs op =>
      obtain ⟨l, rfl⟩ := h
      obtain ⟨-, ts', ho⟩ := hd.operands
      exact ho.le_precedence
  | test yes no =>
      obtain ⟨y, n, rfl⟩ := h
      obtain ⟨ts', ho⟩ := hd.operands
      exact ho.le_precedence
  | base key keys =>
      obtain ⟨k, ks, rfl⟩ := h
      exact hd.atom_le_base

end Position

/-! ## §3. Expressions with nodes in them. -/

/-- Expressions whose tokens are atoms and whose parts are expressions again.  The nodes in them are
literals, or stand for expressions that need no parentheses: nowhere, or not at their place. -/
inductive Expr.Stands (s : State) : Expr → Prop where
  | test {e : Expr} (h : e.IsTest) : e.Stands s
  | parens {e : Expr} (h : e.Stands s) : (Expr.parens e).Stands s
  | unary {op : UnaryOp} {e : Expr} (h : e.Stands s) : (Expr.unary op e).Stands s
  | binary {l r : Expr} {op : BinaryOp} (hl : l.Stands s) (hr : r.Stands s) :
      (Expr.binary l op r).Stands s
  | equality {l r : Expr} {op : EqualityOp} (hl : l.Stands s) (hr : r.Stands s) :
      (Expr.equality l op r).Stands s
  | ternary {test yes no : Expr} (ht : test.Stands s) (hy : yes.Stands s)
      (hn : no.Stands s) : (Expr.ternary test yes no).Stands s
  | access {base key : Expr} {keys : List Expr} (hb : base.Stands s)
      (hk : ∀ k ∈ key :: keys, k.Stands s) :
      (Expr.access base (key :: keys)).Stands s
  | call {name : String} {args : List Expr} (hname : IsPath name)
      (ha : ∀ a ∈ args, a.Stands s) : (Expr.call name args false).Stands s
  | node {n : Node} {e : Expr} (hn : n.spelled s = some e) (h : e.Stands s)
      (hatom : e.precedence = Precedence.atom) : (Expr.node n).Stands s
  | placed {p : Position} {n : Node} {e : Expr} (hn : n.spelled s = some e)
      (h : e.Stands s) (hlt : p.least < e.precedence)
      (hothers : ∀ e ∈ p.others, e.Stands s) : (p.put (.node n)).Stands s
  | literal {m : MapLiteral} (htype : m.style.typeName = none)
      (h : (Part.literal m).WritesBalanced (s.inScope .expression)) :
      (Expr.node (.map m)).Stands s

namespace Expr

variable {c : Context} {e l r : Expr}

/-- What is written of a test is read as its form says. -/
theorem IsTest.coheres (h : e.IsTest) (c : Context) : e.Coheres c := by
  let inlined := c.state.inTest
  obtain ⟨f, hlexes, hrender⟩ := h.rendered inlined
  have htext : e.textIn c = f c.indent := by
    refine textIn_of_returns fun d hd => ⟨[], ?_⟩
    have hindent : d.indent = c.indent := congrArg (·.indent) hd
    have hstate : d.state.inTest = inlined := congrArg (·.state.inTest) hd
    rw [hrender d hstate, hindent, Context.reported_nil]
  have hplain : (e.written inlined).IsPlain := isPlain_written h
  obtain ⟨t, ht, -⟩ := derives_tokens hplain
  refine ⟨t, ⟨_, ?_, ht⟩, ?_⟩
  · rw [htext]
    exact groups_of_scan (hlexes c.indent).scan_eq
  · rw [hplain.precedence_of_derives ht]
    exact (h.alike inlined).precedence.symm

theorem coheres_parens (h : e.Coheres c) : (Expr.parens e).Coheres c := by
  obtain ⟨own, hown, -⟩ := h
  refine ⟨.parens own, ?_, rfl⟩
  rw [textIn_parens]
  exact hown.parens.lower (by decide)

/-- An operation coheres if the text in the place is read as something that may stand there. -/
theorem coheres_put_of_groupsAt (p : Position) {text : String} {own : Expr}
    (htext : (p.put e).textIn c = p.textAround c text) (hown : GroupsAt (p.least + 1) text own)
    (hothers : ∀ e ∈ p.others, e.Coheres c) : (p.put e).Coheres c := by
  obtain ⟨tree, htree, hprecedence, -⟩ :=
    p.exists_tree hothers (hown.lower (Nat.le_add_left _ _)) (.inl hown.le_precedence)
  refine ⟨tree, ?_, hprecedence.trans (p.precedence_put e).symm⟩
  rw [htext]
  -- an operation is read at its own level, and so at the loosest one
  refine htree.lower ?_
  rw [← hprecedence]
  exact tree.one_le_precedence

/-- An operation coheres if its operands do. -/
theorem coheres_put (p : Position)
    (htext : (p.put e).textIn c = p.textAround c (e.aboveIn p.least c)) (h : e.Coheres c)
    (hothers : ∀ e ∈ p.others, e.Coheres c) : (p.put e).Coheres c := by
  obtain ⟨own, hown⟩ := h.above p.least_lt_atom
  exact coheres_put_of_groupsAt p htext hown hothers

/-- So does one with a node that stands for an expression that needs no parentheses there. -/
theorem coheres_placed {p : Position} {n : Node} (hn : n.spelled c.state = some e)
    (h : e.Coheres c) (hlt : p.least < e.precedence) (hothers : ∀ e ∈ p.others, e.Coheres c) :
    (p.put (.node n)).Coheres c := by
  obtain ⟨own, hown, hlevel⟩ := h
  have hput := p.textIn_put n c
  rw [Node.textIn_spelled hn] at hput
  exact coheres_put_of_groupsAt p hput (hown.above (hlevel ▸ hlt)) hothers

theorem coheres_call {name : String} (hname : IsPath name) {args : List Expr}
    (h : ∀ a ∈ args, a.Coheres c) : (Expr.call name args false).Coheres c := by
  obtain ⟨owns, howns⟩ := Position.exists_keys h
  have hcall := GroupsAt.call hname howns
  refine ⟨.call name owns false, ?_, rfl⟩
  rw [textIn_call]
  exact hcall.lower (by decide)

/-- A literal without a type is an operand. -/
theorem coheres_literal {m : MapLiteral} (htype : m.style.typeName = none)
    (h : (Part.literal m).WritesBalanced (c.state.inScope .expression)) :
    (Expr.node (.map m)).Coheres c := by
  obtain ⟨inner, hinner, hbraced⟩ := m.exists_braced h
  obtain ⟨own, hown⟩ := GroupsAt.braces hinner
  refine ⟨own, ?_, Nat.le_antisymm (precedence_le_atom own) hown.le_precedence⟩
  rw [Node.textIn_map, MapStyle.typed, htype, hbraced]
  exact hown.lower (by decide)

/-- **Expressions with nodes in them are read as their form says.** -/
theorem Stands.coheres (h : e.Stands c.state) : e.Coheres c := by
  have hone : ∀ {e e' : Expr}, e'.Coheres c → e ∈ [e'] → e.Coheres c := fun h he =>
    List.mem_singleton.mp he ▸ h
  -- every operator is its first operand, put in a place among the others
  induction h with
  | test h => exact h.coheres c
  | parens _ ih => exact coheres_parens ih
  | @unary op e _ ih =>
      exact coheres_put (.prefixed op) (textIn_unary op e c) ih fun _ he =>
        absurd he List.not_mem_nil
  | @binary l r op _ _ ihl ihr =>
      exact coheres_put (.left op r) (textIn_binary l op r c) ihl fun _ => hone ihr
  | @equality l r op _ _ ihl ihr =>
      exact coheres_put (.compared op r) (textIn_equality l op r c) ihl fun _ => hone ihr
  | @ternary test yes no _ _ _ iht ihy ihn =>
      refine coheres_put (.test yes no) (textIn_ternary test yes no c) iht fun e he => ?_
      rcases List.mem_cons.mp he with rfl | he
      · exact ihy
      · exact hone ihn he
  | @access base key keys _ _ ihb ihk =>
      exact coheres_put (.base key keys) (textIn_access base (key :: keys) c) ihb ihk
  | call hname _ ih => exact coheres_call hname ih
  | @node n e hn _ hatom ih =>
      obtain ⟨own, hown, hlevel⟩ := ih
      refine ⟨own, ?_, hlevel.trans hatom⟩
      rw [Node.textIn_spelled hn]
      exact hown
  | placed hn _ hlt _ ih ihothers => exact coheres_placed hn ih hlt ihothers
  | literal htype h => exact coheres_literal htype h

end Expr

/-! ## §4. Nodes in the place of an operand. -/

/-- Nodes whose names are identifiers and whose expressions stand: those that stand for an
expression themselves, literals, assignments, and values that are declared with a label. -/
inductive Node.Stands (s : State) : Node → Prop where
  | spelled {n : Node} {e : Expr} (hn : n.spelled s = some e) (h : e.Stands s) :
      n.Stands s
  | literal {m : MapLiteral}
      (h : (Part.literal m).WritesBalanced (s.inScope .expression)) :
      (Node.map m).Stands s
  | assign {target value : Expr} (h : target.Stands s) :
      (Node.assign target value).Stands s
  | labelled {v : EnumValue} (hs : s.inEnum) (h : v.labelled) : (Node.enumValue v).Stands s

/-- How tightly the text of a node binds, if it is the text of an expression. -/
def Node.levelIn (s : State) : Node → Option Nat
  | .map m => if m.style.typeName = none then some Precedence.atom else none
  | n => (n.spelled s).map Expr.precedence

/-- In the place of an operand the node is read as the operand: what its text is read as alone. -/
def Node.IsOperandAt (n : Node) (p : Position) (c : Context) : Prop :=
  let text := (Expr.node n).textIn c
  ∃ own tree, Groups text own ∧ Groups ((p.put (.node n)).textIn c) tree ∧
    p.Has (p.operand text own) tree

namespace Node

variable {n : Node} {c : Context}

/-- What is cast to a type is not read as an expression. -/
theorem not_groups_typed {m : MapLiteral} {typeName : String}
    (htype : m.style.typeName = some typeName)
    (h : (Part.literal m).WritesBalanced (c.state.inScope .expression)) (own : Expr) :
    ¬ Groups ((Expr.node (.map m)).textIn c) own := by
  rintro ⟨ts, hts, hd⟩
  obtain ⟨inner, hinner, hbraced⟩ := m.exists_braced h
  have hchars : ((Expr.node (.map m)).textIn c).toList
      = '\x7b' :: (inner.toList ++ '\x7d' :: (" as ".toList ++ typeName.toList)) := by
    rw [Node.textIn_map, MapStyle.typed, htype, hbraced]
    simp
  -- behind the literal there is a word, where an operator would have to be
  have has : scanner.read .idle " as ".toList = some ([.word "as"], .idle) := by decide
  rw [hchars, groups_braces hinner, groups_append has, emit_emit] at hts
  obtain ⟨ts', -, rfl⟩ := Option.map_eq_some_iff.mp hts
  exact not_derives_words _ _ _ hd

/-- What is assigned is not read as an expression. -/
theorem not_groups_assign {target value : Expr} (h : target.Coheres c) (own : Expr) :
    ¬ Groups ((Expr.node (.assign target value)).textIn c) own := by
  rintro ⟨ts, hts, -⟩
  obtain ⟨own', ⟨ts', hts', -⟩, -⟩ := h
  have hchars : ((Expr.node (.assign target value)).textIn c).toList
      = (target.textIn c).toList ++ ' ' :: '=' :: ' ' :: (value.textIn c).toList := by
    rw [Node.textIn_assign]
    simp
  have hspace : scanner.read .idle [' '] = some ([], .idle) := rfl
  have hnone : groups (' ' :: '=' :: ' ' :: (value.textIn c).toList) = none := by
    rw [← List.singleton_append, groups_append hspace, groups_equals_ne (by decide)]
    rfl
  rw [hchars, groups_append_of_isEnd hts' (by rintro _ ⟨⟩; decide), hnone] at hts
  cases hts

/-- What is declared with a label is not read as an expression. -/
theorem not_groups_labelled {v : EnumValue} (hc : c.state.inEnum) (h : v.labelled) (own : Expr) :
    ¬ Groups ((Expr.node (.enumValue v)).textIn c) own := by
  rintro ⟨ts, hts, hd⟩
  obtain ⟨rest, htext⟩ := Node.textIn_labelled hc h
  have hchars : ((Expr.node (.enumValue v)).textIn c).toList
      = "annotation ".toList ++ '\x7b' :: rest.toList := by
    rw [htext]
    simp
  have hword : scanner.read .idle "annotation ".toList
      = some ([.word "annotation"], .idle) := by decide
  rw [hchars, groups_append hword] at hts
  obtain ⟨ts', hts', rfl⟩ := Option.map_eq_some_iff.mp hts
  obtain ⟨text, ts'', rfl⟩ := groups_brace hts'
  exact not_derives_words _ _ _ hd

theorem levelIn_spelled {s : State} {e : Expr} (h : n.spelled s = some e) :
    n.levelIn s = some e.precedence := by
  cases n with
  | map m => cases h
  | _ => exact congrArg (Option.map Expr.precedence) h

/-- Either the text of a node is read as an expression of the level, or there is no level and the
text is not read. -/
theorem Stands.exists_level (h : n.Stands c.state) :
    (∃ own, Groups ((Expr.node n).textIn c) own ∧ n.levelIn c.state = some own.precedence) ∨
      n.levelIn c.state = none ∧ ∀ own, ¬ Groups ((Expr.node n).textIn c) own := by
  -- a node has a level exactly if its text can be read as an expression
  cases h with
  | spelled hn h =>
      obtain ⟨own, hown, hlevel⟩ := h.coheres
      refine .inl ⟨own, ?_, ?_⟩
      · rw [textIn_spelled hn]
        exact hown
      · rw [levelIn_spelled hn, hlevel]
  | @literal m h =>
      cases htype : m.style.typeName with
      | none =>
          obtain ⟨own, hown, hlevel⟩ := Expr.coheres_literal htype h
          exact .inl ⟨own, hown, (if_pos htype).trans (congrArg some hlevel.symm)⟩
      | some typeName =>
          refine .inr ⟨if_neg (by rw [htype]; exact Option.some_ne_none _), ?_⟩
          exact not_groups_typed htype h
  | assign h => exact .inr ⟨rfl, not_groups_assign h.coheres⟩
  | @labelled v hs h =>
      refine .inr ⟨?_, not_groups_labelled hs h⟩
      show (v.spelled c.state).map _ = none
      rw [EnumValue.spelled, if_pos hs, if_pos h]
      rfl

/-- **What the text of a node is read as binds as tightly as its level says.** -/
theorem Stands.level_iff (h : n.Stands c.state) (level : Nat) :
    n.levelIn c.state = some level ↔
      ∃ own, Groups ((Expr.node n).textIn c) own ∧ own.precedence = level := by
  rcases h.exists_level with ⟨own, hown, hlevel⟩ | ⟨hnone, hnot⟩
  · rw [hlevel, Option.some_inj]
    refine ⟨fun h => ⟨own, hown, h⟩, ?_⟩
    rintro ⟨own', hown', h⟩
    rwa [hown.unique hown']
  · rw [hnone]
    refine iff_of_false (Option.some_ne_none level).symm ?_
    rintro ⟨own, hown, -⟩
    exact hnot own hown

/-- **A node is an operand where its text binds tighter than the place asks for**, or where it is
set apart from a minus sign. -/
theorem isOperandAt_iff_exists {p : Position} (hothers : ∀ e ∈ p.others, e.Coheres c) :
    n.IsOperandAt p c ↔
      ∃ own, Groups ((Expr.node n).textIn c) own ∧
        (p.least < own.precedence ∨ p.setsApart ((Expr.node n).textIn c)) := by
  constructor
  · rintro ⟨own, tree, hown, htree, hhas⟩
    refine ⟨own, hown, ?_⟩
    -- what is set apart is an operand whatever it binds like
    by_cases hapart : p.setsApart ((Expr.node n).textIn c)
    · exact .inr hapart
    · rw [Position.operand, if_neg hapart] at hhas
      exact .inl (hhas.least_lt htree)
  · rintro ⟨own, hown, hbinds⟩
    obtain ⟨tree, htree, hprecedence, hhas⟩ := p.exists_tree hothers hown hbinds
    refine ⟨own, tree, hown, ?_, hhas⟩
    rw [p.textIn_put]
    refine htree.lower ?_
    rw [← hprecedence]
    exact tree.one_le_precedence

/-- **Wrapped nodes group as one operand exactly where their text binds tightly enough.**  In every
context, under all flags and beside any operands that are read as their form says, the text of a
wrapped node is read as the operand of its place if it is the text of an expression that binds
tighter than the place asks for, or that is set apart from a minus sign, and in no other case.  How
tightly the text of a node binds can be told without rendering it. -/
theorem isOperandAt_iff (n : Node) (p : Position) (hothers : ∀ e ∈ p.others, e.Coheres c) :
    (n.IsOperandAt p c ↔
      ∃ own, Groups ((Expr.node n).textIn c) own ∧
        (p.least < own.precedence ∨ p.setsApart ((Expr.node n).textIn c))) ∧
    (n.Stands c.state →
      (n.IsOperandAt p c ↔
        ∃ level, n.levelIn c.state = some level ∧
          (p.least < level ∨ p.setsApart ((Expr.node n).textIn c)))) := by
  have hiff := isOperandAt_iff_exists (n := n) hothers
  refine ⟨hiff, fun h => hiff.trans ?_⟩
  constructor
  · rintro ⟨own, hown, hbinds⟩
    exact ⟨own.precedence, (h.level_iff _).mpr ⟨own, hown, rfl⟩, hbinds⟩
  · rintro ⟨level, hlevel, hbinds⟩
    obtain ⟨own, hown, rfl⟩ := (h.level_iff level).mp hlevel
    exact ⟨own, hown, hbinds⟩

end Node

/-- A value that no predicate is declared for: the test for it is a comparison. -/
def EnumValue.bare : EnumValue where
  token := "ONE"
  enumName := "TubeSize"
  parameterName := "tubeSize"
  label := "One"

theorem EnumValue.bare_stands : (Node.enumValue bare).Stands {} := by
  have hfield : IsPath "definition.tubeSize" := by decide +kernel
  have hvalue : IsPath "TubeSize.ONE" := by decide +kernel
  exact .spelled rfl (.test (.equality (.token (.inl hfield)) (.token (.inl hvalue))))

/-- In front of a call with a literal in it, the test for the value is the left operand. -/
theorem EnumValue.bare_isOperandAt :
    let wall : Expr := .node (.map (.mk {} [("width", .token "wall")]))
    let p : Position := .left .and (.call "isSized" [wall] false)
    (Node.enumValue bare).Stands {} ∧ (∀ e ∈ p.others, e.Coheres {}) ∧
      (Node.enumValue bare).levelIn {} = some Precedence.equality ∧
      (Node.enumValue bare).IsOperandAt p {} := by
  intro wall p
  have hname : IsPath "isSized" := by decide +kernel
  have hwall : (Part.literal (.mk {} [("width", .token "wall")])).WritesBalanced
      (State.inScope {} .expression) := by
    refine .of_shown (fun _ h => by cases h) fun v hv => ?_
    rw [List.mem_singleton.mp hv]
    exact Expr.writesBalanced_token _ (by decide)
  have hcall : (Expr.call "isSized" [wall] false).Stands {} := by
    refine .call hname fun a ha => ?_
    rw [List.mem_singleton.mp ha]
    exact .literal rfl hwall
  have hothers : ∀ e ∈ p.others, e.Coheres {} := by
    intro e he
    rw [List.mem_singleton.mp he]
    exact hcall.coheres
  have hlt : p.least < Precedence.equality := by decide
  exact ⟨bare_stands, hothers, rfl,
    ((Node.isOperandAt_iff _ p hothers).2 bare_stands).mpr ⟨_, rfl, .inl hlt⟩⟩

/-- Behind `!` it is not: without parentheses, only the field is negated. -/
theorem EnumValue.bare_not_isOperandAt :
    (Node.enumValue bare).rendered (.inScope .expression) {}
        = ("definition.tubeSize == TubeSize.ONE", []) ∧
      ((Position.prefixed .not).put (.node (.enumValue bare))).textIn {}
        = "!definition.tubeSize == TubeSize.ONE" ∧
      ¬ (Node.enumValue bare).IsOperandAt (.prefixed .not) {} := by
  refine ⟨rfl, rfl, fun h => ?_⟩
  have hothers : ∀ e ∈ (Position.prefixed .not).others, e.Coheres {} := fun _ he =>
    absurd he List.not_mem_nil
  obtain ⟨own, hown, hbinds⟩ := (Node.isOperandAt_iff_exists hothers).mp h
  have hlevel := (EnumValue.bare_stands.level_iff own.precedence).mpr ⟨own, hown, rfl⟩
  rcases hbinds with hlt | hapart
  · rw [← Option.some.inj hlevel] at hlt
    exact absurd hlt (by decide)
  · cases hapart

end FeatureStudio
