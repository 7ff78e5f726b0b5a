/-
  FeatureStudio.Proofs.Expression.Written: the tokens that an expression is written as.

  Operands that bind too loosely are put in parentheses.  An operator that does not care how its
  operands are grouped takes an operation of its own kind on its right without them, so that what
  is read back is grouped from the left again: the tree differs, its value does not.

  Main statements:
    * `Expr.Extends`, `Expr.IsPlain.means`: the invariant of the induction, and the induction.
    * `Expr.derives_tokens`: the tokens are derived as an expression of the same value.
-/
import FeatureStudio.Proofs.Expression.Grammar
import FeatureStudio.Proofs.Expression.Value
import FeatureStudio.Render.Operand

namespace FeatureStudio

open Reading
open Render (Operand.rightLeast)

/-! ## §1. Expressions and their tokens. -/

/-- Expressions whose tokens are atoms and whose parts are expressions again, without any other
node as an operand. -/
inductive Expr.IsPlain : Expr → Prop where
  | token {text : String} (h : IsAtom text) : (Expr.token text).IsPlain
  | parens {e : Expr} (h : e.IsPlain) : (Expr.parens e).IsPlain
  | unary {op : UnaryOp} {e : Expr} (h : e.IsPlain) : (Expr.unary op e).IsPlain
  | binary {l r : Expr} {op : BinaryOp} (hl : l.IsPlain) (hr : r.IsPlain) :
      (Expr.binary l op r).IsPlain
  | equality {l r : Expr} {op : EqualityOp} (hl : l.IsPlain) (hr : r.IsPlain) :
      (Expr.equality l op r).IsPlain
  | ternary {test yes no : Expr} (ht : test.IsPlain) (hy : yes.IsPlain) (hn : no.IsPlain) :
      (Expr.ternary test yes no).IsPlain
  | access {base : Expr} {keys : List Expr} (hb : base.IsPlain) (hk : ∀ k ∈ keys, k.IsPlain) :
      (Expr.access base keys).IsPlain
  | call {name : String} {args : List Expr} {multiline : Bool} (hname : IsPath name)
      (ha : ∀ a ∈ args, a.IsPlain) : (Expr.call name args multiline).IsPlain

/-- Tokens in parentheses. -/
def enclosed (ts : List Token) : List Token := .openParen :: (ts ++ [.closeParen])

/-- Tokens in parentheses unless they bind tighter than `least`. -/
def enclosedUnless (least precedence : Nat) (ts : List Token) : List Token :=
  if least < precedence then ts else enclosed ts

/-- The operand of a prefix operator: two minus signs never meet. -/
def setApart (op : UnaryOp) (ts : List Token) : List Token :=
  if op = .neg && ts.head? == some .minus then enclosed ts else ts

mutual

/-- The tokens of an expression as it is written. -/
def Expr.tokens : Expr → List Token
  | .token text => [.word text]
  | .parens inner => enclosed inner.tokens
  | .unary op operand =>
    prefixToken op
      :: setApart op (enclosedUnless (Precedence.unary - 1) operand.precedence operand.tokens)
  | .binary lhs op rhs =>
    enclosedUnless (op.precedence - 1) lhs.precedence lhs.tokens
      ++ .binary op :: enclosedUnless (Operand.rightLeast op rhs.shape) rhs.precedence rhs.tokens
  | .equality lhs op rhs =>
    enclosedUnless (Precedence.equality - 1) lhs.precedence lhs.tokens
      ++ .equality op :: enclosedUnless Precedence.equality rhs.precedence rhs.tokens
  | .ternary test ifTrue ifFalse =>
    enclosedUnless Precedence.ternary test.precedence test.tokens
      ++ .question :: (ifTrue.tokens ++ .colon :: ifFalse.tokens)
  | .access base keys =>
    enclosedUnless Precedence.unary base.precedence base.tokens ++ Expr.keyTokens keys
  | .call name args _ =>
    .word name :: .openParen :: (commaed (Expr.tokenLists args) ++ [.closeParen])
  | .node _ => []

/-- Keys in brackets. -/
def Expr.keyTokens : List Expr → List Token
  | [] => []
  | k :: keys => .openBracket :: (k.tokens ++ [.closeBracket]) ++ Expr.keyTokens keys

/-- The tokens of every expression. -/
def Expr.tokenLists : List Expr → List (List Token)
  | [] => []
  | e :: rest => e.tokens :: Expr.tokenLists rest

end

/-! ## §2. What tokens mean at a level. -/

/-- The tokens are derived at a level, as an expression of the given value. -/
def Means (level : Nat) (ts : List Token) (v : Interpretation → ScriptValue) : Prop :=
  ∃ e, Derives level ts e ∧ ∀ I, e.value I = v I

namespace Means

variable {ts rs : List Token} {v w : Interpretation → ScriptValue}

theorem lower {level : Nat} (h : Means level ts v) {below : Nat} (hle : below ≤ level) :
    Means below ts v := by
  obtain ⟨e, he, hv⟩ := h
  exact ⟨e, he.lower hle, hv⟩

theorem enclosed (h : Means Precedence.ternary ts v) :
    Means Precedence.atom (FeatureStudio.enclosed ts) v := by
  obtain ⟨e, he, hv⟩ := h
  exact ⟨.parens e, .parens he, hv⟩

/-- Operands bind as tightly as they have to. -/
theorem enclosedUnless {level least : Nat} (h : Means level ts v) (hlevel : 1 ≤ level)
    (hleast : least < Precedence.atom) :
    Means (least + 1) (FeatureStudio.enclosedUnless least level ts) v := by
  unfold FeatureStudio.enclosedUnless
  split
  · next hlt => exact h.lower hlt
  · exact (h.lower hlevel).enclosed.lower hleast

theorem unary (op : UnaryOp) (h : Means Precedence.unary ts v) :
    Means Precedence.unary (prefixToken op :: setApart op ts) fun I => op.apply (v I) := by
  have hapart : Means Precedence.unary (setApart op ts) v := by
    unfold setApart
    split
    · exact (h.lower (by decide)).enclosed.lower (by decide)
    · exact h
  obtain ⟨e, he, hv⟩ := hapart
  exact ⟨.unary op e, .unary he, fun I => by rw [Expr.value, hv I]⟩

theorem binary (op : BinaryOp) (hl : Means op.precedence ts v)
    (hr : Means (op.precedence + 1) rs w) :
    Means op.precedence (ts ++ .binary op :: rs) fun I => op.apply (v I) (w I) := by
  obtain ⟨l, hl, hv⟩ := hl
  obtain ⟨r, hr, hw⟩ := hr
  exact ⟨.binary l op r, .binary hl hr, fun I => by rw [Expr.value, hv I, hw I]⟩

theorem equality (op : EqualityOp) (hl : Means Precedence.equality ts v)
    (hr : Means (Precedence.equality + 1) rs w) :
    Means Precedence.equality (ts ++ .equality op :: rs) fun I => op.apply (v I) (w I) := by
  obtain ⟨l, hl, hv⟩ := hl
  obtain ⟨r, hr, hw⟩ := hr
  exact ⟨.equality l op r, .equality hl hr, fun I => by rw [Expr.value, hv I, hw I]⟩

theorem ternary {ns : List Token} {u : Interpretation → ScriptValue}
    (ht : Means (Precedence.ternary + 1) ts v) (hy : Means Precedence.ternary rs w)
    (hn : Means Precedence.ternary ns u) :
    Means Precedence.ternary (ts ++ .question :: (rs ++ .colon :: ns))
      fun I => (v I).choose (w I) (u I) := by
  obtain ⟨test, ht, hv⟩ := ht
  obtain ⟨yes, hy, hw⟩ := hy
  obtain ⟨no, hn, hu⟩ := hn
  exact ⟨.ternary test yes no, .ternary ht hy hn, fun I => by rw [Expr.value, hv I, hw I, hu I]⟩

theorem index (h : Means Precedence.atom ts v) (hk : Means Precedence.ternary rs w) :
    Means Precedence.atom (ts ++ .openBracket :: (rs ++ [.closeBracket]))
      fun I => I.index (v I) (w I) := by
  obtain ⟨e, he, hv⟩ := h
  obtain ⟨k, hk, hw⟩ := hk
  exact ⟨e.index k, .index he hk, fun I => by rw [Expr.value_index, hv I, hw I]⟩

end Means

/-- The tokens of an expression mean it, at its own level. -/
def Expr.IsMeant (e : Expr) : Prop := Means e.precedence e.tokens fun I => e.value I

theorem Expr.one_le_precedence (e : Expr) : 1 ≤ e.precedence := by
  unfold Expr.precedence
  cases e.shape with
  | binary op => cases op <;> decide
  | _ => decide

namespace Expr.IsMeant

variable {e : Expr}

theorem anywhere (h : e.IsMeant) : Means Precedence.ternary e.tokens fun I => e.value I :=
  h.lower e.one_le_precedence

theorem operand (h : e.IsMeant) {least : Nat} (hleast : least < Precedence.atom) :
    Means (least + 1) (enclosedUnless least e.precedence e.tokens) fun I => e.value I :=
  Means.enclosedUnless h e.one_le_precedence hleast

end Expr.IsMeant

/-- Access by keys, one after the other. -/
theorem means_keyTokens : ∀ {keys : List Expr}, (∀ k ∈ keys, k.IsMeant) →
    ∀ {ts : List Token} {v : Interpretation → ScriptValue}, Means Precedence.atom ts v →
      Means Precedence.atom (ts ++ Expr.keyTokens keys)
        fun I => (Expr.values I keys).foldl I.index (v I)
  | [], _, ts, v, h => by
      rw [Expr.keyTokens, List.append_nil]
      exact h
  | k :: keys, hk, ts, v, h => by
      have hindex := h.index (hk k List.mem_cons_self).anywhere
      have hrest := means_keyTokens (fun k' hk' => hk k' (List.mem_cons_of_mem _ hk')) hindex
      rw [Expr.keyTokens, ← List.append_assoc]
      exact hrest

/-- Arguments are derived one by one. -/
theorem exists_args : ∀ {args : List Expr}, (∀ a ∈ args, a.IsMeant) →
    ∃ read : List (List Token × Expr), read.map Prod.fst = Expr.tokenLists args ∧
      (∀ a ∈ read, Derives Precedence.ternary a.1 a.2) ∧
      ∀ I, Expr.values I (read.map Prod.snd) = Expr.values I args
  | [], _ => ⟨[], rfl, by simp, fun _ => rfl⟩
  | a :: args, h => by
      obtain ⟨e, he, hv⟩ := (h a List.mem_cons_self).anywhere
      obtain ⟨read, hfst, hread, hvalues⟩ :=
        exists_args fun a' ha' => h a' (List.mem_cons_of_mem _ ha')
      refine ⟨(a.tokens, e) :: read, ?_, ?_, fun I => ?_⟩
      · rw [List.map_cons, hfst, Expr.tokenLists]
      · intro p hp
        rcases List.mem_cons.mp hp with rfl | hp
        · exact he
        · exact hread p hp
      · rw [List.map_cons, Expr.values, Expr.values, hv I, hvalues I]

/-! ## §3. Right operands without parentheses. -/

/-- Behind tokens of its own level, an associative operator may be followed by the expression
without parentheses as long as it does not bind more loosely. -/
def Expr.Extends (e : Expr) : Prop :=
  ∀ op : BinaryOp, op.isAssociative → ∀ {ts : List Token} {v : Interpretation → ScriptValue},
    Means op.precedence ts v →
      Means op.precedence
        (ts ++ .binary op :: enclosedUnless (op.precedence - 1) e.precedence e.tokens)
        fun I => op.apply (v I) (e.value I)

theorem BinaryOp.precedence_lt_atom (op : BinaryOp) : op.precedence < Precedence.atom := by
  cases op <;> decide

/-- The levels at which no binary operator stands. -/
theorem BinaryOp.level_ne (op : BinaryOp) :
    Precedence.atom ≠ op.precedence ∧ Precedence.unary ≠ op.precedence ∧
      Precedence.equality ≠ op.precedence ∧ Precedence.ternary ≠ op.precedence := by
  cases op <;> decide

theorem BinaryOp.pred_precedence (op : BinaryOp) : op.precedence - 1 + 1 = op.precedence := by
  cases op <;> rfl

/-- An expression of another level stands as an operand that binds tighter, or in parentheses. -/
theorem Expr.IsMeant.behind {e : Expr} (h : e.IsMeant) {op : BinaryOp}
    (hne : e.precedence ≠ op.precedence) {ts : List Token} {v : Interpretation → ScriptValue}
    (hts : Means op.precedence ts v) :
    Means op.precedence
      (ts ++ .binary op :: enclosedUnless (op.precedence - 1) e.precedence e.tokens)
      fun I => op.apply (v I) (e.value I) := by
  -- between the two bounds lies only the level that the expression does not have
  have hsame : enclosedUnless (op.precedence - 1) e.precedence e.tokens
      = enclosedUnless op.precedence e.precedence e.tokens := by
    have hpred := op.pred_precedence
    unfold enclosedUnless
    by_cases hlt : op.precedence < e.precedence
    · rw [if_pos hlt, if_pos (by omega)]
    · rw [if_neg hlt, if_neg (by omega)]
  rw [hsame]
  exact hts.binary op (h.operand op.precedence_lt_atom)

/-- The right operand of any operator: without parentheses if it is of the operator's kind. -/
theorem means_right {r : Expr} (h : r.IsMeant) (hr : r.Extends) (op : BinaryOp)
    {ts : List Token} {v : Interpretation → ScriptValue} (hts : Means op.precedence ts v) :
    Means op.precedence
      (ts ++ .binary op :: enclosedUnless (Operand.rightLeast op r.shape) r.precedence r.tokens)
      fun I => op.apply (v I) (r.value I) := by
  unfold Operand.rightLeast
  split
  · next hsame =>
      rw [Bool.and_eq_true] at hsame
      exact hr op hsame.2 hts
  · exact hts.binary op (h.operand op.precedence_lt_atom)

/-- An operation takes part in the chain in front of it: first its left operand, which may be a
chain itself, then its operator with its right operand. -/
theorem extends_binary {l r : Expr} {inner : BinaryOp} (hm : (Expr.binary l inner r).IsMeant)
    (hl : l.Extends) (hr : r.IsMeant) (hr' : r.Extends) : (Expr.binary l inner r).Extends := by
  intro op hassoc ts v hts
  by_cases hlevel : inner.precedence = op.precedence
  -- of the same level: the left operand joins the chain, and `inner` goes on behind it
  · have hleft := hl op hassoc hts
    rw [← hlevel] at hleft
    obtain ⟨e, he, hv⟩ := means_right hr hr' inner hleft
    have hbare : enclosedUnless (op.precedence - 1) (Expr.binary l inner r).precedence
        (Expr.binary l inner r).tokens = (Expr.binary l inner r).tokens := by
      refine if_pos ?_
      show op.precedence - 1 < inner.precedence
      have hpred := op.pred_precedence
      omega
    rw [hbare, Expr.tokens, ← hlevel]
    rw [List.append_assoc, List.cons_append] at he
    refine ⟨e, he, fun I => ?_⟩
    rw [hv I]
    exact (BinaryOp.apply_assoc hassoc hlevel (v I) (l.value I) (r.value I)).symm
  · exact hm.behind hlevel hts

/-- **What an expression is written as means the expression.** -/
theorem Expr.IsPlain.means {e : Expr} (h : e.IsPlain) : e.IsMeant ∧ e.Extends := by
  have other : ∀ {e : Expr}, e.IsMeant → (∀ op : BinaryOp, e.precedence ≠ op.precedence) →
      e.IsMeant ∧ e.Extends := fun hm hne =>
    -- no form but a binary operation stands at the level of an operator
    ⟨hm, fun op _ _ _ hts => hm.behind (hne op) hts⟩
  induction h with
  | @token text h =>
      exact other ⟨.token text, .word h, fun _ => rfl⟩ fun op => op.level_ne.1
  | parens h ih =>
      exact other ih.1.anywhere.enclosed fun op => op.level_ne.1
  | @unary op e h ih =>
      exact other ((ih.1.operand (by decide)).unary op) fun op => op.level_ne.2.1
  | @binary l r op hl hr ihl ihr =>
      have hlt : op.precedence - 1 < Precedence.atom :=
        Nat.lt_of_le_of_lt (Nat.pred_le _) op.precedence_lt_atom
      have hleft := ihl.1.operand hlt
      rw [op.pred_precedence] at hleft
      have hm : (Expr.binary l op r).IsMeant := means_right ihr.1 ihr.2 op hleft
      exact ⟨hm, extends_binary hm ihl.2 ihr.1 ihr.2⟩
  | @equality l r op hl hr ihl ihr =>
      exact other ((ihl.1.operand (by decide)).equality op (ihr.1.operand (by decide)))
        fun op => op.level_ne.2.2.1
  | ternary ht hy hn iht ihy ihn =>
      exact other (Means.ternary (iht.1.operand (by decide)) ihy.1.anywhere ihn.1.anywhere)
        fun op => op.level_ne.2.2.2
  | access hb hk ihb ihk =>
      exact other (means_keyTokens (fun k hk => (ihk k hk).1) (ihb.1.operand (by decide)))
        fun op => op.level_ne.1
  | @call name args multiline hname ha iha =>
      obtain ⟨read, hfst, hread, hvalues⟩ := exists_args fun a ha => (iha a ha).1
      have hcall := Derives.call hname hread
      rw [hfst] at hcall
      refine other ⟨_, hcall, fun I => ?_⟩ fun op => op.level_ne.1
      show I.call name (Expr.values I (read.map Prod.snd)) = I.call name (Expr.values I args)
      rw [hvalues I]

/-- The tokens are derived as an expression of the same value. -/
theorem Expr.derives_tokens {e : Expr} (h : e.IsPlain) :
    ∃ t, Derives Precedence.ternary e.tokens t ∧ ∀ I, t.value I = e.value I :=
  h.means.1.anywhere

end FeatureStudio
