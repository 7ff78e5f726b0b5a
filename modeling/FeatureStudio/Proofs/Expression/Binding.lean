/-
  FeatureStudio.Proofs.Expression.Binding: how tightly an expression that is read binds.

  Tokens are derived at every level up to the one that the form of their expression has, and at no
  level above it.  So the form of what tokens are read as tells at which places they can stand
  without parentheses.

  Main statements:
    * `Reading.Derives.above`: an expression stands wherever something looser is asked for.
    * `Reading.Derives.operands`: the operands of what is derived are derived themselves.
    * `Reading.Derives.behind`: behind an operator of the same level an operand still leads.
    * `Expr.IsPlain.precedence_of_derives`: what is written is read as binding as tightly.
-/
import FeatureStudio.Proofs.Expression.Written

namespace FeatureStudio

open Reading

/-! ## §1. Levels. -/

theorem Expr.precedence_le_atom (e : Expr) : e.precedence ≤ Precedence.atom :=
  e.shape.precedence_le_atom

theorem Expr.exists_index (e k : Expr) : ∃ base keys, e.index k = .access base keys := by
  cases e <;> exact ⟨_, _, rfl⟩

theorem Expr.precedence_index (e k : Expr) : (e.index k).precedence = Precedence.atom := by
  obtain ⟨base, keys, h⟩ := e.exists_index k
  rw [h]
  rfl

namespace Reading

variable {level : Nat} {ts : List Token} {e : Expr}

/-- What is derived at a level binds as tightly. -/
theorem Derives.le_precedence (h : Derives level ts e) : level ≤ e.precedence := by
  induction h with
  | index => rw [Expr.precedence_index]
  | tighter _ ih => exact Nat.le_of_succ_le ih
  | _ => exact Nat.le_refl _

/-- What is derived is derived at the level of its form. -/
theorem Derives.climb (h : Derives level ts e) : Derives e.precedence ts e := by
  induction h with
  | word h => exact .word h
  | parens h => exact .parens h
  | call hname h => exact .call hname h
  | index h hk =>
      rw [Expr.precedence_index]
      exact .index h hk
  | unary h => exact .unary h
  | binary hl hr => exact .binary hl hr
  | equality hl hr => exact .equality hl hr
  | ternary ht hy hn => exact .ternary ht hy hn
  | tighter _ ih => exact ih

/-- **An expression stands wherever something looser is asked for.** -/
theorem Derives.above (h : Derives level ts e) {least : Nat} (hlt : least < e.precedence) :
    Derives (least + 1) ts e := h.climb.lower hlt

/-! ## §2. Operands. -/

/-- The operands of the outermost form are derived at the levels that it asks for. -/
def OperandsDerive : Expr → Prop
  | .unary _ operand => ∃ ts, Derives Precedence.unary ts operand
  | .binary lhs op rhs =>
    (∃ ts, Derives op.precedence ts lhs) ∧ ∃ ts, Derives (op.precedence + 1) ts rhs
  | .equality lhs _ rhs =>
    (∃ ts, Derives Precedence.equality ts lhs) ∧ ∃ ts, Derives (Precedence.equality + 1) ts rhs
  | .ternary test _ _ => ∃ ts, Derives (Precedence.ternary + 1) ts test
  | .access base _ => ∃ ts, Derives Precedence.atom ts base
  | _ => True

/-- **The operands of what is derived are derived themselves.** -/
theorem Derives.operands (h : Derives level ts e) : OperandsDerive e := by
  induction h with
  | word | parens | call => trivial
  | @index ts ks e k h _ ih =>
      -- further keys are put behind those that are there
      cases e with
      | access base keys => exact ih
      | _ => exact ⟨ts, h⟩
  | unary h => exact ⟨_, h⟩
  | binary hl hr => exact ⟨⟨_, hl⟩, _, hr⟩
  | equality hl hr => exact ⟨⟨_, hl⟩, _, hr⟩
  | ternary ht => exact ⟨_, ht⟩
  | tighter _ ih => exact ih

/-- The operand leads a chain of operations of one level, with the operator behind it. -/
inductive Leads (op : BinaryOp) (operand : Expr) : Expr → Prop where
  | alone (rhs : Expr) : Leads op operand (.binary operand op rhs)
  | further {e : Expr} {op' : BinaryOp} (hop : op'.precedence = op.precedence) (rhs : Expr)
      (h : Leads op operand e) : Leads op operand (.binary e op' rhs)

theorem Leads.le_precedence {op : BinaryOp} {operand : Expr} (h : Leads op operand e)
    (he : Derives level ts e) : op.precedence ≤ operand.precedence := by
  induction h generalizing level ts with
  | alone rhs =>
      obtain ⟨⟨ls, hl⟩, -⟩ := he.operands
      exact hl.le_precedence
  | further _ rhs _ ih =>
      obtain ⟨⟨ls, hl⟩, -⟩ := he.operands
      exact ih hl

theorem Leads.precedence_eq {op : BinaryOp} {operand : Expr} (h : Leads op operand e) :
    e.precedence = op.precedence := by
  cases h with
  | alone rhs => rfl
  | further hop rhs h => exact hop

theorem foldl_index_access (base : Expr) : ∀ ks keys : List Expr,
    ks.foldl Expr.index (.access base keys) = .access base (keys ++ ks)
  | [], keys => by rw [List.append_nil]; rfl
  | k :: ks, keys => by
      rw [List.foldl_cons]
      show ks.foldl Expr.index (.access base (keys ++ [k])) = _
      rw [foldl_index_access base ks, List.append_assoc, List.singleton_append]

/-- What is accessed by keys needs no parentheses. -/
theorem Derives.atom_le_base {operand k : Expr} {ks : List Expr}
    (h : Derives level ts ((k :: ks).foldl Expr.index operand)) :
    Precedence.atom ≤ operand.precedence := by
  have hbase : ∀ keys, (k :: ks).foldl Expr.index operand = .access operand keys →
      Precedence.atom ≤ operand.precedence := by
    intro keys heq
    rw [heq] at h
    obtain ⟨ts', hd⟩ := h.operands
    exact hd.le_precedence
  cases operand with
  | access base keys => exact Nat.le_refl _
  | _ => exact hbase _ (foldl_index_access _ ks [k])

/-- **Behind an operator of the same level an operand still leads**: the operations on its right
are grouped from the left, first the one with the operand. -/
theorem Derives.behind {op : BinaryOp} {ls rs : List Token} {l r : Expr}
    (hr : Derives op.precedence rs r) (hl : Derives op.precedence ls l) :
    ∃ e, Derives op.precedence (ls ++ .binary op :: rs) e ∧ Leads op l e := by
  -- the induction goes down the left side of what is on the right, where the operand joins
  generalize hlevel : op.precedence = level at hr
  induction hr with
  | word | parens | call | index => exact absurd hlevel.symm op.level_ne.1
  | unary => exact absurd hlevel.symm op.level_ne.2.1
  | equality => exact absurd hlevel.symm op.level_ne.2.2.1
  | ternary => exact absurd hlevel.symm op.level_ne.2.2.2
  | @binary op' ls' rs' l' r' hl' hr' ihl =>
      obtain ⟨e, he, hleads⟩ := ihl hlevel
      have hchain := Derives.binary he hr'
      rw [List.append_assoc, List.cons_append] at hchain
      exact ⟨_, hchain, hleads.further hlevel.symm r'⟩
  | tighter h _ =>
      subst hlevel
      exact ⟨_, .binary hl h, .alone _⟩

/-! ## §3. No level above. -/

/-- **What an operator stands in is not derived above the level of the operator**: from there it
is read only in part. -/
theorem Derives.exists_rest (h : Derives level ts e) (hatom : level ≠ Precedence.atom) {t : Token}
    (ht : t.reach = level) (rs : List Token) :
    ∃ e' rest, rest ≠ [] ∧ ReadsAt (level + 1) (ts ++ t :: rs) e' rest := by
  -- a chain is left at its leftmost operand, whatever operations follow it
  induction h generalizing t rs with
  | word | parens | call | index => exact absurd rfl hatom
  | unary => exact absurd ht (reach_ne t).1
  | ternary => exact absurd ht (reach_ne t).2
  | @binary op ls rs' l r _ _ ihl =>
      obtain ⟨e', rest, hrest, hreads⟩ := ihl hatom (t := .binary op) rfl (rs' ++ t :: rs)
      rw [List.append_assoc]
      exact ⟨e', rest, hrest, hreads⟩
  | @equality op ls rs' l r _ _ ihl =>
      obtain ⟨e', rest, hrest, hreads⟩ := ihl hatom (t := .equality op) rfl (rs' ++ t :: rs)
      rw [List.append_assoc]
      exact ⟨e', rest, hrest, hreads⟩
  | @tighter level ts e h _ =>
      exact ⟨e, t :: rs, List.cons_ne_nil _ _,
        h.reads.alone (bounded_cons (Nat.le_of_eq ht) rs) (Nat.lt_succ_self level)⟩

/-- What is derived is read to its end. -/
theorem Derives.readsAll (h : Derives level ts e) : ReadsAt level ts e [] := by
  have hreads := h.reads level [] e [] (Nat.le_refl _) (bounded_nil _)
    (.stop fun _ ht => by cases ht)
  rwa [List.append_nil] at hreads

theorem Derives.not_above (h : Derives level ts e) (hatom : level ≠ Precedence.atom) {t : Token}
    (ht : t.reach = level) (rs : List Token) (e' : Expr) :
    ¬ Derives (level + 1) (ts ++ t :: rs) e' := by
  intro habove
  obtain ⟨e'', rest, hrest, hreads⟩ := h.exists_rest hatom ht rs
  exact hrest (habove.readsAll.unique hreads).2.symm

/-- A choice does not stand where anything tighter is asked for. -/
theorem Derives.not_above_ternary {test : Expr} (h : Derives (Precedence.ternary + 1) ts test)
    (rs : List Token) (e : Expr) :
    ¬ Derives (Precedence.ternary + 1) (ts ++ .question :: rs) e := by
  intro habove
  have hreads := h.reads _ (.question :: rs) test _ (Nat.le_refl _)
    (bounded_cons (Nat.le_refl _) rs) (.stop fun t ht => by cases ht; exact Nat.not_succ_le_self _)
  cases (habove.readsAll.unique hreads).2

/-- What is derived without parentheses begins with no operator. -/
theorem Derives.head_of_atom (h : Derives Precedence.atom ts e) :
    ∃ t ts', ts = t :: ts' ∧ ∀ op, t ≠ prefixToken op := by
  generalize hlevel : Precedence.atom = level at h
  induction h with
  | word => exact ⟨_, _, rfl, word_ne_prefixToken _⟩
  | parens => exact ⟨_, _, rfl, openParen_ne_prefixToken⟩
  | call => exact ⟨_, _, rfl, word_ne_prefixToken _⟩
  | index _ _ ih =>
      obtain ⟨t, ts', rfl, ht⟩ := ih hlevel
      exact ⟨t, _, rfl, ht⟩
  | unary | equality | ternary => exact absurd hlevel (by decide)
  | @binary op => exact absurd hlevel op.level_ne.1
  | tighter h =>
      have hle := Nat.le_trans h.le_precedence (Expr.precedence_le_atom _)
      omega

/-- What is derived begins with no comparison. -/
theorem not_derives_equality (op : EqualityOp) (ts : List Token) :
    ¬ Derives level (.equality op :: ts) e := by
  intro h
  cases h.readsAll with
  | @unary _ op' _ _ _ _ _ _ ht => cases op' <;> cases ht

/-- Two words side by side are no expression. -/
theorem not_derives_words (text text' : String) (ts : List Token) :
    ¬ Derives level (.word text :: .word text' :: ts) e := by
  intro h
  cases h.readsAll with
  | word _ htail => cases htail
  | unary ht => exact word_ne_prefixToken _ _ ht

end Reading

/-! ## §4. What is written. -/

namespace Expr

/-- The tokens of an expression are derived at no level above its own. -/
theorem IsPlain.not_derives_above {e : Expr} (h : e.IsPlain) (t : Expr) :
    ¬ Derives (e.precedence + 1) e.tokens t := by
  have hatom : ∀ {ts : List Token}, ¬ Derives (Precedence.atom + 1) ts t := fun h =>
    absurd (Nat.le_trans h.le_precedence t.precedence_le_atom) (by decide)
  -- above its level an operator cannot stand behind its left operand, and atoms have none above
  cases h with
  | token | parens | access | call => exact hatom
  | @unary op e h =>
      intro habove
      rw [tokens] at habove
      obtain ⟨t, ts', hts, ht⟩ := Derives.head_of_atom habove
      cases hts
      exact ht op rfl
  | @binary l r op hl hr =>
      have hlt : op.precedence - 1 < Precedence.atom :=
        Nat.lt_of_le_of_lt (Nat.pred_le _) op.precedence_lt_atom
      obtain ⟨l', hl', -⟩ := hl.means.1.operand hlt
      rw [op.pred_precedence] at hl'
      rw [tokens]
      exact hl'.not_above op.level_ne.1.symm (t := .binary op) rfl _ t
  | @equality l r op hl hr =>
      have hlt : Precedence.equality - 1 < Precedence.atom := by decide
      obtain ⟨l', hl', -⟩ := hl.means.1.operand hlt
      rw [tokens]
      exact hl'.not_above (by decide) (t := .equality op) rfl _ t
  | ternary ht hy hn =>
      have hlt : Precedence.ternary < Precedence.atom := by decide
      obtain ⟨test', htest', -⟩ := ht.means.1.operand hlt
      rw [tokens]
      exact htest'.not_above_ternary _ t

/-- **What is written is read as binding as tightly.** -/
theorem IsPlain.precedence_of_derives {e t : Expr} (h : e.IsPlain)
    (ht : Derives Precedence.ternary e.tokens t) : t.precedence = e.precedence := by
  obtain ⟨t', ht', -⟩ := h.means.1
  -- tokens have one reading, so it is the one at the level of the form
  cases ht.unique (ht'.lower e.one_le_precedence)
  refine Nat.le_antisymm (Nat.le_of_not_lt fun hlt => ?_) ht'.le_precedence
  exact h.not_derives_above t (ht'.above hlt)

end Expr

end FeatureStudio
