/-
  FeatureStudio.Proofs.Expression.Grammar: the grammar of expressions, and how it is read.

  A level is a strength of binding.  What is derived at a level stands wherever a looser level is
  asked for; everything else needs parentheses.  The grammar is left recursive, so it is read by
  levels: first an operand, then whatever goes on with it.

  Main statements:
    * `Derives.reads`: what is derived is read, up to where a looser operator stands.
    * `ReadsAt.unique`: reading leaves no choice.
    * `Derives.unique`: tokens have one derivation at most.
-/
import FeatureStudio.Proofs.Expression.Token
import FeatureStudio.Script.Node

namespace FeatureStudio.Reading

/-! ## §1. The grammar. -/

/-- The token of a prefix operator. -/
def prefixToken : UnaryOp → Token
  | .not => .not
  | .neg => .minus

/-- Lists of tokens with commas between them. -/
def commaed (parts : List (List Token)) : List Token := [Token.comma].intercalate parts

theorem commaed_cons_cons (ts ts' : List Token) (tss : List (List Token)) :
    commaed (ts :: ts' :: tss) = ts ++ .comma :: commaed (ts' :: tss) := by
  simp [commaed, List.intercalate]

/-- The expressions that tokens stand for at a level.  Operators of a level and equality take a
left operand of their own level and a tighter right one; a choice takes anything in its branches. -/
inductive Derives : Nat → List Token → Expr → Prop where
  | word {text : String} (h : IsAtom text) : Derives Precedence.atom [.word text] (.token text)
  | parens {ts : List Token} {e : Expr} (h : Derives Precedence.ternary ts e) :
      Derives Precedence.atom (.openParen :: (ts ++ [.closeParen])) (.parens e)
  | call {name : String} {args : List (List Token × Expr)} (hname : IsPath name)
      (h : ∀ a ∈ args, Derives Precedence.ternary a.1 a.2) :
      Derives Precedence.atom
        (.word name :: .openParen :: (commaed (args.map Prod.fst) ++ [.closeParen]))
        (.call name (args.map Prod.snd) false)
  | index {ts ks : List Token} {e k : Expr} (h : Derives Precedence.atom ts e)
      (hk : Derives Precedence.ternary ks k) :
      Derives Precedence.atom (ts ++ .openBracket :: (ks ++ [.closeBracket])) (e.index k)
  | unary {op : UnaryOp} {ts : List Token} {e : Expr} (h : Derives Precedence.unary ts e) :
      Derives Precedence.unary (prefixToken op :: ts) (.unary op e)
  | binary {op : BinaryOp} {ls rs : List Token} {l r : Expr} (hl : Derives op.precedence ls l)
      (hr : Derives (op.precedence + 1) rs r) :
      Derives op.precedence (ls ++ .binary op :: rs) (.binary l op r)
  | equality {op : EqualityOp} {ls rs : List Token} {l r : Expr}
      (hl : Derives Precedence.equality ls l) (hr : Derives (Precedence.equality + 1) rs r) :
      Derives Precedence.equality (ls ++ .equality op :: rs) (.equality l op r)
  | ternary {ts ys ns : List Token} {test yes no : Expr}
      (ht : Derives (Precedence.ternary + 1) ts test) (hy : Derives Precedence.ternary ys yes)
      (hn : Derives Precedence.ternary ns no) :
      Derives Precedence.ternary (ts ++ .question :: (ys ++ .colon :: ns)) (.ternary test yes no)
  /-- What binds tighter stands where a looser level is asked for. -/
  | tighter {level : Nat} {ts : List Token} {e : Expr} (h : Derives (level + 1) ts e) :
      Derives level ts e

/-- From one level down to another. -/
theorem Derives.lower {level : Nat} {ts : List Token} {e : Expr} (h : Derives level ts e)
    {below : Nat} (hle : below ≤ level) : Derives below ts e := by
  induction hle with
  | refl => exact h
  | step _ ih => exact ih h.tighter

/-- A text is read as an expression if it consists of tokens that derive it. -/
def Reads (text : String) (e : Expr) : Prop :=
  ∃ ts, scan text.toList = some ts ∧ Derives Precedence.ternary ts e

/-! ## §2. Reading by levels. -/

/-- Whether the token goes on with an expression that is read at a level. -/
def Token.goesOn (level : Nat) : Token → Prop
  | .openBracket => level ≤ Precedence.atom
  | .binary op => level ≤ op.precedence
  | .equality _ => level ≤ Precedence.equality
  | .question => level ≤ Precedence.ternary
  | _ => False

mutual

/-- Reading at a level: an operand first, then all that goes on with it. -/
inductive ReadsAt : Nat → List Token → Expr → List Token → Prop where
  | word {level : Nat} {text : String} {ts rest : List Token} {e : Expr}
      (hts : ts.head? ≠ some .openParen) (h : ReadsTail level (.token text) ts e rest) :
      ReadsAt level (.word text :: ts) e rest
  | parens {level : Nat} {ts ts' rest : List Token} {inner e : Expr}
      (hi : ReadsAt Precedence.ternary ts inner (.closeParen :: ts'))
      (h : ReadsTail level (.parens inner) ts' e rest) :
      ReadsAt level (.openParen :: ts) e rest
  | call {level : Nat} {name : String} {ts ts' rest : List Token} {args : List Expr} {e : Expr}
      (ha : ReadsArgs ts args ts') (h : ReadsTail level (.call name args false) ts' e rest) :
      ReadsAt level (.word name :: .openParen :: ts) e rest
  | unary {level : Nat} {op : UnaryOp} {t : Token} {ts ts' rest : List Token} {operand e : Expr}
      (ht : t = prefixToken op) (ho : ReadsAt Precedence.unary ts operand ts')
      (h : ReadsTail level (.unary op operand) ts' e rest) :
      ReadsAt level (t :: ts) e rest

/-- What goes on with an expression, as long as something does. -/
inductive ReadsTail : Nat → Expr → List Token → Expr → List Token → Prop where
  | stop {level : Nat} {e : Expr} {ts : List Token} (h : ∀ t ∈ ts.head?, ¬t.goesOn level) :
      ReadsTail level e ts e ts
  | index {level : Nat} {e k e' : Expr} {ts ts' rest : List Token}
      (hlevel : level ≤ Precedence.atom)
      (hk : ReadsAt Precedence.ternary ts k (.closeBracket :: ts'))
      (h : ReadsTail level (e.index k) ts' e' rest) :
      ReadsTail level e (.openBracket :: ts) e' rest
  | binary {level : Nat} {op : BinaryOp} {e r e' : Expr} {ts ts' rest : List Token}
      (hlevel : level ≤ op.precedence) (hr : ReadsAt (op.precedence + 1) ts r ts')
      (h : ReadsTail level (.binary e op r) ts' e' rest) :
      ReadsTail level e (.binary op :: ts) e' rest
  | equality {level : Nat} {op : EqualityOp} {e r e' : Expr} {ts ts' rest : List Token}
      (hlevel : level ≤ Precedence.equality) (hr : ReadsAt (Precedence.equality + 1) ts r ts')
      (h : ReadsTail level (.equality e op r) ts' e' rest) :
      ReadsTail level e (.equality op :: ts) e' rest
  | ternary {level : Nat} {e yes no e' : Expr} {ts ts' ts'' rest : List Token}
      (hlevel : level ≤ Precedence.ternary)
      (hy : ReadsAt Precedence.ternary ts yes (.colon :: ts'))
      (hn : ReadsAt Precedence.ternary ts' no ts'')
      (h : ReadsTail level (.ternary e yes no) ts'' e' rest) :
      ReadsTail level e (.question :: ts) e' rest

/-- The arguments of a call, up to the parenthesis that closes it. -/
inductive ReadsArgs : List Token → List Expr → List Token → Prop where
  | none {rest : List Token} : ReadsArgs (.closeParen :: rest) [] rest
  | last {ts rest : List Token} {e : Expr}
      (h : ReadsAt Precedence.ternary ts e (.closeParen :: rest)) : ReadsArgs ts [e] rest
  | more {ts ts' rest : List Token} {e : Expr} {es : List Expr}
      (h : ReadsAt Precedence.ternary ts e (.comma :: ts')) (hes : ReadsArgs ts' es rest) :
      ReadsArgs ts (e :: es) rest

end

theorem prefixToken_injective {op op' : UnaryOp} (h : prefixToken op = prefixToken op') :
    op = op' := by
  cases op <;> cases op' <;> first | rfl | cases h

theorem word_ne_prefixToken (text : String) (op : UnaryOp) : .word text ≠ prefixToken op := by
  cases op <;> exact Token.noConfusion

theorem openParen_ne_prefixToken (op : UnaryOp) : .openParen ≠ prefixToken op := by
  cases op <;> exact Token.noConfusion

theorem closeParen_ne_prefixToken (op : UnaryOp) : .closeParen ≠ prefixToken op := by
  cases op <;> exact Token.noConfusion

mutual

/-- **Reading leaves no choice.** -/
theorem ReadsAt.unique {level : Nat} {ts rest rest' : List Token} {e e' : Expr} :
    ReadsAt level ts e rest → ReadsAt level ts e' rest' → e = e' ∧ rest = rest'
  | .word _ h, .word _ h' => h.unique h'
  | .word hts _, .call _ _ => absurd rfl hts
  | .call _ _, .word hts' _ => absurd rfl hts'
  | .parens hi h, .parens hi' h' => by
      obtain ⟨rfl, heq⟩ := hi.unique hi'
      cases heq
      exact h.unique h'
  | .call ha h, .call ha' h' => by
      obtain ⟨rfl, rfl⟩ := ha.unique ha'
      exact h.unique h'
  | .unary ht ho h, .unary ht' ho' h' => by
      cases prefixToken_injective (ht.symm.trans ht')
      obtain ⟨rfl, rfl⟩ := ho.unique ho'
      exact h.unique h'
  | .word .., .unary ht _ _ | .call .., .unary ht _ _ | .unary ht _ _, .word ..
  | .unary ht _ _, .call .. => absurd ht (word_ne_prefixToken _ _)
  | .parens .., .unary ht _ _ | .unary ht _ _, .parens .. => absurd ht (openParen_ne_prefixToken _)

theorem ReadsTail.unique {level : Nat} {ts rest rest' : List Token} {e₀ e e' : Expr} :
    ReadsTail level e₀ ts e rest → ReadsTail level e₀ ts e' rest' → e = e' ∧ rest = rest'
  | .stop _, .stop _ => ⟨rfl, rfl⟩
  | .stop h, .index hlevel _ _ | .stop h, .binary hlevel _ _ | .stop h, .equality hlevel _ _
  | .stop h, .ternary hlevel _ _ _ | .index hlevel _ _, .stop h | .binary hlevel _ _, .stop h
  | .equality hlevel _ _, .stop h | .ternary hlevel _ _ _, .stop h => absurd hlevel (h _ rfl)
  | .index _ hk h, .index _ hk' h' => by
      obtain ⟨rfl, heq⟩ := hk.unique hk'
      cases heq
      exact h.unique h'
  | .binary _ hr h, .binary _ hr' h' => by
      obtain ⟨rfl, rfl⟩ := hr.unique hr'
      exact h.unique h'
  | .equality _ hr h, .equality _ hr' h' => by
      obtain ⟨rfl, rfl⟩ := hr.unique hr'
      exact h.unique h'
  | .ternary _ hy hn h, .ternary _ hy' hn' h' => by
      obtain ⟨rfl, heq⟩ := hy.unique hy'
      cases heq
      obtain ⟨rfl, rfl⟩ := hn.unique hn'
      exact h.unique h'

theorem ReadsArgs.unique {ts rest rest' : List Token} {es es' : List Expr} :
    ReadsArgs ts es rest → ReadsArgs ts es' rest' → es = es' ∧ rest = rest'
  | .none, .none => ⟨rfl, rfl⟩
  | .last h, .last h' => by
      obtain ⟨rfl, heq⟩ := h.unique h'
      cases heq
      exact ⟨rfl, rfl⟩
  | .more h hes, .more h' hes' => by
      obtain ⟨rfl, heq⟩ := h.unique h'
      cases heq
      obtain ⟨rfl, rfl⟩ := hes.unique hes'
      exact ⟨rfl, rfl⟩
  | .last h, .more h' _ | .more h _, .last h' => by
      obtain ⟨-, heq⟩ := h.unique h'
      cases heq
  | .none, .last h | .last h, .none | .none, .more h _ | .more h _, .none => by
      cases h with
      | unary ht => exact absurd ht (closeParen_ne_prefixToken _)

end

/-! ## §3. What is derived is read. -/

/-- The tightest level of which an expression can stand in front of the token and be gone on with.
A choice takes its test from the level above it, and a parenthesis makes a call of a name alone. -/
def Token.reach : Token → Nat
  | .openParen => Precedence.atom + 1
  | .openBracket => Precedence.atom
  | .binary op => op.precedence
  | .equality _ => Precedence.equality
  | .question => Precedence.ternary + 1
  | _ => 0

/-- Nothing follows that goes on with an expression above the level. -/
def Bounded (level : Nat) (rest : List Token) : Prop := ∀ t ∈ rest.head?, t.reach ≤ level

theorem bounded_nil (level : Nat) : Bounded level [] := fun _ h => by cases h

theorem bounded_cons {level : Nat} {t : Token} (h : t.reach ≤ level) (rest : List Token) :
    Bounded level (t :: rest) := fun _ ht => by cases ht; exact h

theorem Bounded.mono {level level' : Nat} {rest : List Token} (h : Bounded level rest)
    (hle : level ≤ level') : Bounded level' rest := fun t ht => Nat.le_trans (h t ht) hle

/-- What is bounded below a level does not go on at that level. -/
theorem not_goesOn {level : Nat} {t : Token} (h : t.reach < level) : ¬t.goesOn level := by
  intro hgo
  cases t <;> simp only [Token.reach, Token.goesOn] at h hgo <;> omega

theorem Bounded.stops {level level' : Nat} {rest : List Token} (h : Bounded level rest)
    (hlt : level < level') (e : Expr) : ReadsTail level' e rest e rest :=
  .stop fun t ht => not_goesOn (Nat.lt_of_le_of_lt (h t ht) hlt)

/-- No token goes on with a prefixed expression as such, nor with a choice as such. -/
theorem reach_ne (t : Token) : t.reach ≠ Precedence.unary ∧ t.reach ≠ Precedence.ternary := by
  cases t with
  | binary op => cases op <;> decide
  | word text | equality op => constructor <;> exact fun h => by cases h
  | _ => decide

theorem Bounded.pred {level : Nat} {rest : List Token} (h : Bounded level rest)
    (hne : ∀ t : Token, t.reach ≠ level) : Bounded (level - 1) rest := fun t ht =>
  Nat.le_pred_of_lt (Nat.lt_of_le_of_ne (h t ht) (hne t))

/-- Tokens are read as an expression at every level up to their own, and reading goes on behind
them as it would behind a single word. -/
def ReadsUpTo (level : Nat) (ts : List Token) (e : Expr) : Prop :=
  ∀ (asked : Nat) (rest : List Token) (e' : Expr) (rest' : List Token),
    asked ≤ level → Bounded level rest → ReadsTail asked e rest e' rest' →
      ReadsAt asked (ts ++ rest) e' rest'

/-- Where nothing goes on, just the expression is read. -/
theorem ReadsUpTo.alone {level : Nat} {ts : List Token} {e : Expr} (h : ReadsUpTo level ts e)
    {below : Nat} {rest : List Token} (hrest : Bounded below rest) (hlt : below < level) :
    ReadsAt level (ts ++ rest) e rest :=
  h _ _ _ _ (Nat.le_refl _) (hrest.mono (Nat.le_of_lt hlt)) (hrest.stops hlt e)

/-- In front of a token that goes on with nothing, an expression ends at every level. -/
theorem ReadsUpTo.closed {level : Nat} {ts : List Token} {e : Expr} (h : ReadsUpTo level ts e)
    {t : Token} (ht : t.reach = 0) (hlevel : 0 < level) (rest : List Token) :
    ReadsAt level (ts ++ t :: rest) e (t :: rest) :=
  h.alone (bounded_cons (Nat.le_of_eq ht) rest) hlevel

/-- Arguments with commas between them are read up to the parenthesis behind them. -/
theorem readsArgs_commaed (rest : List Token) :
    ∀ args : List (List Token × Expr),
      (∀ a ∈ args, ReadsUpTo Precedence.ternary a.1 a.2) →
      ReadsArgs (commaed (args.map Prod.fst) ++ .closeParen :: rest) (args.map Prod.snd) rest
  | [], _ => .none
  | [a], h => by
      have ha := (h a List.mem_cons_self).closed (t := .closeParen) rfl (by decide) rest
      simpa [commaed] using ReadsArgs.last ha
  | a :: b :: args, h => by
      have hargs := readsArgs_commaed rest (b :: args) fun a' ha' =>
        h a' (List.mem_cons_of_mem _ ha')
      have ha := (h a List.mem_cons_self).closed (t := .comma) rfl (by decide)
        (commaed ((b :: args).map Prod.fst) ++ .closeParen :: rest)
      have hsplit : commaed ((a :: b :: args).map Prod.fst) ++ .closeParen :: rest
          = a.1 ++ .comma :: (commaed ((b :: args).map Prod.fst) ++ .closeParen :: rest) := by
        rw [List.map_cons, List.map_cons, commaed_cons_cons, List.append_assoc]
        rfl
      rw [hsplit]
      exact .more ha hargs

/-- **What is derived is read.** -/
theorem Derives.reads {level : Nat} {ts : List Token} {e : Expr} (h : Derives level ts e) :
    ReadsUpTo level ts e := by
  induction h with
  | word h =>
      intro asked rest e' rest' hle hrest htail
      -- a parenthesis behind the word would make it a call
      exact .word (fun hopen => absurd (hrest _ hopen) (by decide)) htail
  | @parens ts e h ih =>
      intro asked rest e' rest' hle hrest htail
      have hinner := ih.closed (t := .closeParen) rfl (by decide) rest
      rw [List.cons_append, List.append_assoc]
      exact .parens hinner htail
  | @call name args hname h ih =>
      intro asked rest e' rest' hle hrest htail
      have hargs := readsArgs_commaed rest args ih
      rw [List.cons_append, List.cons_append, List.append_assoc]
      exact .call hargs htail
  | @index ts ks e k h hk ih ihk =>
      intro asked rest e' rest' hle hrest htail
      have hkey := ihk.closed (t := .closeBracket) rfl (by decide) rest
      rw [List.append_assoc, List.cons_append, List.append_assoc]
      exact ih _ _ _ _ hle (bounded_cons (Nat.le_refl _) _) (.index hle hkey htail)
  | @unary op ts e h ih =>
      intro asked rest e' rest' hle hrest htail
      -- an operator of no level ends the operand here and not behind the whole
      have hoperand := ih.alone (hrest.pred fun t => (reach_ne t).1) (by decide)
      rw [List.cons_append]
      exact .unary rfl hoperand htail
  | @binary op ls rs l r hl hr ihl ihr =>
      intro asked rest e' rest' hle hrest htail
      -- the left operand may be of the same level: reading goes on with the operator behind it
      have hright := ihr.alone hrest (Nat.lt_succ_self _)
      rw [List.append_assoc]
      exact ihl _ _ _ _ hle (bounded_cons (Nat.le_refl _) _) (.binary hle hright htail)
  | @equality op ls rs l r hl hr ihl ihr =>
      intro asked rest e' rest' hle hrest htail
      have hright := ihr.alone hrest (Nat.lt_succ_self _)
      rw [List.append_assoc]
      exact ihl _ _ _ _ hle (bounded_cons (Nat.le_refl _) _) (.equality hle hright htail)
  | @ternary ts ys ns test yes no ht hy hn iht ihy ihn =>
      intro asked rest e' rest' hle hrest htail
      -- the last branch runs on as long as anything goes on with it
      have hno := ihn.alone (hrest.pred fun t => (reach_ne t).2) (by decide)
      have hyes := ihy.closed (t := .colon) rfl (by decide) (ns ++ rest)
      rw [List.append_assoc, List.cons_append, List.append_assoc, List.cons_append]
      exact iht _ _ _ _ (Nat.le_succ_of_le hle) (bounded_cons (Nat.le_refl _) _)
        (.ternary hle hyes hno htail)
  | tighter h ih =>
      intro asked rest e' rest' hle hrest htail
      exact ih _ _ _ _ (Nat.le_succ_of_le hle) (hrest.mono (Nat.le_succ _)) htail

/-- **Tokens have one derivation at most.** -/
theorem Derives.unique {ts : List Token} {e e' : Expr} (h : Derives Precedence.ternary ts e)
    (h' : Derives Precedence.ternary ts e') : e = e' := by
  have hreads : ∀ {e : Expr}, Derives Precedence.ternary ts e →
      ReadsAt Precedence.ternary (ts ++ []) e [] := fun h =>
    h.reads _ _ _ _ (Nat.le_refl _) (bounded_nil _) (.stop fun _ ht => by cases ht)
  exact ((hreads h).unique (hreads h')).1

/-- **A text is read in one way at most.** -/
theorem Reads.unique {text : String} {e e' : Expr} (h : Reads text e) (h' : Reads text e') :
    e = e' := by
  obtain ⟨ts, hts, hd⟩ := h
  obtain ⟨ts', hts', hd'⟩ := h'
  cases hts.symm.trans hts'
  exact hd.unique hd'

end FeatureStudio.Reading
