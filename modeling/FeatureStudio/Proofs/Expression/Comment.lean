/-
  FeatureStudio.Proofs.Expression.Comment: the comment above the body of a test predicate.

  What a test predicate was before its calls were written out is kept in a comment.  A comment ends
  where `*/` stands first, and a quoted literal in a test may hold just that.  Apart from literals
  no text of a test opens a comment, since no multiplication stands directly behind a division.

  Main statements:
    * `Reading.Derives.opensNone`: the tokens of an expression open no comment.
    * `Reading.keep_lexes`: the text of an expression is kept as it is.
    * `Expr.IsTest.diverge`: a test that calls others is another one with the calls written out.
    * `TestPredicate.commentIsInert_iff`: the comment can be deleted unless a literal ends it.
-/
import FeatureStudio.Proofs.Expression.Inlining
import FeatureStudio.Proofs.Text.Comment
import Mathlib.Data.List.Chain

namespace FeatureStudio

open Build Reading Render
open Text (Comment.keep Comment.reopens Comment.isBlank)

/-! ## §1. Tokens that open no comment. -/

namespace Reading

/-- The tokens do not open a comment together. -/
def Apart (t t' : Token) : Prop := t = .binary .div → t' ≠ .binary .mul

/-- No comment is opened in the tokens, of which there is at least one, and none where a division
stands in front of them or a multiplication behind them. -/
def OpensNone (ts : List Token) : Prop :=
  List.IsChain Apart (.binary .div :: (ts ++ [.binary .mul]))

namespace OpensNone

variable {ls rs ts : List Token}

theorem isChain (h : OpensNone ts) : List.IsChain Apart ts := h.tail.left_of_append

/-- Any token may stand in front of what stands behind a division. -/
theorem behind {t : Token} (h : List.IsChain Apart (.binary .div :: ts)) :
    List.IsChain Apart (t :: ts) := by
  rw [List.isChain_cons] at h ⊢
  exact ⟨fun t' ht' _ => h.1 t' ht' rfl, h.2⟩

/-- Any token may stand behind what stands in front of a multiplication. -/
theorem before {t : Token} (h : List.IsChain Apart (ts ++ [.binary .mul])) :
    List.IsChain Apart (ts ++ [t]) := by
  rw [List.isChain_append] at h ⊢
  exact ⟨h.1, .singleton _, fun t' ht' _ _ hdiv => absurd rfl (h.2.2 t' ht' _ rfl hdiv)⟩

/-- Between two parts any token may stand. -/
theorem infixed (hl : OpensNone ls) (hr : OpensNone rs) (t : Token) :
    OpensNone (ls ++ t :: rs) := by
  have hsplit : (Token.binary .div) :: (ls ++ t :: rs ++ [.binary .mul])
      = (.binary .div :: ls) ++ t :: (rs ++ [.binary .mul]) := by simp
  unfold OpensNone
  rw [hsplit, List.isChain_split]
  exact ⟨before hl, behind hr⟩

theorem singleton {t : Token} (hmul : t ≠ .binary .mul) (hdiv : t ≠ .binary .div) :
    OpensNone [t] :=
  .cons_cons (fun _ => hmul) (.cons_cons (fun h => absurd h hdiv) (.singleton _))

theorem prefixed {t : Token} (ht : t ≠ .binary .mul) (h : OpensNone ts) : OpensNone (t :: ts) :=
  .cons_cons (fun _ => ht) (behind h)

theorem closed {t : Token} (ht : t ≠ .binary .div) (h : OpensNone ts) : OpensNone (ts ++ [t]) := by
  have hsplit : (Token.binary .div) :: (ts ++ [t] ++ [.binary .mul])
      = (.binary .div :: ts) ++ t :: [.binary .mul] := by simp
  unfold OpensNone
  rw [hsplit, List.isChain_split]
  exact ⟨before h, .cons_cons (fun h => absurd h ht) (.singleton _)⟩

theorem commaed : ∀ {tss : List (List Token)}, tss ≠ [] → (∀ ts ∈ tss, OpensNone ts) →
    OpensNone (Reading.commaed tss)
  | [], hne, _ => absurd rfl hne
  | [ts], _, h => by
      rw [Reading.commaed, List.intercalate_singleton]
      exact h ts List.mem_cons_self
  | ts :: ts' :: tss, _, h => by
      rw [commaed_cons_cons]
      exact (h ts List.mem_cons_self).infixed
        (commaed (List.cons_ne_nil _ _) fun ts hts => h ts (List.mem_cons_of_mem _ hts)) _

end OpensNone

/-- **The tokens of an expression open no comment.** -/
theorem Derives.opensNone {level : Nat} {ts : List Token} {e : Expr} (h : Derives level ts e) :
    OpensNone ts := by
  induction h with
  | word h => exact .singleton (by simp) (by simp)
  | parens _ ih => exact (ih.closed (by simp)).prefixed (by simp)
  | @call name args hname _ ih =>
      have hargs : OpensNone (commaed (args.map Prod.fst) ++ [.closeParen]) := by
        cases args with
        | nil => exact .singleton (by simp) (by simp)
        | cons a args =>
            refine (OpensNone.commaed (List.cons_ne_nil _ _) ?_).closed (by simp)
            exact List.forall_mem_map.mpr ih
      exact (hargs.prefixed (by simp)).prefixed (by simp)
  | index _ _ ih ihk => exact ih.infixed (ihk.closed (by simp)) _
  | @unary op _ _ _ ih => exact ih.prefixed (by cases op <;> simp [prefixToken])
  | binary _ _ ihl ihr => exact ihl.infixed ihr _
  | equality _ _ ihl ihr => exact ihl.infixed ihr _
  | ternary _ _ _ iht ihy ihn => exact iht.infixed (ihy.infixed ihn _) _
  | tighter _ ih => exact ih

/-! ## §2. Texts of expressions. -/

/-- Where a reader of comments is while tokens are read. -/
def Mode.commentMode : Mode → Text.Comment.Mode
  | .literal _ => .literal
  | .escaped _ => .escaped
  | _ => .code

/-- Both readers begin alike, but for a slash. -/
theorem start_comment {c : Char} {ts : List Token} {m : Mode} (h : start c = some (ts, m)) :
    (c = '/' ∧ m = .idle ∧ ts = [.binary .div]) ∨
      Text.Comment.start c = ([c], m.commentMode) := by
  -- a slash is a division here, a quote opens a literal, all else is code for either reader
  by_cases hslash : c = '/'
  · subst hslash
    cases h
    exact .inl ⟨rfl, rfl, rfl⟩
  · refine .inr ?_
    by_cases hquote : c = '"'
    · subst hquote
      cases h
      rfl
    · have hmode : m.commentMode = .code := by
        rw [start, if_neg hquote] at h
        split_ifs at h
        · cases h; rfl
        · cases h; rfl
        · split at h
          · cases h; rfl
          · obtain ⟨t, -, ht⟩ := Option.map_eq_some_iff.mp h
            cases ht
            rfl
      rw [Text.Comment.start_plain hslash hquote, hmode]

/-- Behind a token that has just ended both readers begin alike, but for a slash. -/
theorem startAfter_comment {t : Token} {c : Char} {ts : List Token} {m : Mode}
    (h : startAfter t c = some (ts, m)) :
    (c = '/' ∧ m = .idle ∧ ts.getLast? = some (.binary .div)) ∨
      Text.Comment.start c = ([c], m.commentMode) := by
  obtain ⟨p, hstart, heq⟩ := Option.map_eq_some_iff.mp h
  cases heq
  rcases start_comment hstart with ⟨hc, hidle, hts⟩ | hkeep
  · exact .inl ⟨hc, hidle, by rw [hts]; rfl⟩
  · exact .inr hkeep

/-- What a word goes on with is neither a slash nor a quotation mark. -/
theorem start_continues {c : Char} {begun : List Char} (h : continues begun c) :
    Text.Comment.start c = ([c], .code) := by
  refine Text.Comment.start_plain ?_ ?_
  · rintro rfl
    exact absurd h (by rw [not_continues (by decide)]; decide)
  · rintro rfl
    exact absurd h (by rw [not_continues (by decide)]; decide)

/-- Character by character the reader of comments keeps what the reader of tokens reads, save that
it does not know yet what a slash is for. -/
theorem step_comment {c : Char} {ts : List Token} {m m' : Mode} (h : step m c = some (ts, m')) :
    (c = '/' ∧ m.commentMode = .code ∧ m' = .idle ∧ ts.getLast? = some (.binary .div)) ∨
      Text.Comment.step m.commentMode c = ([c], m'.commentMode) := by
  -- a slash can begin a token only where none has begun or the one before has just ended
  cases m with
  | idle =>
      rcases start_comment h with ⟨hc, hidle, hts⟩ | hkeep
      · exact .inl ⟨hc, rfl, hidle, by rw [hts]; rfl⟩
      · exact .inr hkeep
  | word begun =>
      rw [step] at h
      split at h
      · next hgoes =>
          cases h
          exact .inr (start_continues hgoes)
      · exact (startAfter_comment h).imp (fun h => ⟨h.1, rfl, h.2⟩) id
  | literal begun =>
      refine .inr ?_
      rw [step] at h
      split_ifs at h with hfeed hquote hback
      · cases h; subst hquote; rfl
      · cases h; subst hback; rfl
      · cases h
        exact congrArg (([c], ·)) ((if_neg hback).trans (if_neg hquote))
  | escaped begun =>
      rw [step] at h
      split_ifs at h
      cases h
      exact .inr rfl
  | mark mark =>
      cases mark with
      -- signs of two characters, whose second one is no slash
      | ampersand | bar | equals =>
          rw [step] at h
          split_ifs at h with hc
          cases h
          subst hc
          exact .inr rfl
      | bang =>
          rw [step] at h
          split_ifs at h with hc
          · cases h
            subst hc
            exact .inr rfl
          · exact (startAfter_comment h).imp (fun h => ⟨h.1, rfl, h.2⟩) id
      | minus =>
          rw [step] at h
          split_ifs at h
          exact (startAfter_comment h).imp (fun h => ⟨h.1, rfl, h.2⟩) id

/-- **What is read as tokens is kept** as far as they open no comment. -/
theorem keep_scanFrom {rest : List Char} (hrest : rest.head? ≠ some '*') :
    ∀ {cs : List Char} {m : Mode} {ts : List Token}, scanFrom m cs = some ts →
      List.IsChain Apart ts →
        Comment.keep m.commentMode (cs ++ rest) = cs ++ Comment.keep .code rest
  | [], m, ts, h, _ => by
      have hmode : m.commentMode = .code := by
        cases m with
        | literal begun | escaped begun => cases h
        | _ => rfl
      rw [hmode]
      rfl
  | c :: cs, m, ts, h, hchain => by
      rw [scanFrom] at h
      split at h
      · next ts₁ m' hstep =>
          obtain ⟨ts₂, hscan, rfl⟩ := Option.map_eq_some_iff.mp h
          have hkeep := keep_scanFrom hrest hscan hchain.right_of_append
          rcases step_comment hstep with ⟨rfl, hmode, rfl, hlast⟩ | hcomment
          · rw [hmode, List.cons_append, Text.Comment.keep_slash, List.cons_append]
            · exact congrArg ('/' :: ·) hkeep
            -- a star behind the slash would be a multiplication behind a division
            · intro hstar
              cases cs with
              | nil => exact hrest hstar
              | cons d cs =>
                  cases hstar
                  obtain ⟨ts₃, -, rfl⟩ := Option.map_eq_some_iff.mp hscan
                  exact (List.isChain_append.mp hchain).2.2 _ hlast _ rfl rfl rfl
          · rw [List.cons_append, Comment.keep, hcomment, hkeep]
            rfl
      · cases h

/-- **The text of an expression is kept as it is.** -/
theorem keep_lexes {cs : List Char} {ts : List Token} (h : Lexes cs ts) (hts : OpensNone ts)
    {rest : List Char} (hrest : rest.head? ≠ some '*') :
    Comment.keep .code (cs ++ rest) = cs ++ Comment.keep .code rest :=
  keep_scanFrom hrest h.scan_eq hts.isChain

end Reading

/-! ## §3. Calls that stay and calls that are written out. -/

namespace Reading

/-- The tokens are the same up to a name in the first ones and a parenthesis in the others. -/
def Diverge (ts ts' : List Token) : Prop :=
  ∃ shared name rest rest', ts = shared ++ .word name :: rest ∧ ts' = shared ++ .openParen :: rest'

namespace Diverge

variable {ts ts' : List Token}

theorem ne (h : Diverge ts ts') : ts ≠ ts' := by
  rintro rfl
  obtain ⟨shared, name, rest, rest', hname, hparen⟩ := h
  cases List.append_cancel_left (hname.symm.trans hparen)

theorem append (h : Diverge ts ts') (rs rs' : List Token) : Diverge (ts ++ rs) (ts' ++ rs') := by
  obtain ⟨shared, name, rest, rest', rfl, rfl⟩ := h
  exact ⟨shared, name, rest ++ rs, rest' ++ rs', by simp, by simp⟩

theorem behind (ls : List Token) (h : Diverge ts ts') : Diverge (ls ++ ts) (ls ++ ts') := by
  obtain ⟨shared, name, rest, rest', rfl, rfl⟩ := h
  exact ⟨ls ++ shared, name, rest, rest', by simp, by simp⟩

theorem cons (t : Token) (h : Diverge ts ts') : Diverge (t :: ts) (t :: ts') := h.behind [t]

theorem enclosed (h : Diverge ts ts') :
    Diverge (FeatureStudio.enclosed ts) (FeatureStudio.enclosed ts') := (h.append _ _).cons _

theorem enclosedUnless (h : Diverge ts ts') (least precedence : Nat) :
    Diverge (FeatureStudio.enclosedUnless least precedence ts)
      (FeatureStudio.enclosedUnless least precedence ts') := by
  unfold FeatureStudio.enclosedUnless
  split
  · exact h
  · exact h.enclosed

/-- Neither a name nor a parenthesis is a minus sign. -/
theorem setApart (op : UnaryOp) (h : Diverge ts ts') :
    Diverge (FeatureStudio.setApart op ts) (FeatureStudio.setApart op ts') := by
  have hhead : (ts.head? == some .minus) = (ts'.head? == some .minus) := by
    obtain ⟨shared, name, rest, rest', rfl, rfl⟩ := h
    cases shared with
    | nil => rfl
    | cons t shared => rfl
  unfold FeatureStudio.setApart
  rw [hhead]
  split
  · exact h.enclosed
  · exact h

end Diverge

end Reading

namespace Expr

/-- Where calls are, what is written of the expression with calls diverges from what is written of
it without. -/
def Diverges (e : Expr) : Prop :=
  e.callees ≠ [] → Diverge (e.written false).tokens (e.written true).tokens

mutual

/-- Without calls of test predicates the expression itself is written. -/
theorem written_of_callees {inlined : Bool} :
    ∀ e : Expr, e.callees = [] → e.written inlined = e
  | .token _, _ => rfl
  | .parens inner, h => congrArg Expr.parens (written_of_callees inner h)
  | .unary op operand, h => congrArg (Expr.unary op) (written_of_callees operand h)
  | .binary lhs op rhs, h => by
      rw [callees, List.append_eq_nil_iff] at h
      rw [written, written_of_callees lhs h.1, written_of_callees rhs h.2]
  | .equality lhs op rhs, h => by
      rw [callees, List.append_eq_nil_iff] at h
      rw [written, written_of_callees lhs h.1, written_of_callees rhs h.2]
  | .ternary test ifTrue ifFalse, h => by
      rw [callees, List.append_eq_nil_iff, List.append_eq_nil_iff] at h
      rw [written, written_of_callees test h.1.1, written_of_callees ifTrue h.1.2,
        written_of_callees ifFalse h.2]
  | .access base keys, h => by
      rw [callees, List.append_eq_nil_iff] at h
      rw [written, written_of_callees base h.1, writtenAll_of_callees keys h.2]
  | .call name args multiline, h => by
      rw [written, writtenAll_of_callees args h]
  | .node n, h => by
      cases n with
      | testCall name tests => cases h
      | _ => rfl

theorem writtenAll_of_callees {inlined : Bool} :
    ∀ es : List Expr, allCallees es = [] → writtenAll inlined es = es
  | [], _ => rfl
  | e :: rest, h => by
      rw [allCallees, List.append_eq_nil_iff] at h
      rw [writtenAll, written_of_callees e h.1, writtenAll_of_callees rest h.2]

end

/-- An expression in front of others, all of them with calls as calls or written out: either it
diverges already or it is the same and one of the others has calls. -/
theorem Diverges.cases {e : Expr} (h : e.Diverges) {others : List (String × List Expr)}
    (hcalls : e.callees ++ others ≠ []) :
    Diverge (e.written false).tokens (e.written true).tokens ∨
      (e.written false = e.written true ∧ others ≠ []) := by
  by_cases he : e.callees = []
  · rw [he, List.nil_append] at hcalls
    exact .inr ⟨(written_of_callees e he).trans (written_of_callees e he).symm, hcalls⟩
  · exact .inl (h he)

/-- Whether calls are written out makes no difference to how tightly a test binds. -/
theorem IsTest.precedence_written {e : Expr} (h : e.IsTest) :
    (e.written false).precedence = (e.written true).precedence :=
  (h.alike false).precedence.symm.trans (h.alike true).precedence

theorem IsTest.rightLeast_written {e : Expr} (h : e.IsTest) (op : BinaryOp) :
    Operand.rightLeast op (e.written false).shape = Operand.rightLeast op (e.written true).shape :=
  ((h.alike false).rightLeast op).symm.trans ((h.alike true).rightLeast op)

/-- An operator with two operands of which one has calls. -/
theorem diverge_infixed {l r : Expr} (hl : l.IsTest) (ihl : l.Diverges) (ihr : r.Diverges)
    (hr : r.IsTest) (least : Nat) {least' least'' : Nat} (hleast : least' = least'') (t : Token)
    (hcalls : l.callees ++ r.callees ≠ []) :
    Diverge
      (enclosedUnless least (l.written false).precedence (l.written false).tokens
        ++ t :: enclosedUnless least' (r.written false).precedence (r.written false).tokens)
      (enclosedUnless least (l.written true).precedence (l.written true).tokens
        ++ t :: enclosedUnless least'' (r.written true).precedence (r.written true).tokens) := by
  rw [hl.precedence_written, hr.precedence_written, hleast]
  rcases ihl.cases hcalls with hdiverge | ⟨hsame, hcalls⟩
  · exact (hdiverge.enclosedUnless _ _).append _ _
  · rw [hsame]
    exact (((ihr hcalls).enclosedUnless _ _).cons t).behind _

theorem diverge_keyTokens : ∀ {keys : List Expr}, (∀ k ∈ keys, k.Diverges) →
    allCallees keys ≠ [] →
      Diverge (keyTokens (writtenAll false keys)) (keyTokens (writtenAll true keys))
  | [], _, hcalls => absurd rfl hcalls
  | k :: keys, h, hcalls => by
      rw [writtenAll, writtenAll, keyTokens, keyTokens]
      rcases (h k List.mem_cons_self).cases hcalls with hdiverge | ⟨hsame, hcalls⟩
      · exact ((hdiverge.append _ _).cons _).append _ _
      · rw [hsame]
        exact (diverge_keyTokens (fun k' hk' => h k' (List.mem_cons_of_mem _ hk')) hcalls).behind _

theorem diverge_commaed : ∀ {args : List Expr}, (∀ a ∈ args, a.Diverges) →
    allCallees args ≠ [] →
      Diverge (commaed (tokenLists (writtenAll false args)))
        (commaed (tokenLists (writtenAll true args)))
  | [], _, hcalls => absurd rfl hcalls
  | [a], h, hcalls => by
      rw [allCallees, allCallees, List.append_nil] at hcalls
      simpa [writtenAll, tokenLists, commaed] using h a List.mem_cons_self hcalls
  | a :: a' :: args, h, hcalls => by
      have hrest := @diverge_commaed (a' :: args) fun b hb => h b (List.mem_cons_of_mem _ hb)
      rw [writtenAll, writtenAll, writtenAll, writtenAll, tokenLists, tokenLists, tokenLists,
        tokenLists, commaed_cons_cons, commaed_cons_cons]
      rcases (h a List.mem_cons_self).cases hcalls with hdiverge | ⟨hsame, hcalls⟩
      · exact hdiverge.append _ _
      · rw [hsame]
        exact ((hrest hcalls).cons _).behind _

/-- What is in parentheses begins with one. -/
theorem exists_tokens_of_parens {e : Expr} (h : e.shape = .parens) :
    ∃ rest, e.tokens = .openParen :: rest := by
  cases e with
  | parens inner => exact ⟨_, by rw [tokens]; rfl⟩
  | _ => cases h

/-- **A test with calls is another one with the calls written out**: where the first call stays,
its name stands, and where it is written out, a parenthesis. -/
theorem IsTest.diverge {e : Expr} (h : e.IsTest) : e.Diverges := by
  intro hcalls
  -- over the tests: in an operator the first operand with calls diverges, and those in front of it
  -- are the same
  induction h with
  | token h => exact absurd rfl hcalls
  | parens _ ih =>
      rw [written, written, tokens, tokens]
      exact (ih hcalls).enclosed
  | unary h ih =>
      rw [written, written, tokens, tokens, h.precedence_written]
      exact (((ih hcalls).enclosedUnless _ _).setApart _).cons _
  | binary hl hr ihl ihr =>
      rw [written, written, tokens, tokens]
      exact diverge_infixed hl ihl ihr hr _ (hr.rightLeast_written _) _ hcalls
  | equality hl hr ihl ihr =>
      rw [written, written, tokens, tokens]
      exact diverge_infixed hl ihl ihr hr _ rfl _ hcalls
  | @ternary test yes no ht hy hn iht ihy ihn =>
      rw [written, written, tokens, tokens, ht.precedence_written]
      rw [callees, List.append_assoc] at hcalls
      rcases Diverges.cases iht hcalls with hdiverge | ⟨hsame, hcalls⟩
      · exact (hdiverge.enclosedUnless _ _).append _ _
      · rw [hsame]
        refine (Diverge.cons _ ?_).behind _
        rcases Diverges.cases ihy hcalls with hdiverge | ⟨hsame, hcalls⟩
        · exact hdiverge.append _ _
        · rw [hsame]
          exact ((ihn hcalls).cons _).behind _
  | access hb hk ihb ihk =>
      rw [written, written, tokens, tokens, hb.precedence_written]
      rcases Diverges.cases ihb hcalls with hdiverge | ⟨hsame, hcalls⟩
      · exact (hdiverge.enclosedUnless _ _).append _ _
      · rw [hsame]
        exact (diverge_keyTokens ihk hcalls).behind _
  | call hname ha iha =>
      rw [written, written, tokens, tokens]
      exact (((diverge_commaed iha hcalls).append _ _).cons _).cons _
  -- a call itself is no operand: what is written for it begins differently
  | @testCall name tests hname _ _ =>
      obtain ⟨rest, hrest⟩ :=
        exists_tokens_of_parens (shape_conjoined (writtenGrouped true tests))
      exact ⟨[], name, _, rest,
        by rw [written, Node.written, if_neg Bool.false_ne_true, tokens]; rfl,
        by rw [written, Node.written, if_pos rfl, hrest]; rfl⟩

end Expr

/-! ## §4. Statements. -/

namespace Reading

/-- Behind what is read as tokens, a semicolon cannot be read. -/
theorem scanFrom_semicolon (rest : List Char) : ∀ {cs : List Char} {m : Mode} {ts : List Token},
    scanFrom m cs = some ts → scanFrom m (cs ++ ';' :: rest) = none
  | [], m, ts, h => by
      have hafter : ∀ t, startAfter t ';' = none := fun t => rfl
      have hstep : step m ';' = none := by
        cases m with
        | idle => rfl
        | word begun =>
            rw [step, not_continues (by decide), if_neg Bool.false_ne_true, hafter]
        | literal begun | escaped begun => cases h
        | mark mark => cases mark <;> rfl
      rw [List.nil_append, scanFrom, hstep]
  | c :: cs, m, ts, h => by
      rw [scanFrom] at h
      split at h
      · next ts₁ m' hstep =>
          obtain ⟨ts₂, hscan, -⟩ := Option.map_eq_some_iff.mp h
          rw [List.cons_append, scanFrom_cons hstep, scanFrom_semicolon rest hscan]
          rfl
      · cases h

/-- A statement ends at the first semicolon outside of its literals. -/
theorem eq_of_append_semicolon {cs ds us vs : List Char} {ts ts' : List Token}
    (hc : scan cs = some ts) (hd : scan ds = some ts')
    (h : cs ++ ';' :: us = ds ++ ';' :: vs) : cs = ds ∧ us = vs := by
  -- the longer one would go on behind a semicolon
  have hnone : ∀ {cs ds as us vs : List Char} {ts ts' : List Token}, scan cs = some ts →
      scan ds = some ts' → ds = cs ++ as → ';' :: us = as ++ ';' :: vs →
        ds = cs ∧ us = vs := by
    intro cs ds as us vs ts ts' hc hd hds has
    cases as with
    | nil => exact ⟨hds.trans (List.append_nil cs), (List.cons.inj has).2⟩
    | cons a as =>
        rw [List.cons_append, List.cons.injEq] at has
        rw [hds, ← has.1] at hd
        cases (scanFrom_semicolon as hc).symm.trans hd
  rcases List.append_eq_append_iff.mp h with ⟨as, hds, has⟩ | ⟨as, hcs, has⟩
  · exact (hnone hc hd hds has).imp Eq.symm id
  · exact (hnone hd hc hcs has).imp id Eq.symm

end Reading

namespace Render

/-- Texts of expressions, one for each list of tokens. -/
abbrev AreTexts (texts : List String) (tss : List (List Token)) : Prop :=
  List.Forall₂ (fun text ts => Lexes text.toList ts) texts tss

/-- Texts are read as one list of tokens each. -/
theorem AreTexts.unique : ∀ {texts : List String} {tss tss' : List (List Token)},
    AreTexts texts tss → AreTexts texts tss' → tss = tss'
  | _, _, _, .nil, .nil => rfl
  | _, _, _, .cons htext h, .cons htext' h' => by
      rw [Option.some.inj (htext.scan_eq.symm.trans htext'.scan_eq), AreTexts.unique h h']

/-- **Statements are told apart** by the texts of their expressions. -/
theorem statements_inj : ∀ {texts texts' : List String} {tss tss' : List (List Token)},
    AreTexts texts tss → AreTexts texts' tss' → tss.length = tss'.length →
      statements texts = statements texts' → texts = texts'
  | [], [], _, _, _, _, _, _ => rfl
  | [], _ :: _, _, _, .nil, .cons _ _, hlength, _ => by cases hlength
  | _ :: _, [], _, _, .cons _ _, .nil, hlength, _ => by cases hlength
  | text :: texts, text' :: texts', _, _, .cons htext h, .cons htext' h', hlength, hsame => by
      have hchars : text.toList ++ ';' :: '\n' :: (statements texts).toList
          = text'.toList ++ ';' :: '\n' :: (statements texts').toList := by
        simpa [statements, String.join_cons] using congrArg String.toList hsame
      obtain ⟨hfirst, hrest⟩ := eq_of_append_semicolon htext.scan_eq htext'.scan_eq hchars
      have hstatements : statements texts = statements texts' :=
        String.toList_inj.mp (List.cons.inj hrest).2
      rw [String.toList_inj.mp hfirst,
        statements_inj h h' (Nat.succ.inj hlength) hstatements]

/-- A statement on lines of its own is kept as it is. -/
theorem keep_statement (indent : Indent) {text : String} {ts : List Token}
    (h : Lexes text.toList ts) (hts : OpensNone ts) (rest : List Char) :
    Comment.keep .code ((indent.lines (text ++ ";\n") 1).toList ++ rest)
      = (indent.lines (text ++ ";\n") 1).toList ++ Comment.keep .code rest := by
  let ending := Text.indentChars indent.unit.toList (Text.lineStart true text.toList) [';', '\n']
  have hchars : (indent.lines (text ++ ";\n") 1).toList
      = (indent.lines text 1).toList ++ ending := by
    rw [Indent.toList_lines_one, String.toList_append, Text.indentChars_append,
      Indent.toList_lines_one]
    rfl
  -- the semicolon may be on a line of its own, with a unit in front of it
  have hending : ∀ c ∈ ending, c ≠ '/' ∧ c ≠ '"' ∧ c ≠ '*' := by
    intro c hc
    rcases Text.mem_indentChars hc with hc | hc
    · rcases Indent.mem_unit hc with rfl | rfl <;> decide
    · rcases List.mem_pair.mp hc with rfl | rfl <;> decide
  have hhead : (ending ++ rest).head? ≠ some '*' := by
    have hne : ending ≠ [] := by
      unfold ending
      cases Text.lineStart true text.toList <;> simp [Text.indentChars]
    obtain ⟨c, cs, hcs⟩ := List.exists_cons_of_ne_nil hne
    rw [hcs]
    exact fun hstar => (hending c (hcs ▸ List.mem_cons_self)).2.2 (Option.some.inj hstar)
  rw [hchars, List.append_assoc, keep_lexes (h.lines indent 1) hts hhead,
    Text.Comment.keep_plain (fun h => (hending _ h).1 rfl) (fun h => (hending _ h).2.1 rfl),
    List.append_assoc]

/-- **The statements of a body are kept as they are.** -/
theorem keep_statements (indent : Indent) : ∀ {texts : List String} {tss : List (List Token)},
    AreTexts texts tss → (∀ ts ∈ tss, OpensNone ts) → ∀ rest : List Char,
      Comment.keep .code ((indent.lines (statements texts) 1).toList ++ rest)
        = (indent.lines (statements texts) 1).toList ++ Comment.keep .code rest
  | [], _, _, _, rest => rfl
  | text :: texts, _, .cons htext h, hts, rest => by
      have hstart : Text.lineStart true (text ++ ";\n").toList := by
        rw [String.toList_append, Text.lineStart_append]
        rfl
      have hsplit : indent.lines (statements (text :: texts)) 1
          = indent.lines (text ++ ";\n") 1 ++ indent.lines (statements texts) 1 := by
        rw [statements, List.map_cons, String.join_cons, indent.lines_append hstart]
        rfl
      rw [hsplit, String.toList_append, List.append_assoc,
        keep_statement indent htext (hts _ List.mem_cons_self),
        keep_statements indent h fun ts' hts' => hts ts' (List.mem_cons_of_mem _ hts'),
        List.append_assoc]

end Render

/-! ## §5. The comment. -/

namespace TestPredicate

variable (p : TestPredicate) (c : Context)

/-- Whether a test calls another test predicate. -/
def callsTests : Bool := p.tests.any fun e => !e.callees.isEmpty

/-- The declaration as it is rendered. -/
def declaration : String := (p.node.build c).1

/-- The statements of the body, with calls written out or not. -/
def statementsIn (inlined : Bool) : String :=
  (testStatements inlined (operands p.tests) (c.withState State.inBody)).1

/-- What the comment holds: the statements with their calls, on one line. -/
def commented : String := Text.onOneLine (Text.trimEnd (p.statementsIn c false))

/-- The declaration up to its body. -/
def heading : String :=
  exportText p.exported ++ "predicate " ++ p.name ++ "(" ++ FormalParameter.definition.text
    ++ ")\n\x7b\n"

/-- The statements with all calls written out, up to the end of the declaration. -/
def inlinedBody : String := c.indent.lines (p.statementsIn c true) 1 ++ "\x7d\n"

/-- With its comments deleted, the declaration is the one whose body is the statements with all
calls written out; of the comment nothing but an empty line is left. -/
def CommentIsInert : Prop :=
  ∃ line : String, (∀ ch ∈ line.toList, Comment.isBlank ch) ∧
    Text.withoutComments (p.declaration c)
      = p.heading ++ (if p.callsTests then line ++ "\n" else "") ++ p.inlinedBody c

variable {p c}

theorem lineFeed_not_mem_commented (p : TestPredicate) (c : Context) :
    '\n' ∉ (p.commented c).toList := by
  unfold commented Text.onOneLine
  rw [String.toList_ofList]
  intro h
  obtain ⟨ch, -, hch⟩ := List.mem_map.mp h
  split_ifs at hch with hfeed
  · cases hch
  · exact hfeed hch

theorem areTexts_of_forall₂ {inlined : Bool} {texts : List String}
    (h : List.Forall₂ (fun e text => Lexes text.toList (Expr.written inlined e).tokens) p.tests
      texts) :
    AreTexts texts (p.tests.map fun e => (e.written inlined).tokens) :=
  List.forall₂_map_right_iff.mpr h.flip

/-- Without calls the statements are the same, whether calls are written out or not. -/
theorem statements_of_not_callsTests (h : ∀ e ∈ p.tests, e.IsTest) (hcalls : p.callsTests = false)
    (c : Context) :
    testStatements false (operands p.tests) c = testStatements true (operands p.tests) c := by
  have hgive : TestsGive (fun _ => True) (fun _ _ => True) p.tests := by
    intro e he
    have hnone : e.callees = [] := by
      have hnot := List.any_eq_false.mp hcalls e he
      simpa using hnot
    have hplain : e.IsPlain := by
      have hwritten : (e.written false).IsPlain := Expr.isPlain_written (h e he)
      rwa [Expr.written_of_callees e hnone] at hwritten
    have halike : e.operand.Alike (fun _ => True) e.operand := hplain.alike
    obtain ⟨f, hf⟩ := halike.render
    exact ⟨f, fun _ => trivial, fun c hc => (hf c hc).1⟩
  obtain ⟨f, -, hstatements⟩ := hgive.testStatements
  rw [hstatements false trivial, hstatements true trivial]

/-- Texts of tests with calls as calls are no texts of tests with calls written out. -/
theorem not_callsTests_of_areTexts (h : ∀ e ∈ p.tests, e.IsTest) {texts : List String}
    (hcalls : AreTexts texts (p.tests.map fun e => (e.written false).tokens))
    (hinlined : AreTexts texts (p.tests.map fun e => (e.written true).tokens)) :
    p.callsTests = false := by
  have hsame := List.map_inj_left.mp (hcalls.unique hinlined)
  refine List.any_eq_false.mpr fun e he => ?_
  have hnone : e.callees = [] := by
    by_contra hne
    exact ((h e he).diverge hne).ne (hsame e he)
  simp [hnone]

/-- With a call the statements differ by whether calls are written out: what they are texts of can
be read off them. -/
theorem statements_ne_of_callsTests (h : ∀ e ∈ p.tests, e.IsTest) (hcalls : p.callsTests = true)
    {texts texts' : List String}
    (hstandard : AreTexts texts (p.tests.map fun e => (e.written false).tokens))
    (hinlined : AreTexts texts' (p.tests.map fun e => (e.written true).tokens)) :
    statements texts ≠ statements texts' := by
  intro hsame
  rw [statements_inj hstandard hinlined (by rw [List.length_map, List.length_map]) hsame]
    at hstandard
  rw [not_callsTests_of_areTexts h hstandard hinlined] at hcalls
  cases hcalls

/-- **A comment is put above the statements if there are calls**, and the statements below it are
texts of the tests with calls written out. -/
theorem declaration_eq (h : ∀ e ∈ p.tests, e.IsTest) (hc : c.state.scope = .top) :
    (∃ texts, p.statementsIn c true = statements texts ∧
      AreTexts texts (p.tests.map fun e => (e.written true).tokens)) ∧
    p.declaration c
      = p.heading
        ++ (if p.callsTests then c.indent.unit ++ "/* " ++ p.commented c ++ " */\n" else "")
        ++ p.inlinedBody c := by
  have hgive : ∀ inlined, TestsGive (· = inlined)
      (fun e text => Lexes text.toList (e.written inlined).tokens) p.tests := fun inlined e he =>
    (h e he).rendered inlined
  obtain ⟨f, hf, hstandard⟩ := (hgive false).testStatements
  obtain ⟨g, hg, hinlined⟩ := (hgive true).testStatements
  have hstandard := hstandard false rfl (c.withState State.inBody)
  have hinlined := hinlined true rfl (c.withState State.inBody)
  have hin : p.statementsIn c true = statements (g c.indent) := congrArg Prod.fst hinlined
  have hout : p.statementsIn c false = statements (f c.indent) := congrArg Prod.fst hstandard
  have htexts := areTexts_of_forall₂ (hg c.indent)
  refine ⟨⟨g c.indent, hin, htexts⟩, ?_⟩
  have hdeclaration : p.declaration c
      = p.heading ++ c.indent.lines (testBody (statements (f c.indent)) (statements (g c.indent))) 1
        ++ "\x7d\n" := congrArg Prod.fst (testPredicate_apply hc hstandard hinlined)
  rw [hdeclaration, inlinedBody, hin]
  -- the statements are compared to see whether there is anything to comment on
  cases hcalls : p.callsTests with
  | false =>
      have hsame : statements (f c.indent) = statements (g c.indent) :=
        congrArg Prod.fst (hstandard.symm.trans
          ((statements_of_not_callsTests h hcalls _).trans hinlined))
      rw [testBody, if_pos hsame, hsame, if_neg Bool.false_ne_true, String.append_empty,
        String.append_assoc]
  | true =>
      have hne : statements (f c.indent) ≠ statements (g c.indent) :=
        statements_ne_of_callsTests h hcalls (areTexts_of_forall₂ (hf c.indent)) htexts
      have hline : '\n' ∉ ("/* " ++ p.commented c ++ " */").toList := by
        simpa using lineFeed_not_mem_commented p c
      have hbody : testBody (statements (f c.indent)) (statements (g c.indent))
          = "/* " ++ p.commented c ++ " */" ++ "\n" ++ statements (g c.indent) := by
        rw [testBody, if_neg hne, commented, hout]
        simp only [String.append_assoc]
        rfl
      rw [hbody, c.indent.lines_line_append hline (by simp), if_pos rfl]
      simp only [String.append_assoc]
      rfl

/-- The heading of a declaration holds nothing that opens a comment or a literal. -/
theorem keep_heading (hname : Text.isIdentifier p.name) (rest : List Char) :
    Comment.keep .code (p.heading.toList ++ rest)
      = p.heading.toList ++ Comment.keep .code rest := by
  have hnone : ∀ ch, ch = '/' ∨ ch = '"' → ch ∉ p.heading.toList := by
    intro ch hch
    have hword : ch ∉ p.name.toList := by
      intro hmem
      have hword := Text.isWordChar_of_isIdentifier hname ch hmem
      rcases hch with rfl | rfl <;> exact absurd hword (by decide)
    have hexport : ch ∉ (exportText p.exported).toList := by
      rcases hch with rfl | rfl <;> cases p.exported <;> decide
    have hfixed : ch ∉ "predicate ".toList ∧ ch ∉ "(".toList ∧
        ch ∉ FormalParameter.definition.text.toList ∧ ch ∉ ")\n\x7b\n".toList := by
      rcases hch with rfl | rfl <;> decide +kernel
    simp only [heading, String.toList_append, List.mem_append, not_or]
    exact ⟨⟨⟨⟨⟨hexport, hfixed.1⟩, hword⟩, hfixed.2.1⟩, hfixed.2.2.1⟩, hfixed.2.2.2⟩
  exact Text.Comment.keep_plain (hnone _ (.inl rfl)) (hnone _ (.inr rfl)) rest

/-- What stands below the comment is kept. -/
theorem keep_inlinedBody (h : ∀ e ∈ p.tests, e.IsTest) (hc : c.state.scope = .top) :
    Comment.keep .code (p.inlinedBody c).toList = (p.inlinedBody c).toList := by
  obtain ⟨⟨texts, hstatements, htexts⟩, -⟩ := declaration_eq h hc
  have hnone : ∀ ts ∈ p.tests.map fun e => (e.written true).tokens, OpensNone ts := by
    refine List.forall_mem_map.mpr fun e he => ?_
    obtain ⟨t, ht, -⟩ := Expr.derives_tokens (Expr.isPlain_written (h e he))
    exact ht.opensNone
  rw [inlinedBody, hstatements, String.toList_append, keep_statements c.indent htexts hnone]
  rfl

/-- What the comment holds, up to the end of the declaration. -/
def behindOpening (p : TestPredicate) (c : Context) : List Char :=
  (p.commented c).toList ++ Text.Comment.close ++ '\n' :: (p.inlinedBody c).toList

theorem toList_declaration (h : ∀ e ∈ p.tests, e.IsTest) (hc : c.state.scope = .top) :
    (p.declaration c).toList
      = p.heading.toList
        ++ if p.callsTests then
            c.indent.unit.toList ++ '/' :: '*' :: ' ' :: p.behindOpening c
          else (p.inlinedBody c).toList := by
  obtain ⟨-, hdeclaration⟩ := declaration_eq h hc
  rw [hdeclaration]
  split <;> simp [behindOpening, Text.Comment.close]

/-- **Everything is kept but the comment**, if there is one. -/
theorem keep_declaration (hname : Text.isIdentifier p.name) (h : ∀ e ∈ p.tests, e.IsTest)
    (hc : c.state.scope = .top) :
    Comment.keep .code (p.declaration c).toList
      = p.heading.toList
        ++ if p.callsTests then
            c.indent.unit.toList ++ Comment.keep .inside (p.behindOpening c)
          else (p.inlinedBody c).toList := by
  have hunit : ∀ ch ∈ c.indent.unit.toList, ch ≠ '/' ∧ ch ≠ '"' := by
    intro ch hch
    rcases Indent.mem_unit hch with rfl | rfl <;> decide
  rw [toList_declaration h hc, keep_heading hname]
  split
  · rw [Text.Comment.keep_plain (fun h => (hunit _ h).1 rfl) (fun h => (hunit _ h).2 rfl),
      Text.Comment.keep_opened]
  · rw [keep_inlinedBody h hc]

/-- What is no blank stands at one place behind the blanks in front of it. -/
theorem eq_of_behind_blanks {blanks blanks' cs cs' : List Char} {a b : Char}
    (h : ∀ ch ∈ blanks, Comment.isBlank ch) (h' : ∀ ch ∈ blanks', Comment.isBlank ch)
    (ha : ¬ Comment.isBlank a) (hb : ¬ Comment.isBlank b)
    (heq : blanks ++ a :: cs = blanks' ++ b :: cs') : a = b := by
  have hfind : ∀ {blanks cs : List Char} {a : Char}, (∀ ch ∈ blanks, Comment.isBlank ch) →
      ¬ Comment.isBlank a → (blanks ++ a :: cs).find? (fun ch => !Comment.isBlank ch) = some a := by
    intro blanks cs a hblanks ha
    have hnone : blanks.find? (fun ch => !Comment.isBlank ch) = none := by
      rw [List.find?_eq_none]
      intro ch hch
      simp [hblanks ch hch]
    rw [List.find?_append, hnone, Option.none_or, List.find?_cons_of_pos]
    simpa using ha
  exact Option.some.inj ((hfind h ha).symm.trans ((congrArg _ heq).trans (hfind h' hb)))

/-- **There is a comment exactly if a test calls another test predicate.** -/
theorem hasComment_iff (hname : Text.isIdentifier p.name) (h : ∀ e ∈ p.tests, e.IsTest)
    (hc : c.state.scope = .top) :
    Text.withoutComments (p.declaration c) ≠ p.declaration c ↔ p.callsTests := by
  rw [ne_eq, ← String.toList_inj, Text.withoutComments, String.toList_ofList,
    keep_declaration hname h hc, toList_declaration h hc, List.append_cancel_left_eq]
  split
  · next hcalls =>
      refine iff_of_true (fun hsame => ?_) hcalls
      have hshorter := Text.Comment.length_keep_opened_lt (p.behindOpening c)
      rw [List.append_cancel_left hsame] at hshorter
      exact Nat.lt_irrefl _ hshorter
  · next hcalls => exact iff_of_false (fun hne => hne rfl) hcalls

/-- Of a comment that holds calls an empty line is left exactly if it stays a comment. -/
theorem commentIsInert_of_callsTests (hname : Text.isIdentifier p.name)
    (h : ∀ e ∈ p.tests, e.IsTest) (hc : c.state.scope = .top) (hcalls : p.callsTests) :
    p.CommentIsInert c ↔ Comment.reopens false (p.commented c).toList := by
  have hkeep : (Text.withoutComments (p.declaration c)).toList
      = p.heading.toList ++ (c.indent.unit.toList
        ++ Comment.keep .inside (p.behindOpening c)) := by
    rw [Text.withoutComments, String.toList_ofList, keep_declaration hname h hc, if_pos hcalls]
  have hunit : ∀ ch ∈ c.indent.unit.toList, Comment.isBlank ch := by
    intro ch hch
    rcases Indent.mem_unit hch with rfl | rfl <;> decide
  constructor
  · rintro ⟨line, hline, hinert⟩
    by_contra hopen
    obtain ⟨blanks, hblanks, ch, hch, hblank, kept, hleft⟩ :=
      Text.Comment.exists_keep_closed hopen ('\n' :: (p.inlinedBody c).toList)
    -- on the line of the comment something is left, which is no line feed
    have hkept : Comment.keep .inside (p.behindOpening c) = blanks ++ ch :: kept := hleft
    have hfeed : ch = '\n' := by
      have hchars : p.heading.toList ++ (c.indent.unit.toList ++ (blanks ++ ch :: kept))
          = p.heading.toList ++ (line.toList ++ '\n' :: (p.inlinedBody c).toList) := by
        rw [← hkept, ← hkeep, hinert, if_pos hcalls]
        simp
      rw [List.append_cancel_left_eq, ← List.append_assoc] at hchars
      exact eq_of_behind_blanks (List.forall_mem_append.mpr ⟨hunit, hblanks⟩) hline hblank
        (by decide) hchars
    subst hfeed
    rcases List.mem_append.mp hch with hch | hch
    · exact lineFeed_not_mem_commented p c hch
    · exact absurd hch (by decide)
  · intro hopens
    obtain ⟨blanks, hblanks, hleft⟩ :=
      Text.Comment.keep_reopening hopens ('\n' :: (p.inlinedBody c).toList)
    refine ⟨String.ofList (c.indent.unit.toList ++ blanks), ?_, ?_⟩
    · rw [String.toList_ofList]
      exact List.forall_mem_append.mpr ⟨hunit, hblanks⟩
    · have hkept : Comment.keep .inside (p.behindOpening c)
          = blanks ++ '\n' :: (p.inlinedBody c).toList := by
        rw [Text.Comment.keep_code_cons (by decide) (by decide), keep_inlinedBody h hc] at hleft
        exact hleft
      apply String.toList_inj.mp
      rw [hkeep, hkept, if_pos hcalls]
      simp

/-- **The comment above the body can be deleted unless a literal ends it.**  Deleting it gives the
declaration of the statements with calls written out exactly if it is opened again wherever the
text in it closes it; and there is a comment exactly if a test calls another test predicate. -/
theorem commentIsInert_iff (hname : Text.isIdentifier p.name) (h : ∀ e ∈ p.tests, e.IsTest)
    (hc : c.state.scope = .top) :
    (Text.withoutComments (p.declaration c) ≠ p.declaration c ↔ p.callsTests) ∧
    (p.CommentIsInert c ↔ (p.callsTests → Comment.reopens false (p.commented c).toList)) := by
  refine ⟨hasComment_iff hname h hc, ?_⟩
  by_cases hcalls : p.callsTests
  · rw [commentIsInert_of_callsTests hname h hc hcalls]
    exact ⟨fun hopens _ => hopens, fun hopens => hopens hcalls⟩
  · have hsame : Text.withoutComments (p.declaration c) = p.declaration c :=
      not_not.mp fun hne => hcalls ((hasComment_iff hname h hc).mp hne)
    refine iff_of_true ⟨"", by simp, ?_⟩ fun h => absurd h hcalls
    rw [hsame, (declaration_eq h hc).2, if_neg hcalls, if_neg hcalls]

/-- A predicate that calls another one and compares a mark. -/
def marked (mark : String) : TestPredicate :=
  let any : TestPredicate := { name := "isAny", tests := [.definition "any"] }
  { name := "isMarked"
    tests := [.both any.call (.equal (.definition "mark") (.string mark))] }

theorem isTest_marked (mark : String) : ∀ e ∈ (marked mark).tests, e.IsTest := by
  have hany : IsPath "definition.any" := by decide +kernel
  have hmark : IsPath "definition.mark" := by decide +kernel
  have hname : IsPath "isAny" := by decide +kernel
  intro e he
  rw [List.mem_singleton.mp he]
  refine .binary (.testCall hname fun e he => ?_)
    (.equality (.token (.inl hmark)) (.token (isAtom_quote mark)))
  rw [List.mem_singleton.mp he]
  exact .token (.inl hany)

/-- A mark that opens a comment is no harm, for in a comment none is opened. -/
theorem marked_commentIsInert_iff :
    (marked "/*").declaration {}
        = "export predicate isMarked(definition is map)\n\x7b\n"
          ++ "    /* isAny(definition) && definition.mark == \"/*\"; */\n"
          ++ "    (definition.any) && definition.mark == \"/*\";\n\x7d\n" ∧
      Text.isIdentifier (marked "/*").name ∧ (∀ e ∈ (marked "/*").tests, e.IsTest) ∧
      Text.withoutComments ((marked "/*").declaration {}) ≠ (marked "/*").declaration {} ∧
      (marked "/*").CommentIsInert {} := by
  have hname : Text.isIdentifier (marked "/*").name := by decide +kernel
  obtain ⟨hcomment, hinert⟩ :=
    commentIsInert_iff hname (isTest_marked "/*") (rfl : ({} : Context).state.scope = .top)
  exact ⟨by decide +kernel, hname, isTest_marked "/*", hcomment.mpr rfl,
    hinert.mpr fun _ => by decide +kernel⟩

/-- **A mark that closes the comment brings what stands behind it back to life**: a quotation mark
opens a literal there that runs on over the statements. -/
theorem marked_not_commentIsInert :
    Text.isIdentifier (marked "*/").name ∧ (∀ e ∈ (marked "*/").tests, e.IsTest) ∧
      Text.withoutComments ((marked "*/").declaration {})
        = "export predicate isMarked(definition is map)\n\x7b\n"
          ++ "    \"; */\n"
          ++ "    (definition.any) && definition.mark == \"*/\";\n\x7d\n" ∧
      ¬ (marked "*/").CommentIsInert {} := by
  have hname : Text.isIdentifier (marked "*/").name := by decide +kernel
  refine ⟨hname, isTest_marked "*/", by decide +kernel, fun hinert => ?_⟩
  have hopens := (commentIsInert_of_callsTests hname (isTest_marked "*/") rfl rfl).mp hinert
  exact absurd hopens (by decide +kernel)

end TestPredicate

end FeatureStudio
