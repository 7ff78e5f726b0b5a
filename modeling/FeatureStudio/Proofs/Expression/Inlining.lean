/-
  FeatureStudio.Proofs.Expression.Inlining: test predicates mean the same with calls written out.

  Whether calls are written out is told by a flag of the state, which is set for the body of a test
  predicate and put back behind it.  In a state with the flag a test is rendered as `Expr.written`
  says, that is, as an expression without nodes; such expressions are read back as what they were.

  Main statements:
    * `Reading.callNames_of_derives`: a name directly in front of a parenthesis is a call.
    * `Expr.IsTest.alike`: what is rendered in a state with the flag, and without it.
    * `TestPredicate.inlined_value`: the statements of a predicate, as they are read back.
-/
import FeatureStudio.Proofs.Expression.Meaning
import FeatureStudio.Proofs.Expression.TestCalls
import FeatureStudio.Proofs.Render.Transaction
import FeatureStudio.Script.Function

namespace FeatureStudio

open Build Reading Render

/-! ## §1. Calls in tokens. -/

namespace Reading

/-- The names that stand directly in front of a parenthesis. -/
def calledNames : List Token → List String
  | [] => []
  | .word name :: ts =>
    (if ts.head? = some .openParen then [name] else []) ++ calledNames ts
  | _ :: ts => calledNames ts

/-- A token that is no word makes no call of what follows. -/
theorem calledNames_cons {t : Token} (h : ∀ name, t ≠ .word name) (ts : List Token) :
    calledNames (t :: ts) = calledNames ts := by
  cases t <;> first | rfl | exact absurd rfl (h _)

/-- Tokens put together make no further calls unless a parenthesis opens the second part. -/
theorem calledNames_append {rs : List Token} (h : rs.head? ≠ some .openParen) :
    ∀ ls : List Token, calledNames (ls ++ rs) = calledNames ls ++ calledNames rs
  | [] => rfl
  | t :: ls => by
      have ih := calledNames_append h ls
      cases t
      case word name =>
        have hhead : (ls ++ rs).head? = some .openParen ↔ ls.head? = some .openParen := by
          cases ls with
          | nil => exact iff_of_false h (by simp)
          | cons t ls => rfl
        simp only [List.cons_append, calledNames, ih, hhead, List.append_assoc]
      all_goals exact ih

/-- Two parts with a token between them that is neither a word nor an opening parenthesis. -/
theorem calledNames_infixed {t : Token} (hword : ∀ name, t ≠ .word name) (hopen : t ≠ .openParen)
    (ls rs : List Token) :
    calledNames (ls ++ t :: rs) = calledNames ls ++ calledNames rs := by
  have hhead : (t :: rs).head? ≠ some .openParen := fun h => hopen (Option.some.inj h)
  rw [calledNames_append hhead, calledNames_cons hword]

@[simp]
theorem calledNames_binary (op : BinaryOp) (ls rs : List Token) :
    calledNames (ls ++ .binary op :: rs) = calledNames ls ++ calledNames rs :=
  calledNames_infixed (fun _ h => by cases h) (fun h => by cases h) ls rs

@[simp]
theorem calledNames_equality (op : EqualityOp) (ls rs : List Token) :
    calledNames (ls ++ .equality op :: rs) = calledNames ls ++ calledNames rs :=
  calledNames_infixed (fun _ h => by cases h) (fun h => by cases h) ls rs

@[simp]
theorem calledNames_ternary (ts ys ns : List Token) :
    calledNames (ts ++ .question :: (ys ++ .colon :: ns))
      = calledNames ts ++ calledNames ys ++ calledNames ns := by
  rw [calledNames_infixed (fun _ h => by cases h) (fun h => by cases h),
    calledNames_infixed (fun _ h => by cases h) (fun h => by cases h), List.append_assoc]

@[simp]
theorem calledNames_enclosed (ts : List Token) :
    calledNames (FeatureStudio.enclosed ts) = calledNames ts := by
  show calledNames (ts ++ [.closeParen]) = _
  rw [calledNames_infixed (fun _ h => by cases h) (fun h => by cases h)]
  exact List.append_nil _

@[simp]
theorem calledNames_index (ts ks : List Token) :
    calledNames (ts ++ .openBracket :: (ks ++ [.closeBracket]))
      = calledNames ts ++ calledNames ks := by
  rw [calledNames_infixed (fun _ h => by cases h) (fun h => by cases h),
    calledNames_infixed (fun _ h => by cases h) (fun h => by cases h)]
  exact congrArg _ (List.append_nil _)

@[simp]
theorem calledNames_prefixed (op : UnaryOp) (ts : List Token) :
    calledNames (prefixToken op :: ts) = calledNames ts :=
  calledNames_cons (fun name h => word_ne_prefixToken name op h.symm) ts

@[simp]
theorem calledNames_commaed : ∀ tss : List (List Token),
    calledNames (commaed tss) = tss.flatMap calledNames
  | [] => rfl
  | [ts] => by simp [commaed]
  | ts :: ts' :: tss => by
      rw [commaed_cons_cons, calledNames_infixed (fun _ h => by cases h) (fun h => by cases h),
        calledNames_commaed (ts' :: tss), ← List.flatMap_cons]

@[simp]
theorem calledNames_call (name : String) (tss : List (List Token)) :
    calledNames (.word name :: .openParen :: (commaed tss ++ [.closeParen]))
      = name :: tss.flatMap calledNames := by
  show name :: calledNames (commaed tss ++ [.closeParen]) = _
  rw [calledNames_infixed (fun _ h => by cases h) (fun h => by cases h), calledNames_commaed]
  exact congrArg _ (List.append_nil _)

end Reading

namespace Expr

variable {inlined : Bool}

theorem allCallNames_append : ∀ es es' : List Expr,
    allCallNames inlined (es ++ es') = allCallNames inlined es ++ allCallNames inlined es'
  | [], _ => rfl
  | e :: es, es' => by
      rw [List.cons_append, allCallNames, allCallNames, allCallNames_append es es',
        List.append_assoc]

theorem callNames_index (base key : Expr) :
    (base.index key).callNames inlined = base.callNames inlined ++ key.callNames inlined := by
  have hsingle : ∀ e : Expr, (Expr.access e [key]).callNames inlined
      = e.callNames inlined ++ key.callNames inlined := by
    intro e
    rw [callNames, allCallNames, allCallNames, List.append_nil]
  cases base with
  | access e keys =>
      show (Expr.access e (keys ++ [key])).callNames inlined = _
      rw [callNames, callNames, allCallNames_append, allCallNames, allCallNames, List.append_nil,
        List.append_assoc]
  | _ => exact hsingle _

end Expr

namespace Reading

theorem allCallNames_of_forall (inlined : Bool) {args : List (List Token × Expr)}
    (h : ∀ a ∈ args, a.2.callNames inlined = calledNames a.1) :
    Expr.allCallNames inlined (args.map Prod.snd)
      = (args.map Prod.fst).flatMap calledNames := by
  induction args with
  | nil => rfl
  | cons a args ih =>
      rw [List.map_cons, List.map_cons, List.flatMap_cons, Expr.allCallNames,
        h a List.mem_cons_self, ih fun a' ha' => h a' (List.mem_cons_of_mem _ ha')]

/-- **A name directly in front of a parenthesis is a call**, and there is no other. -/
theorem callNames_of_derives {level : Nat} {ts : List Token} {e : Expr} (inlined : Bool)
    (h : Derives level ts e) : e.callNames inlined = calledNames ts := by
  induction h with
  | word h => rfl
  | parens _ ih => exact ih.trans (calledNames_enclosed _).symm
  | @call name args hname h ih =>
      rw [Expr.callNames, allCallNames_of_forall inlined ih, calledNames_call]
  | index _ _ ih ihk => rw [Expr.callNames_index, ih, ihk, calledNames_index]
  | unary _ ih => rw [Expr.callNames, ih, calledNames_prefixed]
  | binary _ _ ihl ihr => rw [Expr.callNames, ihl, ihr, calledNames_binary]
  | equality _ _ ihl ihr => rw [Expr.callNames, ihl, ihr, calledNames_equality]
  | ternary _ _ _ iht ihy ihn => rw [Expr.callNames, iht, ihy, ihn, calledNames_ternary]
  | tighter _ ih => exact ih

end Reading

namespace Expr

variable {inlined : Bool}

theorem calledNames_enclosedUnless (least precedence : Nat) (ts : List Token) :
    calledNames (enclosedUnless least precedence ts) = calledNames ts := by
  unfold enclosedUnless
  split
  · rfl
  · exact calledNames_enclosed ts

theorem calledNames_setApart (op : UnaryOp) (ts : List Token) :
    calledNames (setApart op ts) = calledNames ts := by
  unfold setApart
  split
  · exact calledNames_enclosed ts
  · rfl

theorem calledNames_keyTokens : ∀ {keys : List Expr},
    (∀ k ∈ keys, calledNames k.tokens = k.callNames inlined) → ∀ ts : List Token,
      calledNames (ts ++ keyTokens keys) = calledNames ts ++ allCallNames inlined keys
  | [], _, ts => by rw [keyTokens, allCallNames, List.append_nil, List.append_nil]
  | k :: keys, h, ts => by
      have hrest := calledNames_keyTokens (fun k' hk' => h k' (List.mem_cons_of_mem _ hk'))
        (ts ++ .openBracket :: (k.tokens ++ [.closeBracket]))
      rw [keyTokens, ← List.append_assoc, hrest, calledNames_index, h k List.mem_cons_self,
        allCallNames, List.append_assoc]

theorem flatMap_tokenLists : ∀ {es : List Expr},
    (∀ e ∈ es, calledNames e.tokens = e.callNames inlined) →
      (tokenLists es).flatMap calledNames = allCallNames inlined es
  | [], _ => rfl
  | e :: rest, h => by
      rw [tokenLists, List.flatMap_cons, h e List.mem_cons_self,
        flatMap_tokenLists fun e' he' => h e' (List.mem_cons_of_mem _ he'), allCallNames]

/-- The calls of an expression are those that its tokens make. -/
theorem IsPlain.calledNames_tokens {e : Expr} (h : e.IsPlain) :
    calledNames e.tokens = e.callNames inlined := by
  induction h with
  | token h => rfl
  | parens _ ih => rw [tokens, calledNames_enclosed, ih, callNames]
  | unary _ ih =>
      rw [tokens, calledNames_prefixed, calledNames_setApart, calledNames_enclosedUnless, ih,
        callNames]
  | binary _ _ ihl ihr =>
      rw [tokens, calledNames_binary, calledNames_enclosedUnless, calledNames_enclosedUnless, ihl,
        ihr, callNames]
  | equality _ _ ihl ihr =>
      rw [tokens, calledNames_equality, calledNames_enclosedUnless, calledNames_enclosedUnless,
        ihl, ihr, callNames]
  | ternary _ _ _ iht ihy ihn =>
      rw [tokens, calledNames_ternary, calledNames_enclosedUnless, iht, ihy, ihn, callNames]
  | access _ _ ihb ihk =>
      rw [tokens, calledNames_keyTokens ihk, calledNames_enclosedUnless, ihb, callNames]
  | call hname _ iha => rw [tokens, calledNames_call, flatMap_tokenLists iha, callNames]

end Expr

/-! ## §2. Renderings that agree. -/

namespace Build

/-- With a flag that is allowed, both steps leave the context as it is and give the same, which
depends on no more of the context than its indentation. -/
def Agree {α : Type} (flags : Bool → Prop) (step step' : Build α) : Prop :=
  ∃ f : Indent → α, ∀ c : Context, flags c.state.inTest →
    step c = (f c.indent, c) ∧ step' c = (f c.indent, c)

namespace Agree

variable {α β : Type} {flags : Bool → Prop} {step step' : Build α}

theorem pure (a : α) : Agree flags (Pure.pure a) (Pure.pure a) :=
  ⟨fun _ => a, fun _ _ => ⟨rfl, rfl⟩⟩

theorem symm (h : Agree flags step step') : Agree flags step' step := by
  obtain ⟨f, hf⟩ := h
  exact ⟨f, fun c hc => (hf c hc).symm⟩

/-- A step that goes on as the flag says agrees with what it goes on as. -/
theorem of_apply_eq {other : Build α} (h : Agree flags other step')
    (heq : ∀ c : Context, flags c.state.inTest → step c = other c) :
    Agree flags step step' := by
  obtain ⟨f, hf⟩ := h
  exact ⟨f, fun c hc => ⟨(heq c hc).trans (hf c hc).1, (hf c hc).2⟩⟩

theorem bind {next next' : α → Build β} (h : Agree flags step step')
    (h' : ∀ a, Agree flags (next a) (next' a)) :
    Agree flags (step >>= next) (step' >>= next') := by
  obtain ⟨f, hf⟩ := h
  choose g hg using h'
  refine ⟨fun i => g (f i) i, fun c hc => ?_⟩
  obtain ⟨hstep, hstep'⟩ := hf c hc
  obtain ⟨hnext, hnext'⟩ := hg (f c.indent) c hc
  constructor
  · show next (step c).1 (step c).2 = _
    rw [hstep, hnext]
  · show next' (step' c).1 (step' c).2 = _
    rw [hstep', hnext']

theorem map (h : Agree flags step step') (g : α → β) :
    Agree flags (step >>= fun a => Pure.pure (g a)) (step' >>= fun a => Pure.pure (g a)) :=
  h.bind fun a => .pure (g a)

theorem indented (text : String) (levels : Nat) :
    Agree flags (Build.indented text levels) (Build.indented text levels) :=
  ⟨fun i => i.lines text levels, fun _ _ => ⟨rfl, rfl⟩⟩

/-- A step run as an operand gives what it gives itself. -/
theorem asOperand {step step' : Rendering} (h : Agree flags step step') :
    Agree flags (runIn .expression (expression step)) step' := by
  obtain ⟨f, hf⟩ := h
  refine ⟨f, fun c hc => ⟨?_, (hf c hc).2⟩⟩
  have hstep := (hf (c.save.withState (·.override (.inScope .expression))) hc).1
  rw [runIn, run_apply, Gives.expression_apply rfl hstep]
  rfl

end Agree

end Build

namespace Render.Operand

/-- Operands that are written alike at every place, except under `grouped`, which looks at the
form of its operand. -/
structure Alike (flags : Bool → Prop) (o o' : Operand) : Prop where
  precedence : o.shape.precedence = o'.shape.precedence
  rightLeast : ∀ op, rightLeast op o.shape = rightLeast op o'.shape
  render : Agree flags o.render o'.render

namespace Alike

variable {flags : Bool → Prop} {o o' l l' r r' : Operand}

theorem of_shape (hshape : o.shape = o'.shape) (h : Agree flags o.render o'.render) :
    Alike flags o o' := ⟨by rw [hshape], fun op => by rw [hshape], h⟩

theorem text (h : Alike flags o o') : Agree flags o.text o'.text :=
  h.render.asOperand.symm.asOperand.symm

theorem above (h : Alike flags o o') (least : Nat) :
    Agree flags (o.above least) (o'.above least) := by
  unfold Operand.above
  rw [h.precedence]
  exact h.text.map _

theorem texts {os os' : List Operand} (h : List.Forall₂ (Alike flags) os os') :
    Agree flags (Operand.texts os) (Operand.texts os') := by
  induction h with
  | nil => exact .pure []
  | cons hfirst _ ih => exact hfirst.text.bind fun _ => ih.map _

theorem parens (h : Alike flags o o') : Alike flags (Operand.parens o) (Operand.parens o') :=
  .of_shape rfl (h.text.map _)

theorem unary (op : UnaryOp) (h : Alike flags o o') :
    Alike flags (Operand.unary op o) (Operand.unary op o') :=
  .of_shape rfl ((h.above _).map _)

theorem binary (hl : Alike flags l l') (op : BinaryOp) (hr : Alike flags r r') :
    Alike flags (Operand.binary l op r) (Operand.binary l' op r') := by
  refine .of_shape rfl ?_
  unfold Operand.binary
  rw [hr.rightLeast op]
  exact (hl.above _).bind fun _ => (hr.above _).map _

theorem equality (hl : Alike flags l l') (op : EqualityOp) (hr : Alike flags r r') :
    Alike flags (Operand.equality l op r) (Operand.equality l' op r') :=
  .of_shape rfl ((hl.above _).bind fun _ => (hr.above _).map _)

theorem ternary {t t' : Operand} (ht : Alike flags t t') (hl : Alike flags l l')
    (hr : Alike flags r r') :
    Alike flags (Operand.ternary t l r) (Operand.ternary t' l' r') :=
  .of_shape rfl ((ht.above _).bind fun _ => hl.text.bind fun _ => hr.text.map _)

theorem access {os os' : List Operand} (h : Alike flags o o')
    (hk : List.Forall₂ (Alike flags) os os') :
    Alike flags (Operand.access o os) (Operand.access o' os') :=
  .of_shape rfl ((h.above _).bind fun _ => (texts hk).map _)

theorem call (name : String) (multiline : Bool) {os os' : List Operand}
    (h : List.Forall₂ (Alike flags) os os') :
    Alike flags (Operand.call name os multiline) (Operand.call name os' multiline) := by
  refine .of_shape rfl ((texts h).bind fun args => ?_)
  split
  · exact (Agree.indented _ _).map _
  · exact .pure _

/-- Operands of the same form are grouped alike. -/
theorem grouped (h : Alike flags o o') (hshape : o.shape = o'.shape) :
    Alike flags o.grouped o'.grouped := by
  unfold Operand.grouped
  rw [hshape]
  split
  · exact h
  · exact h.parens

end Alike

end Render.Operand

/-! ## §3. Tests and what is written of them. -/

namespace Expr

open Render (Operand)

variable {inlined : Bool} {flags : Bool → Prop}

theorem operand_grouped (e : Expr) : e.grouped.operand = e.operand.grouped := by
  cases e <;> rfl

theorem alike_writtenAll : ∀ {es : List Expr},
    (∀ e ∈ es, e.operand.Alike (· = inlined) (e.written inlined).operand) →
      List.Forall₂ (Operand.Alike (· = inlined)) (operands es) (operands (writtenAll inlined es))
  | [], _ => .nil
  | e :: _, h =>
    .cons (h e List.mem_cons_self) (alike_writtenAll fun e' he' => h e' (List.mem_cons_of_mem _ he'))

/-- A test is grouped as its own form asks for, whatever is written of it. -/
theorem alike_grouped {e : Expr}
    (h : e.operand.Alike (· = inlined) (e.written inlined).operand) :
    e.operand.grouped.Alike (· = inlined)
      (if e.shape = .parens then e.written inlined else .parens (e.written inlined)).operand := by
  unfold Operand.grouped
  show (if e.shape = .parens then e.operand else Operand.parens e.operand).Alike (· = inlined) _
  split
  · exact h
  · exact h.parens

/-- Tests joined one after the other are written alike, and are of the same form. -/
theorem alike_foldl_both : ∀ {tests : List Expr},
    (∀ e ∈ tests, e.operand.Alike (· = inlined) (e.written inlined).operand) →
      ∀ {acc : Operand} {acc' : Expr}, acc.Alike (· = inlined) acc'.operand →
        acc.shape = acc'.shape →
        ((operands tests).foldl (fun acc next => .binary acc .and next.grouped) acc).Alike
            (· = inlined) ((writtenGrouped inlined tests).foldl both acc').operand ∧
          ((operands tests).foldl (fun acc next => .binary acc .and next.grouped) acc).shape
            = ((writtenGrouped inlined tests).foldl both acc').shape
  | [], _, _, _, hacc, hshape => ⟨hacc, hshape⟩
  | e :: _, h, _, _, hacc, _ =>
    alike_foldl_both (fun e' he' => h e' (List.mem_cons_of_mem _ he'))
      (hacc.binary .and (alike_grouped (h e List.mem_cons_self))) rfl

/-- A conjunction that is rendered in one go is written as the conjunction of its parts. -/
theorem alike_conjoined {tests : List Expr}
    (h : ∀ e ∈ tests, e.operand.Alike (· = inlined) (e.written inlined).operand) :
    (Operand.conjunction (operands tests)).Alike (· = inlined)
      (conjoined (writtenGrouped inlined tests)).operand := by
  cases tests with
  | nil => exact .of_shape rfl ((Operand.Alike.of_shape rfl (.pure "true")).text.map _)
  | cons e rest =>
      have hfirst := alike_grouped (h e List.mem_cons_self)
      have hparens := shape_writtenGrouped inlined (e :: rest) _ List.mem_cons_self
      obtain ⟨hrest, hshape⟩ := alike_foldl_both
        (fun e' he' => h e' (List.mem_cons_of_mem _ he')) hfirst
        ((Operand.grouped_shape _).trans hparens.symm)
      show (Operand.grouped _).Alike (· = inlined) (Expr.grouped _).operand
      rw [operand_grouped]
      exact hrest.grouped hshape

/-- A call is written out or stays a call, as the flag says. -/
theorem agree_testCall {name : String} {tests : List Expr}
    (h : ∀ e ∈ tests, e.operand.Alike (· = inlined) (e.written inlined).operand) :
    Agree (· = inlined) (runIn .expression (Render.testCall name (operands tests)))
      ((Node.testCall name tests).written inlined).render := by
  cases inlined with
  | true =>
      have hinlined := (alike_conjoined h).render.asOperand
      refine Agree.asOperand (hinlined.of_apply_eq fun c hc => ?_)
      show (if c.state.inTest then _ else _ : Rendering) c = _
      rw [hc]
      rfl
  | false =>
      have hcall : Agree (· = false) (Operand.call name Render.definitionArgument false).render
          (Expr.call name [.token "definition"] false).render :=
        (Operand.Alike.call name false (.cons (.of_shape rfl (.pure "definition")) .nil)).render
      refine Agree.asOperand (hcall.of_apply_eq fun c hc => ?_)
      show (if c.state.inTest then _ else _ : Rendering) c = _
      rw [hc]
      rfl

theorem shape_conjoined (es : List Expr) : (conjoined es).shape = .parens := by
  have hgrouped : ∀ e : Expr, e.grouped.shape = .parens := by
    intro e
    cases e <;> rfl
  cases es with
  | nil =>
      rw [conjoined]
      exact hgrouped _
  | cons e rest =>
      rw [conjoined]
      exact hgrouped _

/-- **What is rendered of a test is what is written of it.** -/
theorem IsTest.alike {e : Expr} (h : e.IsTest) (inlined : Bool) :
    e.operand.Alike (· = inlined) (e.written inlined).operand := by
  induction h with
  | token h => exact .of_shape rfl (.pure _)
  | parens _ ih => exact ih.parens
  | unary _ ih => exact ih.unary _
  | binary _ _ ihl ihr => exact ihl.binary _ ihr
  | equality _ _ ihl ihr => exact ihl.equality _ ihr
  | ternary _ _ _ iht ihy ihn => exact iht.ternary ihy ihn
  | access _ _ ihb ihk => exact ihb.access (alike_writtenAll ihk)
  | call hname _ iha => exact .call _ _ (alike_writtenAll iha)
  | @testCall name tests hname _ ih =>
      have hagree := @agree_testCall inlined name tests ih
      cases inlined with
      | true =>
          -- a call counts as an atom, what is written out is in parentheses
          have hparens := shape_conjoined (writtenGrouped true tests)
          refine ⟨?_, fun op => ?_, hagree⟩
          · show Shape.precedence .atom = (conjoined (writtenGrouped true tests)).shape.precedence
            rw [hparens]
            rfl
          · show Operand.rightLeast op .atom
              = Operand.rightLeast op (conjoined (writtenGrouped true tests)).shape
            rw [hparens]
            rfl
      | false => exact .of_shape rfl hagree

theorem alike_operands : ∀ {es : List Expr}, (∀ e ∈ es, e.operand.Alike flags e.operand) →
    List.Forall₂ (Operand.Alike flags) (operands es) (operands es)
  | [], _ => .nil
  | e :: _, h =>
    .cons (h e List.mem_cons_self) (alike_operands fun e' he' => h e' (List.mem_cons_of_mem _ he'))

/-- An expression without nodes is rendered without looking at the flag. -/
theorem IsPlain.alike {e : Expr} (h : e.IsPlain) : e.operand.Alike flags e.operand := by
  induction h with
  | token h => exact .of_shape rfl (.pure _)
  | parens _ ih => exact ih.parens
  | unary _ ih => exact ih.unary _
  | binary _ _ ihl ihr => exact ihl.binary _ ihr
  | equality _ _ ihl ihr => exact ihl.equality _ ihr
  | ternary _ _ _ iht ihy ihn => exact iht.ternary ihy ihn
  | access _ _ ihb ihk => exact ihb.access (alike_operands ihk)
  | call hname _ iha => exact .call _ _ (alike_operands iha)

end Expr

/-! ## §4. Statements. -/

namespace Expr

/-- The text of a test has one reading.  It makes the calls that are left of the test, from left
to right and no other, and has the value of the test, in which every call of a test predicate means
the conjunction of its tests. -/
def IsStated (inlined : Bool) (e : Expr) (text : String) : Prop :=
  ∃ t, Reads text t ∧ (∀ t', Reads text t' → t' = t) ∧
    t.callNames inlined = e.callNames inlined ∧
    ∀ I, Suits inlined I e.callees → t.value I = e.value I

/-- With the flag as given, a test is rendered as the tokens of what is written of it. -/
theorem IsTest.rendered {e : Expr} (h : e.IsTest) (inlined : Bool) :
    ∃ f : Indent → String, (∀ i, Lexes (f i).toList (e.written inlined).tokens) ∧
      ∀ c : Context, c.state.inTest = inlined → e.render c = (f c.indent, c) := by
  obtain ⟨f, hf⟩ := (h.alike inlined).render
  refine ⟨f, fun i => ?_, fun c hc => (hf c hc).1⟩
  -- the same text is that of an expression without nodes
  obtain ⟨text, htext, hlexes, -⟩ :=
    (isPlain_written h).isWritten { indent := i, state := { inTest := inlined } }
  have hsame : text = f i := congrArg Prod.fst (htext.symm.trans (hf _ rfl).2)
  rwa [← hsame]

/-- A text of the tokens of what is written of a test states it. -/
theorem IsTest.isStated {e : Expr} (h : e.IsTest) {inlined : Bool} {text : String}
    (hlexes : Lexes text.toList (e.written inlined).tokens) : e.IsStated inlined text := by
  have hplain : (e.written inlined).IsPlain := isPlain_written h
  obtain ⟨t, ht, hv⟩ := derives_tokens hplain
  have hreads : Reads text t := ⟨(e.written inlined).tokens, hlexes.scan_eq, ht⟩
  refine ⟨t, hreads, fun t' ht' => ht'.unique hreads, ?_, fun I hI => ?_⟩
  · rw [callNames_of_derives inlined ht, hplain.calledNames_tokens, callNames_written]
  · rw [hv, value_written e hI]

/-- With the flag as given, a test is rendered as a text that states it. -/
theorem IsTest.stated {e : Expr} (h : e.IsTest) (inlined : Bool) :
    ∃ f : Indent → String, (∀ i, e.IsStated inlined (f i)) ∧
      ∀ c : Context, c.state.inTest = inlined → e.render c = (f c.indent, c) := by
  obtain ⟨f, hf, hrender⟩ := h.rendered inlined
  exact ⟨f, fun i => h.isStated (hf i), hrender⟩

end Expr

namespace Render

/-- Texts as statements, one after the other. -/
def statements (texts : List String) : String := String.join (texts.map (· ++ ";\n"))

theorem intercalate_empty : ∀ texts : List String, "".intercalate texts = String.join texts
  | [] => rfl
  | [text] => by
      rw [String.intercalate_singleton, String.join_cons, String.join_nil, String.append_empty]
  | text :: text' :: texts => by
      rw [String.join_cons, String.intercalate_cons_cons, intercalate_empty (text' :: texts),
        String.append_empty]

/-- A test as a statement. -/
theorem run_statement {render : Rendering} {c : Context} {text : String}
    (h : render (c.save.withState (·.override { scope := some .statement }))
      = (text, c.save.withState (·.override { scope := some .statement }))) :
    run { scope := some .statement } (expression render) c = (text ++ ";\n", c) := by
  rw [run_apply]
  show let r := coerced (render _).1 (render _).2; (r.1, r.2.restore) = _
  rw [h]
  rfl

/-- With a flag that is allowed, every test is rendered as a text that fits it, which depends on
no more of the context than its indentation. -/
def TestsGive (flags : Bool → Prop) (fits : Expr → String → Prop) (tests : List Expr) : Prop :=
  ∀ e ∈ tests, ∃ f : Indent → String, (∀ i, fits e (f i)) ∧
    ∀ c : Context, flags c.state.inTest → e.render c = (f c.indent, c)

variable {flags : Bool → Prop} {fits : Expr → String → Prop}

/-- Tests in a row, each a statement. -/
theorem runAll_tests : ∀ {tests : List Expr}, TestsGive flags fits tests →
    ∃ f : Indent → List String, (∀ i, List.Forall₂ fits tests (f i)) ∧
      ∀ c : Context, flags c.state.inTest →
        runAll { scope := some .statement } ((operands tests).map fun o => expression o.render) c
          = ((f c.indent).map (· ++ ";\n"), c)
  | [], _ => ⟨fun _ => [], fun _ => .nil, fun _ _ => rfl⟩
  | e :: tests, h => by
      obtain ⟨f, hf, hrender⟩ := h e List.mem_cons_self
      obtain ⟨g, hg, hrest⟩ := runAll_tests fun e' he' => h e' (List.mem_cons_of_mem _ he')
      refine ⟨fun i => f i :: g i, fun i => .cons (hf i) (hg i), fun c hc => ?_⟩
      have hfirst : run { scope := some .statement } (expression e.render) c
          = (f c.indent ++ ";\n", c) := run_statement (hrender _ hc)
      show runAll _ (expression e.render :: _) c = _
      rw [runAll_cons, hfirst]
      show ((f c.indent ++ ";\n") :: (runAll _ _ c).1, (runAll _ _ c).2) = _
      rw [hrest c hc]
      rfl

/-- Parts joined without anything between them. -/
theorem joined_apply {scope : Scope} {parts : List Rendering} {texts : List String}
    {c d : Context} (h : runAll { scope := some scope } parts c = (texts, d)) :
    joined { scope := some scope } parts c = (String.join texts, d) := by
  show (if (runAll { scope := some scope } parts c).1.isEmpty then pure "" else pure _ : Rendering)
    (runAll { scope := some scope } parts c).2 = _
  rw [h]
  cases texts with
  | nil => rfl
  | cons text texts =>
      show (("" ++ "").intercalate (text :: texts) ++ "", d) = _
      rw [String.append_empty, String.append_empty, intercalate_empty]

/-- The statements are rendered with the flag as given, and the flag is put back. -/
theorem testStatements_of_runAll {inlined : Bool} {tests : List Operand} {c : Context}
    {texts : List String}
    (h : runAll { scope := some .statement } (tests.map fun o => expression o.render)
        (c.withState fun s => { s with inTest := inlined })
      = (texts, c.withState fun s => { s with inTest := inlined })) :
    testStatements inlined tests c = (String.join texts, c) := by
  have hjoined := joined_apply h
  have hrestored : testStatements inlined tests c
      = ((joined { scope := some .statement } (tests.map fun o => expression o.render)
          (c.withState fun s => { s with inTest := inlined })).1,
        (joined { scope := some .statement } (tests.map fun o => expression o.render)
          (c.withState fun s => { s with inTest := inlined })).2.withState
            fun s => { s with inTest := c.state.inTest }) := rfl
  rw [hrestored, hjoined]
  rfl

/-- The statements of tests, with any flag that is allowed. -/
theorem TestsGive.testStatements {tests : List Expr} (h : TestsGive flags fits tests) :
    ∃ f : Indent → List String, (∀ i, List.Forall₂ fits tests (f i)) ∧
      ∀ inlined, flags inlined → ∀ c : Context,
        Render.testStatements inlined (operands tests) c = (statements (f c.indent), c) := by
  obtain ⟨f, hf, hrun⟩ := runAll_tests h
  exact ⟨f, hf, fun inlined hinlined c => testStatements_of_runAll (hrun _ hinlined)⟩

theorem testStatements_apply {tests : List Expr} (h : ∀ e ∈ tests, e.IsTest) (inlined : Bool) :
    ∃ f : Indent → List String, (∀ i, List.Forall₂ (Expr.IsStated inlined) tests (f i)) ∧
      ∀ c : Context, testStatements inlined (operands tests) c = (statements (f c.indent), c) := by
  have hgive : TestsGive (· = inlined) (Expr.IsStated inlined) tests := fun e he =>
    (h e he).stated inlined
  obtain ⟨f, hf, hstatements⟩ := hgive.testStatements
  exact ⟨f, hf, hstatements inlined rfl⟩

/-- The declaration of a predicate, whose body is rendered twice. -/
theorem testPredicate_apply {name : String} {exported : Bool} {tests : List Operand} {c : Context}
    (hscope : c.state.scope = .top) {standard inlined : String}
    (hstandard : testStatements false tests (c.withState State.inBody)
      = (standard, c.withState State.inBody))
    (hinlined : testStatements true tests (c.withState State.inBody)
      = (inlined, c.withState State.inBody)) :
    testPredicate name exported tests c
      = (exportText exported ++ "predicate " ++ name ++ "(" ++ FormalParameter.definition.text
          ++ ")\n\x7b\n" ++ c.indent.lines (testBody standard inlined) 1 ++ "\x7d\n",
        c.withState State.inBody) := by
  have hbody : testPredicate name exported tests c
      = let r := testStatements false tests (c.withState State.inBody)
        let r' := testStatements true tests r.2
        (exportText exported ++ "predicate " ++ name ++ "("
          ++ FormalParameter.definition.text ++ ")\n\x7b\n"
          ++ r'.2.indent.lines (testBody r.1 r'.1) 1 ++ "\x7d\n", r'.2) := scope_bind hscope
  rw [hbody, hstandard]
  show let r' := testStatements true tests (c.withState State.inBody)
    (_ ++ r'.2.indent.lines (testBody _ r'.1) 1 ++ _, r'.2) = _
  rw [hinlined]
  rfl

end Render

/-- **Test predicates mean the same with their calls written out.**  Whatever the context, the body
of a test predicate is rendered twice.  Once its calls stay calls, once they are written out, so
that only the calls are left that tests make of anything else; each statement has one reading, and
its value is that of the test where a call means the conjunction of the tests of what it calls.
The flag that tells the two apart is what it was afterwards. -/
theorem TestPredicate.inlined_value {p : TestPredicate} (h : ∀ e ∈ p.tests, e.IsTest)
    (c : Context) :
    ∃ standard inlined : List String,
      testStatements false (operands p.tests) c = (statements standard, c) ∧
      testStatements true (operands p.tests) c = (statements inlined, c) ∧
      List.Forall₂ (Expr.IsStated false) p.tests standard ∧
      List.Forall₂ (Expr.IsStated true) p.tests inlined ∧
      (c.state.scope = .top →
        p.node.build c
          = (exportText p.exported ++ "predicate " ++ p.name ++ "("
              ++ FormalParameter.definition.text ++ ")\n\x7b\n"
              ++ c.indent.lines (testBody (statements standard) (statements inlined)) 1
              ++ "\x7d\n",
            c.withState State.inBody)) ∧
      (p.node.build c).2.state.inTest = c.state.inTest := by
  obtain ⟨f, hf, hstandard⟩ := testStatements_apply h false
  obtain ⟨g, hg, hinlined⟩ := testStatements_apply h true
  have hbuild : c.state.scope = .top → p.node.build c
      = (exportText p.exported ++ "predicate " ++ p.name ++ "("
          ++ FormalParameter.definition.text ++ ")\n\x7b\n"
          ++ c.indent.lines (testBody (statements (f c.indent)) (statements (g c.indent))) 1
          ++ "\x7d\n",
        c.withState State.inBody) := fun hscope =>
    testPredicate_apply hscope (hstandard _) (hinlined _)
  refine ⟨f c.indent, g c.indent, hstandard c, hinlined c, hf _, hg _, hbuild, ?_⟩
  -- at file level scope and depth are left changed, but the flag is not
  rw [(p.node.shifts_build c).2]
  show (if c.state.scope = .top then c.state.inBody else c.state).inTest = _
  split <;> rfl

/-- A predicate that calls another one twice, which calls one without tests. -/
def TestPredicate.flanged : TestPredicate :=
  let any : TestPredicate := { name := "isAny" }
  let custom : TestPredicate :=
    { name := "isCustom", tests := [.equal (.definition "size") (.token "Size.CUSTOM"), any.call] }
  { name := "isFlanged"
    tests := [.unary .not custom.call, .either (.call "hasFlange" [custom.call] false) any.call] }

theorem TestPredicate.isTest_flanged : ∀ e ∈ flanged.tests, e.IsTest := by
  have hsize : IsPath "definition.size" := by decide +kernel
  have hcustom : IsPath "Size.CUSTOM" := by decide +kernel
  have hnames : IsPath "isAny" ∧ IsPath "isCustom" ∧ IsPath "hasFlange" := by decide +kernel
  have hany : (Expr.node (.testCall "isAny" [])).IsTest :=
    .testCall hnames.1 fun t ht => absurd ht List.not_mem_nil
  have hcall : (Expr.node (.testCall "isCustom"
      [.equal (.definition "size") (.token "Size.CUSTOM"), .node (.testCall "isAny" [])])).IsTest := by
    refine .testCall hnames.2.1 ?_
    rintro t (_ | ⟨_, _ | ⟨_, ht⟩⟩)
    · exact .equality (.token (.inl hsize)) (.token (.inl hcustom))
    · exact hany
    · cases ht
  rintro e (_ | ⟨_, _ | ⟨_, he⟩⟩)
  · exact .unary hcall
  · refine .binary (.call hnames.2.2 fun a ha => ?_) hany
    rw [List.mem_singleton.mp ha]
    exact hcall
  · cases he

theorem TestPredicate.flanged_inlined_value :
    (∀ e ∈ flanged.tests, e.IsTest) ∧
      (testStatements true (operands flanged.tests) {}).1
        = "!((definition.size == Size.CUSTOM) && ((true)));\n"
          ++ "hasFlange(((definition.size == Size.CUSTOM) && ((true)))) || (true);\n" ∧
      (∃ I, ∀ e ∈ flanged.tests, ∀ inlined, Expr.Suits inlined I e.callees) ∧
      ∃ standard inlined : List String,
        testStatements false (operands flanged.tests) {} = (statements standard, {}) ∧
        testStatements true (operands flanged.tests) {} = (statements inlined, {}) ∧
        List.Forall₂ (Expr.IsStated false) flanged.tests standard ∧
        List.Forall₂ (Expr.IsStated true) flanged.tests inlined := by
  -- tokens stand for themselves, so that the size is not the custom one
  let I : Interpretation :=
    { token := fun text => if text = "true" then .truth true else .object text
      call := fun name _ => .truth (name = "isAny")
      index := fun _ _ => .undefined }
  have hsuits : ∀ e ∈ flanged.tests, ∀ inlined, Expr.Suits inlined I e.callees := by
    have hcallees : ∀ e ∈ flanged.tests, ∀ p ∈ e.callees,
        p = ("isCustom", [.equal (.definition "size") (.token "Size.CUSTOM"),
          .node (.testCall "isAny" [])]) ∨ p = ("isAny", []) := by
      rintro e (_ | ⟨_, _ | ⟨_, he⟩⟩) p hp
      · simpa [Expr.callees, Expr.nodeCallees, Expr.allCallees, TestPredicate.call, Expr.equal,
          Expr.definition] using hp
      · simpa [Expr.callees, Expr.nodeCallees, Expr.allCallees, TestPredicate.call, Expr.either,
          Expr.equal, Expr.definition] using hp
      · cases he
    intro e he inlined p hp
    rcases hcallees e he p hp with rfl | rfl
    · cases inlined with
      | true => exact fun hnone => absurd hnone (List.cons_ne_nil _ _)
      | false => rfl
    · cases inlined with
      | true => exact fun _ => rfl
      | false => rfl
  obtain ⟨standard, inlined, hstandard, hinlined, hread, hread', -⟩ :=
    TestPredicate.inlined_value isTest_flanged {}
  exact ⟨isTest_flanged, rfl, ⟨I, hsuits⟩, standard, inlined, hstandard, hinlined, hread, hread'⟩

end FeatureStudio
