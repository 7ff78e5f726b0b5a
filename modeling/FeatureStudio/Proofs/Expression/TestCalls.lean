/-
  FeatureStudio.Proofs.Expression.TestCalls: calls of test predicates, as calls or written out.

  A test predicate may call others at any place of its tests.  Such a call is written either as a
  call on `definition` or as the conjunction of the tests of the predicate that is called, in which
  further calls are written out again.  `Expr.written` is the expression that is written then; it
  has no calls of test predicates left that are not plain calls.

  Main statements:
    * `Expr.isPlain_written`: what is written is an expression without nodes.
    * `Expr.value_written`: it has the value of what was built, whether calls are written out or
      stay calls that mean conjunctions.
    * `Expr.callNames_written`: the calls that are left, from left to right.
-/
import FeatureStudio.Proofs.Expression.Written

namespace FeatureStudio

open Reading

/-! ## §1. Tests and what is written of them. -/

/-- Expressions whose tokens are atoms and whose parts are expressions again, or calls of test
predicates with tests of the same kind. -/
inductive Expr.IsTest : Expr → Prop where
  | token {text : String} (h : IsAtom text) : (Expr.token text).IsTest
  | parens {e : Expr} (h : e.IsTest) : (Expr.parens e).IsTest
  | unary {op : UnaryOp} {e : Expr} (h : e.IsTest) : (Expr.unary op e).IsTest
  | binary {l r : Expr} {op : BinaryOp} (hl : l.IsTest) (hr : r.IsTest) :
      (Expr.binary l op r).IsTest
  | equality {l r : Expr} {op : EqualityOp} (hl : l.IsTest) (hr : r.IsTest) :
      (Expr.equality l op r).IsTest
  | ternary {test yes no : Expr} (ht : test.IsTest) (hy : yes.IsTest) (hn : no.IsTest) :
      (Expr.ternary test yes no).IsTest
  | access {base : Expr} {keys : List Expr} (hb : base.IsTest) (hk : ∀ k ∈ keys, k.IsTest) :
      (Expr.access base keys).IsTest
  | call {name : String} {args : List Expr} {multiline : Bool} (hname : IsPath name)
      (ha : ∀ a ∈ args, a.IsTest) : (Expr.call name args multiline).IsTest
  | testCall {name : String} {tests : List Expr} (hname : IsPath name)
      (h : ∀ t ∈ tests, t.IsTest) : (Expr.node (.testCall name tests)).IsTest

/-- Grouped expressions joined by `&&` and grouped as a whole; `true` if there is none. -/
def Expr.conjoined : List Expr → Expr
  | [] => (token "true").grouped
  | e :: rest => (rest.foldl both e).grouped

mutual

/-- The expression that is written, with calls of test predicates written out or left as calls. -/
def Expr.written (inlined : Bool) : Expr → Expr
  | .token text => .token text
  | .parens inner => .parens (inner.written inlined)
  | .unary op operand => .unary op (operand.written inlined)
  | .binary lhs op rhs => .binary (lhs.written inlined) op (rhs.written inlined)
  | .equality lhs op rhs => .equality (lhs.written inlined) op (rhs.written inlined)
  | .ternary test ifTrue ifFalse =>
    .ternary (test.written inlined) (ifTrue.written inlined) (ifFalse.written inlined)
  | .access base keys => .access (base.written inlined) (Expr.writtenAll inlined keys)
  | .call name args multiline => .call name (Expr.writtenAll inlined args) multiline
  | .node n => n.written inlined

/-- The expression that is written for a node as operand. -/
def Node.written (inlined : Bool) : Node → Expr
  | .testCall name tests =>
    if inlined then .conjoined (Expr.writtenGrouped inlined tests)
    else .call name [.token "definition"] false
  | n => .node n

/-- The expressions that are written for several. -/
def Expr.writtenAll (inlined : Bool) : List Expr → List Expr
  | [] => []
  | e :: rest => e.written inlined :: Expr.writtenAll inlined rest

/-- The same in parentheses, which only a call in parentheses of its own gets twice. -/
def Expr.writtenGrouped (inlined : Bool) : List Expr → List Expr
  | [] => []
  | e :: rest =>
    (if e.shape = .parens then e.written inlined else .parens (e.written inlined))
      :: Expr.writtenGrouped inlined rest

end

namespace Expr

/-- A grouped expression that is written is in parentheses. -/
theorem shape_writtenGrouped (inlined : Bool) :
    ∀ es : List Expr, ∀ e ∈ writtenGrouped inlined es, e.shape = .parens
  | [], _, h => absurd h List.not_mem_nil
  | e :: rest, e', h => by
      rcases List.mem_cons.mp h with rfl | h
      · cases e <;> rfl
      · exact shape_writtenGrouped inlined rest e' h

/-! ## §2. The predicates that are called. -/

mutual

/-- The test predicates that are called, each with its tests, those called in its tests after it. -/
def callees : Expr → List (String × List Expr)
  | .token _ => []
  | .parens inner => inner.callees
  | .unary _ operand => operand.callees
  | .binary lhs _ rhs | .equality lhs _ rhs => lhs.callees ++ rhs.callees
  | .ternary test ifTrue ifFalse => test.callees ++ ifTrue.callees ++ ifFalse.callees
  | .access base keys => base.callees ++ allCallees keys
  | .call _ args _ => allCallees args
  | .node n => nodeCallees n

/-- The test predicates that a node as operand calls. -/
def nodeCallees : Node → List (String × List Expr)
  | .testCall name tests => (name, tests) :: allCallees tests
  | _ => []

/-- The test predicates that several expressions call. -/
def allCallees : List Expr → List (String × List Expr)
  | [] => []
  | e :: rest => e.callees ++ allCallees rest

end

mutual

/-- The names of the calls that are written, from left to right.  A call of a test predicate that
is written out leaves those that its tests write. -/
def callNames (inlined : Bool) : Expr → List String
  | .token _ => []
  | .parens inner => inner.callNames inlined
  | .unary _ operand => operand.callNames inlined
  | .binary lhs _ rhs | .equality lhs _ rhs => lhs.callNames inlined ++ rhs.callNames inlined
  | .ternary test ifTrue ifFalse =>
    test.callNames inlined ++ ifTrue.callNames inlined ++ ifFalse.callNames inlined
  | .access base keys => base.callNames inlined ++ allCallNames inlined keys
  | .call name args _ => name :: allCallNames inlined args
  | .node n => nodeCallNames inlined n

/-- The names of the calls that a node as operand writes. -/
def nodeCallNames (inlined : Bool) : Node → List String
  | .testCall name tests => if inlined then allCallNames inlined tests else [name]
  | _ => []

/-- The names of the calls that several expressions write. -/
def allCallNames (inlined : Bool) : List Expr → List String
  | [] => []
  | e :: rest => e.callNames inlined ++ allCallNames inlined rest

end

/-! ## §3. What is written is plain. -/

theorem isPlain_conjoined {es : List Expr} (h : ∀ e ∈ es, e.IsPlain) : (conjoined es).IsPlain := by
  have hgrouped : ∀ {e : Expr}, e.IsPlain → e.grouped.IsPlain := by
    intro e he
    unfold grouped
    split
    · exact he
    · exact .parens he
  cases es with
  | nil => exact hgrouped (.token (.inl (by decide +kernel)))
  | cons e rest =>
      refine hgrouped ?_
      have hfold : ∀ (l : List Expr) (acc : Expr), acc.IsPlain → (∀ e ∈ l, e.IsPlain) →
          (l.foldl both acc).IsPlain := by
        intro l
        induction l with
        | nil => intro acc hacc _; exact hacc
        | cons e l ih =>
            intro acc hacc hl
            exact ih _ (.binary hacc (hl e List.mem_cons_self))
              fun e' he' => hl e' (List.mem_cons_of_mem _ he')
      exact hfold rest e (h e List.mem_cons_self) fun e' he' => h e' (List.mem_cons_of_mem _ he')

variable {inlined : Bool}

theorem isPlain_writtenAll : ∀ {es : List Expr},
    (∀ e ∈ es, (e.written inlined).IsPlain) → ∀ e ∈ writtenAll inlined es, e.IsPlain
  | [], _ => fun e he => absurd he List.not_mem_nil
  | e :: rest, h => by
      intro e' he'
      rcases List.mem_cons.mp he' with rfl | he'
      · exact h e List.mem_cons_self
      · exact isPlain_writtenAll (fun f hf => h f (List.mem_cons_of_mem _ hf)) e' he'

theorem isPlain_writtenGrouped : ∀ {es : List Expr},
    (∀ e ∈ es, (e.written inlined).IsPlain) → ∀ e ∈ writtenGrouped inlined es, e.IsPlain
  | [], _ => fun e he => absurd he List.not_mem_nil
  | e :: rest, h => by
      intro e' he'
      rcases List.mem_cons.mp he' with rfl | he'
      · split
        · exact h e List.mem_cons_self
        · exact .parens (h e List.mem_cons_self)
      · exact isPlain_writtenGrouped (fun f hf => h f (List.mem_cons_of_mem _ hf)) e' he'

/-- **What is written is an expression without nodes.** -/
theorem isPlain_written {e : Expr} (h : e.IsTest) : (e.written inlined).IsPlain := by
  induction h with
  | token h => exact .token h
  | parens _ ih => exact .parens ih
  | unary _ ih => exact .unary ih
  | binary _ _ ihl ihr => exact .binary ihl ihr
  | equality _ _ ihl ihr => exact .equality ihl ihr
  | ternary _ _ _ iht ihy ihn => exact .ternary iht ihy ihn
  | access _ _ ihb ihk => exact .access ihb (isPlain_writtenAll ihk)
  | call hname _ iha => exact .call hname (isPlain_writtenAll iha)
  | testCall hname _ ih =>
      cases inlined with
      | true => exact isPlain_conjoined (isPlain_writtenGrouped ih)
      | false =>
          refine .call hname fun a ha => ?_
          rw [List.mem_singleton.mp ha]
          exact .token (.inl (by decide +kernel))

/-! ## §4. Values. -/

theorem value_grouped (I : Interpretation) (e : Expr) : e.grouped.value I = e.value I := by
  unfold grouped
  split
  · rfl
  · rw [Expr.value]

/-- A conjunction holds if all its parts do. -/
theorem value_conjoined {I : Interpretation} {es : List Expr}
    (htrue : es = [] → I.token "true" = .truth true) :
    (conjoined es).value I = .all (values I es) := by
  cases es with
  | nil =>
      rw [conjoined, value_grouped, Expr.value, htrue rfl]
      rfl
  | cons e rest =>
      have hfold : ∀ (l : List Expr) (acc : Expr),
          (l.foldl both acc).value I = (values I l).foldl BinaryOp.and.apply (acc.value I) := by
        intro l
        induction l with
        | nil => intro acc; rfl
        | cons e l ih =>
            intro acc
            rw [List.foldl_cons, ih, both, Expr.value, values, List.foldl_cons]
      rw [conjoined, value_grouped, hfold]
      rfl

/-- What is asked of an interpretation so that what is written has the value of what was built.
Written out, a predicate without tests leaves the literal `true`, which has to mean truth.  As a
call on `definition`, a predicate has to have the value that its tests have together, in which
further calls are calls again. -/
def Suits (inlined : Bool) (I : Interpretation) (callees : List (String × List Expr)) : Prop :=
  ∀ p ∈ callees,
    if inlined then p.2 = [] → I.token "true" = .truth true
    else I.call p.1 [I.token "definition"] = .all (values I (writtenAll false p.2))

variable {I : Interpretation}

theorem Suits.left {ps qs : List (String × List Expr)} (h : Suits inlined I (ps ++ qs)) :
    Suits inlined I ps := fun p hp => h p (List.mem_append_left _ hp)

theorem Suits.right {ps qs : List (String × List Expr)} (h : Suits inlined I (ps ++ qs)) :
    Suits inlined I qs := fun p hp => h p (List.mem_append_right _ hp)

theorem Suits.tests {p : String × List Expr} {ps : List (String × List Expr)}
    (h : Suits inlined I (p :: ps)) : Suits inlined I ps :=
  fun q hq => h q (List.mem_cons_of_mem _ hq)

mutual

/-- **What is written has the value of what was built**, in which every call of a test predicate
means the conjunction of its tests. -/
theorem value_written :
    ∀ e : Expr, Suits inlined I e.callees → (e.written inlined).value I = e.value I
  | .token _, _ => rfl
  | .parens inner, h => value_written inner h
  | .unary op operand, h => by
      rw [written, Expr.value, Expr.value, value_written operand h]
  | .binary lhs op rhs, h => by
      rw [written, Expr.value, Expr.value, value_written lhs h.left, value_written rhs h.right]
  | .equality lhs op rhs, h => by
      rw [written, Expr.value, Expr.value, value_written lhs h.left, value_written rhs h.right]
  | .ternary test ifTrue ifFalse, h => by
      rw [written, Expr.value, Expr.value, value_written test h.left.left,
        value_written ifTrue h.left.right, value_written ifFalse h.right]
  | .access base keys, h => by
      rw [written, Expr.value, Expr.value, value_written base h.left,
        values_writtenAll keys h.right]
  | .call name args multiline, h => by
      rw [written, Expr.value, Expr.value, values_writtenAll args h]
  | .node n, h => by
      rw [written, Expr.value]
      exact value_nodeWritten n h

theorem value_nodeWritten :
    ∀ n : Node, Suits inlined I (nodeCallees n) → (n.written inlined).value I = n.value I
  | .testCall name tests, h => by
      have hall := values_writtenAll tests h.tests
      have hgrouped := values_writtenGrouped tests h.tests
      have hcall := h _ List.mem_cons_self
      rw [Node.written, Node.value]
      cases inlined with
      | true =>
          have htrue : writtenGrouped true tests = [] → I.token "true" = .truth true := by
            intro hnone
            cases tests with
            | nil => exact hcall rfl
            | cons e rest => cases hnone
          rw [if_pos rfl, value_conjoined htrue, hgrouped]
      | false =>
          rw [if_neg Bool.false_ne_true] at hcall ⊢
          rw [Expr.value, values, values, Expr.value, hcall, hall]
  | .expr _, _ | .constant .., _ | .declare .., _ | .assign .., _ | .returning _, _
  | .formal _, _ | .block .., _ | .ifChain .., _ | .map _, _ | .function .., _
  | .uiPredicate .., _ | .testPredicate .., _ | .enumeration _, _ | .enumValue _, _
  | .annotations _, _ | .uiParameter .., _ | .group .., _ | .sequence .., _ | .boundSpec _, _
  | .importLine _, _ | .studio .., _ | .feature .., _ | .snippet .., _ => rfl

theorem values_writtenAll :
    ∀ es : List Expr, Suits inlined I (allCallees es) →
      values I (writtenAll inlined es) = values I es
  | [], _ => rfl
  | e :: rest, h => by
      rw [writtenAll, values, values, value_written e h.left, values_writtenAll rest h.right]

theorem values_writtenGrouped :
    ∀ es : List Expr, Suits inlined I (allCallees es) →
      values I (writtenGrouped inlined es) = values I es
  | [], _ => rfl
  | e :: rest, h => by
      have he := value_written e h.left
      rw [writtenGrouped, values, values, values_writtenGrouped rest h.right]
      split
      · rw [he]
      · rw [Expr.value, he]

end

/-! ## §5. Names of calls. -/

theorem callNames_grouped (e : Expr) : e.grouped.callNames inlined = e.callNames inlined := by
  unfold grouped
  split
  · rfl
  · rw [callNames]

theorem callNames_conjoined (es : List Expr) :
    (conjoined es).callNames inlined = allCallNames inlined es := by
  cases es with
  | nil => rfl
  | cons e rest =>
      have hfold : ∀ (l : List Expr) (acc : Expr), (l.foldl both acc).callNames inlined
          = acc.callNames inlined ++ allCallNames inlined l := by
        intro l
        induction l with
        | nil => intro acc; exact (List.append_nil _).symm
        | cons e l ih =>
            intro acc
            rw [List.foldl_cons, ih, both, callNames, allCallNames, List.append_assoc]
      rw [conjoined, callNames_grouped, hfold, allCallNames]

mutual

/-- **The calls that are left are those that the tests write themselves**, and all calls where
none is written out. -/
theorem callNames_written :
    ∀ e : Expr, (e.written inlined).callNames inlined = e.callNames inlined
  | .token _ => rfl
  | .parens inner => callNames_written inner
  | .unary op operand => callNames_written operand
  | .binary lhs op rhs => by
      rw [written, callNames, callNames, callNames_written lhs, callNames_written rhs]
  | .equality lhs op rhs => by
      rw [written, callNames, callNames, callNames_written lhs, callNames_written rhs]
  | .ternary test ifTrue ifFalse => by
      rw [written, callNames, callNames, callNames_written test, callNames_written ifTrue,
        callNames_written ifFalse]
  | .access base keys => by
      rw [written, callNames, callNames, callNames_written base, callNames_writtenAll keys]
  | .call name args multiline => by
      rw [written, callNames, callNames, callNames_writtenAll args]
  | .node n => callNames_nodeWritten n

theorem callNames_nodeWritten :
    ∀ n : Node, (n.written inlined).callNames inlined = nodeCallNames inlined n
  | .testCall name tests => by
      rw [Node.written, nodeCallNames]
      split
      · rw [callNames_conjoined, callNames_writtenGrouped tests]
      · rfl
  | .expr _ | .constant .. | .declare .. | .assign .. | .returning _ | .formal _ | .block ..
  | .ifChain .. | .map _ | .function .. | .uiPredicate .. | .testPredicate .. | .enumeration _
  | .enumValue _ | .annotations _ | .uiParameter .. | .group .. | .sequence .. | .boundSpec _
  | .importLine _ | .studio .. | .feature .. | .snippet .. => rfl

theorem callNames_writtenAll :
    ∀ es : List Expr, allCallNames inlined (writtenAll inlined es) = allCallNames inlined es
  | [] => rfl
  | e :: rest => by
      rw [writtenAll, allCallNames, allCallNames, callNames_written e, callNames_writtenAll rest]

theorem callNames_writtenGrouped :
    ∀ es : List Expr, allCallNames inlined (writtenGrouped inlined es) = allCallNames inlined es
  | [] => rfl
  | e :: rest => by
      have he := callNames_written e
      rw [writtenGrouped, allCallNames, allCallNames, callNames_writtenGrouped rest]
      split
      · rw [he]
      · rw [callNames, he]

end

end Expr

end FeatureStudio
