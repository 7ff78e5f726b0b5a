/-
  FeatureStudio.Proofs.Enumeration.Selection: tests for being one of several values, and for being
  none of them.

  A selection is the disjunction of the tests for its values, each a comparison or the call of a
  companion predicate.  Its negation is written in three ways: as a comparison that is turned round,
  behind `!`, or behind `!` with parentheses.  What counts is the text, which is read back with the
  operators it stands beside.

  Main statements:
    * `select_eq_error_iff`: the first unknown token is the one that is reported.
    * `isTest_call`, `value_call`: the test for a value, and when it holds.
    * `value_disjunction`: a disjunction holds if the field holds one of the values.
    * `IsTestFor.tells_put`: a test tells its value wherever it stands.
    * `tells_any`: what selections are refused for, and what they say wherever they stand.
-/
import FeatureStudio.Proofs.Enumeration.Steps
import FeatureStudio.Proofs.Expression.Inlining

namespace FeatureStudio

open Build Reading

/-! ## §1. Choosing values. -/

namespace Enumeration

variable {e : Enumeration} {tokens : List String}

/-- The enumeration has a value with the token, in any case. -/
def Has (e : Enumeration) (token : String) : Prop := ∃ m ∈ e.members, m.token = Text.upper token

/-- Why no test is made: a token is unknown, of which the first one is reported, or there is none.
-/
inductive Refuses (e : Enumeration) : List String → UsageError → Prop where
  | unknown {before after : List String} {token : String} (hbefore : ∀ t ∈ before, e.Has t)
      (htoken : ¬ e.Has token) :
      Refuses e (before ++ token :: after) (.unknownValue e.name token)
  | empty : Refuses e [] (.emptySelection e.name)

theorem get?_eq_none_iff (token : String) : e.get? token = none ↔ ¬ e.Has token := by
  rw [get?, List.find?_eq_none]
  simp [Has]

theorem of_get?_eq_some {token : String} {m : EnumMember} (h : e.get? token = some m) :
    m ∈ e.members ∧ m.token = Text.upper token :=
  ⟨List.mem_of_find?_eq_some h, by simpa using List.find?_some h⟩

/-- The value with a token, or what is said if there is none. -/
def chosen (e : Enumeration) (token : String) : Except UsageError EnumMember :=
  match e.get? token with
  | some m => .ok m
  | none => .error (.unknownValue e.name token)

theorem chosen_eq_error_iff {token : String} {error : UsageError} :
    e.chosen token = .error error ↔ ¬ e.Has token ∧ error = .unknownValue e.name token := by
  unfold chosen
  rw [← get?_eq_none_iff]
  cases e.get? token <;> simp [eq_comm]

theorem has_iff_chosen (token : String) : e.Has token ↔ ∃ m, e.chosen token = .ok m := by
  rw [← not_iff_not, ← get?_eq_none_iff]
  unfold chosen
  cases e.get? token <;> simp

theorem of_chosen_eq_ok {token : String} {m : EnumMember} (h : e.chosen token = .ok m) :
    m ∈ e.members ∧ m.token = Text.upper token := by
  unfold chosen at h
  cases hget : e.get? token with
  | none =>
      rw [hget] at h
      cases h
  | some found =>
      rw [hget] at h
      cases h
      exact of_get?_eq_some hget

/-- Values are chosen one by one. -/
theorem select_eq_mapM : ∀ tokens : List String, e.select tokens = tokens.mapM e.chosen
  | [] => rfl
  | token :: rest => by
      rw [List.mapM_cons, ← select_eq_mapM rest, select, chosen]
      cases e.get? token with
      | none => rfl
      | some m => cases e.select rest <;> rfl

/-- **The first unknown token is the one that is reported.** -/
theorem select_eq_error_iff {error : UsageError} :
    e.select tokens = .error error ↔
      ∃ before token after, tokens = before ++ token :: after ∧ (∀ t ∈ before, e.Has t) ∧
        ¬ e.Has token ∧ error = .unknownValue e.name token := by
  rw [select_eq_mapM, mapM_eq_error_iff]
  simp only [chosen_eq_error_iff, ← has_iff_chosen]
  constructor
  · rintro ⟨before, token, after, rfl, ⟨htoken, herror⟩, hbefore⟩
    exact ⟨before, token, after, rfl, hbefore, htoken, herror⟩
  · rintro ⟨before, token, after, rfl, hbefore, htoken, herror⟩
    exact ⟨before, token, after, rfl, ⟨htoken, herror⟩, hbefore⟩

/-- Known tokens choose their values. -/
theorem exists_select (h : ∀ t ∈ tokens, e.Has t) :
    ∃ ms, e.select tokens = .ok ms ∧
      List.Forall₂ (fun t m => m ∈ e.members ∧ m.token = Text.upper t) tokens ms := by
  obtain ⟨ms, hms⟩ := mapM_ok (f := e.chosen) tokens fun t ht => (has_iff_chosen t).mp (h t ht)
  refine ⟨ms, by rw [select_eq_mapM, hms], ?_⟩
  exact ((mapM_eq_ok_iff tokens ms).mp hms).imp fun _ _ => of_chosen_eq_ok

/-- The disjunction of the tests for values. -/
def disjunction (m : EnumMember) (rest : List EnumMember) : Expr :=
  rest.foldl (fun acc m => acc.either m.call) m.call

/-- **What a selection is refused for.** -/
theorem any_eq_error_iff {parens : Bool} {error : UsageError} :
    e.any tokens parens = .error error ↔ e.Refuses tokens error := by
  unfold any
  -- by what is selected: an unknown token, none at all, or some values
  cases hselect : e.select tokens with
  | error error' =>
      obtain ⟨before, token, after, rfl, hbefore, htoken, rfl⟩ := select_eq_error_iff.mp hselect
      constructor
      · intro h
        cases h
        exact .unknown hbefore htoken
      · intro h
        -- an error that is allowed is the one of the selection
        generalize htokens : before ++ token :: after = tokens at h
        cases h with
        | empty => simp at htokens
        | unknown hbefore' htoken' =>
            have h' := select_eq_error_iff.mpr ⟨_, _, _, htokens, hbefore', htoken', rfl⟩
            cases hselect.symm.trans h'
            rfl
  | ok ms =>
      have hknown : ∀ error', e.select tokens ≠ .error error' := fun error' h => by
        rw [hselect] at h
        cases h
      cases ms with
      | nil =>
          have hempty : tokens = [] := by
            rw [select_eq_mapM, mapM_eq_ok_iff, List.forall₂_nil_right_iff] at hselect
            exact hselect
          subst hempty
          constructor
          · intro h
            cases h
            exact .empty
          · intro h
            generalize htokens : ([] : List String) = tokens at h
            cases h with
            | empty => rfl
            | unknown => simp at htokens
      | cons m rest =>
          refine iff_of_false (fun h => by cases h) fun h => ?_
          cases h with
          | empty =>
              cases hselect
          | unknown hbefore htoken =>
              exact hknown _ (select_eq_error_iff.mpr ⟨_, _, _, rfl, hbefore, htoken, rfl⟩)

/-- A negation is refused for what a selection is refused for. -/
theorem notAny_eq_error_iff {error : UsageError} :
    e.notAny tokens = .error error ↔ e.Refuses tokens error := by
  rw [notAny, map_eq_error_iff, any_eq_error_iff]

/-- A selection that is not refused is made of the values for its tokens. -/
theorem exists_any (hne : tokens ≠ []) (h : ∀ t ∈ tokens, e.Has t) :
    ∃ m rest, List.Forall₂ (fun t m => m ∈ e.members ∧ m.token = Text.upper t) tokens (m :: rest) ∧
      ∀ parens, e.any tokens parens
        = .ok (if parens then (disjunction m rest).grouped else disjunction m rest) := by
  obtain ⟨ms, hselect, hms⟩ := exists_select h
  cases ms with
  | nil => exact absurd (List.forall₂_nil_right_iff.mp hms) hne
  | cons m rest =>
      refine ⟨m, rest, hms, fun parens => ?_⟩
      rw [any, hselect]
      rfl

end Enumeration

/-! ## §2. Tests for values. -/

/-- The enumeration, its values and its companion predicates have identifiers for their names. -/
structure Enumeration.HasIdentifiers (e : Enumeration) : Prop where
  name : Text.isIdentifier e.name
  parameterName : Text.isIdentifier e.parameterName
  tokens : ∀ m ∈ e.members, Text.isIdentifier m.token
  companions : ∀ p ∈ e.predicates, Text.isIdentifier p.name

/-- As a call on `definition`, a companion predicate means that its test holds. -/
def Interpretation.MeansCompanions (I : Interpretation) (e : Enumeration) : Prop :=
  ∀ p ∈ e.predicates, I.call p.name [I.token "definition"] = .all (Expr.values I p.tests)

namespace EnumValue

/-- The test for a value is a comparison, or the call of a predicate with this comparison. -/
theorem call_cases (v : EnumValue) :
    v.call = v.test v.parameterName ∨
      ∃ p, v.predicate? = some p ∧ p.tests = [v.test v.parameterName] ∧ v.call = p.call := by
  unfold call predicate?
  cases v.companion with
  | none => exact .inl rfl
  | some name => exact .inr ⟨_, rfl, rfl, rfl⟩

theorem isTest_test {v : EnumValue} {parameter : String} (hparameter : Text.isIdentifier parameter)
    (hname : Text.isIdentifier v.enumName) (htoken : Text.isIdentifier v.token) :
    (v.test parameter).IsTest := by
  have hfield : IsPath ("definition." ++ parameter) := by
    have hdefinition : Text.isIdentifier "definition" := by decide
    have hdot : "definition" ++ "." = "definition." := by decide
    rw [← hdot]
    exact .dotted hdefinition (isPath_of_isIdentifier hparameter)
  have hvalue : IsPath v.qualified := .dotted hname (isPath_of_isIdentifier htoken)
  exact .equality (.token (.inl hfield)) (.token (.inl hvalue))

/-- **The test for a value holds if the field holds the value**, be it a comparison or a call. -/
theorem value_call (v : EnumValue) (I : Interpretation) :
    v.call.value I
      = .truth (I.token ("definition." ++ v.parameterName) = I.token v.qualified) := by
  rcases v.call_cases with hcall | ⟨p, -, htests, hcall⟩
  · rw [hcall]
    rfl
  · have hvalue : p.call.value I = .all (Expr.values I p.tests) := by
      rw [TestPredicate.call, Expr.value, Node.value]
    rw [hcall, hvalue, htests]
    rfl

end EnumValue

namespace Enumeration

variable {e : Enumeration}

/-- A value that is built has the names of its enumeration. -/
structure Belongs (e : Enumeration) (m : EnumMember) : Prop where
  member : m ∈ e.members
  enumName : m.enumName = e.name
  parameterName : m.parameterName = e.parameterName

theorem belongs_of_construct {name : String} {steps : List EnumBuilder.Step}
    (h : EnumBuilder.construct name steps = .ok e) {m : EnumMember} (hm : m ∈ e.members) :
    e.Belongs m := by
  have hbuilt := EnumBuilder.isBuilt_of_construct h
  obtain ⟨options, hmember⟩ := hbuilt.members m hm
  exact ⟨hm, hmember.enumName.trans hbuilt.enumName.symm,
    hmember.parameterName.trans hbuilt.parameterName.symm⟩

theorem Belongs.predicate {m : EnumMember} (h : e.Belongs m) {p : TestPredicate}
    (hp : m.predicate? = some p) : p ∈ e.predicates :=
  List.mem_filterMap.mpr ⟨m.toEnumValue, List.mem_map_of_mem h.member, hp⟩

theorem Belongs.isTest_call (h : e.HasIdentifiers) {m : EnumMember} (hm : e.Belongs m) :
    m.call.IsTest := by
  have htest : (m.test m.parameterName).IsTest :=
    EnumValue.isTest_test (hm.parameterName ▸ h.parameterName) (hm.enumName ▸ h.name)
      (h.tokens m hm.member)
  rcases m.call_cases with hcall | ⟨p, hp, htests, hcall⟩
  · rw [hcall]
    exact htest
  · have hname := isPath_of_isIdentifier (h.companions p (hm.predicate hp))
    rw [hcall]
    refine .testCall hname fun t ht => ?_
    rw [htests, List.mem_singleton] at ht
    rw [ht]
    exact htest

/-- What is asked of calls of companion predicates is that they mean their tests. -/
theorem Belongs.suits_call {m : EnumMember} (hm : e.Belongs m) {I : Interpretation}
    {inlined : Bool} (hI : inlined = false → I.MeansCompanions e) :
    Expr.Suits inlined I m.call.callees := by
  rcases m.call_cases with hcall | ⟨p, hp, htests, hcall⟩
  · rw [hcall]
    exact fun q hq => absurd hq List.not_mem_nil
  · have hcallees : m.call.callees = [(p.name, p.tests)] := by
      rw [hcall, TestPredicate.call, Expr.callees, Expr.nodeCallees, htests]
      rfl
    rw [hcallees]
    intro q hq
    rw [List.mem_singleton.mp hq]
    cases inlined with
    | true =>
        intro hnone
        rw [htests] at hnone
        cases hnone
    | false =>
        have hmeans := hI rfl p (hm.predicate hp)
        rw [htests] at hmeans ⊢
        exact hmeans

/-! ## §3. Disjunctions. -/

/-- The field of the enumeration holds one of the values with the given tokens. -/
def Holds (e : Enumeration) (I : Interpretation) (tokens : List String) : Prop :=
  ∃ t ∈ tokens, I.token ("definition." ++ e.parameterName)
    = I.token (e.name ++ "." ++ Text.upper t)

instance (e : Enumeration) (I : Interpretation) (tokens : List String) :
    Decidable (e.Holds I tokens) := List.decidableBEx _ _

/-- A disjunction goes on with one test after the other. -/
theorem foldl_either {P : Expr → Prop} (heither : ∀ {l r : Expr}, P l → P r → P (l.either r)) :
    ∀ {ms : List EnumMember}, (∀ m ∈ ms, P m.call) → ∀ {acc : Expr}, P acc →
      P (ms.foldl (fun acc m => acc.either m.call) acc)
  | [], _, _, hacc => hacc
  | m :: _, h, _, hacc =>
    foldl_either heither (fun m' hm' => h m' (List.mem_cons_of_mem _ hm'))
      (heither hacc (h m List.mem_cons_self))

/-- What holds of all tests for values, and of a disjunction of two, holds of every disjunction. -/
theorem disjunction_induction {P : Expr → Prop}
    (heither : ∀ {l r : Expr}, P l → P r → P (l.either r)) {m : EnumMember}
    {rest : List EnumMember} (h : ∀ m' ∈ m :: rest, P m'.call) : P (disjunction m rest) :=
  foldl_either heither (fun m' hm' => h m' (List.mem_cons_of_mem _ hm'))
    (h m List.mem_cons_self)

theorem value_foldl_either {I : Interpretation} {holds : EnumMember → Bool} :
    ∀ {ms : List EnumMember}, (∀ m ∈ ms, m.call.value I = .truth (holds m)) →
      ∀ {acc : Expr} {b : Bool}, acc.value I = .truth b →
        (ms.foldl (fun acc m => acc.either m.call) acc).value I = .truth (b || ms.any holds)
  | [], _, acc, b, hacc => by simpa using hacc
  | m :: ms, h, acc, b, hacc => by
      have heither : (acc.either m.call).value I = .truth (b || holds m) := by
        rw [Expr.either, Expr.value, hacc, h m List.mem_cons_self]
        cases b <;> rfl
      have hrest := value_foldl_either (fun m' hm' => h m' (List.mem_cons_of_mem _ hm')) heither
      rw [List.foldl_cons, hrest, List.any_cons, Bool.or_assoc]

/-- **A disjunction holds if the field holds one of the values.** -/
theorem value_disjunction {tokens : List String} {m : EnumMember} {rest : List EnumMember}
    (h : List.Forall₂ (fun t m => e.Belongs m ∧ m.token = Text.upper t) tokens (m :: rest))
    (I : Interpretation) : (disjunction m rest).value I = .truth (e.Holds I tokens) := by
  let holds : EnumMember → Bool := fun m =>
    decide (I.token ("definition." ++ m.parameterName) = I.token m.qualified)
  have hvalue : ∀ m' ∈ rest, m'.call.value I = .truth (holds m') := fun m' _ => m'.value_call I
  have hholds : (m :: rest).any holds = decide (e.Holds I tokens) := by
    rw [Bool.eq_iff_iff, List.any_eq_true, decide_eq_true_eq]
    constructor
    · rintro ⟨m', hm', hheld⟩
      obtain ⟨t, ht, hbelongs, htoken⟩ := exists_of_mem_right h hm'
      refine ⟨t, ht, ?_⟩
      have hfield := of_decide_eq_true hheld
      rwa [EnumValue.qualified, hbelongs.parameterName, hbelongs.enumName, htoken] at hfield
    · rintro ⟨t, ht, hfield⟩
      obtain ⟨m', hmem, hbelongs, htoken⟩ := exists_mem_zip h ht
      refine ⟨m', (List.of_mem_zip hmem).2, decide_eq_true ?_⟩
      rwa [EnumValue.qualified, hbelongs.parameterName, hbelongs.enumName, htoken]
  rw [disjunction, value_foldl_either hvalue (m.value_call I), ← hholds, List.any_cons]

end Enumeration

/-! ## §4. Negations, and tests beside others. -/

namespace Expr

/-- A negation has the opposite value, whether it is a comparison turned round or behind `!`. -/
theorem value_negated (I : Interpretation) (x : Expr) :
    x.negated.value I = UnaryOp.not.apply (x.value I) := by
  cases x with
  | equality lhs op rhs =>
      rw [negated, Expr.value, Expr.value]
      cases op <;> simp [EqualityOp.invert, EqualityOp.apply, UnaryOp.apply]
  | _ => rfl

theorem callees_negated (x : Expr) : x.negated.callees = x.callees := by
  cases x <;> rfl

theorem callees_grouped (x : Expr) : x.grouped.callees = x.callees := by
  cases x <;> rfl

namespace IsTest

variable {x : Expr}

theorem grouped (h : x.IsTest) : x.grouped.IsTest := by
  unfold Expr.grouped
  split
  · exact h
  · exact .parens h

theorem negated (h : x.IsTest) : x.negated.IsTest := by
  cases h with
  | equality hl hr => exact .equality hl hr
  | token h => exact .unary (.token h)
  | parens h => exact .unary (.parens h)
  | unary h => exact .unary (.unary h)
  | binary hl hr => exact .unary (.binary hl hr)
  | ternary ht hy hn => exact .unary (.ternary ht hy hn)
  | access hb hk => exact .unary (.access hb hk)
  | call hname ha => exact .unary (.call hname ha)
  | testCall hname h => exact .unary (.testCall hname h)

end IsTest

/-- Where a test may stand: alone, behind `!`, or beside an operator and another test. -/
inductive Place where
  | alone
  /-- Behind a `!` that turns a comparison round. -/
  | negated
  /-- Behind a `!` that is written whatever follows. -/
  | prefixed
  | left (op : BinaryOp) (other : Expr)
  | right (op : BinaryOp) (other : Expr)

namespace Place

/-- The expression with `x` at the place. -/
def put (x : Expr) : Place → Expr
  | alone => x
  | negated => x.negated
  | prefixed => .unary .not x
  | left op other => .binary x op other
  | right op other => .binary other op x

/-- The other test beside the place, if there is one. -/
def other? : Place → Option Expr
  | alone | negated | prefixed => none
  | left _ other | right _ other => some other

/-- The value of the expression with a test of value `v` at the place. -/
def value (I : Interpretation) (v : ScriptValue) : Place → ScriptValue
  | alone => v
  | negated | prefixed => UnaryOp.not.apply v
  | left op other => op.apply v (other.value I)
  | right op other => op.apply (other.value I) v

variable {place : Place} {x : Expr}

theorem isTest_put (hother : ∀ o ∈ place.other?, o.IsTest) (h : x.IsTest) :
    (place.put x).IsTest := by
  cases place with
  | alone => exact h
  | negated => exact h.negated
  | prefixed => exact .unary h
  | left op other => exact .binary h (hother other rfl)
  | right op other => exact .binary (hother other rfl) h

theorem value_put (I : Interpretation) (place : Place) (x : Expr) :
    (place.put x).value I = place.value I (x.value I) := by
  cases place with
  | negated => exact x.value_negated I
  | alone => rfl
  | prefixed => rw [put, Expr.value, value]
  | left op other => rw [put, Expr.value, value]
  | right op other => rw [put, Expr.value, value]

theorem suits_put {I : Interpretation} {inlined : Bool}
    (hother : ∀ o ∈ place.other?, Suits inlined I o.callees) (h : Suits inlined I x.callees) :
    Suits inlined I (place.put x).callees := by
  have happend : ∀ {ps qs : List (String × List Expr)}, Suits inlined I ps → Suits inlined I qs →
      Suits inlined I (ps ++ qs) := fun hps hqs p hp =>
    (List.mem_append.mp hp).elim (hps p) (hqs p)
  cases place with
  | alone => exact h
  | negated =>
      rw [put, callees_negated]
      exact h
  | prefixed => exact h
  | left op other => exact happend h (hother other rfl)
  | right op other => exact happend (hother other rfl) h

end Place

/-- Rendered in the context, the expression has one reading, and it has the value that is told
under every interpretation that is admitted. -/
def Tells (x : Expr) (c : Context) (admits : Interpretation → Prop)
    (value : Interpretation → ScriptValue) : Prop :=
  ∃ text t, runIn .expression (Node.expr x).build c = (text, c) ∧ Reads text t ∧
    (∀ t', Reads text t' → t' = t) ∧ ∀ I, admits I → t.value I = value I

/-- A test tells its value, if its calls mean what they are written out as. -/
theorem IsTest.tells {x : Expr} (h : x.IsTest) {c : Context} {admits : Interpretation → Prop}
    (hadmits : ∀ I, admits I → Suits c.state.inTest I x.callees) :
    x.Tells c admits fun I => x.value I := by
  obtain ⟨f, hf, hrender⟩ := h.stated c.state.inTest
  obtain ⟨t, hreads, hunique, -, hvalue⟩ := hf c.indent
  refine ⟨f c.indent, t, ?_, hreads, hunique, fun I hI => hvalue I (hadmits I hI)⟩
  have hstep := hrender (c.save.withState (·.override (.inScope .expression))) rfl
  show run _ (Render.expression x.render) c = _
  rw [run_apply, Gives.expression_apply rfl hstep]
  rfl

end Expr

/-! ## §5. Selections. -/

namespace Enumeration

variable {e : Enumeration}

/-- The interpretations under which a selection of the enumeration is read at a place: where calls
stay calls, those of companion predicates mean their tests, and so do the calls beside the place. -/
def Admits (e : Enumeration) (c : Context) (place : Expr.Place) (I : Interpretation) : Prop :=
  (c.state.inTest = false → I.MeansCompanions e) ∧
    ∀ o ∈ place.other?, Expr.Suits c.state.inTest I o.callees

/-- A test with the given value, in which calls of companion predicates stand for their tests. -/
structure IsTestFor (e : Enumeration) (x : Expr) (holds : Interpretation → Bool) : Prop where
  isTest : x.IsTest
  value : ∀ I, x.value I = .truth (holds I)
  suits : ∀ (inlined : Bool) (I : Interpretation), (inlined = false → I.MeansCompanions e) →
    Expr.Suits inlined I x.callees

namespace IsTestFor

variable {x : Expr} {holds : Interpretation → Bool}

/-- Parentheses change neither what a test is made of nor its value. -/
theorem grouped (h : e.IsTestFor x holds) : e.IsTestFor x.grouped holds where
  isTest := h.isTest.grouped
  value I := (Expr.value_grouped I x).trans (h.value I)
  suits inlined I hI := by
    rw [Expr.callees_grouped]
    exact h.suits inlined I hI

theorem groupedIf (h : e.IsTestFor x holds) (parens : Bool) :
    e.IsTestFor (if parens then x.grouped else x) holds := by
  cases parens with
  | false => exact h
  | true => exact h.grouped

theorem negated (h : e.IsTestFor x holds) : e.IsTestFor x.negated fun I => !holds I where
  isTest := h.isTest.negated
  value I := by
    rw [Expr.value_negated, h.value]
    rfl
  suits inlined I hI := by
    rw [Expr.callees_negated]
    exact h.suits inlined I hI

/-- A test tells its value at every place. -/
theorem tells_put (h : e.IsTestFor x holds) (c : Context) {place : Expr.Place}
    (hplace : ∀ o ∈ place.other?, o.IsTest) :
    (place.put x).Tells c (e.Admits c place) fun I => place.value I (.truth (holds I)) := by
  have htells : (place.put x).Tells c (e.Admits c place) _ :=
    (Expr.Place.isTest_put hplace h.isTest).tells fun I hI =>
      Expr.Place.suits_put hI.2 (h.suits _ I hI.1)
  simpa only [Expr.Place.value_put, h.value] using htells

end IsTestFor

/-- A disjunction tests for its values. -/
theorem isTestFor_disjunction (hnames : e.HasIdentifiers) {tokens : List String} {m : EnumMember}
    {rest : List EnumMember}
    (h : List.Forall₂ (fun t m => e.Belongs m ∧ m.token = Text.upper t) tokens (m :: rest)) :
    e.IsTestFor (disjunction m rest) fun I => e.Holds I tokens := by
  have hchosen : ∀ m' ∈ m :: rest, e.Belongs m' := fun m' hm' => by
    obtain ⟨_, -, hm, -⟩ := exists_of_mem_right h hm'
    exact hm
  exact
    { isTest := disjunction_induction (fun hl hr => .binary hl hr) fun m' hm' =>
        (hchosen m' hm').isTest_call hnames
      value := value_disjunction h
      suits := fun inlined I hI =>
        disjunction_induction (P := fun x => Expr.Suits inlined I x.callees)
          (fun hl hr p hp => (List.mem_append.mp hp).elim (hl p) (hr p)) fun m' hm' =>
            (hchosen m' hm').suits_call hI }

/-- **Selections test membership.**  A selection and its negation are refused alike, for the first
token that is unknown or because there is none.  Else, in every context and wherever they stand, the
text of the one says that the field holds one of the values, and the text of the other that it holds
none of them. -/
theorem tells_any {name : String} {steps : List EnumBuilder.Step} {e : Enumeration}
    (h : EnumBuilder.construct name steps = .ok e) (hnames : e.HasIdentifiers)
    (tokens : List String) (parens : Bool) :
    (∀ error, e.any tokens parens = .error error ↔ e.Refuses tokens error) ∧
      (∀ error, e.notAny tokens = .error error ↔ e.Refuses tokens error) ∧
      (tokens ≠ [] → (∀ t ∈ tokens, e.Has t) →
        ∃ x y, e.any tokens parens = .ok x ∧ e.notAny tokens = .ok y ∧
          ∀ (c : Context) (place : Expr.Place), (∀ o ∈ place.other?, o.IsTest) →
            ((place.put x).Tells c (e.Admits c place)
              fun I => place.value I (.truth (e.Holds I tokens))) ∧
            (place.put y).Tells c (e.Admits c place)
              fun I => place.value I (.truth (¬ e.Holds I tokens))) := by
  refine ⟨fun error => any_eq_error_iff, fun error => notAny_eq_error_iff, fun hne hknown => ?_⟩
  obtain ⟨m, rest, hms, hany⟩ := exists_any hne hknown
  have hms : List.Forall₂ (fun t m => e.Belongs m ∧ m.token = Text.upper t) tokens (m :: rest) :=
    hms.imp fun _ m' hm' => ⟨belongs_of_construct h hm'.1, hm'.2⟩
  -- a negation puts parentheses around more than one value, whatever is asked for
  have htest := isTestFor_disjunction hnames hms
  have hnegated := (htest.groupedIf (decide (1 < tokens.length))).negated
  refine ⟨_, _, hany parens, by rw [notAny, hany]; rfl, fun c place hplace => ⟨?_, ?_⟩⟩
  · exact (htest.groupedIf parens).tells_put c hplace
  · simpa using hnegated.tells_put c hplace

/-- The sizes of a tube: one with a companion predicate, and a custom one. -/
def tubeSizes : Enumeration where
  name := "TubeSize"
  parameterName := "tubeSize"
  members :=
    [{ token := "ONE_BY_ONE", enumName := "TubeSize", parameterName := "tubeSize"
       label := "One by one", companion := some "isTubeSizeOneByOne" },
      { token := "CUSTOM", enumName := "TubeSize", parameterName := "tubeSize", label := "Custom" }]

theorem tubeSizes_hasIdentifiers : tubeSizes.HasIdentifiers :=
  ⟨by decide +kernel, by decide +kernel, by decide +kernel, by
    intro p hp
    rw [List.mem_singleton.mp hp]
    decide +kernel⟩

theorem tubeSizes_tells_any :
    EnumBuilder.construct "TubeSize"
        [.value "one_by_one" { predicate := some true }, .custom {}] = .ok tubeSizes ∧
      tubeSizes.HasIdentifiers ∧
      tubeSizes.any ["custom", "none", "one_by_one"] true
        = .error (.unknownValue "TubeSize" "none") ∧
      let place : Expr.Place := .right .and (.token "definition.capped")
      (∃ I, tubeSizes.Admits {} place I) ∧
      ∃ x y, tubeSizes.any ["custom", "one_by_one"] true = .ok x ∧
        tubeSizes.notAny ["custom", "one_by_one"] = .ok y ∧
        (runIn .expression (Node.expr (place.put x)).build {}).1
          = "definition.capped && (definition.tubeSize == TubeSize.CUSTOM || "
            ++ "isTubeSizeOneByOne(definition))" ∧
        (runIn .expression (Node.expr (place.put y)).build {}).1
          = "definition.capped && !(definition.tubeSize == TubeSize.CUSTOM || "
            ++ "isTubeSizeOneByOne(definition))" ∧
        ((place.put x).Tells {} (tubeSizes.Admits {} place)
          fun I => place.value I (.truth (tubeSizes.Holds I ["custom", "one_by_one"]))) ∧
        (place.put y).Tells {} (tubeSizes.Admits {} place)
          fun I => place.value I (.truth (¬ tubeSizes.Holds I ["custom", "one_by_one"])) := by
  have hconstruct : EnumBuilder.construct "TubeSize"
      [.value "one_by_one" { predicate := some true }, .custom {}] = .ok tubeSizes := by rfl
  have hhas : tubeSizes.Has "custom" ∧ tubeSizes.Has "one_by_one" ∧ ¬ tubeSizes.Has "none" := by
    unfold Has
    decide +kernel
  have hplace : ∀ o ∈ (Expr.Place.right .and (.token "definition.capped")).other?, o.IsTest := by
    intro o ho
    cases ho
    exact .token (.inl (by decide +kernel))
  -- the size that is held is the custom one
  let I : Interpretation :=
    { token := fun text =>
        .object (if text = "definition.tubeSize" then "TubeSize.CUSTOM" else text)
      call := fun _ _ => .truth false
      index := fun _ _ => .undefined }
  have hI : tubeSizes.Admits {} (.right .and (.token "definition.capped")) I := by
    refine ⟨fun _ p hp => ?_, fun o ho => ?_⟩
    · rw [List.mem_singleton.mp hp]
      rfl
    · cases ho
      exact fun p hp => absurd hp List.not_mem_nil
  obtain ⟨-, -, htells⟩ :=
    tells_any hconstruct tubeSizes_hasIdentifiers ["custom", "one_by_one"] true
  obtain ⟨hrefused, -, -⟩ :=
    tells_any hconstruct tubeSizes_hasIdentifiers ["custom", "none", "one_by_one"] true
  have hunknown : tubeSizes.Refuses (["custom"] ++ "none" :: ["one_by_one"])
      (.unknownValue "TubeSize" "none") :=
    .unknown (fun t ht => List.mem_singleton.mp ht ▸ hhas.1) hhas.2.2
  have hknown : ∀ t ∈ ["custom", "one_by_one"], tubeSizes.Has t := by
    simpa using And.intro hhas.1 hhas.2.1
  obtain ⟨x, y, hx, hy, htold⟩ := htells (List.cons_ne_nil _ _) hknown
  refine ⟨hconstruct, tubeSizes_hasIdentifiers, (hrefused _).mpr hunknown, ⟨I, hI⟩, x, y, hx, hy,
    ?_, ?_, htold {} _ hplace⟩
  · cases hx
    rfl
  · cases hy
    rfl

end Enumeration

end FeatureStudio
