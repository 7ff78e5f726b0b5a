/-
  FeatureStudio.Proofs.Render.Coercion: values as operands and as statements.

  What stands for a value is written bare as an operand and with a semicolon as a statement; at
  file level it is refused, or declared.  Its own operands are always rendered in expression
  scope, so that nothing but the semicolon tells the scope that the value itself stands in.

  A step that does the same in every scope `IgnoresScope`.  Operands do, whatever they are, and so
  does the bare text of an expression; the decoration comes last.

  Main statements:
    * `Node.ignoresScope_runIn`: a node as operand, from whatever scope it is rendered.
    * `Expr.ignoresScope_render`: the bare text of an expression, one case for each form.
    * `Node.coerced_uniformly`: operands, statements and file level, for all kinds of values.
-/
import FeatureStudio.Proofs.Render.Literal

namespace FeatureStudio

open Build Render

/-- The context in another scope. -/
def Context.inScope (c : Context) (scope : Scope) : Context :=
  c.withState (·.override (.inScope scope))

/-! ## §1. Steps that do not see the scope. -/

/-- The contexts differ in the scope at most, and in what was rendered before. -/
structure Context.AlikeButScope (c d : Context) : Prop where
  stdVersion : d.stdVersion = c.stdVersion
  indent : d.indent = c.indent
  documents : d.documents = c.documents
  state : d.state = { c.state with scope := d.state.scope }

namespace Context.AlikeButScope

variable {c d : Context}

theorem inScope (c : Context) (scope : Scope) : c.AlikeButScope (c.inScope scope) :=
  ⟨rfl, rfl, rfl, rfl⟩

/-- Fields other than the scope may be set, if they are set in both contexts. -/
theorem overridden (c : Context) (o : Overrides) (scope scope' : Scope) :
    (c.save.withState (·.override { o with scope := some scope })).AlikeButScope
      (c.save.withState (·.override { o with scope := some scope' })) := ⟨rfl, rfl, rfl, rfl⟩

theorem reported (h : c.AlikeButScope d) (ds : List Diagnostic) :
    c.AlikeButScope (d.reported ds) := ⟨h.stdVersion, h.indent, h.documents, h.state⟩

/-- What is run with the state as it is sees the same. -/
theorem save (h : c.AlikeButScope d) : c.AlikeButScope (d.save.withState (·.override {})) :=
  ⟨h.stdVersion, h.indent, h.documents, h.state⟩

theorem inTest (h : c.AlikeButScope d) : d.state.inTest = c.state.inTest := by rw [h.state]

/-- In the place of an operand the states are the same. -/
theorem state_operand (h : c.AlikeButScope d) :
    d.state.override (.inScope .expression) = c.state.override (.inScope .expression) := by
  rw [h.state]
  rfl

theorem operand (h : c.AlikeButScope d) :
    c.AlikeButScope (d.save.withState (·.override (.inScope .expression))) := by
  refine ⟨h.stdVersion, h.indent, h.documents, ?_⟩
  show d.state.override _ = _
  rw [h.state_operand]
  rfl

end Context.AlikeButScope

/-- The step gives the same value and raises the same warnings in every scope, and changes
nothing. -/
def Build.IgnoresScope {α : Type} (c : Context) (step : Build α) : Prop :=
  ∃ a ds, ∀ d, c.AlikeButScope d → step d = (a, d.reported ds)

namespace Build.IgnoresScope

variable {α β : Type} {c : Context} {step : Build α}

theorem pure (a : α) : IgnoresScope c (Pure.pure a) :=
  ⟨a, [], fun d _ => by rw [Context.reported_nil]; rfl⟩

theorem bind {next : α → Build β} (h : IgnoresScope c step) (h' : ∀ a, IgnoresScope c (next a)) :
    IgnoresScope c (step >>= next) := by
  obtain ⟨a, ds, hstep⟩ := h
  obtain ⟨b, ds', hnext⟩ := h' a
  refine ⟨b, ds ++ ds', fun d hd => ?_⟩
  show next (step d).1 (step d).2 = _
  rw [hstep d hd, hnext _ (hd.reported ds), Context.reported_reported]

theorem map (h : IgnoresScope c step) (f : α → β) :
    IgnoresScope c (step >>= fun a => Pure.pure (f a)) := h.bind fun a => .pure (f a)

theorem indented (text : String) (levels : Nat) :
    IgnoresScope c (Build.indented text levels) := by
  refine ⟨c.indent.lines text levels, [], fun d hd => ?_⟩
  rw [Context.reported_nil, ← hd.indent]
  rfl

/-- A step may depend on whether the body of a test predicate is being rendered. -/
theorem inTest (next : Bool → Build α) (h : ∀ b, IgnoresScope c (next b)) :
    IgnoresScope c (state >>= fun s => next s.inTest) := by
  obtain ⟨a, ds, hnext⟩ := h c.state.inTest
  refine ⟨a, ds, fun d hd => ?_⟩
  show next d.state.inTest d = _
  rw [hd.inTest, hnext d hd]

end Build.IgnoresScope

/-! ## §2. Operands. -/

/-- A node as an operand does the same in every scope that it is rendered from. -/
theorem Node.ignoresScope_runIn (n : Node) (c : Context) :
    IgnoresScope c (runIn .expression n.build) := by
  let s := c.state.override (.inScope .expression)
  let w : World := ⟨c.stdVersion, c.documents, false⟩
  obtain ⟨text, ds, hbuild, -⟩ := n.composes w.writable_free s
    (Part.obeys_free fun t _ _ _ t' ht' => by rw [State.Alike.eq ht'])
  refine ⟨text c.indent, ds, fun d hd => ?_⟩
  have hinner : w.Covers s (d.save.withState (·.override (.inScope .expression))) := by
    refine ⟨hd.stdVersion, hd.documents, ?_⟩
    show State.Alike _ s (d.state.override (.inScope .expression))
    rw [hd.state_operand]
    exact .refl _
  obtain ⟨t, hout⟩ := hbuild _ hinner
  have hout' : n.build (d.save.withState (·.override (.inScope .expression))) = _ := hout
  -- the state that the node leaves is put back, its warnings stay
  rw [runIn, run_apply, hout']
  show (text d.indent, d.reported ds) = _
  rw [hd.indent]

theorem Expr.ignoresScope_text (e : Expr) (c : Context) : IgnoresScope c e.operand.text :=
  (Node.expr e).ignoresScope_runIn c

theorem Expr.ignoresScope_texts (es : List Expr) (c : Context) :
    IgnoresScope c (Operand.texts (operands es)) := by
  induction es with
  | nil => exact .pure []
  | cons e es ih => exact (e.ignoresScope_text c).bind fun _ => ih.map _

namespace Render.Operand

variable {c : Context}

theorem ignoresScope_above (least : Nat) {o : Operand} (h : IgnoresScope c o.text) :
    IgnoresScope c (o.above least) := h.map _

/-- In the place of an operand the bare text is all there is. -/
theorem ignoresScope_text {o : Operand} (h : IgnoresScope c o.render) :
    IgnoresScope c o.text := by
  obtain ⟨text, ds, hrender⟩ := h
  refine ⟨text, ds, fun d hd => ?_⟩
  let inner := d.save.withState (·.override (.inScope .expression))
  have hbare : expression o.render inner = (o.render >>= coerced) inner := scope_bind rfl
  have hcoerced : coerced text (inner.reported ds) = (text, inner.reported ds) := scope_bind rfl
  have hinner : expression o.render inner = (text, inner.reported ds) := by
    rw [hbare]
    show coerced (o.render inner).1 (o.render inner).2 = _
    rw [hrender inner hd.operand, hcoerced]
  show ((expression o.render inner).1, (expression o.render inner).2.restore) = _
  rw [hinner]
  rfl

theorem ignoresScope_parens {o : Operand} (h : IgnoresScope c o.text) :
    IgnoresScope c (parens o).render := h.map _

theorem ignoresScope_binary {l r : Operand} (op : BinaryOp) (hl : IgnoresScope c l.text)
    (hr : IgnoresScope c r.text) : IgnoresScope c (binary l op r).render :=
  (ignoresScope_above _ hl).bind fun _ => (ignoresScope_above _ hr).map _

theorem ignoresScope_call (name : String) {args : List Operand} (multiline : Bool)
    (h : IgnoresScope c (texts args)) : IgnoresScope c (call name args multiline).render := by
  refine h.bind fun texts => ?_
  split
  · exact (IgnoresScope.indented _ _).map _
  · exact .pure _

theorem ignoresScope_grouped {o : Operand} (h : IgnoresScope c o.text) :
    IgnoresScope c o.grouped.text := by
  unfold grouped
  split
  · exact h
  · exact ignoresScope_text (ignoresScope_parens h)

theorem ignoresScope_conjunction {os : List Operand} (h : ∀ o ∈ os, IgnoresScope c o.text) :
    IgnoresScope c (conjunction os).text := by
  cases os with
  | nil => exact ignoresScope_grouped (ignoresScope_text (.pure _))
  | cons o rest =>
      have hfold : ∀ (l : List Operand) (acc : Operand), IgnoresScope c acc.text →
          (∀ o ∈ l, IgnoresScope c o.text) →
          IgnoresScope c (l.foldl (fun acc next => binary acc .and next.grouped) acc).text := by
        intro l
        induction l with
        | nil => intro acc hacc _; exact hacc
        | cons p l ih =>
            intro acc hacc hl
            have hp := ignoresScope_grouped (hl p List.mem_cons_self)
            exact ih _ (ignoresScope_text (ignoresScope_binary .and hacc hp)) fun q hq =>
              hl q (List.mem_cons_of_mem _ hq)
      exact ignoresScope_grouped (hfold rest _ (ignoresScope_grouped (h o List.mem_cons_self))
        fun p hp => h p (List.mem_cons_of_mem _ hp))

end Render.Operand

open Render.Operand

theorem Expr.ignoresScope_operands (es : List Expr) (c : Context) :
    ∀ o ∈ operands es, IgnoresScope c o.text := by
  induction es with
  | nil => exact fun o ho => absurd ho List.not_mem_nil
  | cons e es ih =>
      intro o ho
      cases ho with
      | head => exact e.ignoresScope_text c
      | tail _ ho => exact ih o ho

/-- The bare text of an expression is put together from operands only. -/
theorem Expr.ignoresScope_render (e : Expr) (c : Context) : IgnoresScope c e.render := by
  cases e with
  | token text => exact .pure text
  | parens inner => exact ignoresScope_parens (inner.ignoresScope_text c)
  | unary op operand => exact (ignoresScope_above _ (operand.ignoresScope_text c)).map _
  | binary lhs op rhs =>
      exact ignoresScope_binary op (lhs.ignoresScope_text c) (rhs.ignoresScope_text c)
  | equality lhs op rhs =>
      exact (ignoresScope_above _ (lhs.ignoresScope_text c)).bind fun _ =>
        (ignoresScope_above _ (rhs.ignoresScope_text c)).map _
  | ternary test yes no =>
      exact (ignoresScope_above _ (test.ignoresScope_text c)).bind fun _ =>
        (yes.ignoresScope_text c).bind fun _ => (no.ignoresScope_text c).map _
  | access base keys =>
      exact (ignoresScope_above _ (base.ignoresScope_text c)).bind fun _ =>
        (ignoresScope_texts keys c).map _
  | call name args multiline => exact ignoresScope_call name multiline (ignoresScope_texts args c)
  | node n => exact n.ignoresScope_runIn c

/-! ## §3. Values in their scopes. -/

namespace Render

/-- Written bare in the place of an operand and with a semicolon as a statement, with the same
warnings, whether it is built as it is or run with overrides. -/
structure IsCoerced (value : Rendering) : Prop where
  built : ∀ c : Context,
    value (c.inScope .statement)
      = ((value (c.inScope .expression)).1 ++ ";\n",
        (value (c.inScope .expression)).2.inScope .statement)
  run : ∀ (c : Context) (o : Overrides),
    run { o with scope := some .statement } value c
      = ((Build.run { o with scope := some .expression } value c).1 ++ ";\n",
        (Build.run { o with scope := some .expression } value c).2)

/-- Refused at file level, with the marker and one warning and nothing else. -/
structure IsBarred (value : Rendering) : Prop where
  built : ∀ c : Context,
    value (c.inScope .top)
      = (sentinel "invalid scope",
        (c.inScope .top).reported [⟨.top, scopeViolation expressionScopes .top, none⟩])
  run : ∀ (c : Context) (o : Overrides),
    run { o with scope := some .top } value c
      = (sentinel "invalid scope",
        c.reported [⟨.top, scopeViolation expressionScopes .top, none⟩])

/-- The value gives one bare text in expression scope, and the statement made of it in statement
scope. -/
def Decorates (c : Context) (value : Rendering) : Prop :=
  ∃ text ds, ∀ d, c.AlikeButScope d →
    (d.state.scope = .expression → value d = (text, d.reported ds))
    ∧ (d.state.scope = .statement → value d = (text ++ ";\n", d.reported ds))

theorem decorates_expression {c : Context} {bare : Rendering} (h : IgnoresScope c bare) :
    Decorates c (expression bare) := by
  obtain ⟨text, ds, hbare⟩ := h
  have hbody : ∀ d, c.AlikeButScope d → d.state.scope ≠ .top →
      expression bare d = coerced text (d.reported ds) := by
    intro d hd hscope
    have hentered : expression bare d = (bare >>= coerced) d :=
      (scope_bind rfl).trans (by rw [if_neg hscope])
    rw [hentered]
    show coerced (bare d).1 (bare d).2 = _
    rw [hbare d hd]
  refine ⟨text, ds, fun d hd => ⟨fun hs => ?_, fun hs => ?_⟩⟩
  · rw [hbody d hd (by rw [hs]; decide)]
    exact scope_bind (c := d.reported ds) hs
  · rw [hbody d hd (by rw [hs]; decide)]
    exact scope_bind (c := d.reported ds) hs

/-- A value that is run in the scope of the caller. -/
theorem Decorates.run {c : Context} {value : Rendering} (h : Decorates c value) :
    Decorates c (Build.run {} value) := by
  obtain ⟨text, ds, hvalue⟩ := h
  refine ⟨text, ds, fun d hd => ⟨fun hs => ?_, fun hs => ?_⟩⟩
  · rw [run_apply, (hvalue _ hd.save).1 hs]
    rfl
  · rw [run_apply, (hvalue _ hd.save).2 hs]
    rfl

theorem decorates_callHere (name : String) {args : List Operand} {c : Context}
    (h : IgnoresScope c (texts args)) : Decorates c (callHere name args) :=
  (decorates_expression (ignoresScope_call name false h)).run

theorem ignoresScope_definitionArgument (c : Context) :
    IgnoresScope c (texts definitionArgument) :=
  Expr.ignoresScope_texts [.token "definition"] c

/-- What is a value but for file level, such as a callable, which is declared there. -/
theorem Decorates.ofInner {c : Context} {value callable : Rendering} (h : Decorates c value)
    (hinner : ∀ d, d.state.scope ≠ .top → callable d = value d) : Decorates c callable := by
  obtain ⟨text, ds, hvalue⟩ := h
  refine ⟨text, ds, fun d hd => ⟨fun hs => ?_, fun hs => ?_⟩⟩
  · rw [hinner d (by rw [hs]; decide), (hvalue d hd).1 hs]
  · rw [hinner d (by rw [hs]; decide), (hvalue d hd).2 hs]

theorem isCoerced_of_decorates {value : Rendering} (h : ∀ c, Decorates c value) :
    IsCoerced value where
  built c := by
    obtain ⟨text, ds, hvalue⟩ := h c
    rw [(hvalue _ (.inScope c .expression)).1 rfl, (hvalue _ (.inScope c .statement)).2 rfl]
    rfl
  run c o := by
    let entered (scope : Scope) := c.save.withState (·.override { o with scope := some scope })
    obtain ⟨text, ds, hvalue⟩ := h (entered .expression)
    have hoperand := (hvalue (entered .expression) (.overridden c o _ _)).1 rfl
    have hstatement := (hvalue (entered .statement) (.overridden c o _ _)).2 rfl
    rw [run_apply, run_apply, hoperand, hstatement]
    rfl

/-- Nothing of a value is rendered at file level, whatever its rendering would do. -/
theorem isBarred_expression (bare : Rendering) : IsBarred (expression bare) where
  built _ := scope_bind rfl
  run c o := by
    have hrefused : expression bare (c.save.withState (·.override { o with scope := some .top }))
        = expectedScope expressionScopes _ := scope_bind rfl
    rw [run_apply, hrefused]
    rfl

theorem decorates_testCall (name : String) (tests : List Expr) (c : Context) :
    Decorates c (testCall name (operands tests)) := by
  refine decorates_expression (.inTest (fun inTest => if inTest then _ else _) fun inTest => ?_)
  cases inTest with
  | true => exact ignoresScope_conjunction (Expr.ignoresScope_operands tests c)
  | false => exact ignoresScope_call name false (ignoresScope_definitionArgument c)

end Render

open Render

/-- **Scope coercion is uniform.**  Expressions, calls among them, assignments, functions, both
kinds of predicates and calls of test predicates are written bare as operands, and the same with a
semicolon and a line feed as statements, with the same warnings.  At file level expressions,
assignments and calls of test predicates leave the marker and one warning, whatever their operands
would have done. -/
theorem Node.coerced_uniformly :
    ((∀ e : Expr, IsCoerced (Node.expr e).build)
      ∧ (∀ target value : Expr, IsCoerced (Node.assign target value).build)
      ∧ (∀ (header : FunctionHeader) (arguments : List Expr) (body : List Node),
        IsCoerced (Node.function header arguments body).build)
      ∧ (∀ (name : String) (body : List Node), IsCoerced (Node.uiPredicate name body).build)
      ∧ (∀ (name : String) (exported : Bool) (tests : List Expr),
        IsCoerced (Node.testPredicate name exported tests).build)
      ∧ (∀ (name : String) (tests : List Expr), IsCoerced (Node.testCall name tests).build))
    ∧ ((∀ e : Expr, IsBarred (Node.expr e).build)
      ∧ (∀ target value : Expr, IsBarred (Node.assign target value).build)
      ∧ (∀ (name : String) (tests : List Expr), IsBarred (Node.testCall name tests).build))
    ∧ ((∀ bare : Rendering, IsBarred (expression bare))
      ∧ (∀ target value : Operand, IsBarred (Render.assign target value))
      ∧ (∀ (name : String) (tests : List Operand), IsBarred (Render.testCall name tests))) := by
  -- functions and predicates are declared at file level and called elsewhere, where they are
  -- expressions as the others are
  refine ⟨⟨fun e => ?_, fun target value => ?_, fun header arguments body => ?_,
    fun name body => ?_, fun name exported tests => ?_, fun name tests => ?_⟩, ?_, ?_⟩
  · exact isCoerced_of_decorates fun c => decorates_expression (e.ignoresScope_render c)
  · exact isCoerced_of_decorates fun c => decorates_expression
      ((target.ignoresScope_text c).bind fun _ => (value.ignoresScope_text c).map _)
  · exact isCoerced_of_decorates fun c =>
      (decorates_callHere header.name (Expr.ignoresScope_texts arguments c)).ofInner fun _ hd =>
        (scope_bind rfl).trans (by rw [if_neg hd])
  · exact isCoerced_of_decorates fun c =>
      (decorates_callHere _ (ignoresScope_definitionArgument c)).ofInner fun _ hd =>
        (scope_bind rfl).trans (by rw [if_neg hd])
  · exact isCoerced_of_decorates fun c =>
      (decorates_callHere name (ignoresScope_definitionArgument c)).ofInner fun _ hd =>
        (scope_bind rfl).trans (by rw [if_pos hd])
  · exact isCoerced_of_decorates (decorates_testCall name tests)
  · exact ⟨fun e => isBarred_expression _, fun _ _ => isBarred_expression _,
      fun _ _ => isBarred_expression _⟩
  · exact ⟨isBarred_expression, fun _ _ => isBarred_expression _, fun _ _ => isBarred_expression _⟩

end FeatureStudio
