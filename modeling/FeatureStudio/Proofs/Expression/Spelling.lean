/-
  FeatureStudio.Proofs.Expression.Spelling: the text of operations, and of nodes as operands.

  The text of an operation is put together from the texts of its operands, each of them in
  parentheses if its form binds too loosely.  A node as operand is written as an expression is
  written that can be named without rendering it; what stands for no expression are literals,
  assignments, and values that are declared with a label.

  Main statements:
    * `Expr.textIn_binary`, `Expr.textIn_call`, …: the texts of operations.
    * `Node.textIn_spelled`: a node is written as the expression that it stands for.
    * `MapLiteral.exists_braced`: a literal is a balanced text in braces.
-/
import FeatureStudio.Enumeration.Basic
import FeatureStudio.Proofs.Enumeration.Declaration
import FeatureStudio.Proofs.Render.Literal
import FeatureStudio.Proofs.Render.TreeBalance

namespace FeatureStudio

open Build Render

/-! ## §1. Steps that give a value. -/

/-- The text of an expression as an operand, in parentheses unless its form binds tighter. -/
def Expr.aboveIn (least : Nat) (e : Expr) (c : Context) : String :=
  if least < e.precedence then e.textIn c else "(" ++ e.textIn c ++ ")"

/-- With the settings and the state of the context the step gives the value, and leaves nothing
behind but warnings. -/
def Build.Returns {α : Type} (c : Context) (step : Build α) (a : α) : Prop :=
  ∀ d : Context, d.fresh = c.fresh → ∃ ds, step d = (a, d.reported ds)

namespace Build.Returns

variable {α β : Type} {c : Context} {step : Build α} {a : α}

theorem pure (a : α) : Returns c (Pure.pure a) a := fun d _ =>
  ⟨[], by rw [Context.reported_nil]; rfl⟩

theorem bind {next : α → Build β} {b : β} (h : Returns c step a) (h' : Returns c (next a) b) :
    Returns c (step >>= next) b := by
  intro d hd
  obtain ⟨ds, hstep⟩ := h d hd
  obtain ⟨ds', hnext⟩ := h' (d.reported ds) hd
  refine ⟨ds ++ ds', ?_⟩
  show next (step d).1 (step d).2 = _
  rw [hstep, hnext, Context.reported_reported]

theorem map (h : Returns c step a) (f : α → β) :
    Returns c (step >>= fun a => Pure.pure (f a)) (f a) := h.bind (.pure (f a))

/-- In expression scope an expression is its bare text. -/
theorem expression {render : Rendering} {text : String} (hc : c.state.scope = .expression)
    (h : Returns c render text) : Returns c (Render.expression render) text := by
  intro d hd
  have hscope : d.state.scope = .expression := by
    have hstate : d.state = c.state := congrArg (·.state) hd
    rw [hstate, hc]
  obtain ⟨ds, hrender⟩ := h d hd
  have hbare : Render.expression render d = (render >>= coerced) d := scope_bind hscope
  have hcoerced : coerced text (d.reported ds) = (text, d.reported ds) :=
    scope_bind (c := d.reported ds) hscope
  refine ⟨ds, ?_⟩
  rw [hbare]
  show coerced (render d).1 (render d).2 = _
  rw [hrender, hcoerced]

theorem operand (e : Expr) (c : Context) : Returns c e.operand.text (e.textIn c) := by
  intro d hd
  rw [← e.textIn_congr hd]
  exact e.text_operand d

theorem above (least : Nat) (e : Expr) (c : Context) :
    Returns c (e.operand.above least) (e.aboveIn least c) := (operand e c).map _

theorem texts (c : Context) (es : List Expr) :
    Returns c (Operand.texts (operands es)) (es.map (·.textIn c)) := by
  induction es with
  | nil => exact .pure []
  | cons e es ih => exact (operand e c).bind (ih.map _)

/-- What a node gives, it gives whatever was rendered before. -/
theorem run (n : Node) (o : Overrides) (c : Context) :
    Returns c (Build.run o n.build) (Build.run o n.build c).1 := by
  intro d hd
  refine ⟨(n.rendered o d.fresh).2, ?_⟩
  rw [n.run_eq_fresh o d, n.run_eq_fresh o c, hd]

/-- In the place of an operand a step is run in expression scope. -/
theorem inExpression (h : Returns c.inAnnotation step a) :
    Returns c (runIn .expression step) a := by
  intro d hd
  have hinner : (d.save.withState (·.override (.inScope .expression))).fresh
      = c.inAnnotation.fresh :=
    congrArg (fun e : Context => e.withState (·.override (.inScope .expression))) hd
  obtain ⟨ds, hstep⟩ := h _ hinner
  refine ⟨ds, ?_⟩
  rw [runIn, run_apply, hstep]
  rfl

end Build.Returns

/-! ## §2. The texts of operations. -/

namespace Expr

variable {c : Context}

/-- The operands of an operand are rendered in the same state. -/
theorem textIn_inAnnotation (e : Expr) (c : Context) : e.textIn c.inAnnotation = e.textIn c :=
  (Node.expr e).text_run_congr rfl rfl rfl rfl

theorem aboveIn_inAnnotation (least : Nat) (e : Expr) (c : Context) :
    e.aboveIn least c.inAnnotation = e.aboveIn least c := by
  unfold aboveIn
  rw [e.textIn_inAnnotation c]

theorem textIn_of_returns {e : Expr} {text : String} (h : Returns c.inAnnotation e.render text) :
    e.textIn c = text := by
  obtain ⟨ds, hrender⟩ := (h.expression rfl).inExpression c rfl
  exact congrArg Prod.fst hrender

theorem textIn_parens (inner : Expr) (c : Context) :
    (Expr.parens inner).textIn c = "(" ++ inner.textIn c ++ ")" := by
  rw [← inner.textIn_inAnnotation c]
  exact textIn_of_returns ((Returns.operand inner _).map _)

theorem textIn_unary (op : UnaryOp) (operand : Expr) (c : Context) :
    (Expr.unary op operand).textIn c
      = op.text ++
        (let text := operand.aboveIn (Precedence.unary - 1) c
        if op = .neg && text.toList.head? == some '-' then "(" ++ text ++ ")" else text) := by
  rw [← operand.aboveIn_inAnnotation _ c]
  exact textIn_of_returns ((Returns.above _ operand _).map _)

theorem textIn_binary (lhs : Expr) (op : BinaryOp) (rhs : Expr) (c : Context) :
    (Expr.binary lhs op rhs).textIn c
      = lhs.aboveIn (op.precedence - 1) c ++ " " ++ op.text ++ " "
        ++ rhs.aboveIn (Operand.rightLeast op rhs.shape) c := by
  rw [← lhs.aboveIn_inAnnotation _ c, ← rhs.aboveIn_inAnnotation _ c]
  exact textIn_of_returns ((Returns.above _ lhs _).bind ((Returns.above _ rhs _).map _))

theorem textIn_equality (lhs : Expr) (op : EqualityOp) (rhs : Expr) (c : Context) :
    (Expr.equality lhs op rhs).textIn c
      = lhs.aboveIn (Precedence.equality - 1) c ++ " " ++ op.text ++ " "
        ++ rhs.aboveIn Precedence.equality c := by
  rw [← lhs.aboveIn_inAnnotation _ c, ← rhs.aboveIn_inAnnotation _ c]
  exact textIn_of_returns ((Returns.above _ lhs _).bind ((Returns.above _ rhs _).map _))

theorem textIn_ternary (test yes no : Expr) (c : Context) :
    (Expr.ternary test yes no).textIn c
      = test.aboveIn Precedence.ternary c ++ " ? " ++ yes.textIn c ++ " : " ++ no.textIn c := by
  rw [← test.aboveIn_inAnnotation _ c, ← yes.textIn_inAnnotation c, ← no.textIn_inAnnotation c]
  exact textIn_of_returns ((Returns.above _ test _).bind
    ((Returns.operand yes _).bind ((Returns.operand no _).map _)))

theorem map_textIn_inAnnotation (es : List Expr) (c : Context) :
    es.map (·.textIn c.inAnnotation) = es.map (·.textIn c) :=
  List.map_congr_left fun e _ => e.textIn_inAnnotation c

theorem textIn_access (base : Expr) (keys : List Expr) (c : Context) :
    (Expr.access base keys).textIn c
      = base.aboveIn Precedence.unary c
        ++ String.join ((keys.map (·.textIn c)).map fun key => "[" ++ key ++ "]") := by
  rw [← base.aboveIn_inAnnotation _ c, ← map_textIn_inAnnotation keys c]
  exact textIn_of_returns ((Returns.above _ base _).bind ((Returns.texts _ keys).map _))

/-- A call with all of its arguments on one line. -/
theorem textIn_call (name : String) (args : List Expr) (c : Context) :
    (Expr.call name args false).textIn c
      = name ++ "(" ++ ", ".intercalate (args.map (·.textIn c)) ++ ")" := by
  rw [← map_textIn_inAnnotation args c]
  exact textIn_of_returns ((Returns.texts _ args).bind (.pure _))

/-- A wrapped node is written as it is rendered in the place of an operand. -/
theorem textIn_node (n : Node) (c : Context) :
    (Expr.node n).textIn c = (runIn .expression n.build c).1 := by
  have hinner : (runIn .expression n.build c.inAnnotation).1 = (runIn .expression n.build c).1 :=
    n.text_run_congr rfl rfl rfl rfl
  rw [← hinner]
  exact textIn_of_returns (Returns.run n (.inScope .expression) c.inAnnotation)

end Expr

/-! ## §3. Nodes as operands. -/

/-- The expression that a value stands for: the test for it, and its token where it is declared
without a label. -/
def EnumValue.spelled (s : State) (v : EnumValue) : Option Expr :=
  if s.inEnum then if v.labelled then none else some (.token v.token) else some v.call

/-- The expression that a node stands for as an operand: the name of what it declares, a call, a
field or a test. -/
def Node.spelled (s : State) : Node → Option Expr
  | .expr e => some e
  | .constant name .. => some (.token name)
  | .boundSpec spec => some (.token spec.name)
  | .function header arguments _ => some (.call header.name arguments false)
  | .uiPredicate name _ => some (uiPredicateCall name)
  | .testPredicate name .. => some (.call name [.token "definition"] false)
  | .testCall name tests => some (.node (.testCall name tests))
  | .enumeration d => some (.definition d.parameterName)
  | .enumValue v => v.spelled s
  | _ => none

/-- A call in the caller's scope, which is that of an operand. -/
theorem Render.text_callHere (name : String) (args : List Expr) (c : Context) :
    (runIn .expression (callHere name (operands args)) c).1
      = (Expr.call name args false).textIn c := by
  have hinner : (run {} (Node.expr (.call name args false)).build
      (c.save.withState (·.override (.inScope .expression)))).1
        = (Expr.call name args false).textIn c :=
    (Node.expr (.call name args false)).text_run_congr rfl rfl rfl rfl
  exact hinner

/-- The test for a value, by a call or by a comparison. -/
theorem Render.enumCall_eq (v : EnumValue) : enumCall v = v.call.operand := by
  unfold enumCall EnumValue.call EnumValue.predicate?
  cases v.companion <;> rfl

/-- A value where no enumeration is declared is the test for it. -/
theorem Render.text_enumValue {v : EnumValue} {c : Context} (hc : c.state.inEnum = false) :
    (runIn .expression (enumValue v) c).1 = v.call.textIn c := by
  let inner := c.save.withState (·.override (.inScope .expression))
  have hbuild : enumValue v inner = (enumCall v).text inner := by
    show (if c.state.inEnum then _ else _ : Rendering) inner = _
    rw [hc]
    rfl
  calc (runIn .expression (enumValue v) c).1
      = (enumValue v inner).1 := rfl
    _ = v.call.textIn inner := by rw [hbuild, enumCall_eq]; rfl
    _ = v.call.textIn c.inAnnotation := v.call.textIn_congr rfl
    _ = v.call.textIn c := v.call.textIn_inAnnotation c

/-- A value in the declaration of its enumeration. -/
theorem Render.text_enumValue_declared (v : EnumValue) {c : Context} (hc : c.state.inEnum) :
    (runIn .expression (enumValue v) c).1 = v.declarationText := by
  let inner := c.save.withState (·.override (.inScope .expression))
  have hdeclared : enumValue v inner = (v.declarationText, inner) := v.enumValue_apply hc
  exact congrArg Prod.fst hdeclared

theorem Render.text_of_spelled {v : EnumValue} {e : Expr} {c : Context}
    (h : v.spelled c.state = some e) : (runIn .expression (enumValue v) c).1 = e.textIn c := by
  unfold EnumValue.spelled at h
  cases hc : c.state.inEnum with
  | false =>
      rw [hc] at h
      cases h
      exact text_enumValue hc
  | true =>
      rw [hc, if_pos rfl] at h
      rw [text_enumValue_declared v hc, EnumValue.declarationText]
      split at h
      · cases h
      · next hlabel =>
          cases h
          exact if_neg hlabel

/-- **A node is written as the expression that it stands for**, in every context. -/
theorem Node.textIn_spelled {n : Node} {e : Expr} {c : Context} (h : n.spelled c.state = some e) :
    (Expr.node n).textIn c = e.textIn c := by
  cases n with
  | testCall =>
      cases h
      rfl
  | expr | constant | boundSpec | enumeration =>
      cases h
      exact Expr.textIn_node _ c
  | function header arguments body =>
      cases h
      exact (Expr.textIn_node _ c).trans (text_callHere header.name arguments c)
  | uiPredicate name body =>
      cases h
      exact (Expr.textIn_node _ c).trans (text_callHere _ [.token "definition"] c)
  | testPredicate name exported tests =>
      cases h
      exact (Expr.textIn_node _ c).trans (text_callHere name [.token "definition"] c)
  | enumValue v => exact (Expr.textIn_node _ c).trans (text_of_spelled h)
  | _ => cases h

/-! ## §4. Nodes that stand for no expression. -/

/-- A value that is declared with its label begins with the annotation. -/
theorem Node.textIn_labelled {v : EnumValue} {c : Context} (hc : c.state.inEnum)
    (h : v.labelled) :
    ∃ rest, (Expr.node (.enumValue v)).textIn c = "annotation \x7b" ++ rest := by
  rw [Expr.textIn_node]
  refine ⟨" \"Name\" : " ++ (Text.quote v.label
    ++ ((if v.hidden then ", \"Hidden\" : true \x7d\n" else " \x7d\n") ++ v.token)), ?_⟩
  refine (text_enumValue_declared v hc).trans ?_
  rw [EnumValue.declarationText, if_pos h, ← String.append_assoc, ← String.append_assoc,
    ← String.append_assoc]
  rfl

/-- The target and the value of an assignment, with the sign between them. -/
theorem Node.textIn_assign (target value : Expr) (c : Context) :
    (Expr.node (.assign target value)).textIn c
      = target.textIn c ++ " = " ++ value.textIn c := by
  have hreturns : Returns c.inAnnotation (Node.assign target value).build
      (target.textIn c.inAnnotation ++ " = " ++ value.textIn c.inAnnotation) :=
    .expression rfl ((Returns.operand target _).bind ((Returns.operand value _).map _))
  obtain ⟨ds, htext⟩ := hreturns.inExpression c rfl
  rw [Expr.textIn_node, ← target.textIn_inAnnotation c, ← value.textIn_inAnnotation c]
  exact congrArg Prod.fst htext

/-- The rows of a literal. -/
def MapLiteral.rowsIn (m : MapLiteral) (c : Context) : List String :=
  m.entries.map fun p => m.style.entryText p.1 (p.2.textIn c)

/-- A literal without the type that it is cast to. -/
def MapLiteral.bracedIn (m : MapLiteral) (c : Context) : String :=
  m.style.braced c.indent (m.rowsIn c)

theorem Node.textIn_map (m : MapLiteral) (c : Context) :
    (Expr.node (.map m)).textIn c = m.style.typed (m.bracedIn c) :=
  (Expr.textIn_node _ c).trans (Node.text_map m c)

/-- The text of an expression is balanced if what it writes as it is is. -/
theorem Expr.isBalanced_textIn {e : Expr} {c : Context}
    (h : (Part.expr e).WritesBalanced (c.state.inScope .expression)) :
    Text.IsBalanced (e.textIn c) := by
  let w : World := ⟨c.stdVersion, c.documents, false⟩
  obtain ⟨f, ds, hyields, hf⟩ : Balances w c.state e.operand.text :=
    balances_operand (e.staysBalanced rfl _ (.of_scope_ne_top h Scope.noConfusion))
  have htext : e.textIn c = f c.indent := congrArg Prod.fst (hyields c ⟨rfl, rfl, .refl _⟩)
  rw [htext]
  exact hf c.indent

theorem MapLiteral.isBalanced_rowsIn {m : MapLiteral} {c : Context}
    (h : (Part.literal m).WritesBalanced (c.state.inScope .expression)) :
    ∀ row ∈ m.rowsIn c, Text.IsBalanced row := by
  obtain ⟨style, entries⟩ := m
  intro row hrow
  obtain ⟨p, hp, rfl⟩ := List.mem_map.mp hrow
  -- what is quoted is balanced anyway, the rest has to be so by itself
  refine isBalanced_entryText (fun hkey => h.own _ ?_) fun hvalue => ?_
  · refine List.mem_append_right _ (List.mem_filter.mpr ⟨List.mem_map_of_mem hp, ?_⟩)
    have hquotes : style.quotesKey p.1 = false := hkey
    rw [hquotes]
    rfl
  · have hmem : style.visit (c.state.inScope .expression) p
        ∈ (Part.literal (.mk style entries)).shown (c.state.inScope .expression) :=
      List.mem_map_of_mem (List.mem_filter.mpr ⟨hp, by
        have hquotes : style.quotes p.1 = false := hvalue
        rw [hquotes]
        rfl⟩)
    obtain ⟨levels, hvisit⟩ := style.visit_eq (c.state.inScope .expression) p
    exact Expr.isBalanced_textIn (h.visit (hvisit ▸ hmem))

/-- **A literal is a balanced text in braces**, in any style. -/
theorem MapLiteral.exists_braced {m : MapLiteral} {c : Context}
    (h : (Part.literal m).WritesBalanced (c.state.inScope .expression)) :
    ∃ inner, Text.IsBalanced inner ∧ m.bracedIn c = "\x7b" ++ inner ++ "\x7d" := by
  have hrows := m.isBalanced_rowsIn h
  unfold bracedIn MapStyle.braced
  -- nothing, one line, or a row on each line
  split
  · exact ⟨"", by decide, rfl⟩
  · split
    · refine ⟨" " ++ ", ".intercalate (m.rowsIn c) ++ " ", ?_, ?_⟩
      · exact ((show Text.IsBalanced " " by decide).append
          (.intercalate (fun _ => by decide) hrows)).append (by decide)
      · have hclose : " \x7d" = " " ++ "\x7d" := rfl
        rw [hclose]
        simp only [← String.append_assoc]
        rfl
    · refine ⟨"\n" ++ c.indent.lines (",\n".intercalate (m.rowsIn c) ++ "\n") 1, ?_, ?_⟩
      · refine (show Text.IsBalanced "\n" by decide).append (.lines (.append ?_ (by decide)) _ _)
        exact .intercalate (fun _ => by decide) hrows
      · simp only [← String.append_assoc]
        rfl

end FeatureStudio
