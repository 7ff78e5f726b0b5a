/-
  FeatureStudio.Proofs.Expression.Meaning: expressions are read back as what they were.

  The text of an expression is followed down to its tokens, whatever the context it is rendered in.
  Only two things are seen of a text on the way: which tokens it gives, and whether it begins with
  the sign that a minus sign must not meet.

  Main statements:
    * `Expr.IsPlain.isWritten`: every form of expression is rendered as its tokens.
    * `Expr.value_of_reads`: the text has one reading, and its value is that of the expression.
-/
import FeatureStudio.Proofs.Expression.Reader
import FeatureStudio.Proofs.Render.Frame
import FeatureStudio.Render.Node

namespace FeatureStudio

open Build Reading
open Render (Operand)

/-! ## §1. What a text begins with. -/

namespace Reading

/-- The text begins with a minus sign exactly if its tokens do, and never with half an operator. -/
def StartsAs (cs : List Char) (ts : List Token) : Prop :=
  ∃ c cs' t ts', cs = c :: cs' ∧ ts = t :: ts' ∧ c ≠ '=' ∧ (c = '-' ↔ t = .minus)

variable {cs : List Char} {ts : List Token}

theorem StartsAs.append (h : StartsAs cs ts) (rest : List Char) (trest : List Token) :
    StartsAs (cs ++ rest) (ts ++ trest) := by
  obtain ⟨c, cs', t, ts', rfl, rfl, heq, hminus⟩ := h
  exact ⟨c, cs' ++ rest, t, ts' ++ trest, rfl, rfl, heq, hminus⟩

theorem StartsAs.ne_nil (h : StartsAs cs ts) : cs ≠ [] := by
  obtain ⟨c, cs', -, -, rfl, -⟩ := h
  exact List.cons_ne_nil c cs'

/-- A minus sign goes in front of a text that does not begin with one. -/
theorem StartsAs.admits (h : StartsAs cs ts) {op : UnaryOp}
    (hminus : op = .neg → ts.head? ≠ some .minus) : Admits op cs := by
  obtain ⟨c, cs', t, ts', rfl, rfl, heq, hiff⟩ := h
  rintro c' ⟨⟩
  exact ⟨heq, fun hop hc => hminus hop (congrArg some (hiff.mp hc))⟩

end Reading

/-! ## §2. Operands. -/

/-- In every context the step gives a text with the tokens, and leaves the context as it is. -/
def Gives (step : Rendering) (ts : List Token) : Prop :=
  ∀ c : Context, ∃ text, step c = (text, c) ∧ Lexes text.toList ts ∧ StartsAs text.toList ts

namespace Gives

variable {step : Rendering} {ts ts' : List Token}

theorem pure {text : String} (hl : Lexes text.toList ts) (hs : StartsAs text.toList ts) :
    Gives (Pure.pure text) ts := fun _ => ⟨text, rfl, hl, hs⟩

theorem bind {next : String → Rendering} (h : Gives step ts)
    (h' : ∀ text : String, Lexes text.toList ts → StartsAs text.toList ts → Gives (next text) ts') :
    Gives (step >>= next) ts' := by
  intro c
  obtain ⟨text, htext, hl, hs⟩ := h c
  obtain ⟨text', htext', hgives⟩ := h' text hl hs c
  refine ⟨text', ?_, hgives⟩
  show next (step c).1 (step c).2 = _
  rw [htext, htext']

theorem enclosed {text : String} (hl : Lexes text.toList ts) :
    Gives (Pure.pure ("(" ++ text ++ ")")) (FeatureStudio.enclosed ts) := by
  refine Gives.pure (scanReader.enclosed hl) ?_
  rw [String.append_assoc, String.toList_append]
  exact ⟨'(', _, .openParen, _, rfl, rfl, by decide, by decide⟩

/-- In expression scope an expression is its bare text. -/
theorem expression_apply {render : Rendering} {c : Context} {text : String}
    (hscope : c.state.scope = .expression) (h : render c = (text, c)) :
    Render.expression render c = (text, c) := by
  have hcoerced : Render.coerced text c = (text, c) := scope_bind hscope
  have hbare : Render.expression render c = (render >>= Render.coerced) c := scope_bind hscope
  rw [hbare]
  show Render.coerced (render c).1 (render c).2 = _
  rw [h]
  exact hcoerced

/-- An operand is rendered in expression scope, and what is saved before is there again after. -/
theorem operand {o : Operand} (h : Gives o.render ts) : Gives o.text ts := by
  intro c
  obtain ⟨text, htext, hgives⟩ := h (c.save.withState (·.override (.inScope .expression)))
  refine ⟨text, ?_, hgives⟩
  rw [Operand.text, runIn, run_apply, expression_apply rfl htext]
  rfl

theorem above {o : Operand} (h : Gives o.render ts) (least : Nat) :
    Gives (o.above least) (enclosedUnless least o.shape.precedence ts) := by
  refine h.operand.bind fun text hl hs => ?_
  unfold enclosedUnless
  split
  · exact Gives.pure hl hs
  · exact Gives.enclosed hl

end Gives

/-- The expression is rendered as its tokens. -/
def Expr.IsWritten (e : Expr) : Prop := Gives e.operand.render e.tokens

/-! ## §3. Every form of expression. -/

namespace Expr.IsWritten

variable {l r e : Expr}

theorem token {text : String} (h : IsAtom text) : (Expr.token text).IsWritten := by
  refine Gives.pure (lexes_of_isAtom h) ?_
  obtain ⟨c, cs, htext, hc⟩ := h.exists_cons
  have hfirst : c ≠ '=' ∧ c ≠ '-' := by
    rcases hc with hc | rfl
    · constructor <;> rintro rfl <;> exact absurd hc (by decide)
    · decide
  exact ⟨c, cs, .word text, [], htext, rfl, hfirst.1, iff_of_false hfirst.2 (by simp)⟩

theorem parens (h : e.IsWritten) : (Expr.parens e).IsWritten :=
  h.operand.bind fun _ hl _ => Gives.enclosed hl

/-- A prefix operator in front of a text that has been set apart from it. -/
theorem prefixed (op : UnaryOp) {text : String} {ts : List Token} (hl : Lexes text.toList ts)
    (hs : StartsAs text.toList ts) (hminus : op = .neg → ts.head? ≠ some .minus) :
    Gives (return op.text ++ text) (prefixToken op :: ts) := by
  refine Gives.pure (scanReader.prefixed op hl (hs.admits hminus) hs.ne_nil) ?_
  rw [String.toList_append]
  cases op with
  | not => exact ⟨'!', _, .not, ts, rfl, rfl, by decide, by decide⟩
  | neg => exact ⟨'-', _, .minus, ts, rfl, rfl, by decide, by decide⟩

/-- What is set apart in the text is set apart in the tokens. -/
theorem prefixed_setApart (op : UnaryOp) {text : String} {ts : List Token}
    (hl : Lexes text.toList ts) (hs : StartsAs text.toList ts) :
    Gives
      (return op.text ++
        if op = .neg && text.toList.head? == some '-' then "(" ++ text ++ ")" else text)
      (prefixToken op :: setApart op ts) := by
  have hsigns : (text.toList.head? == some '-') = (ts.head? == some .minus) := by
    obtain ⟨c, cs, t, ts, hcs, rfl, -, hiff⟩ := hs
    rw [hcs, Bool.eq_iff_iff]
    simpa using hiff
  -- what is looked at in the text can as well be looked at in the tokens
  rw [hsigns]
  unfold setApart
  split
  · obtain ⟨text', htext', hl', hs'⟩ := Gives.enclosed hl {}
    cases htext'
    exact prefixed op hl' hs' fun _ => by simp [enclosed]
  · next hnot =>
      rw [Bool.and_eq_true, not_and] at hnot
      exact prefixed op hl hs fun hop => by simpa [hop] using hnot

theorem unary (op : UnaryOp) (h : e.IsWritten) : (Expr.unary op e).IsWritten :=
  (h.above _).bind fun _ hl hs => prefixed_setApart op hl hs

/-- Two operands with an operator between them. -/
theorem infixed {least least' : Nat} {ops : String} {t : Token} (hl : l.IsWritten)
    (hr : r.IsWritten)
    (hops : scanner.read .idle (" " ++ ops ++ " ").toList = some ([t], .idle)) :
    Gives
      (do
        let left ← l.operand.above least
        let right ← r.operand.above least'
        return left ++ " " ++ ops ++ " " ++ right)
      (enclosedUnless least l.precedence l.tokens
        ++ t :: enclosedUnless least' r.precedence r.tokens) := by
  refine (hl.above _).bind fun left hleft hstarts => (hr.above _).bind fun right hright _ => ?_
  refine Gives.pure (scanReader.between hleft hright hops) ?_
  simp only [String.append_assoc, String.toList_append]
  exact hstarts.append _ _

theorem binary (op : BinaryOp) (hl : l.IsWritten) (hr : r.IsWritten) :
    (Expr.binary l op r).IsWritten := infixed hl hr (TokenReader.read_binary op)

theorem equality (op : EqualityOp) (hl : l.IsWritten) (hr : r.IsWritten) :
    (Expr.equality l op r).IsWritten := infixed hl hr (TokenReader.read_equality op)

theorem ternary {test yes no : Expr} (ht : test.IsWritten) (hy : yes.IsWritten)
    (hn : no.IsWritten) : (Expr.ternary test yes no).IsWritten := by
  refine (ht.above _).bind fun text hl hs => hy.operand.bind fun text' hl' _ =>
    hn.operand.bind fun text'' hl'' _ => ?_
  refine Gives.pure (scanReader.chosen hl hl' hl'') ?_
  simp only [String.append_assoc, String.toList_append]
  exact hs.append _ _

/-- Several operands are rendered one by one. -/
theorem texts : ∀ {es : List Expr}, (∀ e ∈ es, e.IsWritten) → ∀ c : Context,
    ∃ texts, Operand.texts (operands es) c = (texts, c) ∧
      List.Forall₂ (fun text ts => Lexes text.toList ts) texts (Expr.tokenLists es)
  | [], _, c => ⟨[], rfl, .nil⟩
  | e :: es, h, c => by
      obtain ⟨text, htext, hl, -⟩ := (h e List.mem_cons_self).operand c
      obtain ⟨rest, hrest, hls⟩ := texts (fun e' he' => h e' (List.mem_cons_of_mem _ he')) c
      refine ⟨text :: rest, ?_, .cons hl hls⟩
      show ((e.operand.text c).1 :: (Operand.texts (operands es) (e.operand.text c).2).1,
        (Operand.texts (operands es) (e.operand.text c).2).2) = _
      rw [htext, hrest]

/-- Keys in brackets, one behind the other. -/
theorem keyed : ∀ {keys : List Expr} {texts : List String},
    List.Forall₂ (fun text ts => Lexes text.toList ts) texts (Expr.tokenLists keys) →
      ∀ {text : String} {ts : List Token}, Lexes text.toList ts →
        Lexes (text ++ String.join (texts.map fun key => "[" ++ key ++ "]")).toList
          (ts ++ Expr.keyTokens keys)
  | [], [], _, text, ts, h => by
      rw [List.map_nil, String.join_nil, String.append_empty, Expr.keyTokens, List.append_nil]
      exact h
  | k :: keys, key :: texts, .cons hk hrest, text, ts, h => by
      have hindexed : Lexes (text ++ "[" ++ key ++ "]").toList
          (ts ++ .openBracket :: (k.tokens ++ [.closeBracket])) := scanReader.indexed h hk
      have hkeyed := keyed hrest hindexed
      rw [List.map_cons, String.join_cons, Expr.keyTokens]
      simpa [String.append_assoc] using hkeyed

theorem access {base : Expr} {keys : List Expr} (hb : base.IsWritten)
    (hk : ∀ k ∈ keys, k.IsWritten) : (Expr.access base keys).IsWritten := by
  refine (hb.above _).bind fun text hl hs c => ?_
  obtain ⟨texts, htexts, hls⟩ := texts hk c
  refine ⟨text ++ String.join (texts.map fun key => "[" ++ key ++ "]"), ?_, ?_, ?_⟩
  · show
      (text ++ String.join ((Operand.texts (operands keys) c).1.map fun key => "[" ++ key ++ "]"),
        (Operand.texts (operands keys) c).2) = _
    rw [htexts]
  · exact keyed hls hl
  · rw [String.toList_append]
    exact hs.append _ _

/-- A call begins with its name. -/
theorem startsAs_name {name : String} (hname : IsPath name) (cs : List Char) (ts : List Token) :
    StartsAs (name.toList ++ cs) (.word name :: ts) := by
  obtain ⟨c, cs', htext, hc, -⟩ := hname.exists_cons
  rw [htext]
  refine ⟨c, cs' ++ cs, .word name, ts, rfl, rfl, ?_, ?_⟩
  · rintro rfl
    exact absurd hc (by decide)
  · refine iff_of_false ?_ (by simp)
    rintro rfl
    exact absurd hc (by decide)

theorem call {name : String} {args : List Expr} {multiline : Bool} (hname : IsPath name)
    (ha : ∀ a ∈ args, a.IsWritten) : (Expr.call name args multiline).IsWritten := by
  intro c
  obtain ⟨texts, htexts, hls⟩ := texts ha c
  have hrender : (Expr.call name args multiline).operand.render c
      = (if multiline && !texts.isEmpty then
          (name ++ "(\n" ++ c.indent.lines (",\n".intercalate texts) 1 ++ "\n)", c)
        else (name ++ "(" ++ ", ".intercalate texts ++ ")", c)) := by
    show (if multiline && !(Operand.texts (operands args) c).1.isEmpty then _ else _ : Rendering)
      (Operand.texts (operands args) c).2 = _
    rw [htexts]
    split <;> rfl
  rw [hrender]
  -- one argument a line, or all of them on one
  split
  · have hsep : ",\n".toList = [',', '\n'] := rfl
    have hargs : Lexes (",\n".intercalate texts).toList (commaed (Expr.tokenLists args)) :=
      scanReader.commaed hsep rfl hls
    have hlines := scanReader.onLines (hargs.lines c.indent 1)
    have htext : name ++ "(\n" ++ c.indent.lines (",\n".intercalate texts) 1 ++ "\n)"
        = name ++ "(" ++ ("\n" ++ c.indent.lines (",\n".intercalate texts) 1 ++ "\n") ++ ")" :=
      String.toList_injective (by simp)
    rw [htext]
    refine ⟨_, rfl, scanReader.called hname hlines, ?_⟩
    simp only [String.append_assoc, String.toList_append]
    exact startsAs_name hname _ _
  · have hsep : ", ".toList = [',', ' '] := rfl
    have hargs := scanReader.commaed hsep rfl hls
    refine ⟨_, rfl, scanReader.called hname hargs, ?_⟩
    simp only [String.append_assoc, String.toList_append]
    exact startsAs_name hname _ _

end Expr.IsWritten

/-- **Every form of expression is rendered as its tokens.** -/
theorem Expr.IsPlain.isWritten {e : Expr} (h : e.IsPlain) : e.IsWritten := by
  induction h with
  | token h => exact .token h
  | parens _ ih => exact ih.parens
  | unary _ ih => exact ih.unary _
  | binary _ _ ihl ihr => exact ihl.binary _ ihr
  | equality _ _ ihl ihr => exact ihl.equality _ ihr
  | ternary _ _ _ iht ihy ihn => exact iht.ternary ihy ihn
  | access _ _ ihb ihk => exact ihb.access ihk
  | call hname _ iha => exact .call hname iha

/-! ## §4. Reading back. -/

/-- **The text of an expression has one reading, and its value is that of the expression**, in
every context and whatever its atoms stand for. -/
theorem Expr.value_of_reads {e : Expr} (h : e.IsPlain) (c : Context) :
    ∃ text t, runIn .expression (Node.expr e).build c = (text, c) ∧ Reads text t ∧
      (∀ t', Reads text t' → t' = t) ∧ ∀ I, t.value I = e.value I := by
  obtain ⟨text, htext, hlexes, -⟩ := h.isWritten.operand c
  -- the tree that is read may be grouped otherwise, with the same value
  obtain ⟨t, ht, hv⟩ := Expr.derives_tokens h
  have hreads : Reads text t := ⟨e.tokens, hlexes.scan_eq, ht⟩
  exact ⟨text, t, htext, hreads, fun t' ht' => ht'.unique hreads, hv⟩

/-- A sum with a sum on its right that begins with a difference.  It is written without
parentheses, so that all of it is read from the left. -/
def Expr.regrouped : Expr :=
  .binary (.token "width") .add
    (.binary (.binary (.token "2.5") .sub (.call "max" [.token "wall.inner"] true)) .add
      (.unary .neg (.unary .neg (.access (.token "gaps") [.token (Text.quote "outer")]))))

theorem Expr.regrouped_value_of_reads :
    Expr.regrouped.IsPlain ∧
      (runIn .expression (Node.expr Expr.regrouped).build {}).1
        = "width + 2.5 - max(\n    wall.inner\n) + -(-gaps[\"outer\"])" ∧
      ∃ text t, runIn .expression (Node.expr Expr.regrouped).build {} = (text, {}) ∧
        Reads text t ∧ (∀ t', Reads text t' → t' = t) ∧
          ∀ I, t.value I = Expr.regrouped.value I := by
  have hplain : Expr.regrouped.IsPlain := by
    have hwidth : IsPath "width" := by decide +kernel
    have hwall : IsPath "wall.inner" := by decide +kernel
    have hmax : IsPath "max" := by decide +kernel
    have hgaps : IsPath "gaps" := by decide +kernel
    have hdigit : ∀ {d : Char}, d.isDigit → IsDigits [d] := fun hd =>
      ⟨List.cons_ne_nil _ _, fun c hc => by rwa [List.mem_singleton.mp hc]⟩
    have hnumeral : IsNumeral (['2'] ++ '.' :: ['5']) :=
      .plain (.fraction (hdigit rfl) (hdigit rfl))
    have hargs : ∀ a ∈ [Expr.token "wall.inner"], a.IsPlain := by
      intro a ha
      rw [List.mem_singleton.mp ha]
      exact .token (.inl hwall)
    have hkeys : ∀ k ∈ [Expr.token (Text.quote "outer")], k.IsPlain := by
      intro k hk
      rw [List.mem_singleton.mp hk]
      exact .token (isAtom_quote _)
    exact .binary (.token (.inl hwidth))
      (.binary (.binary (.token (.inr (.inl hnumeral))) (.call hmax hargs))
        (.unary (.unary (.access (.token (.inl hgaps)) hkeys))))
  exact ⟨hplain, rfl, Expr.value_of_reads hplain {}⟩

end FeatureStudio
