/-
  FeatureStudio.Proofs.Render.Composition: how rendered texts are put together.

  Whatever a tree is, its text is put together in few ways: from texts that stand in it, from the
  markers of nodes that could not be rendered, by putting texts behind one another, a level deeper
  on lines of their own, into a literal, into parentheses, or below the comment of a test
  predicate.  `Composed` says so of a text for every indentation, together with the warnings
  raised for it and the parts that are written in it.  What is to hold of all renderings is then
  proved for these few ways.

  Main statements:
    * `ComposedAll.intercalate`, `ComposedAll.bracketed`: texts in a row.
    * `Operand.lays_call`, `Operand.lays_conjunction`, …: every form of expression is composed of
      its operands.
    * `lays_mapLiteral`, `lays_joined`, `lays_block`: literals and statements.
-/
import FeatureStudio.Proofs.Render.Dependence
import FeatureStudio.Proofs.Script.Parts
import FeatureStudio.Proofs.Text.Indentation

namespace FeatureStudio

open Build Render

/-! ## §1. The ways to put texts together. -/

/-- What is asked of the texts of a rendering and of how they are put together. -/
structure Rule where
  /-- Texts that may stand in a rendering. -/
  text : String → Prop
  /-- Anything may be indented. -/
  nested : Prop
  /-- Texts that may be put into a literal. -/
  quoted : (Indent → String) → Prop
  /-- Bodies of a test predicate, with their warnings: as they are, and with calls written out. -/
  tested : (Indent → String) → List Diagnostic → (Indent → String) → List Diagnostic → Prop
  plain : ∀ {s}, '<' ∉ s.toList → text s
  append : ∀ {s t}, text s → text t → text (s ++ t)
  quote : ∀ {s}, text s → text (Text.quote s)
  capital : ∀ {s}, text s → text (Text.upperFirst s)
  placeholder : ∀ e : ResolveError, text e.placeholder
  quoted_const : ∀ s, quoted fun _ => s
  tested_same : ∀ f, tested f [] f []

/-- The rule that allows everything. -/
def Rule.free : Rule where
  text _ := True
  nested := True
  quoted _ := True
  tested _ _ _ _ := True
  plain _ := trivial
  append _ _ := trivial
  quote _ := trivial
  capital _ := trivial
  placeholder _ := trivial
  quoted_const _ := trivial
  tested_same _ := trivial

/-- The text, for every indentation, is put together as the rule asks; with the warnings raised
for it and the parts that are written in it. -/
inductive Composed (r : Rule) (w : World) : (Indent → String) → List Diagnostic → List Visit → Prop
  | text {s : String} (h : r.text s) : Composed r w (fun _ => s) [] []
  | violation (expected : List Scope) (found : Scope) :
    Composed r w (fun _ => sentinel "invalid scope")
      [⟨found, scopeViolation expected found, none⟩] []
  | warned {f : Indent → String} {ds : List Diagnostic} {vs : List Visit} (scope : Scope)
      (message location : String) (h : Composed r w f ds vs) :
    Composed r w f (⟨scope, message, some location⟩ :: ds) vs
  | append {f g : Indent → String} {ds es : List Diagnostic} {vs ws : List Visit}
      (hf : Composed r w f ds vs) (hg : Composed r w g es ws) :
    Composed r w (fun u => f u ++ g u) (ds ++ es) (vs ++ ws)
  /-- On lines of its own, a level deeper, in front of a text that ends the last of them. -/
  | nested {f : Indent → String} {ds : List Diagnostic} {vs : List Visit} {close : String}
      (hr : r.nested) (hclose : r.text close) (hends : '\n' ∈ close.toList)
      (h : Composed r w f ds vs) :
    Composed r w (fun u => "\n" ++ u.lines (f u) 1 ++ close) ds (vs.map .deeper)
  | quoted {f : Indent → String} {ds : List Diagnostic} {vs : List Visit} (hr : r.quoted f)
      (h : Composed r w f ds vs) :
    Composed r w (fun u => Text.quote (f u)) ds (vs.map .hidden)
  /-- In parentheses if it begins with a minus sign. -/
  | apart {f : Indent → String} {ds : List Diagnostic} {vs : List Visit}
      (h : Composed r w f ds vs) :
    Composed r w
      (fun u => if (f u).toList.head? == some '-' then "(" ++ f u ++ ")" else f u) ds vs
  | tested {f g : Indent → String} {ds es : List Diagnostic} {vs ws : List Visit}
      (hr : r.tested f ds g es) (hf : Composed r w f ds vs) (hg : Composed r w g es ws) :
    Composed r w (fun u => testBody (f u) (g u)) (ds ++ es) (vs.map .hidden ++ ws)
  /-- All of the text is the text of a part. -/
  | part {f : Indent → String} {ds : List Diagnostic} (s : State) (p : Part)
      (hf : f = w.value s p.rendering) (h : Composed r w f ds (p.parts s)) :
    Composed r w f ds [⟨s, p, some 0⟩]

/-- Texts in a row, each put together as the rule asks. -/
inductive ComposedAll (r : Rule) (w : World) :
    (Indent → List String) → List Diagnostic → List Visit → Prop
  | nil : ComposedAll r w (fun _ => []) [] []
  | cons {f : Indent → String} {fs : Indent → List String} {ds es : List Diagnostic}
      {vs ws : List Visit} (h : Composed r w f ds vs) (hs : ComposedAll r w fs es ws) :
    ComposedAll r w (fun u => f u :: fs u) (ds ++ es) (vs ++ ws)

section

variable {r : Rule} {w : World} {f g : Indent → String} {ds es : List Diagnostic}
  {vs ws : List Visit}

namespace Composed

/-- A text in front. -/
theorem prepend {s : String} (hs : r.text s) (h : Composed r w f ds vs) :
    Composed r w (fun u => s ++ f u) ds vs := append (text hs) h

/-- A text behind. -/
theorem followed {s : String} (h : Composed r w f ds vs) (hs : r.text s) :
    Composed r w (fun u => f u ++ s) ds vs := by
  have happend := append h (text (w := w) hs)
  rwa [List.append_nil, List.append_nil] at happend

theorem parenthesized (h : Composed r w f ds vs) :
    Composed r w (fun u => "(" ++ f u ++ ")") ds vs :=
  (h.prepend (r.plain (by decide))).followed (r.plain (by decide))

/-- A literal with its type behind it, if it has one. -/
theorem typed {typeName : Option String} (h : Composed r w f ds vs) :
    (∀ t ∈ typeName, r.text t) → Composed r w (fun u => match typeName with
      | some typeName => f u ++ " as " ++ typeName
      | none => f u) ds vs := by
  intro htype
  cases typeName with
  | none => exact h
  | some t => exact (h.followed (r.plain (by decide))).followed (htype t rfl)

/-- A text that ends its line, in front of lines. -/
theorem opened {head line close : String} (hline : line = head ++ "\n") (hhead : r.text head)
    (h : Composed r w (fun u => "\n" ++ f u ++ close) ds vs) :
    Composed r w (fun u => line ++ f u ++ close) ds vs := by
  have heq : (fun u => line ++ f u ++ close) = fun u => head ++ ("\n" ++ f u ++ close) := by
    funext u
    simp only [hline, String.append_assoc]
  rw [heq]
  exact h.prepend hhead

/-- Other warnings and other parts, if they are the same. -/
theorem cast {ds' : List Diagnostic} {vs' : List Visit} (h : Composed r w f ds vs) (hds : ds = ds')
    (hvs : vs = vs') : Composed r w f ds' vs' := hds ▸ hvs ▸ h

end Composed

/-- The text stands on lines of its own, wherever a line feed is in front of it and a text behind
it that ends its last line. -/
def OnLines (r : Rule) (w : World) (f : Indent → String) (ds : List Diagnostic)
    (vs : List Visit) : Prop :=
  ∀ close, r.text close → '\n' ∈ close.toList →
    Composed r w (fun u => "\n" ++ f u ++ close) ds vs

/-- What is indented stands on lines of its own, a level deeper. -/
theorem Composed.onLines (hr : r.nested) (h : Composed r w f ds vs) :
    OnLines r w (fun u => u.lines (f u) 1) ds (vs.map .deeper) :=
  fun _ hclose hends => .nested hr hclose hends h

namespace OnLines

/-- Between a text that ends its line and one that ends the last of the lines. -/
theorem enclosed {head line close : String} (h : OnLines r w f ds vs)
    (hline : line = head ++ "\n") (hhead : r.text head) (hclose : r.text close)
    (hends : '\n' ∈ close.toList) : Composed r w (fun u => line ++ f u ++ close) ds vs :=
  (h close hclose hends).opened hline hhead

/-- The same behind another text. -/
theorem enclosedBehind {before head line close : String} (h : OnLines r w f ds vs)
    (hline : line = head ++ "\n") (hbefore : r.text before) (hhead : r.text head)
    (hclose : r.text close) (hends : '\n' ∈ close.toList) :
    Composed r w (fun u => before ++ line ++ f u ++ close) ds vs := by
  have henclosed := (h.enclosed hline hhead hclose hends).prepend hbefore
  simp only [← String.append_assoc] at henclosed
  exact henclosed

end OnLines

namespace ComposedAll

variable {fs : Indent → List String}

/-- Texts in a row with a text between them. -/
theorem intercalate {separator : String} (hs : r.text separator)
    (h : ComposedAll r w fs ds vs) :
    Composed r w (fun u => separator.intercalate (fs u)) ds vs := by
  induction h with
  | nil =>
      have hempty : (fun _ : Indent => separator.intercalate []) = fun _ => "" :=
        funext fun _ => String.intercalate_nil
      rw [hempty]
      exact .text (r.plain (by decide))
  | cons h hs' ih =>
      cases hs' with
      | nil =>
          rw [List.append_nil, List.append_nil]
          simpa only [String.intercalate_singleton] using h
      | cons h' hs' =>
          simp only [String.intercalate_cons_cons]
          exact (h.followed hs).append ih

/-- Texts in a row, each in brackets. -/
theorem bracketed (h : ComposedAll r w fs ds vs) :
    Composed r w (fun u => String.join ((fs u).map fun key => "[" ++ key ++ "]")) ds vs := by
  induction h with
  | nil => exact .text (r.plain (by decide))
  | cons h _ ih =>
      simp only [List.map_cons, String.join_cons]
      exact ((h.prepend (r.plain (by decide))).followed (r.plain (by decide))).append ih

end ComposedAll

end

/-- Each of the things is laid out, with the parts that all of them have in order. -/
inductive Each {α : Type} (R : α → List Visit → Prop) : List α → List Visit → Prop
  | nil : Each R [] []
  | cons {a : α} {as : List α} {vs ws : List Visit} (h : R a vs) (hs : Each R as ws) :
    Each R (a :: as) (vs ++ ws)

namespace Each

variable {α ι : Type} {R : α → List Visit → Prop}

theorem one {a : α} {vs : List Visit} (h : R a vs) : Each R [a] vs := by
  rw [← List.append_nil vs]
  exact .cons h .nil

/-- Things that have no parts. -/
theorem silent : ∀ {as : List α}, (∀ a ∈ as, R a []) → Each R as []
  | [], _ => .nil
  | _ :: _, h =>
    cons (h _ List.mem_cons_self) (silent fun a ha => h a (List.mem_cons_of_mem _ ha))

theorem flatMap (f : ι → α) (V : ι → List Visit) :
    ∀ {l : List ι}, (∀ i ∈ l, R (f i) (V i)) → Each R (l.map f) (l.flatMap V)
  | [], _ => .nil
  | _ :: _, h =>
    .cons (h _ List.mem_cons_self) (flatMap f V fun i hi => h i (List.mem_cons_of_mem _ hi))

theorem map (f : ι → α) (V : ι → Visit) :
    ∀ {l : List ι}, (∀ i ∈ l, R (f i) [V i]) → Each R (l.map f) (l.map V)
  | [], _ => .nil
  | _ :: _, h =>
    .cons (h _ List.mem_cons_self) (map f V fun i hi => h i (List.mem_cons_of_mem _ hi))

end Each

/-- The step gives a text that is put together as the rule asks. -/
abbrev Lays (r : Rule) (w : World) (s : State) (step : Rendering) (vs : List Visit) : Prop :=
  Ensures w s (fun _ => step) fun f ds => Composed r w f ds vs

/-- So does the step, save that it may change the state. -/
abbrev LaysPart (r : Rule) (w : World) (s : State) (step : Rendering) (vs : List Visit) : Prop :=
  Leaves w s (fun _ => step) fun f ds => Composed r w f ds vs

namespace Render

variable {r : Rule} {w : World} {s : State} {vs ws xs : List Visit}

/-! ## §2. Operands. -/

/-- A constant text. -/
theorem lays_text {text : String} (h : r.text text) : Lays r w s (return text) [] :=
  ensures_pure (.text h)

theorem lays_expectedScope (expected : List Scope) : Lays r w s (expectedScope expected) [] :=
  ensures_expectedScope expected (.violation expected s.scope)

theorem ensures_nested {f : Indent → String} {ds : List Diagnostic} (hr : r.nested)
    (h : Composed r w f ds vs) :
    Ensures w s (fun u => indented (f u) 1) fun g es =>
      es = [] ∧ OnLines r w g ds (vs.map .deeper) :=
  ensures_indented 1 ⟨rfl, h.onLines hr⟩

/-- What ends its last line itself is on lines of its own in front of any text. -/
theorem ensures_nestedLines {f : Indent → String} {ds : List Diagnostic} {close : String}
    (hr : r.nested) (hclose : r.text close) (h : Composed r w f ds vs) :
    Ensures w s (fun u => indented (f u ++ "\n") 1) fun g es =>
      es = [] ∧ Composed r w (fun u => "\n" ++ g u ++ close) ds (vs.map .deeper) := by
  refine ensures_indented 1 ⟨rfl, ?_⟩
  have hlines := h.onLines hr ("\n" ++ close) (r.append (r.plain (by decide)) hclose) (by simp)
  simp only [Indent.lines_lineFeed, String.append_assoc] at hlines ⊢
  exact hlines

/-- What an expression adds to its bare text. -/
def terminator (scope : Scope) : String := if scope = .statement then ";\n" else ""

/-- An expression is its text, with a semicolon behind it where statements stand. -/
theorem ensures_expression {render : Rendering} (hs : s.scope ≠ .top) (h : Lays r w s render vs) :
    Ensures w s (fun _ => expression render) fun f ds =>
      ∃ g, Composed r w g ds vs ∧ f = fun u => g u ++ terminator s.scope := by
  refine ensures_scope ?_
  rw [if_neg hs]
  refine h.bind fun f ds hf => ensures_scope ?_
  rw [← List.append_nil ds] at hf
  cases hscope : s.scope with
  | top => exact absurd hscope hs
  | statement => exact ensures_pure ⟨f, hf, rfl⟩
  | expression =>
      refine ensures_pure ⟨f, hf, ?_⟩
      simp [terminator]

theorem lays_expression {render : Rendering} (h : s.scope ≠ .top → Lays r w s render vs) :
    Lays r w s (expression render) (if s.scope = .top then [] else vs) := by
  by_cases hs : s.scope = .top
  · rw [if_pos hs]
    refine ensures_scope ?_
    rw [if_pos hs]
    exact lays_expectedScope _
  · rw [if_neg hs]
    refine (ensures_expression hs (h hs)).mono fun f ds hf => ?_
    obtain ⟨g, hg, rfl⟩ := hf
    refine hg.followed (r.plain ?_)
    unfold terminator
    split <;> decide

/-- In a scope that is not file level an expression has the parts of its text. -/
theorem lays_expression_of_ne {render : Rendering} (hs : s.scope ≠ .top)
    (h : Lays r w s render vs) : Lays r w s (expression render) vs := by
  have hlays := lays_expression (fun _ => h)
  rwa [if_neg hs] at hlays

namespace Operand

/-- In its place as an operand the text is put together as the rule asks. -/
abbrev IsLaid (r : Rule) (w : World) (s : State) (o : Operand) (vs : List Visit) : Prop :=
  Lays r w (s.inScope .expression) o.render vs

variable {o a b c : Operand} {os : List Operand}

/-- As an operand an expression is its bare text. -/
theorem ensures_text {Q : (Indent → String) → List Diagnostic → Prop}
    (h : Ensures w (s.inScope .expression) (fun _ => o.render) Q) :
    Ensures w s (fun _ => o.text) Q := by
  refine Ensures.run (ensures_scope ?_)
  rw [if_neg fun hs => by cases hs]
  refine h.bind fun f ds hf => ensures_scope (ensures_pure ?_)
  rwa [List.append_nil]

theorem lays_text (h : o.IsLaid r w s vs) : Lays r w s o.text vs := ensures_text h

theorem lays_above (least : Nat) (h : o.IsLaid r w s vs) :
    Lays r w s (o.above least) vs := by
  refine (lays_text h).map fun f ds hf => ?_
  split
  · exact hf
  · exact hf.parenthesized

theorem ensures_texts (h : Each (fun o vs => o.IsLaid r w s vs) os vs) :
    Ensures w s (fun _ => texts os) fun fs ds => ComposedAll r w fs ds vs := by
  induction h with
  | nil => exact ensures_pure .nil
  | cons h _ ih => exact (lays_text h).bind fun _ _ hf => ih.map fun _ _ hfs => .cons hf hfs

/-! Of every form the operands are rendered in expression scope, whatever scope the form is in. -/

theorem lays_token {text : String} (h : r.text text) : Lays r w s (token text).render [] :=
  Render.lays_text h

theorem lays_parens (h : o.IsLaid r w s vs) : Lays r w s (parens o).render vs :=
  (lays_text h).map fun _ _ hf => hf.parenthesized

theorem lays_unary (op : UnaryOp) (h : o.IsLaid r w s vs) : Lays r w s (unary op o).render vs := by
  refine (lays_above _ h).map fun f ds hf => ?_
  have htext : r.text op.text := r.plain (by cases op <;> decide)
  by_cases hop : op = .neg
  · simp only [hop, decide_true, Bool.true_and] at htext ⊢
    exact hf.apart.prepend htext
  · simp only [hop, decide_false, Bool.false_and, Bool.false_eq_true, if_false]
    exact hf.prepend htext

theorem plain_binaryOp (op : BinaryOp) : r.text op.text := r.plain (by cases op <;> decide)

theorem plain_equalityOp (op : EqualityOp) : r.text op.text := r.plain (by cases op <;> decide)

/-- Two texts and an operator between them. -/
theorem lays_infix {op : String} (hop : r.text op) {left right : Rendering}
    (hl : Lays r w s left vs) (hr : Lays r w s right ws) :
    Lays r w s (do
      let left ← left
      let right ← right
      return left ++ " " ++ op ++ " " ++ right) (vs ++ ws) :=
  hl.bind fun _ _ hf => hr.map fun _ _ hg =>
    (((hf.followed (r.plain (by decide))).followed hop).followed (r.plain (by decide))).append hg

theorem lays_binary (op : BinaryOp) (ha : a.IsLaid r w s vs) (hb : b.IsLaid r w s ws) :
    Lays r w s (binary a op b).render (vs ++ ws) :=
  lays_infix (plain_binaryOp op) (lays_above _ ha) (lays_above _ hb)

theorem lays_equality (op : EqualityOp) (ha : a.IsLaid r w s vs) (hb : b.IsLaid r w s ws) :
    Lays r w s (equality a op b).render (vs ++ ws) :=
  lays_infix (plain_equalityOp op) (lays_above _ ha) (lays_above _ hb)

theorem lays_ternary (ha : a.IsLaid r w s vs) (hb : b.IsLaid r w s ws) (hc : c.IsLaid r w s xs) :
    Lays r w s (ternary a b c).render (vs ++ (ws ++ xs)) := by
  refine (lays_above _ ha).bind fun f ds hf => ?_
  refine (lays_text hb).bind fun g es hg => ?_
  refine (lays_text hc).map fun h fs hh => ?_
  have hquestion := (hf.followed (r.plain (s := " ? ") (by decide))).append hg
  exact ((hquestion.followed (r.plain (s := " : ") (by decide))).append hh).cast
    (List.append_assoc ..) (List.append_assoc ..)

theorem lays_access (ha : a.IsLaid r w s vs) (hs : Each (fun o vs => o.IsLaid r w s vs) os ws) :
    Lays r w s (access a os).render (vs ++ ws) :=
  (lays_above _ ha).bind fun _ _ hf =>
    (ensures_texts hs).map fun _ _ hfs => hf.append hfs.bracketed

/-- The parts of arguments, a level deeper if each has a line of its own. -/
def argumentParts (multiline : Bool) (vs : List Visit) : List Visit :=
  if multiline then vs.map .deeper else vs

theorem lays_call {name : String} (hname : r.text name) (multiline : Bool)
    (hnested : multiline → r.nested) (hs : Each (fun o vs => o.IsLaid r w s vs) os vs) :
    Lays r w s (call name os multiline).render (argumentParts multiline vs) := by
  refine (ensures_texts hs).bind fun fs ds hfs => ?_
  have hopened : r.text (name ++ "(") := r.append hname (r.plain (by decide))
  cases multiline with
  | false =>
      have hrow := (hfs.intercalate (r.plain (s := ", ") (by decide))).prepend hopened
      exact ensures_pure ((hrow.followed (r.plain (by decide))).cast (List.append_nil ds).symm rfl)
  | true =>
      cases hfs with
      | nil =>
          exact ensures_pure (.text
            (r.append (r.append hopened (r.plain (by decide))) (r.plain (by decide))))
      | cons h hs' =>
          have hlines := (ComposedAll.cons h hs').intercalate (r.plain (s := ",\n") (by decide))
          refine (ensures_nested (hnested rfl) hlines).map fun f es hf => ?_
          obtain ⟨rfl, hf⟩ := hf
          have hbody := hf.enclosedBehind (show "(\n" = "(" ++ "\n" by decide) hname
            (r.plain (by decide)) (r.plain (s := "\n)") (by decide)) (by decide)
          exact hbody.cast (List.append_nil _).symm rfl

theorem lays_grouped (h : o.IsLaid r w s vs) : o.grouped.IsLaid r w s vs := by
  unfold grouped
  split
  · exact h
  · exact lays_parens h

/-- Operands joined by `&&` behind what is there already. -/
theorem lays_foldl (hs : Each (fun o vs => o.IsLaid r w s vs) os ws) :
    ∀ {acc : Operand} {vs : List Visit}, acc.IsLaid r w s vs →
      (os.foldl (fun acc next => binary acc .and next.grouped) acc).IsLaid r w s (vs ++ ws) := by
  induction hs with
  | nil =>
      intro acc vs hacc
      rwa [List.append_nil]
  | cons h _ ih =>
      intro acc vs hacc
      rw [← List.append_assoc]
      exact ih (lays_binary .and hacc (lays_grouped h))

theorem lays_conjunction (hs : Each (fun o vs => o.IsLaid r w s vs) os vs) :
    (conjunction os).IsLaid r w s vs := by
  cases hs with
  | nil => exact lays_grouped (lays_token (r.plain (by decide)))
  | cons h hs => exact lays_grouped (lays_foldl hs (lays_grouped h))

end Operand

/-! ## §3. Literals. -/

/-- The value of an entry is put together as the rule asks, also where it is quoted. -/
def EntryLays (r : Rule) (w : World) (s : State) (style : MapStyle) (entry : String × Operand)
    (vs : List Visit) : Prop :=
  r.text entry.1 ∧ ∃ us, vs = (if style.quotes entry.1 then us.map .hidden else us) ∧
    Ensures w (s.inScope .expression) (fun _ => entry.2.render) fun f ds =>
      Composed r w f ds us ∧ (style.quotes entry.1 → r.quoted f)

variable {style : MapStyle} {entries : List (String × Operand)}

/-- An entry with a text for its value. -/
theorem entryLays_token {key text : String} (hkey : r.text key) (htext : r.text text) :
    EntryLays r w s style (key, .token text) [] :=
  ⟨hkey, [], by simp, ensures_pure ⟨.text htext, fun _ => r.quoted_const text⟩⟩

theorem text_keyText {key : String} (h : r.text key) : r.text (style.keyText key) := by
  unfold MapStyle.keyText
  split
  · exact r.quote h
  · exact h

theorem ensures_entryTexts (hs : Each (EntryLays r w s style) entries vs) :
    Ensures w s (fun _ => entryTexts style entries) fun fs ds => ComposedAll r w fs ds vs := by
  induction hs with
  | nil => exact ensures_pure .nil
  | cons h _ ih =>
      obtain ⟨hkey, us, rfl, hvalue⟩ := h
      refine (Operand.ensures_text hvalue).bind fun f ds hf => ?_
      refine ih.map fun fs es hfs => .cons ?_ hfs
      have hhead : r.text (style.keyText _ ++ " : ") :=
        r.append (text_keyText hkey) (r.plain (by decide))
      cases hq : style.quotes _ with
      | true =>
          have hquote : ∀ text, style.valueText _ text = Text.quote text := fun _ => if_pos hq
          simp only [MapStyle.entryText, hquote, if_true]
          exact (Composed.quoted (hf.2 hq) hf.1).prepend hhead
      | false =>
          have hbare : ∀ text, style.valueText _ text = text :=
            fun _ => if_neg (by rw [← MapStyle.quotes, hq]; decide)
          simp only [MapStyle.entryText, hbare, Bool.false_eq_true, if_false]
          exact hf.1.prepend hhead

/-- The parts of the entries, a level deeper if each has a line of its own. -/
def entryParts (style : MapStyle) (vs : List Visit) : List Visit :=
  if style.inline then vs else vs.map .deeper

theorem lays_mapLiteral (hs : s.scope = .expression → Each (EntryLays r w s style) entries vs)
    (htype : ∀ t ∈ style.typeName, r.text t)
    (hnested : s.scope = .expression → style.inline = false → r.nested) :
    Lays r w s (mapLiteral style entries)
      (if s.scope = .expression then entryParts style vs else []) := by
  by_cases hscope : s.scope = .expression
  · rw [if_pos hscope]
    refine ensures_scope ?_
    rw [if_neg fun hne => hne hscope]
    refine (ensures_entryTexts (hs hscope)).bind fun fs ds hfs => ?_
    -- without entries a pair of braces, else all entries on one line or each on its own
    cases hfs with
    | nil =>
        have hempty : entryParts style [] = [] := by
          unfold entryParts
          split <;> rfl
        rw [hempty]
        exact (ensures_pure (Composed.text (w := w) (r.plain (s := "\x7b\x7d") (by decide)))).map
          fun _ _ hf => .typed hf htype
    | cons h hs' =>
        have hrow := ComposedAll.cons h hs'
        unfold entryParts
        cases hinline : style.inline with
        | true =>
            have hline := ((hrow.intercalate (r.plain (s := ", ") (by decide))).prepend
              (r.plain (s := "\x7b ") (by decide))).followed (r.plain (s := " \x7d") (by decide))
            rw [← List.append_nil (_ ++ _)] at hline
            exact (ensures_pure hline).map fun _ _ hf => .typed hf htype
        | false =>
            have hlines := hrow.intercalate (r.plain (s := ",\n") (by decide))
            refine (ensures_nestedLines (hnested hscope hinline)
              (r.plain (s := "\x7d") (by decide)) hlines).bind fun f es hf => ?_
            obtain ⟨rfl, hf⟩ := hf
            have hbody := hf.opened (show "\x7b\n" = "\x7b" ++ "\n" by decide)
              (r.plain (by decide))
            rw [← List.append_nil (_ ++ _)] at hbody
            exact (ensures_pure hbody).map fun _ _ hf => .typed hf htype
  · rw [if_neg hscope]
    refine ensures_scope ?_
    rw [if_pos hscope]
    exact lays_expectedScope _

/-- A literal as an annotation, in any scope. -/
theorem lays_annotation (h : Lays r w (s.inScope .expression) (mapLiteral style entries) vs) :
    Lays r w s (annotationLine style entries) vs :=
  (Ensures.run h).map fun _ _ hf =>
    (hf.prepend (r.plain (by decide))).followed (r.plain (by decide))

theorem lays_annotationLine (hs : Each (EntryLays r w (s.inScope .expression) style) entries vs)
    (htype : ∀ t ∈ style.typeName, r.text t) (hnested : style.inline = false → r.nested) :
    Lays r w s (annotationLine style entries) (entryParts style vs) :=
  lays_annotation (lays_mapLiteral (fun _ => hs) htype fun _ => hnested)

/-! ## §4. Parts in a row. -/

variable {parts : List Rendering}

theorem ensures_runAll {o : Overrides} (hs : Each (LaysPart r w (s.override o)) parts vs) :
    Ensures w s (fun _ => runAll o parts) fun fs ds => ComposedAll r w fs ds vs := by
  induction hs with
  | nil => exact ensures_pure .nil
  | cons h _ ih => exact (Leaves.run h).bind fun _ _ hf => ih.map fun _ _ hfs => .cons hf hfs

/-- Parts in a row that are not indented. -/
theorem lays_joined {join : Join} (hflat : join.indented = false)
    (hs : Each (LaysPart r w (s.override { scope := join.scope })) parts vs)
    (hseparator : r.text join.separator) (hending : r.text join.ending) :
    Lays r w s (joined join parts) vs := by
  unfold joined
  simp only [hflat, Bool.false_eq_true, if_false]
  refine (ensures_runAll hs).bind fun fs ds hfs => ?_
  cases hfs with
  | nil => exact ensures_pure (.text (r.plain (by decide)))
  | cons h hs' =>
      have hrow := ((ComposedAll.cons h hs').intercalate (r.append hseparator hending)).followed
        hending
      rw [← List.append_nil (_ ++ _)] at hrow
      exact ensures_pure hrow

/-- Parts in a row a level deeper, on lines of their own. -/
theorem ensures_joined {join : Join} (hdeep : join.indented = true) (hnested : r.nested)
    (hs : Each (LaysPart r w
      ({ s with indentDepth := s.indentDepth + 1 }.override { scope := join.scope })) parts vs)
    (hseparator : r.text join.separator) (hending : r.text join.ending) :
    Ensures w s (fun _ => joined join parts) fun f ds => OnLines r w f ds (vs.map .deeper) := by
  unfold joined
  simp only [hdeep, if_true]
  refine Ensures.within uniform_deeper (fun t _ => rfl) (ensures_runAll hs) fun fs ds hfs => ?_
  cases hfs with
  | nil =>
      exact ensures_pure fun _ hclose _ =>
        .text (r.append (r.plain (s := "\n" ++ "") (by decide)) hclose)
  | cons h hs' =>
      have hrow := ((ComposedAll.cons h hs').intercalate (r.append hseparator hending)).followed
        hending
      refine (ensures_nested hnested hrow).mono fun f es hf => ?_
      obtain ⟨rfl, hf⟩ := hf
      rwa [List.append_nil]

/-- A block of statements: what stands between its braces. -/
theorem ensures_block (spaced : Bool) (hnested : r.nested)
    (hs : Each (LaysPart r w s.inBody) parts vs) :
    Ensures w s (fun _ => block spaced parts) fun f ds =>
      ∃ g : Indent → String, f = (fun u => "\x7b\n" ++ g u ++ "\x7d\n") ∧
        OnLines r w g ds (vs.map .deeper) := by
  have hbody : Ensures w s (fun _ => blockBody spaced parts) fun f ds =>
      OnLines r w f ds (vs.map .deeper) := by
    refine ensures_state (fun _ t ht => by rw [ht.inUi]) ?_
    refine ensures_joined rfl hnested hs ?_ (r.plain (s := "") (by decide))
    show r.text (if _ then _ else _)
    split
    · exact r.plain (by decide)
    · exact r.plain (by decide)
  exact hbody.map fun f ds hf => ⟨f, rfl, hf⟩

theorem lays_block (spaced : Bool) (hnested : r.nested)
    (hs : Each (LaysPart r w s.inBody) parts vs) :
    Lays r w s (block spaced parts) (vs.map .deeper) := by
  refine (ensures_block spaced hnested hs).mono fun f ds hf => ?_
  obtain ⟨g, rfl, hg⟩ := hf
  exact hg.enclosed (show "\x7b\n" = "\x7b" ++ "\n" by decide) (r.plain (by decide))
    (r.plain (by decide)) (by decide)

/-- Statements in a row. -/
theorem lays_sequence {separator : String} (hseparator : r.text separator)
    (hs : Each (LaysPart r w (s.inScope .statement)) parts vs) :
    Lays r w s (sequence separator parts) vs :=
  lays_joined rfl hs hseparator (r.plain (s := "") (by decide))

end Render

end FeatureStudio
