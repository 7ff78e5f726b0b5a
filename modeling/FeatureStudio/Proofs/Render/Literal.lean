/-
  FeatureStudio.Proofs.Render.Literal: the text of map literals and annotations.

  The values of a literal are rendered one by one, each as if it stood alone inside the literal, and
  come back as rows of keys and values.

  Main statements:
    * `Node.text_run_congr`: what the text of a node depends on.
    * `entryTexts_eq_fresh`: the rows of a literal.
    * `Node.text_map`: a literal as an operand.
    * `Node.build_annotations`: an annotation is its literal behind a word.
-/
import FeatureStudio.Proofs.Render.Independence

namespace FeatureStudio

open Build Render

/-- The text of an expression as an operand. -/
def Expr.textIn (e : Expr) (c : Context) : String := (runIn .expression (Node.expr e).build c).1

/-- The context inside an annotation. -/
def Context.inAnnotation (c : Context) : Context := c.withState (·.override (.inScope .expression))

/-- Rows in braces, as a style lays them out. -/
def MapStyle.braced (style : MapStyle) (indent : Indent) (rows : List String) : String :=
  if rows.isEmpty then "\x7b\x7d"
  else if style.inline then "\x7b " ++ ", ".intercalate rows ++ " \x7d"
  else "\x7b\n" ++ indent.lines (",\n".intercalate rows ++ "\n") 1 ++ "\x7d"

/-- A literal cast to the type of a style, if it has one. -/
def MapStyle.typed (style : MapStyle) (literal : String) : String :=
  match style.typeName with
  | some typeName => literal ++ " as " ++ typeName
  | none => literal

/-- The text of a literal in the context inside it. -/
def MapLiteral.text (m : MapLiteral) (c : Context) : String :=
  m.style.typed
    (m.style.braced c.indent (m.entries.map fun p => m.style.entryText p.1 (p.2.textIn c)))

/-- What a node gives with overrides depends on the settings and on the state as overridden. -/
theorem Node.text_run_congr (n : Node) {o o' : Overrides} {c c' : Context}
    (hversion : c'.stdVersion = c.stdVersion) (hindent : c'.indent = c.indent)
    (hdocuments : c'.documents = c.documents)
    (hstate : c'.state.override o' = c.state.override o) :
    (run o' n.build c').1 = (run o n.build c).1 := by
  let w : World := ⟨c.stdVersion, c.documents, false⟩
  have hc : w.Covers (c.state.override o) (c.save.withState (·.override o)) := ⟨rfl, rfl, .refl _⟩
  have hc' : w.Covers (c.state.override o) (c'.save.withState (·.override o')) :=
    ⟨hversion, hdocuments, hstate ▸ .refl _⟩
  obtain ⟨text, ds, hbuild, -⟩ := n.composes w.writable_free (c.state.override o)
    (Part.obeys_free fun t _ _ _ t' ht' => by rw [State.Alike.eq ht'])
  obtain ⟨_, htext⟩ := hbuild _ hc
  obtain ⟨_, htext'⟩ := hbuild _ hc'
  calc (run o' n.build c').1
      = text c'.indent := congrArg Prod.fst htext'
    _ = text c.indent := congrArg text hindent
    _ = (run o n.build c).1 := (congrArg Prod.fst htext).symm

namespace Expr

theorem textIn_token (text : String) (c : Context) : (Expr.token text).textIn c = text := rfl

/-- Only settings and state of the context count. -/
theorem textIn_congr (e : Expr) {c c' : Context} (h : c'.fresh = c.fresh) :
    e.textIn c' = e.textIn c := by
  unfold textIn runIn
  rw [Node.run_eq_fresh, Node.run_eq_fresh, h]

/-- Rendering an operand leaves nothing behind but warnings. -/
theorem text_operand (e : Expr) (c : Context) :
    ∃ ds, e.operand.text c = (e.textIn c, c.reported ds) := by
  obtain ⟨text, ds, hrun⟩ : ∃ text ds,
      runIn .expression (Node.expr e).build c = (text, c.reported ds) :=
    ⟨_, _, (Node.expr e).run_eq_fresh (.inScope .expression) c⟩
  have htext : e.textIn c = text := congrArg Prod.fst hrun
  rw [htext]
  exact ⟨ds, hrun⟩

end Expr

/-- **The rows of a literal**, each value rendered as if it stood alone. -/
theorem Render.entryTexts_eq_fresh (style : MapStyle) (entries : List (String × Expr))
    (c : Context) :
    ∃ ds, entryTexts style (entryOperands entries) c
      = (entries.map fun p => style.entryText p.1 (p.2.textIn c), c.reported ds) := by
  induction entries generalizing c with
  | nil => exact ⟨[], by rw [Context.reported_nil]; rfl⟩
  | cons entry rest ih =>
      obtain ⟨ds, hvalue⟩ := entry.2.text_operand c
      obtain ⟨ds', hrest⟩ := ih (c.reported ds)
      have hfresh : ∀ p : String × Expr, p.2.textIn (c.reported ds) = p.2.textIn c := fun p =>
        p.2.textIn_congr rfl
      have hcons : entryTexts style (entryOperands (entry :: rest)) c
          = (let r := entry.2.operand.text c
            let rs := entryTexts style (entryOperands rest) r.2
            (style.entryText entry.1 r.1 :: rs.1, rs.2)) := rfl
      refine ⟨ds ++ ds', ?_⟩
      rw [hcons, hvalue]
      simp only [hrest, hfresh, List.map_cons, Context.reported_reported]

/-- A literal is made of its rows, where expressions stand. -/
theorem Render.mapLiteral_eq {style : MapStyle} {entries : List (String × Operand)} {c c' : Context}
    (hc : c.state.scope = .expression) {rows : List String}
    (h : entryTexts style entries c = (rows, c')) :
    mapLiteral style entries c = (style.typed (style.braced c'.indent rows), c') := by
  have hbind : ∀ next : List String → Rendering,
      (entryTexts style entries >>= next) c = next rows c' := fun next => by
    show next (entryTexts style entries c).1 (entryTexts style entries c).2 = _
    rw [h]
  refine (scope_bind hc).trans ?_
  rw [if_neg (not_not_intro rfl), hbind]
  unfold MapStyle.braced
  cases rows.isEmpty with
  | true => rfl
  | false =>
      cases style.inline with
      | true => rfl
      | false => rfl

/-- **A literal as an operand**, its values rendered where the literal stands. -/
theorem Node.text_map (m : MapLiteral) (c : Context) :
    (runIn .expression (Node.map m).build c).1 = m.text c := by
  obtain ⟨style, entries⟩ := m
  obtain ⟨ds, hrows⟩ := entryTexts_eq_fresh style entries (c.save.withState
    (·.override (.inScope .expression)))
  have hvalue : ∀ p : String × Expr,
      p.2.textIn (c.save.withState (·.override (.inScope .expression))) = p.2.textIn c := fun p =>
    (Node.expr p.2).text_run_congr rfl rfl rfl rfl
  simp only [hvalue] at hrows
  exact congrArg Prod.fst (mapLiteral_eq rfl hrows)

/-- An annotation in any scope. -/
theorem Render.annotationLine_eq {style : MapStyle} {entries : List (String × Operand)}
    {c c' : Context} {rows : List String}
    (h : entryTexts style entries (c.save.withState (·.override (.inScope .expression)))
      = (rows, c')) :
    annotationLine style entries c
      = ("annotation " ++ style.typed (style.braced c'.indent rows) ++ "\n", c'.restore) := by
  let inner := c.save.withState (·.override (.inScope .expression))
  have hliteral : mapLiteral style entries inner = _ := mapLiteral_eq rfl h
  show ("annotation " ++ (mapLiteral style entries inner).1 ++ "\n",
    (mapLiteral style entries inner).2.restore) = _
  rw [hliteral]

/-- **An annotation is its literal behind a word**, on a line of its own. -/
theorem Node.build_annotations (m : MapLiteral) (c : Context) :
    ∃ ds, (Node.annotations m).build c
      = ("annotation " ++ m.text c.inAnnotation ++ "\n", c.reported ds) := by
  obtain ⟨style, entries⟩ := m
  let inner := c.save.withState (·.override (.inScope .expression))
  obtain ⟨ds, hrows⟩ := entryTexts_eq_fresh style entries inner
  have hfresh : ∀ p : String × Expr, p.2.textIn inner = p.2.textIn c.inAnnotation := fun p =>
    p.2.textIn_congr rfl
  simp only [hfresh] at hrows
  exact ⟨ds, annotationLine_eq hrows⟩

end FeatureStudio
