/-
  FeatureStudio.Proofs.Render.Independence: what a node does, it does on its own.

  Rendered with overrides, a node gives the text and adds the warnings that it gives and adds in a
  fresh context with the same settings and the same state.  Nothing that was rendered before can
  be seen: neither its warnings, nor the states saved for it, nor what it did to the state.  The
  depth cannot be seen either, unless a snippet in the tree reads it.

  Main statements:
    * `Node.run_eq_fresh`: a node, alone and in any context with the same state.
    * `runAll_eq_fresh`: nodes in a row.
    * `joined_eq_fresh`: the text of nodes that are joined, and two runs of any node.
-/
import FeatureStudio.Proofs.Render.TreeComposition

namespace FeatureStudio

open Build Render

/-! ## §1. Fresh contexts. -/

/-- The context with the same settings and the same state, in which nothing was rendered. -/
def Context.fresh (c : Context) : Context := { c with stack := [], diagnostics := [] }

/-- The context at another depth. -/
def Context.atDepth (c : Context) (depth : Nat) : Context :=
  c.withState fun s => { s with indentDepth := depth }

/-- The context that the parts of a join are rendered in: a level deeper if they are indented. -/
def Render.Join.inner (join : Join) (c : Context) : Context :=
  if join.indented then c.withState fun s => { s with indentDepth := s.indentDepth + 1 } else c

/-- Texts in a row, with a text after every one and a text between them. -/
def Render.Join.row (join : Join) : List String → String
  | [] => ""
  | [text] => text ++ join.ending
  | text :: rest => text ++ join.separator ++ join.ending ++ row join rest

/-- The joined texts, a level deeper if they are indented. -/
def Render.Join.text (join : Join) (indent : Indent) (texts : List String) : String :=
  if join.indented then indent.lines (join.row texts) 1 else join.row texts

/-- No snippet in the tree reads the depth. -/
def Part.IgnoresDepth (s : State) (p : Part) : Prop :=
  ∀ t text sets, p.Reaches s t (.node (.snippet text sets)) →
    ∀ depth, text { t with indentDepth := depth } = text t

/-! ## §2. One node. -/

theorem World.writable_free (w : World) : w.Writable .free := ⟨trivial, fun _ => ⟨trivial, trivial⟩⟩

theorem Part.obeys_free {w : World} {s : State} {p : Part}
    (h : ∀ t text sets, p.Reaches s t (.node (.snippet text sets)) →
      ∀ t', t.Alike w.anyDepth t' → text t' = text t) : p.Obeys .free w s :=
  fun t _ hq => {
    texts := fun _ _ => trivial
    nested := fun _ => trivial
    quoted := fun _ _ _ _ _ => trivial
    tested := fun _ _ => trivial
    snippet := fun hp => ⟨trivial, h t _ _ (hp ▸ hq)⟩ }

/-- A node has one outcome in all contexts of a world. -/
theorem Node.exists_outcome {w : World} {s : State} (n : Node) {o : Overrides}
    (h : ∀ t text sets, (Part.node n).Reaches (s.override o) t (.node (.snippet text sets)) →
      ∀ t', t.Alike w.anyDepth t' → text t' = text t) :
    ∃ text : Indent → String, ∃ ds, ∀ c, w.Covers s c →
      run o n.build c = (text c.indent, c.reported ds) := by
  obtain ⟨text, ds, hyields, -⟩ := n.run_composed w.writable_free (Part.obeys_free h)
  exact ⟨text, ds, hyields⟩

/-- Alone and in any context with the same settings and the same state, a node gives the same text
and adds the same warnings. -/
theorem Node.run_eq_fresh (n : Node) (o : Overrides) (c : Context) :
    run o n.build c = ((n.rendered o c.fresh).1, c.reported (n.rendered o c.fresh).2) := by
  let w : World := ⟨c.stdVersion, c.documents, false⟩
  have hc : w.Covers c.state c := ⟨rfl, rfl, .refl _⟩
  have hfresh : w.Covers c.state c.fresh := ⟨rfl, rfl, .refl _⟩
  obtain ⟨text, ds, hout⟩ := n.exists_outcome (w := w) (s := c.state) (o := o)
    fun t _ _ _ t' ht' => by rw [State.Alike.eq ht']
  have hrendered : n.rendered o c.fresh = (text c.indent, ds) := by
    rw [rendered, hout c.fresh hfresh]
    rfl
  rw [hrendered, hout c hc]

/-- Where no snippet reads the depth, a node gives the same at every depth. -/
theorem Node.rendered_atDepth {n : Node} {o : Overrides} {c : Context}
    (h : (Part.node n).IgnoresDepth (c.state.override o)) (depth : Nat) :
    n.rendered o (c.fresh.atDepth depth) = n.rendered o c.fresh := by
  let w : World := ⟨c.stdVersion, c.documents, true⟩
  have hfresh : w.Covers c.state c.fresh := ⟨rfl, rfl, .refl _⟩
  have hdeeper : w.Covers c.state (c.fresh.atDepth depth) :=
    ⟨rfl, rfl, rfl, fun hfixed => by cases hfixed⟩
  obtain ⟨text, ds, hout⟩ := n.exists_outcome (w := w) (s := c.state) (o := o)
    fun t text sets ht t' ht' => by rw [ht'.flags, h t text sets ht]
  rw [rendered, rendered, hout _ hfresh, hout _ hdeeper]
  rfl

/-! ## §3. Nodes in a row. -/

/-- Each of the nodes is rendered as if it stood alone, and leaves its warnings to the next. -/
theorem Render.runAll_eq_fresh (o : Overrides) (ns : List Node) (c : Context) :
    runAll o (buildAll ns) c
      = (ns.map fun n => (n.rendered o c.fresh).1,
        c.reported (ns.flatMap fun n => (n.rendered o c.fresh).2)) := by
  induction ns generalizing c with
  | nil => rw [List.flatMap_nil, Context.reported_nil]; rfl
  | cons n ns ih =>
      rw [buildAll, runAll_cons, n.run_eq_fresh o c]
      show (_ :: (runAll o (buildAll ns) (c.reported _)).1,
        (runAll o (buildAll ns) (c.reported _)).2) = _
      rw [ih, Context.reported_reported]
      rfl

theorem Render.Join.row_eq (join : Join) {texts : List String} (h : texts ≠ []) :
    (join.separator ++ join.ending).intercalate texts ++ join.ending = join.row texts := by
  induction texts with
  | nil => exact absurd rfl h
  | cons text rest ih =>
      cases rest with
      | nil => rw [String.intercalate_singleton, row]
      | cons text' rest =>
          rw [String.intercalate_cons_cons, row, ← ih (List.cons_ne_nil _ _)]
          · simp only [String.append_assoc]
          · exact List.cons_ne_nil _ _

/-- Parts that leave only warnings behind are joined, and the depth is put back. -/
theorem Render.joined_of_runAll {join : Join} {parts : List Rendering} {c : Context}
    {texts : List String} {ds : List Diagnostic}
    (h : runAll { scope := join.scope } parts (join.inner c)
      = (texts, (join.inner c).reported ds)) :
    joined join parts c = (join.text c.indent texts, c.reported ds) := by
  have hjoined : (if texts.isEmpty then "" else
      (join.separator ++ join.ending).intercalate texts ++ join.ending) = join.row texts := by
    cases texts with
    | nil => rfl
    | cons text rest => exact join.row_eq (List.cons_ne_nil text rest)
  unfold Join.inner at h
  unfold Join.text joined
  rw [← hjoined]
  -- only parts that are indented are rendered at another depth
  cases hindented : join.indented with
  | false =>
      simp only [hindented, Bool.false_eq_true, if_false] at h ⊢
      show (if (runAll _ parts c).1.isEmpty then pure "" else pure _ : Rendering)
        (runAll _ parts c).2 = _
      rw [h]
      cases texts with
      | nil => rfl
      | cons => rfl
  | true =>
      simp only [hindented, if_true] at h ⊢
      show (if (runAll _ parts _).1.isEmpty then pure "" else indented _ 1 : Rendering)
        ((runAll _ parts (c.withState _)).2.withState _) = _
      rw [h]
      cases texts with
      | nil => rfl
      | cons => rfl

/-- **Siblings cannot influence each other.**  The text of nodes that are joined is the join of
the texts that each of them gives in a fresh context of its own, and the warnings that are added
are theirs, in order; state and saved states stay.  Nothing of a context but its settings and its
state is seen by any node, and of the state not the depth, unless a snippet reads it.  Snippets
are the only nodes here that are not of the library. -/
theorem Render.joined_eq_fresh (join : Join) (ns : List Node) (c : Context) :
    joined join (buildAll ns) c
        = (join.text c.indent
            (ns.map fun n => (n.rendered { scope := join.scope } (join.inner c).fresh).1),
          c.reported
            (ns.flatMap fun n => (n.rendered { scope := join.scope } (join.inner c).fresh).2))
    ∧ ∀ (n : Node) (o : Overrides),
      (∀ c' : Context, c'.fresh = c.fresh →
        run o n.build c' = ((n.rendered o c.fresh).1, c'.reported (n.rendered o c.fresh).2))
      ∧ ((Part.node n).IgnoresDepth (c.state.override o) →
        ∀ (depth : Nat) (c' : Context), c'.fresh = c.fresh.atDepth depth →
          run o n.build c' = ((n.rendered o c.fresh).1, c'.reported (n.rendered o c.fresh).2)) := by
  refine ⟨?_, fun n o => ⟨fun c' hc' => ?_, fun hdepth depth c' hc' => ?_⟩⟩
  · exact joined_of_runAll (runAll_eq_fresh { scope := join.scope } ns (join.inner c))
  · rw [← hc']
    exact n.run_eq_fresh o c'
  · rw [n.run_eq_fresh o c', hc', n.rendered_atDepth hdepth]

/-- A snippet that tells file level from other scopes ignores the depth: it gives the same at depth
three, after other warnings, and leaves the context as it was. -/
theorem Render.run_scopeSnippet :
    let n : Node := .snippet (fun s => if s.scope = .top then "top" else "inner")
      { inUi := some true }
    let earlier : Diagnostic := ⟨.statement, "earlier", none⟩
    let c : Context := { state := { indentDepth := 3 }, stack := [{}], diagnostics := [earlier] }
    (Part.node n).IgnoresDepth {} ∧ run {} n.build c = ("top", c) := by
  intro n earlier c
  have hdepth : (Part.node n).IgnoresDepth {} := by
    intro t text sets ht depth
    unfold n at ht
    cases ht with
    | refl => rfl
    | step hv => exact absurd hv List.not_mem_nil
  exact ⟨hdepth, ((joined_eq_fresh {} [] {}).2 n {}).2 hdepth 3 c rfl⟩

end FeatureStudio
