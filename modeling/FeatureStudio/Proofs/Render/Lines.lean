/-
  FeatureStudio.Proofs.Render.Lines: the lines of a rendering, and how deep they are.

  Indentation is applied again at every level to text that is rendered already.  Still the text of
  a node is one list of lines, each with its depth, whatever a unit of indentation is; and the
  lines of a part are among them, as many levels deeper as there are indenting constructs round
  it.  This takes that what is put on one line has no indentation: values that are quoted, and
  the bodies of test predicates, which may be put into a comment.

  Main statements:
    * `Composed.constant`: without indenting constructs no unit is seen.
    * `Composed.laid`: the layout of a text that is put together, and of the parts in it.
    * `Node.run_lines`: the lines of a node.
-/
import FeatureStudio.Proofs.Render.TreeComposition
import FeatureStudio.Proofs.Text.Layout

namespace FeatureStudio

open Build Render

/-! ## §1. Texts without indentation. -/

/-- The text is the same for every indentation. -/
def IsConstant (f : Indent → String) : Prop := ∃ text, f = fun _ => text

/-- Nothing is indented. -/
def Rule.flat : Rule := { Rule.free with nested := False }

/-- Without indenting constructs no unit is seen. -/
theorem Composed.constant {w : World} {f : Indent → String} {ds : List Diagnostic}
    {vs : List Visit} (h : Composed .flat w f ds vs) : IsConstant f := by
  induction h with
  | text _ => exact ⟨_, rfl⟩
  | violation _ _ => exact ⟨_, rfl⟩
  | warned _ _ _ _ ih => exact ih
  | append _ _ ihf ihg =>
      obtain ⟨s, rfl⟩ := ihf
      obtain ⟨t, rfl⟩ := ihg
      exact ⟨s ++ t, rfl⟩
  | nested hr => exact hr.elim
  | quoted _ _ ih =>
      obtain ⟨s, rfl⟩ := ih
      exact ⟨Text.quote s, rfl⟩
  | apart _ ih =>
      obtain ⟨s, rfl⟩ := ih
      exact ⟨_, rfl⟩
  | tested _ _ _ ihf ihg =>
      obtain ⟨s, rfl⟩ := ihf
      obtain ⟨t, rfl⟩ := ihg
      exact ⟨testBody s t, rfl⟩
  | part _ _ _ _ ih => exact ih

/-! ## §2. Layouts. -/

/-- The text is printed from the layout, for every indentation; a line that has begun behind it
has no depth. -/
structure Prints (L : Layout) (f : Indent → String) : Prop where
  flush : L.Flush false
  depth : L.lineDepth 0 = 0
  eq : ∀ u, (f u).toList = L.print u.unit.toList

namespace Prints

variable {L M : Layout} {f g : Indent → String}

theorem const (text : String) : Prints (Layout.ofChars text.toList) fun _ => text :=
  ⟨.ofChars _ _, by rw [Layout.lineDepth_ofChars, ite_self],
    fun _ => (Layout.print_ofChars _ _).symm⟩

theorem append (hf : Prints L f) (hg : Prints M g) : Prints (L ++ M) fun u => f u ++ g u :=
  ⟨hf.flush.append hg.flush, by rw [Layout.lineDepth_append, hf.depth, hg.depth], fun u => by
    rw [String.toList_append, hf.eq, hg.eq, Layout.print_append]⟩

theorem nested (hf : Prints L f) {close : String} (hends : '\n' ∈ close.toList) :
    Prints (.char '\n' :: Layout.deepen 1 true L ++ Layout.ofChars close.toList)
      fun u => "\n" ++ u.lines (f u) 1 ++ close := by
  have hflush : Layout.Flush false (.char '\n' :: Layout.deepen 1 true L) :=
    (hf.flush.mono true).deepen 1 true id
  refine ⟨hflush.append (.ofChars _ _), ?_, fun u => ?_⟩
  · rw [Layout.lineDepth_append, Layout.lineDepth_ofChars, if_pos hends]
  · rw [String.toList_append, String.toList_append, Indent.toList_lines_one, hf.eq,
      Layout.print_append, Layout.print_ofChars, Layout.print,
      Layout.print_deepen u.lineFeed_not_mem_unit]
    rfl

/-- What is on one line has no indentation. -/
theorem constant_of_line (hf : Prints L f) (h : ∀ u, '\n' ∉ (f u).toList) : IsConstant f := by
  have hline : .char '\n' ∉ L := fun hmem => h Indent.standard (by
    rw [hf.eq]
    exact Layout.mem_print hmem)
  obtain ⟨cs, rfl⟩ := hf.flush.eq_ofChars hline
  refine ⟨String.ofList cs, funext fun u => String.toList_inj.mp ?_⟩
  rw [hf.eq, Layout.print_ofChars, String.toList_ofList]

/-- How a text begins does not depend on the indentation. -/
theorem head_eq (hf : Prints L f) (u u' : Indent) :
    (f u).toList.head? = (f u').toList.head? := by
  rw [hf.eq, hf.eq]
  cases L with
  | nil => rfl
  | cons c L =>
      cases c with
      | level => exact absurd hf.flush.1 (by decide)
      | char c => rfl

end Prints

/-- Where a part is not hidden, all it encloses has a layout that stands in this one, as deep as it
is enclosed. -/
def World.Stands (w : World) (L : Layout) (vs : List Visit) : Prop :=
  ∀ v ∈ vs, ∀ j, v.levels = some j → ∀ k t q, v.part.Encloses v.state k t q →
    ∃ T, Prints T (w.value t q.rendering) ∧ L.Holds (j + k) T

namespace World.Stands

variable {w : World} {L M : Layout} {vs ws : List Visit}

theorem append_right (h : w.Stands L vs) (M : Layout) : w.Stands (L ++ M) vs := by
  intro v hv j hj k t q hq
  obtain ⟨T, hT, hholds⟩ := h v hv j hj k t q hq
  exact ⟨T, hT, hholds.append_right M⟩

theorem append_left {f : Indent → String} (hM : Prints M f) (h : w.Stands L vs) :
    w.Stands (M ++ L) vs := by
  intro v hv j hj k t q hq
  obtain ⟨T, hT, hholds⟩ := h v hv j hj k t q hq
  exact ⟨T, hT, hholds.append_left hM.flush hM.depth⟩

theorem both (h : w.Stands L vs) (h' : w.Stands L ws) : w.Stands L (vs ++ ws) :=
  fun v hv => (List.mem_append.mp hv).elim (h v) (h' v)

theorem nested (h : w.Stands L vs) :
    w.Stands (.char '\n' :: Layout.deepen 1 true L) (vs.map .deeper) := by
  intro v hv j hj k t q hq
  obtain ⟨v, hmem, rfl⟩ := List.mem_map.mp hv
  obtain ⟨i, hi, rfl⟩ := Option.map_eq_some_iff.mp hj
  obtain ⟨T, hT, hholds⟩ := h v hmem i hi k t q hq
  refine ⟨T, hT, ?_⟩
  rw [Nat.add_right_comm]
  exact hholds.nested

/-- Of a part that is hidden nothing is said. -/
theorem hidden (L : Layout) (vs : List Visit) : w.Stands L (vs.map .hidden) := by
  intro v hv j hj
  obtain ⟨v, -, rfl⟩ := List.mem_map.mp hv
  cases hj

/-- Behind a constant text the same parts stand. -/
theorem exists_behind {f : Indent → String} (text : String) (hL : Prints L f)
    (h : w.Stands L vs) : ∃ M, Prints M (fun u => text ++ f u) ∧ w.Stands M vs :=
  ⟨_, (Prints.const text).append hL, h.append_left (Prints.const text)⟩

end World.Stands

/-- What is quoted, and what may be put into a comment, has no indentation. -/
def Rule.laid : Rule :=
  { Rule.free with
    quoted := fun f => (∀ u, '\n' ∉ (f u).toList) ∨ IsConstant f
    tested := fun f _ g _ => f = g ∨ IsConstant f ∧ IsConstant g
    quoted_const := fun s => .inr ⟨s, rfl⟩
    tested_same := fun _ => .inl rfl }

/-- A text that is put together has a layout in which its parts stand. -/
theorem Composed.laid {w : World} {f : Indent → String} {ds : List Diagnostic} {vs : List Visit}
    (h : Composed .laid w f ds vs) : ∃ L, Prints L f ∧ w.Stands L vs := by
  -- one layout for all units: text that is put around or behind is the same in each of them
  induction h with
  | text _ => exact ⟨_, .const _, fun v hv => by cases hv⟩
  | violation _ _ => exact ⟨_, .const _, fun v hv => by cases hv⟩
  | warned _ _ _ _ ih => exact ih
  | append _ _ ihf ihg =>
      obtain ⟨L, hL, hsL⟩ := ihf
      obtain ⟨M, hM, hsM⟩ := ihg
      exact ⟨L ++ M, hL.append hM, (hsL.append_right M).both (hsM.append_left hL)⟩
  | nested _ _ hends _ ih =>
      obtain ⟨L, hL, hs⟩ := ih
      exact ⟨_, hL.nested hends, hs.nested.append_right _⟩
  -- the text is the same for all units, and nothing is said of what stands in it
  | quoted hr _ ih =>
      obtain ⟨L, hL, -⟩ := ih
      obtain ⟨s, rfl⟩ := hr.elim hL.constant_of_line id
      exact ⟨_, .const (Text.quote s), .hidden _ _⟩
  | @apart f ds vs _ ih =>
      obtain ⟨L, hL, hs⟩ := ih
      -- whether parentheses are put does not depend on the unit
      have hhead := fun u => hL.head_eq u Indent.standard
      simp only [hhead]
      split
      · obtain ⟨M, hM, hsM⟩ := hs.exists_behind "(" hL
        exact ⟨_, hM.append (.const ")"), hsM.append_right _⟩
      · exact ⟨L, hL, hs⟩
  | @tested f g ds es vs ws hr _ _ _ ihg =>
      obtain ⟨M, hM, hs⟩ := ihg
      rcases hr with rfl | ⟨⟨s, rfl⟩, t, rfl⟩
      · have hsame : (fun u => testBody (f u) (f u)) = f := funext fun u => if_pos rfl
        rw [hsame]
        exact ⟨M, hM, (World.Stands.hidden _ _).both hs⟩
      · simp only [testBody]
        split
        · rename_i heq
          subst heq
          exact ⟨M, hM, (World.Stands.hidden _ _).both hs⟩
        · obtain ⟨N, hN, hsN⟩ :=
            hs.exists_behind ("/* " ++ Text.onOneLine (Text.trimEnd s) ++ " */\n") hM
          exact ⟨N, hN, (World.Stands.hidden _ _).both hsN⟩
  | @part f ds s p hf _ ih =>
      obtain ⟨L, hL, hs⟩ := ih
      refine ⟨L, hL, fun v hv j hj k t q hq => ?_⟩
      obtain rfl := List.mem_singleton.mp hv
      cases hj
      cases hq with
      | refl => exact ⟨L, hf ▸ hL, .refl L⟩
      | step hv hj h =>
          rw [Nat.zero_add]
          exact hs _ hv _ hj _ _ _ h

/-! ## §3. Nodes. -/

/-- The world of a context, at its depth. -/
def Context.world (c : Context) : World := ⟨c.stdVersion, c.documents, false⟩

/-- The text is that of the lines, each behind as many units as it is deep. -/
structure HasLines (f : Indent → String) (ls : List Layout.Line) : Prop where
  lines : Layout.AreLines ls
  eq : ∀ u, f u = String.ofList (ls.flatMap (Layout.Line.print u.unit.toList))

theorem Prints.hasLines {L : Layout} {f : Indent → String} (h : Prints L f) :
    HasLines f L.lines := by
  refine ⟨h.flush.areLines, fun u => String.toList_inj.mp ?_⟩
  rw [h.eq, h.flush.print_eq, String.toList_ofList]

/-- The values that are quoted in the tree are rendered on one line. -/
def Part.QuotesLines (w : World) (s : State) (p : Part) : Prop :=
  ∀ t style entries, p.Reaches s t (.literal (.mk style entries)) → t.scope = .expression →
    ∀ e ∈ entries, style.quotes e.1 →
      ∀ u, '\n' ∉ (w.value (t.inScope .expression) e.2.render u).toList

/-- What is reached in the bodies of the test predicates that are declared in the tree. -/
def Part.Tests (s : State) (p : Part) (t' : State) (q : Part) : Prop :=
  ∃ t name exported tests, p.Reaches s t (.node (.testPredicate name exported tests))
    ∧ t.scope = .top ∧ ∃ e ∈ tests, ∃ inlined, (Part.expr e).Reaches (t.inTests inlined) t' q

/-- Where nothing is indented in its tests, the body of a test predicate shows no unit. -/
theorem isConstant_testStatements {w : World} (hdepth : w.anyDepth = false) {s : State}
    {tests : List Expr} (inlined : Bool)
    (h : ∀ e ∈ tests, ∀ t q, (Part.expr e).Reaches (s.inTests inlined) t q →
      q.indents t = false) :
    IsConstant (w.value s.inBody (testStatements inlined (operands tests))) := by
  have hw : w.Writable .flat := ⟨trivial, fun _ => ⟨trivial, trivial⟩⟩
  have hobeys : ∀ e ∈ tests, (Part.expr e).Obeys .flat w (s.inTests inlined) :=
    fun e he t q hq => {
      texts := fun _ _ => trivial
      nested := fun hi => absurd hi (by rw [h e he t q hq]; decide)
      quoted := fun _ _ _ _ _ => trivial
      tested := fun _ _ => trivial
      snippet := fun _ => ⟨trivial, fun t' ht' => by
        rw [hdepth] at ht'
        rw [ht'.eq]⟩ }
  have heach : Each (fun o vs => Lays .flat w (s.inTests inlined) o.render vs) (operands tests)
      (visits .expr (s.inTests inlined) tests) := by
    rw [operands_eq]
    exact Each.map _ _ fun e he => e.composes hw _ (hobeys e he)
  obtain ⟨f, ds, -, ⟨rfl, -⟩, hf⟩ := Ensures.value (lays_testStatements inlined heach)
  exact hf.constant

theorem Part.obeys_laid {w : World} (hdepth : w.anyDepth = false) {s : State} {p : Part}
    (hquotes : p.QuotesLines w s) (htests : ∀ t q, p.Tests s t q → q.indents t = false) :
    p.Obeys .laid w s := fun t q hq => {
  texts := fun _ _ => trivial
  nested := fun _ => trivial
  quoted := fun hp ht e he hqu => .inl (hquotes t _ _ (hp ▸ hq) ht e he hqu)
  tested := fun hp ht => .inr (by
    have hflat : ∀ inlined, IsConstant (w.value t.inBody (testStatements inlined (operands _))) :=
      fun inlined => isConstant_testStatements hdepth inlined fun e he t' q' hq' =>
        htests t' q' ⟨t, _, _, _, hp ▸ hq, ht, e, he, inlined, hq'⟩
    exact ⟨hflat false, hflat true⟩)
  snippet := fun _ => ⟨trivial, fun t' ht' => by
    rw [hdepth] at ht'
    rw [ht'.eq]⟩ }

/-- **Indentation is cumulative, whatever a unit is.**  If what is quoted is on one line, and
nothing is indented in the bodies of test predicates, the text of a node has the same lines for
every indentation, each as many units deep.  The lines of a part that is enclosed by indenting
constructs are among them, one level deeper for each of these.  Nodes that are not of the library
are snippets, which indent nothing. -/
theorem Node.run_lines (n : Node) (o : Overrides) (c : Context)
    (hquotes : (Part.node n).QuotesLines c.world (c.state.override o))
    (htests : ∀ t q, (Part.node n).Tests (c.state.override o) t q → q.indents t = false) :
    ∃ ls, HasLines (fun u => (run o n.build { c with indent := u }).1) ls
      ∧ ∀ k t q, (Part.node n).Encloses (c.state.override o) k t q →
        ∃ own, HasLines (c.world.value t q.rendering) own ∧ Layout.Among ls k own := by
  have hw : c.world.Writable .laid := ⟨trivial, fun _ => ⟨trivial, trivial⟩⟩
  obtain ⟨f, ds, hrun, hf⟩ := n.run_composed hw (Part.obeys_laid rfl hquotes htests)
  obtain ⟨L, hL, hstands⟩ := hf.laid
  have htext : (fun u => (run o n.build { c with indent := u }).1) = f := funext fun u =>
    congrArg Prod.fst (hrun { c with indent := u } ⟨rfl, rfl, .refl _⟩)
  refine ⟨L.lines, htext ▸ hL.hasLines, fun k t q hq => ?_⟩
  obtain ⟨T, hT, hholds⟩ := hstands _ List.mem_cons_self 0 rfl k t q hq
  rw [Nat.zero_add] at hholds
  exact ⟨T.lines, hT.hasLines, hholds.among hT.flush⟩

/-- The lines of its one test are those of a test predicate, one level deep. -/
theorem Node.testPredicate_run_lines :
    let test : Expr := .token "definition.solid"
    let n : Node := .testPredicate "isSolid" true [test]
    let c : Context := {}
    ∃ ls, HasLines (fun u => (run {} n.build { c with indent := u }).1) ls
      ∧ ∃ own, HasLines (c.world.value (c.state.inTests true) test.render) own
        ∧ Layout.Among ls 1 own := by
  intro test n c
  -- the predicate and its test are all there is, and neither is a literal
  have hreached : ∀ {s t : State} {p q : Part}, p.Reaches s t q →
      p = .node n ∨ p = .expr test → q = .node n ∨ q = .expr test := by
    refine fun h => h.preserves (P := fun q => q = .node n ∨ q = .expr test) ?_
    rintro p s v (rfl | rfl) hv
    · simp only [n, Part.parts, Node.parts] at hv
      split at hv
      · simp only [List.map_cons, List.map_nil, List.cons_append, List.nil_append, List.mem_cons,
          List.not_mem_nil, or_false] at hv
        rcases hv with rfl | rfl
        · exact .inr rfl
        · exact .inr rfl
      · cases hv
    · cases hv
  have hquotes : (Part.node n).QuotesLines c.world (c.state.override {}) := by
    intro t style entries ht
    rcases hreached ht (.inl rfl) with h | h
    · cases h
    · cases h
  have htests : ∀ t q, (Part.node n).Tests (c.state.override {}) t q → q.indents t = false := by
    rintro t' q ⟨t, name, exported, tests, ht, -, e, he, inlined, hq⟩
    have hsame : tests = [test] := by
      rcases hreached ht (.inl rfl) with h | h
      · exact (Node.testPredicate.inj (Part.node.inj h)).2.2
      · cases h
    rw [hsame] at he
    cases List.mem_singleton.mp he
    cases hq with
    | refl => rfl
    | step hv => cases hv
  obtain ⟨ls, hls, hown⟩ := n.run_lines {} c hquotes htests
  have hencloses : (Part.node n).Encloses (c.state.override {}) 1 (c.state.inTests true)
      (.expr test) :=
    .step (v := ⟨c.state.inTests true, .expr test, some 1⟩)
      (List.mem_cons_of_mem _ List.mem_cons_self) rfl (.refl _ _)
  exact ⟨ls, hls, hown 1 _ _ hencloses⟩

/-! ## §4. Where a block is tested. -/

/-- Tabs stand at the beginnings of lines only. -/
def tabsLead : (start : Bool) → List Char → Bool
  | _, [] => true
  | start, c :: rest => if c = '\t' then start && tabsLead true rest else tabsLead (c == '\n') rest

theorem tabsLead_append {cs : List Char} (h : '\t' ∉ cs) (start : Bool) (rest : List Char) :
    tabsLead start (cs ++ rest) = tabsLead (Text.lineStart start cs) rest := by
  induction cs generalizing start with
  | nil => rfl
  | cons c cs ih =>
      rw [List.mem_cons, not_or] at h
      rw [List.cons_append, tabsLead, if_neg fun hc => h.1 hc.symm, ih h.2]
      rfl

theorem tabsLead_units (depth : Nat) (rest : List Char) :
    tabsLead true ((List.replicate depth ['\t']).flatten ++ rest) = tabsLead true rest := by
  induction depth with
  | zero => rfl
  | succ depth ih => exact ih

/-- Lines without tabs have tabs in front of them only. -/
theorem tabsLead_lines {ls : List Layout.Line} (h : Layout.AreLines ls)
    (htabs : ∀ l ∈ ls, '\t' ∉ l.text) :
    tabsLead true (ls.flatMap (Layout.Line.print ['\t'])) = true := by
  induction h with
  | nil => rfl
  | @last l hne hl =>
      rw [List.flatMap_singleton, Layout.Line.print, tabsLead_units, ← List.append_nil l.text,
        tabsLead_append (htabs l List.mem_cons_self)]
      rfl
  | @cons cs depth ls hcs hblank _ ih =>
      have hline : '\t' ∉ cs ++ ['\n'] := htabs _ List.mem_cons_self
      rw [List.flatMap_cons, Layout.Line.print, List.append_assoc, tabsLead_units,
        tabsLead_append hline, Text.lineStart_append]
      exact ih fun l hl => htabs l (List.mem_cons_of_mem _ hl)

theorem HasLines.tabsLead {f : Indent → String} {ls : List Layout.Line} (h : HasLines f ls)
    (htabs : '\t' ∉ (f (.spaces 0)).toList) : tabsLead true (f .tab).toList = true := by
  rw [h.eq .tab, String.toList_ofList]
  refine tabsLead_lines h.lines fun l hl hmem => htabs ?_
  rw [h.eq, String.toList_ofList]
  exact List.mem_flatMap.mpr ⟨l, hl, List.mem_append_right _ hmem⟩

/-- A test predicate that tests a block and calls another predicate. -/
def blockTest : Node :=
  .testPredicate "p" true
    [.node (.block false [.expr (.token "x")]), .node (.testCall "q" [.token "y"])]

/-- All that is reached in it, in whatever state. -/
def blockTestParts : List Part :=
  [.node blockTest, .expr (.node (.block false [.expr (.token "x")])),
    .expr (.node (.testCall "q" [.token "y"])), .node (.block false [.expr (.token "x")]),
    .node (.testCall "q" [.token "y"]), .node (.expr (.token "x")), .expr (.token "x"),
    .expr (.token "y")]

theorem part_mem_blockTestParts {p : Part} {s : State} {v : Visit} (hp : p ∈ blockTestParts)
    (hv : v ∈ p.parts s) : v.part ∈ blockTestParts := by
  simp only [blockTestParts, List.mem_cons, List.not_mem_nil, or_false] at hp ⊢
  -- what a part renders depends on the scope and on the flag; there are eight parts in all
  rcases hp with rfl | rfl | rfl | rfl | rfl | rfl | rfl | rfl
  · have hv : v ∈ if s.scope = .top then _ else _ := hv
    split at hv
    · simp only [List.map_cons, List.map_nil, List.cons_append, List.nil_append, List.mem_cons,
        List.not_mem_nil, or_false] at hv
      rcases hv with rfl | rfl | rfl | rfl <;> simp
    · cases hv
  · simp [List.mem_singleton.mp hv]
  · simp [List.mem_singleton.mp hv]
  · simp [List.mem_singleton.mp hv, Visit.statement]
  · have hv : v ∈ if s.scope = .top then _ else if s.inTest then _ else _ := hv
    split at hv
    · cases hv
    · split at hv
      · simp [List.mem_singleton.mp hv, Visit.operand]
      · cases hv
  · have hv : v ∈ if s.scope = .top then _ else _ := hv
    split at hv
    · cases hv
    · simp [List.mem_singleton.mp hv]
  · cases hv
  · cases hv

/-- There is no call on several lines among them, and no literal. -/
theorem blockTestParts_plain {q : Part} (hq : q ∈ blockTestParts) :
    (∀ name args, q ≠ .expr (.call name args true))
      ∧ ∀ style entries, q ≠ .literal (.mk style entries) := by
  simp only [blockTestParts, List.mem_cons, List.not_mem_nil, or_false] at hq
  rcases hq with rfl | rfl | rfl | rfl | rfl | rfl | rfl | rfl <;> simp

theorem reached_mem_blockTestParts {s t : State} {q : Part}
    (h : (Part.node blockTest).Reaches s t q) : q ∈ blockTestParts :=
  h.preserves part_mem_blockTestParts List.mem_cons_self

theorem tested_mem_blockTestParts {s t : State} {q : Part}
    (h : (Part.node blockTest).Tests s t q) : q ∈ blockTestParts := by
  obtain ⟨t', name, exported, tests, ht, htop, e, he, inlined, hq⟩ := h
  have hvisit : (⟨t'.inTests true, .expr e, some 1⟩ : Visit)
      ∈ (Part.node (.testPredicate name exported tests)).parts t' := by
    simpa [Part.parts, Node.parts, htop] using he
  exact hq.preserves part_mem_blockTestParts
    (part_mem_blockTestParts (reached_mem_blockTestParts ht) hvisit)

/-- A block in the body of a test predicate that also calls another one is put on one line, and
its indentation with it: such a text has no lines in common for all units. -/
theorem Node.not_hasLines_of_block :
    ¬ ∀ (n : Node) (o : Overrides) (c : Context),
      (Part.node n).QuotesLines c.world (c.state.override o) →
      (∀ t q, (Part.node n).Tests (c.state.override o) t q →
        (∀ name args, q ≠ .expr (.call name args true))
          ∧ ∀ style entries, q = .literal (.mk style entries) → style.inline = true) →
      ∃ ls, HasLines (fun u => (run o n.build { c with indent := u }).1) ls := by
  intro h
  have hquotes : (Part.node blockTest).QuotesLines ({} : Context).world {} :=
    fun t style entries ht =>
      absurd rfl ((blockTestParts_plain (reached_mem_blockTestParts ht)).2 style entries)
  obtain ⟨ls, hls⟩ := h blockTest (.inScope .top) {} hquotes fun t q hq => by
    obtain ⟨hcall, hliteral⟩ := blockTestParts_plain (tested_mem_blockTestParts hq)
    exact ⟨hcall, fun style entries h => absurd h (hliteral style entries)⟩
  exact absurd (hls.tabsLead (by decide)) (by decide)

end FeatureStudio
