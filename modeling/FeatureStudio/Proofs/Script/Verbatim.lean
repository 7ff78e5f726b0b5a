/-
  FeatureStudio.Proofs.Script.Verbatim: the texts of a tree that are written as they are.

  Of the texts supplied with a tree some are quoted where they are written: labels, targets of
  imports, and the keys and values of a literal unless its style exempts them.  All others are
  written as they are, each in the states in which its part is rendered.  The version of the
  standard library is not a text of the tree, but the first line of a file has it as it is.

  Main statements:
    * `Part.verbatim`: the texts that a part itself writes as they are.
    * `Part.WritesBalanced.visit`: what is asked of a tree is asked of its parts.
    * `Part.not_writesVersion`: only at file level the version is written as it is.
-/
import FeatureStudio.Proofs.Script.Parts
import FeatureStudio.Proofs.Text.Balance

namespace FeatureStudio

/-- Whether `key` is quoted. -/
def MapStyle.quotesKey (style : MapStyle) (key : String) : Bool :=
  style.quoteKeys && !style.bareKeys.contains key

/-! ## §1. Texts of a part itself. -/

/-- The texts in the test for a value of an enumeration. -/
def EnumValue.testTexts (v : EnumValue) : List String := [v.parameterName, v.enumName, v.token]

/-- A value is declared by its token.  Elsewhere it is tested for, by a call if there is a predicate
for it and calls are not written out. -/
def EnumValue.verbatim (s : State) (v : EnumValue) : List String :=
  if s.inEnum then [v.token]
  else if s.scope = .expression then
    match v.companion with
    | some name => if s.inTest then v.testTexts else [name]
    | none => v.testTexts
  else []

/-- An enumeration is declared with a predicate for each of its companions. -/
def EnumDeclaration.verbatim (s : State) (d : EnumDeclaration) : List String :=
  match s.scope with
  | .top => d.name :: d.companions.flatMap fun p => p.1 :: p.2.testTexts
  | .expression => [d.parameterName]
  | .statement => []

/-- The texts that a node itself writes as they are. -/
def Node.verbatim (s : State) : Node → List String
  | .constant name .. | .uiPredicate name _ | .testPredicate name .. => [name]
  | .declare name _ => if s.scope = .statement then [name] else []
  | .formal p => p.texts
  | .function h .. => if s.scope = .top then h.texts else [h.name]
  | .testCall name _ => if s.scope = .top ∨ s.inTest then [] else [name]
  | .enumeration d => d.verbatim s
  | .enumValue v => v.verbatim s
  | .uiParameter name _ d => if s.scope = .statement then name :: d.texts else []
  | .sequence separator nodes => if 1 < nodes.length then [separator] else []
  | .boundSpec spec => if s.scope = .statement then [] else [spec.name]
  | .feature name .. => if s.scope = .top then [name] else []
  | .snippet text _ => [text s]
  | .expr _ | .assign .. | .returning _ | .block .. | .ifChain .. | .map _ | .annotations _
  | .group .. | .importLine _ | .studio .. => []

/-- The texts that a part itself writes as they are. -/
def Part.verbatim (s : State) : Part → List String
  | .expr (.token text) => [text]
  | .expr (.call name ..) => [name]
  | .expr _ => []
  | .node n => n.verbatim s
  | .literal (.mk style entries) =>
    if s.scope = .expression then
      style.typeName.toList
        ++ (entries.map Prod.fst).filter fun key => !style.quotesKey key
    else []

@[simp] theorem Part.verbatim_node (s : State) (n : Node) :
    (Part.node n).verbatim s = n.verbatim s := rfl

/-! ## §2. Texts of a tree. -/

/-- The parts whose texts are not quoted by the part that renders them. -/
def Part.shown (s : State) : Part → List Visit
  | .literal (.mk style entries) =>
    (MapLiteral.mk style (entries.filter fun e => !style.quotes e.1)).parts s
  | p => p.parts s

@[simp] theorem Part.shown_expr (s : State) (e : Expr) : (Part.expr e).shown s = e.parts s := rfl

@[simp] theorem Part.shown_node (s : State) (n : Node) : (Part.node n).shown s = n.parts s := rfl

/-- The text of `p`, rendered in state `s`, shows that of `q`, rendered in state `t`: no literal
with quoted values is between them. -/
inductive Part.Shows : State → Part → State → Part → Prop
  | refl (s : State) (p : Part) : Shows s p s p
  | step {s t : State} {p q : Part} {v : Visit} (hv : v ∈ p.shown s)
      (h : Shows v.state v.part t q) : Shows s p t q

/-- Each text of the tree that is written as it is is balanced by itself. -/
def Part.WritesBalanced (s : State) (p : Part) : Prop :=
  ∀ t q, p.Shows s t q → ∀ text ∈ q.verbatim t, Text.IsBalanced text

namespace Part.WritesBalanced

variable {s : State} {p : Part}

theorem own (h : p.WritesBalanced s) :
    ∀ text ∈ p.verbatim s, Text.IsBalanced text := h s p (.refl s p)

/-- What is asked of a tree is asked of the parts that it shows. -/
theorem visit (h : p.WritesBalanced s) {v : Visit} (hv : v ∈ p.shown s) :
    v.part.WritesBalanced v.state := fun t q hq => h t q (.step hv hq)

/-- A part by itself, and the parts that it shows. -/
theorem of_shown (hown : ∀ text ∈ p.verbatim s, Text.IsBalanced text)
    (h : ∀ v ∈ p.shown s, v.part.WritesBalanced v.state) :
    p.WritesBalanced s := by
  intro t q hq
  cases hq with
  | refl => exact hown
  | step hv hshows => exact h _ hv t q hshows

end Part.WritesBalanced

/-- A token asks for nothing but its text. -/
theorem Expr.writesBalanced_token {text : String} (s : State) (h : Text.IsBalanced text) :
    (Part.expr (.token text)).WritesBalanced s :=
  .of_shown (fun _ ht => List.mem_singleton.mp ht ▸ h) fun _ hv => by cases hv

/-! ## §3. The version of the standard library. -/

/-- The version of the standard library is written as it is: there is a file in the tree, in a place
where files are written. -/
def Part.WritesVersion (s : State) (p : Part) : Prop :=
  ∃ t stdImports imports body,
    p.Shows s t (.node (.studio stdImports imports body)) ∧ t.scope = .top

/-- Where a part does so, the tree that shows it does. -/
theorem Part.WritesVersion.of_visit {s : State} {p : Part} {v : Visit}
    (h : v.part.WritesVersion v.state) (hv : v ∈ p.shown s) : p.WritesVersion s := by
  obtain ⟨t, stdImports, imports, body, hshows, ht⟩ := h
  exact ⟨t, stdImports, imports, body, .step hv hshows, ht⟩

@[simp] theorem State.scope_inScope (s : State) (scope : Scope) :
    (s.inScope scope).scope = scope := rfl

@[simp] theorem Visit.scope_operand (s : State) (e : Expr) :
    (Visit.operand s e).state.scope = .expression := rfl

@[simp] theorem Visit.scope_statement (s : State) (n : Node) :
    (Visit.statement s n).state.scope = .statement := rfl

/-- Whatever an expression renders is an operand of it. -/
theorem Expr.state_of_mem_parts {s : State} {e : Expr} {v : Visit} (hv : v ∈ e.parts s) :
    v.state = s.inScope .expression := by
  cases e with
  | token => cases hv
  | call name args multiline =>
      obtain ⟨e, -, rfl⟩ := List.mem_map.mp hv
      split <;> rfl
  | access base keys =>
      rcases List.mem_cons.mp hv with rfl | hv
      · rfl
      · obtain ⟨e, -, rfl⟩ := List.mem_map.mp hv
        rfl
  | _ =>
      simp only [parts, List.mem_cons, List.not_mem_nil, or_false] at hv
      rcases hv with rfl | rfl | rfl <;> rfl

/-- A node that does not stand at file level renders nothing there. -/
theorem Node.scope_ne_top {s : State} {n : Node} {v : Visit} (hs : s.scope ≠ .top)
    (hv : v ∈ n.parts s) : v.state.scope ≠ .top := by
  cases n <;> simp only [parts, if_neg hs] at hv <;>
    grind [State.scope_inScope, Visit.scope_operand, Visit.scope_statement, branchParts]

theorem MapLiteral.state_of_mem_parts {s : State} {m : MapLiteral} {v : Visit}
    (hv : v ∈ m.parts s) : v.state = s.inScope .expression := by
  obtain ⟨style, entries⟩ := m
  simp only [parts] at hv
  split at hv
  · obtain ⟨e, -, rfl⟩ := List.mem_map.mp hv
    obtain ⟨levels, hvisit⟩ := style.visit_eq s e
    rw [hvisit]
  · cases hv

theorem Part.scope_ne_top {s : State} {p : Part} {v : Visit} (hs : s.scope ≠ .top)
    (hv : v ∈ p.parts s) : v.state.scope ≠ .top := by
  cases p with
  | expr e =>
      rw [Expr.state_of_mem_parts hv]
      exact Scope.noConfusion
  | node n => exact Node.scope_ne_top hs hv
  | literal m =>
      rw [MapLiteral.state_of_mem_parts hv]
      exact Scope.noConfusion

/-- What is shown is rendered. -/
theorem Part.mem_parts_of_mem_shown {s : State} {p : Part} {v : Visit} (h : v ∈ p.shown s) :
    v ∈ p.parts s := by
  cases p with
  | literal m =>
      obtain ⟨style, entries⟩ := m
      simp only [Part.shown, Part.parts, MapLiteral.parts] at h ⊢
      split at h
      · rename_i hs
        rw [if_pos hs]
        obtain ⟨e, he, rfl⟩ := List.mem_map.mp h
        exact List.mem_map_of_mem (List.mem_filter.mp he).1
      · cases h
  | expr e => exact h
  | node n => exact h

/-- Nothing of a tree stands at file level unless all of it does. -/
theorem Part.Shows.scope_ne_top {s t : State} {p q : Part} (h : p.Shows s t q)
    (hs : s.scope ≠ .top) : t.scope ≠ .top := by
  induction h with
  | refl => exact hs
  | step hv _ ih => exact ih (Part.scope_ne_top hs (Part.mem_parts_of_mem_shown hv))

/-- **Only at file level the version is written as it is.** -/
theorem Part.not_writesVersion {s : State} {p : Part} (hs : s.scope ≠ .top) :
    ¬ p.WritesVersion s := by
  rintro ⟨t, stdImports, imports, body, hshows, ht⟩
  exact hshows.scope_ne_top hs ht

end FeatureStudio
