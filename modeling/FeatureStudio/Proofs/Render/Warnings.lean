/-
  FeatureStudio.Proofs.Render.Warnings: what a rendering warns of.

  A step that stands where it may stand gives a text and leaves the context as it was, save for the
  warnings that it adds.  Which ones are added is followed through the forms that studios are put
  together from: expressions add none, bodies add what their statements add, in order.

  Main statements:
    * `Build.Reports.run`: what is set for a step is put back, its warnings stay.
    * `Render.reports_joined`: parts in a row report one after the other.
    * `Render.reports_group`: a group warns if it is empty.
    * `Render.reports_studio`: a file warns of imports that are not found, then of its body.
-/
import FeatureStudio.Proofs.Render.Transaction
import Mathlib.Data.List.Forall2

namespace FeatureStudio

/-- The context with further warnings. -/
def Context.reported (c : Context) (ds : List Diagnostic) : Context :=
  { c with diagnostics := c.diagnostics ++ ds }

namespace Context

@[simp]
theorem reported_nil (c : Context) : c.reported [] = c := by
  unfold reported
  rw [List.append_nil]

@[simp]
theorem reported_reported (c : Context) (ds ds' : List Diagnostic) :
    (c.reported ds).reported ds' = c.reported (ds ++ ds') := by
  unfold reported
  rw [List.append_assoc]

end Context

namespace Build

variable {α β : Type}

/-! ## §1. Steps that report. -/

/-- In the context the step adds the warnings and changes nothing else. -/
def Reports (c : Context) (ds : List Diagnostic) (step : Build α) : Prop :=
  (step c).2 = c.reported ds

/-- In the context the step changes nothing. -/
def Quiet (c : Context) (step : Build α) : Prop := (step c).2 = c

variable {c : Context} {ds ds' : List Diagnostic} {step : Build α}

theorem quiet_pure (a : α) : Quiet c (pure a) := rfl

theorem quiet_indented (text : String) (levels : Nat) : Quiet c (indented text levels) := rfl

theorem Quiet.reports (h : Quiet c step) : Reports c [] step :=
  Eq.trans h c.reported_nil.symm

theorem Reports.quiet (h : Reports c [] step) : Quiet c step :=
  Eq.trans h c.reported_nil

theorem Quiet.bind {next : α → Build β} (h : Quiet c step) (h' : ∀ a, Quiet c (next a)) :
    Quiet c (step >>= next) := by
  show (next (step c).1 (step c).2).2 = c
  rw [h]
  exact h' _

theorem Quiet.map (h : Quiet c step) (f : α → β) : Quiet c (step >>= fun a => pure (f a)) :=
  h.bind fun a => quiet_pure (f a)

/-- A quiet step in front of one that reports. -/
theorem Quiet.followed {next : α → Build β} (h : Quiet c step)
    (h' : ∀ a, Reports c ds (next a)) : Reports c ds (step >>= next) := by
  show (next (step c).1 (step c).2).2 = _
  rw [h]
  exact h' _

theorem Reports.bind {next : α → Build β} (h : Reports c ds step)
    (h' : ∀ a, Reports (c.reported ds) ds' (next a)) : Reports c (ds ++ ds') (step >>= next) := by
  show (next (step c).1 (step c).2).2 = _
  rw [h, ← Context.reported_reported]
  exact h' _

/-- A quiet step behind one that reports. -/
theorem Reports.followed {next : α → Build β} (h : Reports c ds step)
    (h' : ∀ a, Quiet (c.reported ds) (next a)) : Reports c ds (step >>= next) := by
  show (next (step c).1 (step c).2).2 = _
  rw [h]
  exact h' _

theorem Reports.map (h : Reports c ds step) (f : α → β) :
    Reports c ds (step >>= fun a => pure (f a)) := h

/-- What is set for a step is put back, its warnings stay. -/
theorem Reports.run {overrides : Overrides}
    (h : Reports (c.save.withState (·.override overrides)) ds step) :
    Reports c ds (Build.run overrides step) := by
  show (step (c.save.withState (·.override overrides))).2.restore = _
  rw [h]
  rfl

/-- What a step sets itself is put back as well. -/
theorem Quiet.run_shifting {overrides : Overrides} {f : State → State}
    (h : (step (c.save.withState (·.override overrides))).2
      = (c.save.withState (·.override overrides)).withState f) :
    Quiet c (Build.run overrides step) := by
  show (step (c.save.withState (·.override overrides))).2.restore = c
  rw [h]
  rfl

theorem Quiet.run {overrides : Overrides}
    (h : Quiet (c.save.withState (·.override overrides)) step) :
    Quiet c (Build.run overrides step) := by
  show (step (c.save.withState (·.override overrides))).2.restore = c
  rw [h]
  rfl

theorem reports_state {next : State → Build β} (h : Reports c ds (next c.state)) :
    Reports c ds (state >>= next) := h

theorem setState_bind (f : State → State) (next : Unit → Build β) (c : Context) :
    (setState f >>= next) c = next () (c.withState f) := rfl

theorem quiet_get {next : Context → Build β} (h : Quiet c (next c)) :
    Quiet c (get >>= next) := h

theorem reports_get {next : Context → Build β} (h : Reports c ds (next c)) :
    Reports c ds (get >>= next) := h

/-- In a scope that is known a step goes on as it does there. -/
theorem quiet_scope {next : Scope → Build β} {s : Scope} (hs : c.state.scope = s)
    (h : Quiet c (next s)) : Quiet c (scope >>= next) := by
  unfold Quiet
  rw [scope_bind hs]
  exact h

theorem reports_scope {next : Scope → Build β} {s : Scope} (hs : c.state.scope = s)
    (h : Reports c ds (next s)) : Reports c ds (scope >>= next) := by
  unfold Reports
  rw [scope_bind hs]
  exact h

end Build

namespace Render

open Build

variable {c : Context} {ds : List Diagnostic}

/-! ## §2. Operands. -/

/-- Outside of file level an expression warns of nothing but what its text warns of. -/
theorem quiet_expression {render : Rendering} (hscope : c.state.scope ≠ .top)
    (h : Quiet c render) : Quiet c (expression render) := by
  have hcoerced : ∀ text, Quiet c (coerced text) := by
    intro text
    cases hs : c.state.scope with
    | top => exact absurd hs hscope
    | statement => exact quiet_scope hs (quiet_pure _)
    | expression => exact quiet_scope hs (quiet_pure _)
  refine quiet_scope rfl ?_
  rw [if_neg hscope]
  exact h.bind hcoerced

namespace Operand

/-- The operand is rendered without any warning, wherever it stands. -/
def IsQuiet (o : Operand) : Prop := ∀ c : Context, Quiet c o.render

theorem IsQuiet.text {o : Operand} (h : o.IsQuiet) (c : Context) : Quiet c o.text :=
  .run (quiet_expression (fun hs => by cases hs) (h _))

theorem IsQuiet.above {o : Operand} (h : o.IsQuiet) (least : Nat) (c : Context) :
    Quiet c (o.above least) := (h.text c).map _

theorem quiet_texts (c : Context) :
    ∀ os : List Operand, (∀ o ∈ os, o.IsQuiet) → Quiet c (texts os)
  | [], _ => quiet_pure []
  | o :: os, h => by
      have hrest := quiet_texts c os fun o' ho' => h o' (List.mem_cons_of_mem _ ho')
      exact ((h o List.mem_cons_self).text c).bind fun _ => hrest.map _

theorem isQuiet_token (text : String) : (token text).IsQuiet := fun _ => quiet_pure _

/-- A node as operand is rendered in expression scope. -/
theorem isQuiet_wrapped {node : Rendering}
    (h : ∀ c : Context, c.state.scope = .expression → Quiet c node) : (wrapped node).IsQuiet :=
  fun _ => .run (h _ rfl)

theorem isQuiet_parens {o : Operand} (h : o.IsQuiet) : (parens o).IsQuiet :=
  fun c => (h.text c).map _

theorem isQuiet_binary {l r : Operand} (op : BinaryOp) (hl : l.IsQuiet) (hr : r.IsQuiet) :
    (binary l op r).IsQuiet := fun c => (hl.above _ c).bind fun _ => (hr.above _ c).map _

theorem isQuiet_equality {l r : Operand} (op : EqualityOp) (hl : l.IsQuiet) (hr : r.IsQuiet) :
    (equality l op r).IsQuiet := fun c => (hl.above _ c).bind fun _ => (hr.above _ c).map _

theorem isQuiet_call (name : String) {args : List Operand} (h : ∀ a ∈ args, a.IsQuiet) :
    (call name args false).IsQuiet := fun c => (quiet_texts c args h).map _

theorem isQuiet_grouped {o : Operand} (h : o.IsQuiet) : o.grouped.IsQuiet := by
  unfold grouped
  split
  · exact h
  · exact isQuiet_parens h

theorem isQuiet_conjunction {os : List Operand} (h : ∀ o ∈ os, o.IsQuiet) :
    (conjunction os).IsQuiet := by
  cases os with
  | nil => exact isQuiet_grouped (isQuiet_token _)
  | cons o rest =>
      refine isQuiet_grouped ?_
      have hfold : ∀ (l : List Operand) (acc : Operand), acc.IsQuiet → (∀ o ∈ l, o.IsQuiet) →
          (l.foldl (fun acc next => binary acc .and next.grouped) acc).IsQuiet := by
        intro l
        induction l with
        | nil => intro acc hacc _; exact hacc
        | cons p l ih =>
            intro acc hacc hl
            exact ih _ (isQuiet_binary .and hacc (isQuiet_grouped (hl p List.mem_cons_self)))
              fun q hq => hl q (List.mem_cons_of_mem _ hq)
      exact hfold rest _ (isQuiet_grouped (h o List.mem_cons_self))
        fun p hp => h p (List.mem_cons_of_mem _ hp)

end Operand

open Operand (IsQuiet)

/-! ## §3. Literals. -/

theorem quiet_entryTexts (style : MapStyle) (c : Context) : ∀ entries : List (String × Operand),
    (∀ p ∈ entries, p.2.IsQuiet) → Quiet c (entryTexts style entries)
  | [], _ => quiet_pure []
  | (key, value) :: rest, h => by
      have hrest := quiet_entryTexts style c rest fun p hp => h p (List.mem_cons_of_mem _ hp)
      exact ((h _ List.mem_cons_self).text c).bind fun _ => hrest.map _

theorem quiet_mapLiteral (style : MapStyle) {entries : List (String × Operand)}
    (h : ∀ p ∈ entries, p.2.IsQuiet) (hscope : c.state.scope = .expression) :
    Quiet c (mapLiteral style entries) := by
  refine quiet_scope hscope ((quiet_entryTexts style c entries h).bind fun pairs => ?_)
  split
  all_goals
    split
    · exact (quiet_pure _).map _
    · split
      · exact (quiet_pure _).map _
      · exact (quiet_indented _ _).bind fun _ => (quiet_pure _).map _

theorem quiet_annotationLine (style : MapStyle) {entries : List (String × Operand)}
    (h : ∀ p ∈ entries, p.2.IsQuiet) (c : Context) : Quiet c (annotationLine style entries) :=
  (Quiet.run (quiet_mapLiteral style h rfl)).map _

/-! ## §4. Parts in a row. -/

/-- With the flag that parameters ask for as given, the part reports where it is run. -/
def PartReports (scope : Scope) (inUi : Bool) (ds : List Diagnostic) (part : Rendering) : Prop :=
  ∀ c : Context, c.state.inUi = inUi → Reports c ds (run { scope := some scope } part)

/-- Where the part is run, it stands in the scope. -/
theorem PartReports.of {scope : Scope} {inUi : Bool} {ds : List Diagnostic} {part : Rendering}
    (h : ∀ c : Context, c.state.scope = scope → c.state.inUi = inUi → Reports c ds part) :
    PartReports scope inUi ds part :=
  fun _ hc => .run (h _ rfl hc)

theorem reports_runAll {scope : Scope} {inUi : Bool} {dss : List (List Diagnostic)}
    {parts : List Rendering} (h : List.Forall₂ (PartReports scope inUi) dss parts) :
    ∀ c : Context, c.state.inUi = inUi →
      Reports c dss.flatten (runAll { scope := some scope } parts) := by
  induction h with
  | nil => exact fun c _ => (quiet_pure []).reports
  | cons hfirst _ ih => exact fun c hc => (hfirst c hc).bind fun _ => (ih (c.reported _) hc).map _

theorem quiet_runAll {overrides : Overrides} : ∀ {parts : List Rendering},
    (∀ p ∈ parts, Quiet c (run overrides p)) → Quiet c (runAll overrides parts)
  | [], _ => quiet_pure []
  | p :: _, h =>
    (h p List.mem_cons_self).bind fun _ =>
      (quiet_runAll fun q hq => h q (List.mem_cons_of_mem _ hq)).map _

/-- The context in which parts are run that may be indented. -/
def inside (deeper : Bool) (c : Context) : Context :=
  if deeper then c.withState fun s => { s with indentDepth := s.indentDepth + 1 } else c

/-- Parts report joined what they report in a row. -/
theorem reports_joined_of_runAll {scope : Scope} {parts : List Rendering}
    (separator ending : String) (deeper : Bool)
    (h : Reports (inside deeper c) ds (runAll { scope := some scope } parts)) :
    Reports c ds (joined { separator, ending, indented := deeper, scope := some scope } parts) := by
  have hfinish : ∀ (d : Context) (texts : List String), Quiet d
      (if texts.isEmpty then pure ""
        else
          let text := (separator ++ ending).intercalate texts ++ ending
          if deeper then indented text 1 else pure text) := by
    intro d texts
    split
    · exact quiet_pure _
    · dsimp only
      split
      · exact quiet_indented _ _
      · exact quiet_pure _
  cases deeper with
  | false => exact Reports.followed (c := c) h (hfinish (c.reported ds))
  | true =>
      -- the depth is raised for the parts and lowered behind them
      have hlowered : Reports c ds
          (do
            setState fun s => { s with indentDepth := s.indentDepth + 1 }
            let texts ← runAll { scope := some scope } parts
            setState fun s => { s with indentDepth := s.indentDepth - 1 }
            return texts) := by
        show (runAll { scope := some scope } parts (inside true c)).2.withState
          (fun s => { s with indentDepth := s.indentDepth - 1 }) = _
        rw [h]
        rfl
      exact hlowered.followed (hfinish (c.reported ds))

/-- **Parts in a row report one after the other**, indented or not. -/
theorem reports_joined {scope : Scope} {inUi : Bool} {dss : List (List Diagnostic)}
    {parts : List Rendering} (h : List.Forall₂ (PartReports scope inUi) dss parts)
    (separator ending : String) (deeper : Bool) (hc : c.state.inUi = inUi) :
    Reports c dss.flatten
      (joined { separator, ending, indented := deeper, scope := some scope } parts) := by
  have hinside : (inside deeper c).state.inUi = inUi := by
    cases deeper with
    | false => exact hc
    | true => exact hc
  exact reports_joined_of_runAll separator ending deeper (reports_runAll h _ hinside)

theorem quiet_joined {scope : Scope} {parts : List Rendering} (separator ending : String)
    (deeper : Bool) (h : ∀ p ∈ parts, Quiet (inside deeper c) (run { scope := some scope } p)) :
    Quiet c (joined { separator, ending, indented := deeper, scope := some scope } parts) :=
  (reports_joined_of_runAll separator ending deeper (quiet_runAll h).reports).quiet

/-! ## §5. Statements. -/

variable {inUi : Bool} {dss : List (List Diagnostic)} {body : List Rendering}

theorem reports_block (spaced : Bool) (h : List.Forall₂ (PartReports .statement inUi) dss body)
    (hc : c.state.inUi = inUi) : Reports c dss.flatten (block spaced body) := by
  have hjoined : ∀ separator : String, Reports c dss.flatten
      (joined { separator, indented := true, scope := some .statement } body) :=
    fun separator => reports_joined h separator "" true hc
  have hbody : Reports c dss.flatten (blockBody spaced body) := reports_state (hjoined _)
  exact hbody.map _

theorem reports_testedBranch (word : String) {test : Operand} (ht : test.IsQuiet)
    (h : List.Forall₂ (PartReports .statement inUi) dss body) (hc : c.state.inUi = inUi) :
    Reports c dss.flatten (testedBranch word test body) := by
  have hblock : ∀ d : Context, d.state.inUi = inUi →
      Reports d dss.flatten (runIn .statement (block false body)) :=
    fun _ hd => .run (reports_block false h hd)
  exact .run ((ht.text _).followed fun _ =>
    (hblock (c.save.withState (·.override (.inScope .statement))) hc).map _)

/-- Parts that warn of nothing, as parts that report. -/
theorem forall₂_quiet (h : ∀ p ∈ body, PartReports .statement inUi [] p) :
    List.Forall₂ (PartReports .statement inUi) (body.map fun _ => []) body := by
  rw [List.forall₂_map_left_iff, List.forall₂_same]
  exact h

theorem flatten_quiet (body : List Rendering) :
    (body.map fun _ => ([] : List Diagnostic)).flatten = [] := by
  rw [List.flatten_eq_nil_iff]
  intro ds hds
  obtain ⟨_, -, rfl⟩ := List.mem_map.mp hds
  rfl

theorem quiet_elseIfBranches : ∀ branches : List (Operand × List Rendering),
    (∀ b ∈ branches, b.1.IsQuiet ∧ ∀ p ∈ b.2, PartReports .statement c.state.inUi [] p) →
      Quiet c (elseIfBranches branches)
  | [], _ => quiet_pure ""
  | (test, body) :: rest, h => by
      obtain ⟨ht, hb⟩ := h _ List.mem_cons_self
      have hrest := quiet_elseIfBranches rest fun b hb => h b (List.mem_cons_of_mem _ hb)
      have hfirst := reports_testedBranch "else if" ht (forall₂_quiet hb) (c := c) rfl
      rw [flatten_quiet] at hfirst
      exact hfirst.quiet.bind fun _ => hrest.map _

/-- A chain reports what its first branch reports, if the others are quiet. -/
theorem reports_ifChain {test : Operand} {elseIfs : List (Operand × List Rendering)}
    (hscope : c.state.scope = .statement) (hc : c.state.inUi = inUi) (ht : test.IsQuiet)
    (h : List.Forall₂ (PartReports .statement inUi) dss body)
    (he : ∀ b ∈ elseIfs, b.1.IsQuiet ∧ ∀ p ∈ b.2, PartReports .statement inUi [] p) :
    Reports c dss.flatten (ifChain test body elseIfs none) := by
  subst hc
  exact reports_scope hscope ((reports_testedBranch "if" ht h rfl).followed fun _ =>
    (quiet_elseIfBranches (c := c.reported _) elseIfs he).bind fun _ => (quiet_pure _).map _)

theorem quiet_returning {value : Operand} (hscope : c.state.scope = .statement)
    (h : value.IsQuiet) : Quiet c (returning value) := quiet_scope hscope ((h.text c).map _)

theorem quiet_constant (name : String) {value : Operand} (exported : Bool)
    (hscope : c.state.scope = .top) (h : value.IsQuiet) :
    Quiet c (constant name value exported) := quiet_scope hscope ((h.text c).map _)

/-! ## §6. Functions and predicates. -/

theorem reports_function (h : FunctionHeader) {args : List Operand}
    (hscope : c.state.scope = .top) (hc : c.state.inUi = inUi)
    (hb : List.Forall₂ (PartReports .statement inUi) dss body) :
    Reports c dss.flatten (function h args body) := by
  have hbody : Reports c dss.flatten (runIn .statement (block h.spaced body)) :=
    .run (reports_block h.spaced hb hc)
  refine reports_scope hscope (hbody.followed fun text => ?_)
  split
  · exact quiet_pure _
  · exact quiet_pure _

/-- The parameters of a UI predicate stand where they may. -/
theorem reports_uiPredicate (name : String) (hscope : c.state.scope = .top)
    (h : List.Forall₂ (PartReports .statement true) dss body) :
    Reports c dss.flatten (uiPredicate name body) :=
  reports_scope hscope (.run (reports_function _ rfl rfl h))

theorem quiet_testStatements (inlined : Bool) {tests : List Operand} (h : ∀ t ∈ tests, t.IsQuiet) :
    Quiet c (testStatements inlined tests) := by
  have hparts : ∀ d : Context, ∀ p ∈ tests.map (fun t => expression t.render),
      Quiet d (run { scope := some .statement } p) := by
    intro d p hp
    obtain ⟨t, ht, rfl⟩ := List.mem_map.mp hp
    exact .run (quiet_expression (fun hs => by cases hs) (h t ht _))
  have hjoined : ∀ d : Context, Quiet d
      (joined { scope := some .statement } (tests.map fun t => expression t.render)) :=
    fun d => quiet_joined "" "" false (hparts d)
  show (joined { scope := some .statement } (tests.map fun t => expression t.render)
    (c.withState fun s => { s with inTest := inlined })).2.withState
      (fun s => { s with inTest := c.state.inTest }) = c
  rw [hjoined]
  rfl

/-- A test predicate sets scope and depth for its body, and these are put back. -/
theorem quiet_run_testPredicate (name : String) (exported : Bool) {tests : List Operand}
    (h : ∀ t ∈ tests, t.IsQuiet) : Quiet c (runIn .top (testPredicate name exported tests)) := by
  have hbody : ∀ d : Context, Quiet d
      (do
        let standard ← testStatements false tests
        let inlined ← testStatements true tests
        let body ← indented (testBody standard inlined) 1
        return exportText exported ++ "predicate " ++ name ++ "("
          ++ FormalParameter.definition.text ++ ")\n\x7b\n" ++ body ++ "\x7d\n") :=
    fun _ => (quiet_testStatements false h).bind fun _ =>
      (quiet_testStatements true h).bind fun _ => (quiet_indented _ _).map _
  refine Quiet.run_shifting (f := State.inBody) ?_
  unfold testPredicate
  rw [scope_bind (s := .top) rfl, if_neg fun hne => hne rfl, setState_bind]
  exact hbody _

theorem quiet_testCall (name : String) {tests : List Operand} (h : ∀ t ∈ tests, t.IsQuiet)
    (hscope : c.state.scope ≠ .top) : Quiet c (testCall name tests) := by
  refine quiet_expression hscope ?_
  show Quiet c (if c.state.inTest then _ else _)
  split
  · exact (Operand.isQuiet_conjunction h).text c
  · refine Operand.isQuiet_call name (fun a ha => ?_) c
    rw [List.mem_singleton.mp ha]
    exact Operand.isQuiet_token _

/-! ## §7. Enumerations. -/

theorem isQuiet_enumTest (v : EnumValue) : (enumTest v).IsQuiet :=
  Operand.isQuiet_equality .equal (Operand.isQuiet_token _) (Operand.isQuiet_token _)

/-- The tests of a companion predicate. -/
theorem isQuiet_tests (v : EnumValue) : ∀ t ∈ [enumTest v], t.IsQuiet := by
  intro t ht
  rw [List.mem_singleton.mp ht]
  exact isQuiet_enumTest v

theorem quiet_enumLabel (v : EnumValue) (c : Context) : Quiet c (enumLabel v) := by
  unfold enumLabel
  split
  · refine quiet_annotationLine _ (fun p hp => ?_) c
    rcases List.mem_cons.mp hp with rfl | hp
    · exact Operand.isQuiet_token _
    · rw [List.mem_singleton.mp hp]
      exact Operand.isQuiet_token _
  · refine quiet_annotationLine _ (fun p hp => ?_) c
    rw [List.mem_singleton.mp hp]
    exact Operand.isQuiet_token _

theorem quiet_enumValue (v : EnumValue) (h : c.state.inEnum = true) : Quiet c (enumValue v) := by
  show Quiet c (if c.state.inEnum then _ else _)
  rw [if_pos h]
  unfold enumValueDeclaration
  split
  · exact (Quiet.run (quiet_enumLabel v _)).map _
  · exact quiet_pure _

theorem quiet_companionPredicates (c : Context) : ∀ companions : List (String × EnumValue),
    Quiet c (companionPredicates companions)
  | [] => quiet_pure ""
  | (name, v) :: rest =>
    (quiet_run_testPredicate name true (isQuiet_tests v)).bind fun _ =>
      (quiet_companionPredicates c rest).map _

/-- The flag for the values of an enumeration is set for these and put back. -/
theorem quiet_run_enumeration (e : EnumDeclaration) {inUi : Bool} :
    PartReports .top inUi [] (enumeration e) := by
  intro c _
  refine Quiet.reports (Quiet.run_shifting (f := fun s => { s with inEnum := false }) ?_)
  have hvalues : ∀ d : Context, d.state.inEnum = true → Quiet d
      (joined { separator := ",\n", indented := true, scope := some .expression }
        (e.values.map enumValue)) := by
    intro d hd
    refine quiet_joined ",\n" "" true fun p hp => ?_
    obtain ⟨v, -, rfl⟩ := List.mem_map.mp hp
    exact .run (quiet_enumValue v hd)
  have hdeclaration : ∀ d : Context,
      (enumDeclaration e d).2 = d.withState fun s => { s with inEnum := false } := by
    intro d
    show (companionPredicates e.companions ((joined
        { separator := ",\n", indented := true, scope := some .expression }
        (e.values.map enumValue) (d.withState fun s => { s with inEnum := true })).2.withState
          fun s => { s with inEnum := false })).2 = _
    rw [hvalues _ rfl]
    exact quiet_companionPredicates _ _
  exact hdeclaration _

/-! ## §8. Parameters, groups and bounds. -/

theorem quiet_boundSpec (spec : BoundSpec) (hscope : c.state.scope = .top) :
    Quiet c (boundSpec spec) := by
  refine quiet_scope hscope (.run (quiet_constant _ _ rfl ?_))
  refine Operand.isQuiet_wrapped fun d hd => quiet_mapLiteral _ (fun p hp => ?_) hd
  obtain ⟨_, -, rfl⟩ := List.mem_map.mp hp
  exact Operand.isQuiet_token _

theorem isQuiet_boundsOperand (b : Bounds) : (boundsOperand b).IsQuiet := by
  cases b with
  | named name => exact Operand.isQuiet_token _
  | spec s => exact Operand.isQuiet_wrapped fun d hd => quiet_scope hd (quiet_pure _)

theorem quiet_parameterDeclaration (name : String) (declaration : ParameterDeclaration)
    (c : Context) : Quiet c (parameterDeclaration name declaration) := by
  cases declaration with
  | typed typeName => exact quiet_pure _
  | bounded predicate bounds =>
      refine .run (quiet_expression (fun hs => by cases hs) (Operand.isQuiet_call _ ?_ _))
      intro a ha
      rcases List.mem_cons.mp ha with rfl | ha
      · exact Operand.isQuiet_token _
      · rw [List.mem_singleton.mp ha]
        exact isQuiet_boundsOperand bounds

/-- Inside a UI predicate a parameter is where it should be. -/
theorem quiet_uiParameter (name : String) {annotations : Rendering}
    (declaration : ParameterDeclaration) (hscope : c.state.scope = .statement)
    (hui : c.state.inUi = true) (h : ∀ d : Context, Quiet d annotations) :
    Quiet c (uiParameter name annotations declaration) := by
  have hdeclared : Quiet c (do
      let head ← runIn .statement annotations
      return head ++ (← parameterDeclaration name declaration)) :=
    (Quiet.run (h _)).bind fun _ => (quiet_parameterDeclaration name declaration c).map _
  refine quiet_scope hscope ?_
  rw [if_neg fun hne => hne rfl]
  show ((if !c.state.inUi then _ else _ : Rendering) c).2 = c
  rw [hui]
  exact hdeclared

/-- What is said of a group without parameters. -/
def emptyGroup (g : GroupHeader) (body : List Rendering) : List Diagnostic :=
  if body.isEmpty then [⟨.statement, "Parameter group is empty", some g.name⟩] else []

/-- **A group warns if it is empty**, and of whatever its body warns of. -/
theorem reports_group (g : GroupHeader) (hscope : c.state.scope = .statement)
    (hui : c.state.inUi = true) (h : List.Forall₂ (PartReports .statement true) dss body) :
    Reports c (emptyGroup g body ++ dss.flatten) (group g body) := by
  have hbody : ∀ d : Context, d.state.inUi = true → Reports d dss.flatten (do
      let head ← runIn .statement (annotationLine groupStyle (groupEntries g))
      return head ++ (← runIn .statement (block true body))) := by
    intro d hd
    have hannotation : Quiet d (runIn .statement (annotationLine groupStyle (groupEntries g))) := by
      refine .run (quiet_annotationLine _ (fun p hp => ?_) _)
      rcases List.mem_cons.mp hp with rfl | hp
      · exact Operand.isQuiet_token _
      · rcases List.mem_cons.mp hp with rfl | hp
        · exact Operand.isQuiet_token _
        · obtain ⟨_, -, rfl⟩ := List.mem_map.mp hp
          exact Operand.isQuiet_token _
    have hblock : Reports d dss.flatten (runIn .statement (block true body)) :=
      .run (reports_block true h hd)
    exact hannotation.followed fun _ => hblock.map _
  -- the warning of the group itself comes first
  have hempty : Reports c (emptyGroup g body ++ dss.flatten)
      (do
        if body.isEmpty then warnAt "Parameter group is empty" g.name
        let head ← runIn .statement (annotationLine groupStyle (groupEntries g))
        return head ++ (← runIn .statement (block true body))) := by
    unfold emptyGroup
    split
    · have hwarn : Reports c [⟨.statement, "Parameter group is empty", some g.name⟩]
          (warnAt "Parameter group is empty" g.name) := by
        rw [← hscope]
        rfl
      exact hwarn.bind fun _ => hbody _ hui
    · exact hbody c hui
  show ((if !c.state.inUi then _ else _ : Rendering) c).2 = _
  rw [hui]
  exact hempty

/-! ## §9. Files. -/

/-- What is said of an import whose studio is not found. -/
def importWarnings (documents : DocumentTable) (i : Import) : List Diagnostic :=
  match i.source with
  | .std _ | .path .. => []
  | .document document studio version =>
    match documents.resolve document studio version with
    | .ok _ => []
    | .error e => [⟨.top, e.message, some (document ++ "/" ++ studio)⟩]

/-- An import warns if its studio is not found. -/
theorem reports_importLine (i : Import) (hscope : c.state.scope = .top) :
    Reports c (importWarnings c.documents i) (importLine i) := by
  have htarget : Reports c (importWarnings c.documents i) (importTarget i.source) := by
    obtain ⟨source, exported⟩ := i
    cases source with
    | std studio => exact (quiet_pure _).reports
    | path path version => exact (quiet_pure _).reports
    | document document studio version =>
        have hstep : importTarget (.document document studio version) c
            = (match c.documents.resolve document studio version with
              | .ok target => return target
              | .error e => do
                warnAt e.message (document ++ "/" ++ studio)
                return ⟨e.placeholder, emptyVersion⟩ : Build ImportTarget) c := rfl
        unfold Reports importWarnings
        rw [hstep, ← hscope]
        dsimp only
        cases c.documents.resolve document studio version with
        | ok target => exact (quiet_pure target).reports
        | error e => rfl
  exact reports_scope hscope (htarget.map _)

theorem reports_importLines (c : Context) (imports : List Import) :
    Reports c (imports.flatMap (importWarnings c.documents)) (importLines imports) := by
  have hrun : ∀ (imports : List Import) (d : Context), d.documents = c.documents →
      Reports d (imports.flatMap (importWarnings c.documents))
        (runAll (.inScope .top) (imports.map importLine)) := by
    intro imports
    induction imports with
    | nil => exact fun d _ => (quiet_pure []).reports
    | cons i rest ih =>
        intro d hd
        have hfirst : Reports d (importWarnings c.documents i)
            (run (.inScope .top) (importLine i)) := by
          rw [← hd]
          exact .run (reports_importLine i rfl)
        exact hfirst.bind fun _ => (ih (d.reported _) hd).map _
  exact (hrun imports c rfl).map _

/-- A feature where it is declared. -/
theorem quiet_feature (name : String) {annotations : Rendering} {ui body : Operand}
    (hscope : c.state.scope = .top) (h : ∀ d : Context, Quiet d annotations) (hui : ui.IsQuiet)
    (hbody : body.IsQuiet) : Quiet c (feature name annotations ui body) := by
  have hexpression : ∀ {o : Operand} {overrides : Overrides}, o.IsQuiet →
      overrides.scope = some .statement → Quiet c (run overrides (expression o.render)) := by
    intro o overrides ho hstatement
    refine .run (quiet_expression ?_ (ho _))
    show overrides.scope.getD _ ≠ .top
    rw [hstatement]
    exact fun hs => by cases hs
  refine quiet_scope hscope ?_
  rw [if_neg fun hne => hne rfl]
  refine quiet_get ?_
  refine (Quiet.run (h _)).bind fun head => ?_
  refine (hexpression hui rfl).bind fun ui => ?_
  refine (hexpression hbody rfl).bind fun body => ?_
  exact (quiet_indented _ _).bind fun _ => (quiet_indented _ _).map _

/-- **A file warns of imports that are not found, then of its body.** -/
theorem reports_studio (stdImports imports : List Import) (hscope : c.state.scope = .top)
    (h : List.Forall₂ (PartReports .top c.state.inUi) dss body) :
    Reports c (stdImports.flatMap (importWarnings c.documents)
        ++ (imports.flatMap (importWarnings c.documents) ++ dss.flatten))
      (studio stdImports imports body) := by
  have hbody : ∀ d : Context, d.state.inUi = c.state.inUi → Reports d dss.flatten
      (joined { separator := "\n", scope := some .top } body) :=
    fun _ hd => reports_joined h "\n" "" false hd
  refine reports_scope hscope ?_
  rw [if_neg fun hne => hne rfl]
  refine reports_get ?_
  refine (reports_importLines c stdImports).bind fun std => ?_
  refine (reports_importLines (c.reported _) imports).bind fun others => ?_
  exact (hbody ((c.reported _).reported _) rfl).map _

end Render

end FeatureStudio
