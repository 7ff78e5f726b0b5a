/-
  FeatureStudio.Proofs.Render.Dependence: what the outcome of a step depends on.

  A step reads the settings of its context and the state, and nothing of the warnings raised so
  far or of the saved states.  `World` holds what all steps of a rendering have in common but for
  the indentation; in a world and a state the outcome of a step is a value for every indentation
  and a list of warnings.  `Ensures` says that there is such an outcome and what holds of it.

  The depth may be left open: then the outcome is the same at every depth.

  Main statements:
    * `Ensures.bind`, `Ensures.map`: outcomes of steps in a row.
    * `Leaves.run`: a step that changes the state is put right by `run`.
    * `Ensures.within`: a state that is set and put back again.
-/
import FeatureStudio.Proofs.Render.Warnings

namespace FeatureStudio

open Build

/-! ## §1. Worlds and the contexts they cover. -/

/-- What is fixed for all of a rendering, but for the indentation. -/
structure World where
  stdVersion : String
  documents : DocumentTable
  /-- The depth of the state is left open. -/
  anyDepth : Bool

/-- The states differ in the depth at most, and only if it is left open. -/
structure State.Alike (anyDepth : Bool) (s t : State) : Prop where
  flags : t = { s with indentDepth := t.indentDepth }
  depth : anyDepth = false → t.indentDepth = s.indentDepth

namespace State.Alike

variable {anyDepth : Bool} {s t : State}

theorem refl (s : State) : Alike anyDepth s s := ⟨rfl, fun _ => rfl⟩

theorem scope (h : Alike anyDepth s t) : t.scope = s.scope := by rw [h.flags]

theorem inEnum (h : Alike anyDepth s t) : t.inEnum = s.inEnum := by rw [h.flags]

theorem inUi (h : Alike anyDepth s t) : t.inUi = s.inUi := by rw [h.flags]

theorem inTest (h : Alike anyDepth s t) : t.inTest = s.inTest := by rw [h.flags]

/-- If the depth is fixed, alike states are equal. -/
theorem eq (h : Alike false s t) : t = s := by
  rw [h.flags, h.depth rfl]

end State.Alike

/-- A change of the state that takes alike states to alike states. -/
def Uniform (f : State → State) : Prop :=
  ∀ {anyDepth : Bool} {s t : State}, s.Alike anyDepth t → (f s).Alike anyDepth (f t)

theorem uniform_override (o : Overrides) : Uniform (·.override o) := fun h =>
  ⟨by rw [h.flags]; rfl, h.depth⟩

theorem uniform_deeper : Uniform fun s => { s with indentDepth := s.indentDepth + 1 } :=
  fun h => ⟨by rw [h.flags], fun ha => congrArg (· + 1) (h.depth ha)⟩

theorem uniform_inBody : Uniform State.inBody :=
  fun h => ⟨by rw [h.flags]; rfl, fun ha => congrArg (· + 1) (h.depth ha)⟩

theorem uniform_setEnum (b : Bool) : Uniform fun s => { s with inEnum := b } :=
  fun h => ⟨by rw [h.flags], h.depth⟩

theorem uniform_setTest (b : Bool) : Uniform fun s => { s with inTest := b } :=
  fun h => ⟨by rw [h.flags], h.depth⟩

namespace World

/-- The context is one of the world, in the state. -/
structure Covers (w : World) (s : State) (c : Context) : Prop where
  stdVersion : c.stdVersion = w.stdVersion
  documents : c.documents = w.documents
  state : s.Alike w.anyDepth c.state

/-- A context of the world without warnings and saved states. -/
def context (w : World) (s : State) (indent : Indent) : Context :=
  { stdVersion := w.stdVersion, indent, documents := w.documents, state := s }

theorem covers_context (w : World) (s : State) (indent : Indent) :
    w.Covers s (w.context s indent) := ⟨rfl, rfl, .refl s⟩

/-- The value that a step gives, by indentation. -/
def value {α : Type} (w : World) (s : State) (step : Build α) (indent : Indent) : α :=
  (step (w.context s indent)).1

/-- The warnings that a step raises. -/
def warnings {α : Type} (w : World) (s : State) (step : Build α) : List Diagnostic :=
  (step (w.context s Indent.standard)).2.diagnostics

namespace Covers

variable {w : World} {s : State} {c : Context}

theorem reported (h : w.Covers s c) (ds : List Diagnostic) : w.Covers s (c.reported ds) :=
  ⟨h.stdVersion, h.documents, h.state⟩

theorem withState (h : w.Covers s c) {f : State → State} (hf : Uniform f) :
    w.Covers (f s) (c.withState f) := ⟨h.stdVersion, h.documents, hf h.state⟩

theorem save (h : w.Covers s c) : w.Covers s c.save := ⟨h.stdVersion, h.documents, h.state⟩

end Covers

end World

/-! ## §2. Outcomes. -/

namespace Build

variable {α β : Type}

/-- In the world and the state the step gives the value and the warnings, and nothing else. -/
def Yields (w : World) (s : State) (step : Indent → Build α) (a : Indent → α)
    (ds : List Diagnostic) : Prop :=
  ∀ c, w.Covers s c → step c.indent c = (a c.indent, c.reported ds)

/-- The step yields an outcome of which `Q` holds. -/
def Ensures (w : World) (s : State) (step : Indent → Build α)
    (Q : (Indent → α) → List Diagnostic → Prop) : Prop :=
  ∃ a ds, Yields w s step a ds ∧ Q a ds

/-- The step yields an outcome of which `Q` holds, save that it may change the state. -/
def Leaves (w : World) (s : State) (step : Indent → Build α)
    (Q : (Indent → α) → List Diagnostic → Prop) : Prop :=
  ∃ a ds, (∀ c, w.Covers s c →
      ∃ t, step c.indent c = (a c.indent, (c.reported ds).withState fun _ => t)) ∧ Q a ds

variable {w : World} {s : State} {step : Indent → Build α}
  {Q : (Indent → α) → List Diagnostic → Prop} {Q' : (Indent → β) → List Diagnostic → Prop}

theorem ensures_pure {a : Indent → α} (h : Q a []) : Ensures w s (fun u => pure (a u)) Q :=
  ⟨a, [], fun c _ => by rw [Context.reported_nil]; rfl, h⟩

theorem Ensures.bind {next : Indent → α → Build β} (h : Ensures w s step Q)
    (h' : ∀ a ds, Q a ds →
      Ensures w s (fun u => next u (a u)) fun a' ds' => Q' a' (ds ++ ds')) :
    Ensures w s (fun u => step u >>= next u) Q' := by
  obtain ⟨a, ds, hstep, ha⟩ := h
  obtain ⟨a', ds', hnext, ha'⟩ := h' a ds ha
  refine ⟨a', ds ++ ds', fun c hc => ?_, ha'⟩
  show next c.indent (step c.indent c).1 (step c.indent c).2 = _
  rw [hstep c hc, ← Context.reported_reported]
  exact hnext (c.reported ds) (hc.reported ds)

theorem Ensures.map {g : Indent → α → β} (h : Ensures w s step Q)
    (h' : ∀ a ds, Q a ds → Q' (fun u => g u (a u)) ds) :
    Ensures w s (fun u => step u >>= fun a => pure (g u a)) Q' := by
  refine h.bind fun a ds ha => ensures_pure ?_
  rw [List.append_nil]
  exact h' a ds ha

theorem Ensures.mono {Q'' : (Indent → α) → List Diagnostic → Prop} (h : Ensures w s step Q)
    (h' : ∀ a ds, Q a ds → Q'' a ds) : Ensures w s step Q'' := by
  obtain ⟨a, ds, hstep, ha⟩ := h
  exact ⟨a, ds, hstep, h' a ds ha⟩

/-- A step that changes nothing of the state leaves it as one that may. -/
theorem Ensures.leaves (h : Ensures w s step Q) : Leaves w s step Q := by
  obtain ⟨a, ds, hstep, ha⟩ := h
  exact ⟨a, ds, fun c hc => ⟨c.state, hstep c hc⟩, ha⟩

theorem Leaves.mono {Q'' : (Indent → α) → List Diagnostic → Prop} (h : Leaves w s step Q)
    (h' : ∀ a ds, Q a ds → Q'' a ds) : Leaves w s step Q'' := by
  obtain ⟨a, ds, hstep, ha⟩ := h
  exact ⟨a, ds, hstep, h' a ds ha⟩

/-- The value of an outcome is what the step gives in a context without a past. -/
theorem Leaves.value {step : Build α} (h : Leaves w s (fun _ => step) Q) :
    Leaves w s (fun _ => step) fun a ds =>
      (a = w.value s step ∧ ds = w.warnings s step) ∧ Q a ds := by
  obtain ⟨a, ds, hstep, ha⟩ := h
  refine ⟨a, ds, hstep, ⟨funext fun u => ?_, ?_⟩, ha⟩
  · obtain ⟨t, ht⟩ := hstep _ (w.covers_context s u)
    exact (congrArg Prod.fst ht).symm
  · obtain ⟨t, ht⟩ := hstep _ (w.covers_context s Indent.standard)
    exact (congrArg (fun r => r.2.diagnostics) ht).symm

theorem Ensures.value {step : Build α} (h : Ensures w s (fun _ => step) Q) :
    Ensures w s (fun _ => step) fun a ds =>
      (a = w.value s step ∧ ds = w.warnings s step) ∧ Q a ds := by
  obtain ⟨a, ds, hstep, ha⟩ := h
  refine ⟨a, ds, hstep, ⟨funext fun u => ?_, ?_⟩, ha⟩
  · exact (congrArg Prod.fst (hstep _ (w.covers_context s u))).symm
  · exact (congrArg (fun r => r.2.diagnostics)
      (hstep _ (w.covers_context s Indent.standard))).symm

/-! ## §3. Steps that read the context. -/

/-- A step that depends on the scope goes on as it does in the scope at hand. -/
theorem ensures_scope {next : Indent → Scope → Build α}
    (h : Ensures w s (fun u => next u s.scope) Q) :
    Ensures w s (fun u => scope >>= next u) Q := by
  obtain ⟨a, ds, hstep, ha⟩ := h
  refine ⟨a, ds, fun c hc => ?_, ha⟩
  exact (scope_bind hc.state.scope).trans (hstep c hc)

theorem leaves_scope {next : Indent → Scope → Build α}
    (h : Leaves w s (fun u => next u s.scope) Q) : Leaves w s (fun u => scope >>= next u) Q := by
  obtain ⟨a, ds, hstep, ha⟩ := h
  refine ⟨a, ds, fun c hc => ?_, ha⟩
  obtain ⟨t, ht⟩ := hstep c hc
  exact ⟨t, (scope_bind hc.state.scope).trans ht⟩

/-- A step that depends on the flags of the state goes on as it does with the flags at hand. -/
theorem ensures_state {next : Indent → State → Build α}
    (hnext : ∀ u t, s.Alike w.anyDepth t → next u t = next u s)
    (h : Ensures w s (fun u => next u s) Q) : Ensures w s (fun u => state >>= next u) Q := by
  obtain ⟨a, ds, hstep, ha⟩ := h
  refine ⟨a, ds, fun c hc => ?_, ha⟩
  show next c.indent c.state c = _
  rw [hnext c.indent c.state hc.state]
  exact hstep c hc

/-- A step that depends on the settings goes on as it does with the settings of the world. -/
theorem ensures_get {next : Indent → Context → Build α} (settled : Indent → Build α)
    (hnext : ∀ c, w.Covers s c → next c.indent c = settled c.indent)
    (h : Ensures w s settled Q) : Ensures w s (fun u => get >>= next u) Q := by
  obtain ⟨a, ds, hstep, ha⟩ := h
  refine ⟨a, ds, fun c hc => ?_, ha⟩
  show next c.indent c c = _
  rw [hnext c hc]
  exact hstep c hc

theorem ensures_indented {t : Indent → String} (levels : Nat)
    {Q : (Indent → String) → List Diagnostic → Prop} (h : Q (fun u => u.lines (t u) levels) []) :
    Ensures w s (fun u => indented (t u) levels) Q :=
  ⟨_, [], fun c _ => by rw [Context.reported_nil]; rfl, h⟩

theorem ensures_expectedScope (expected : List Scope)
    {Q : (Indent → String) → List Diagnostic → Prop}
    (h : Q (fun _ => sentinel "invalid scope") [⟨s.scope, scopeViolation expected s.scope, none⟩]) :
    Ensures w s (fun _ => expectedScope expected) Q := by
  refine ⟨_, _, fun c hc => ?_, h⟩
  rw [← hc.state.scope]
  exact expectedScope_apply expected c

/-- A warning about a named declaration, in front of a step. -/
theorem Ensures.warnedAt {message location : String} {next : Indent → PUnit → Build α}
    (h : Ensures w s (fun u => next u ⟨⟩) fun a ds =>
      Q a (⟨s.scope, message, some location⟩ :: ds)) :
    Ensures w s (fun u => warnAt message location >>= next u) Q := by
  obtain ⟨a, ds, hstep, ha⟩ := h
  refine ⟨a, _, fun c hc => ?_, ha⟩
  have hwarned : c.warned message (some location)
      = c.reported [⟨s.scope, message, some location⟩] := by
    rw [← hc.state.scope]
    rfl
  show next c.indent ⟨⟩ (c.warned message (some location)) = _
  rw [hwarned]
  have h := hstep (c.reported [⟨s.scope, message, some location⟩]) (hc.reported _)
  rw [Context.reported_reported] at h
  exact h

/-! ## §4. Steps that set the state. -/

/-- What a step does to the state is put right by `run`. -/
theorem Leaves.run {o : Overrides} (h : Leaves w (s.override o) step Q) :
    Ensures w s (fun u => run o (step u)) Q := by
  obtain ⟨a, ds, hstep, ha⟩ := h
  refine ⟨a, ds, fun c hc => ?_, ha⟩
  obtain ⟨t, ht⟩ := hstep _ (hc.save.withState (uniform_override o))
  have ht' : step c.indent (c.save.withState (·.override o))
      = (a c.indent, ((c.save.withState (·.override o)).reported ds).withState fun _ => t) := ht
  show ((step c.indent (c.save.withState (·.override o))).1,
    (step c.indent (c.save.withState (·.override o))).2.restore) = _
  rw [ht']
  rfl

theorem Ensures.run {o : Overrides} (h : Ensures w (s.override o) step Q) :
    Ensures w s (fun u => Build.run o (step u)) Q := h.leaves.run

/-- A state that is set for a step and put back behind it. -/
theorem Ensures.within {f g : State → State} {next : Indent → α → Build β} (hf : Uniform f)
    (hg : ∀ t, s.Alike w.anyDepth t → g (f t) = t) (h : Ensures w (f s) step Q)
    (h' : ∀ a ds, Q a ds →
      Ensures w s (fun u => next u (a u)) fun a' ds' => Q' a' (ds ++ ds')) :
    Ensures w s (fun u => do
      setState f
      let a ← step u
      setState g
      next u a) Q' := by
  obtain ⟨a, ds, hstep, ha⟩ := h
  obtain ⟨a', ds', hnext, ha'⟩ := h' a ds ha
  refine ⟨a', ds ++ ds', fun c hc => ?_, ha'⟩
  show next c.indent (step c.indent (c.withState f)).1
    ((step c.indent (c.withState f)).2.withState g) = _
  have hrun : step c.indent (c.withState f) = (a c.indent, (c.withState f).reported ds) :=
    hstep _ (hc.withState hf)
  -- warnings do not touch the state, so what was changed in it can be changed back
  have hback : ((c.withState f).reported ds).withState g = c.reported ds := by
    show { c.reported ds with state := g (f c.state) } = _
    rw [hg c.state hc.state]
    rfl
  rw [hrun, hback, ← Context.reported_reported]
  exact hnext (c.reported ds) (hc.reported ds)

/-- A state that is set for a step and not put back. -/
theorem leaves_setState {f : State → State} {step : Indent → PUnit → Build α} (hf : Uniform f)
    (h : Leaves w (f s) (fun u => step u ⟨⟩) Q) :
    Leaves w s (fun u => setState f >>= step u) Q := by
  obtain ⟨a, ds, hstep, ha⟩ := h
  refine ⟨a, ds, fun c hc => ?_, ha⟩
  obtain ⟨t, ht⟩ := hstep _ (hc.withState hf)
  exact ⟨t, ht⟩

/-- A step that keeps the state in front of one that may change it. -/
theorem Ensures.bindLeaves {next : Indent → α → Build β} (h : Ensures w s step Q)
    (h' : ∀ a ds, Q a ds →
      Leaves w s (fun u => next u (a u)) fun a' ds' => Q' a' (ds ++ ds')) :
    Leaves w s (fun u => step u >>= next u) Q' := by
  obtain ⟨a, ds, hstep, ha⟩ := h
  obtain ⟨a', ds', hnext, ha'⟩ := h' a ds ha
  refine ⟨a', ds ++ ds', fun c hc => ?_, ha'⟩
  obtain ⟨t, ht⟩ := hnext (c.reported ds) (hc.reported ds)
  refine ⟨t, ?_⟩
  show next c.indent (step c.indent c).1 (step c.indent c).2 = _
  rw [hstep c hc, ← Context.reported_reported]
  exact ht

end Build

end FeatureStudio
