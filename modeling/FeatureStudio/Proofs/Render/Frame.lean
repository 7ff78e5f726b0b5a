/-
  FeatureStudio.Proofs.Render.Frame: what a step of a rendering leaves as it was.

  A step reads and writes a context.  Whatever it does, the settings of the context stay, and so
  does the stack of saved states, and warnings are only added.  The state itself may change; a
  step `Shifts f` if it takes every state `s` to `f s`, and `Keeps` if it changes no state.

  Main statements:
    * `Shifts.bind`: steps in a row shift the state one after the other.
    * `keeps_run`: `run` keeps the state, whatever the step inside it does to it.
    * `keeps_runAll`, `keeps_joined`: so do parts in a row, indented or not.
-/
import FeatureStudio.Render.Context

namespace FeatureStudio

/-! ## §1. Contexts that continue one another. -/

/-- `after` has the settings and the saved states of `before`, and its warnings, with further
ones possibly behind them. -/
structure Context.Continues (before after : Context) : Prop where
  stdVersion : after.stdVersion = before.stdVersion
  indent : after.indent = before.indent
  documents : after.documents = before.documents
  stack : after.stack = before.stack
  diagnostics : before.diagnostics <+: after.diagnostics

namespace Context.Continues

theorem refl (c : Context) : c.Continues c := ⟨rfl, rfl, rfl, rfl, List.prefix_refl _⟩

theorem trans {a b c : Context} (h : a.Continues b) (h' : b.Continues c) : a.Continues c :=
  ⟨h'.stdVersion.trans h.stdVersion, h'.indent.trans h.indent, h'.documents.trans h.documents,
    h'.stack.trans h.stack, h.diagnostics.trans h'.diagnostics⟩

theorem withState (c : Context) (f : State → State) : c.Continues (c.withState f) :=
  ⟨rfl, rfl, rfl, rfl, List.prefix_refl _⟩

theorem warned (c : Context) (message : String) (location : Option String) :
    c.Continues (c.warned message location) :=
  ⟨rfl, rfl, rfl, rfl, List.prefix_append _ _⟩

end Context.Continues

/-- What is put back is what was saved, if the stack is the same again. -/
theorem Context.restore_of_save {c d : Context} (f : State → State)
    (h : (c.save.withState f).Continues d) :
    c.Continues d.restore ∧ d.restore.state = c.state := by
  have hstack : d.stack = c.state :: c.stack := h.stack
  unfold Context.restore
  rw [hstack]
  exact ⟨⟨h.stdVersion, h.indent, h.documents, rfl, h.diagnostics⟩, rfl⟩

namespace Build

variable {α β : Type}

/-! ## §2. Balanced steps and what they do to the state. -/

/-- Every run continues its context; the state may change. -/
def Balanced (step : Build α) : Prop := ∀ c : Context, c.Continues (step c).2

/-- Every run continues its context and takes the state through `f`. -/
def Shifts (f : State → State) (step : Build α) : Prop :=
  ∀ c : Context, c.Continues (step c).2 ∧ (step c).2.state = f c.state

/-- Every run continues its context and leaves the state as it was. -/
def Keeps (step : Build α) : Prop := Shifts (fun s => s) step

theorem Shifts.balanced {f : State → State} {step : Build α} (h : Shifts f step) :
    Balanced step := fun c => (h c).1

theorem Keeps.balanced {step : Build α} (h : Keeps step) : Balanced step := Shifts.balanced h

/-- Steps in a row shift the state one after the other. -/
theorem Shifts.bind {f g : State → State} {step : Build α} {next : α → Build β}
    (h : Shifts f step) (h' : ∀ a, Shifts g (next a)) :
    Shifts (fun s => g (f s)) (step >>= next) := by
  intro c
  obtain ⟨hc, hs⟩ := h c
  obtain ⟨hc', hs'⟩ := h' (step c).1 (step c).2
  refine ⟨hc.trans hc', ?_⟩
  show (next (step c).1 (step c).2).2.state = g (f c.state)
  rw [hs', hs]

theorem Keeps.bind {step : Build α} {next : α → Build β} (h : Keeps step)
    (h' : ∀ a, Keeps (next a)) : Keeps (step >>= next) := Shifts.bind h h'

theorem keeps_pure (a : α) : Keeps (pure a : Build α) := fun c => ⟨.refl c, rfl⟩

theorem Keeps.map {step : Build α} (h : Keeps step) (f : α → β) :
    Keeps (step >>= fun a => pure (f a)) := h.bind fun a => keeps_pure (f a)

/-! ## §3. The primitives. -/

theorem shifts_setState (f : State → State) : Shifts f (setState f) :=
  fun c => ⟨.withState c f, rfl⟩

/-- A step that depends on the state shifts it as it does at that state. -/
theorem shifts_state {next : State → Build α} {f : State → State → State}
    (h : ∀ s, Shifts (f s) (next s)) : Shifts (fun s => f s s) (state >>= next) :=
  fun c => h c.state c

theorem shifts_scope {next : Scope → Build α} {f : Scope → State → State}
    (h : ∀ s, Shifts (f s) (next s)) : Shifts (fun s => f s.scope s) (scope >>= next) :=
  fun c => h c.state.scope c

/-- In a given scope a step goes on as it does there. -/
theorem scope_bind {next : Scope → Build α} {c : Context} {s : Scope} (h : c.state.scope = s) :
    (scope >>= next) c = next s c := by
  rw [← h]
  rfl

theorem keeps_state {next : State → Build α} (h : ∀ s, Keeps (next s)) :
    Keeps (state >>= next) := shifts_state h

theorem keeps_scope {next : Scope → Build α} (h : ∀ s, Keeps (next s)) :
    Keeps (scope >>= next) := shifts_scope h

theorem keeps_get {next : Context → Build α} (h : ∀ c, Keeps (next c)) :
    Keeps (get >>= next) := fun c => h c c

theorem keeps_indented (text : String) (levels : Nat) : Keeps (indented text levels) :=
  keeps_get fun _ => keeps_pure _

theorem keeps_warn (message : String) : Keeps (warn message) :=
  fun c => ⟨.warned c message none, rfl⟩

theorem keeps_warnAt (message location : String) : Keeps (warnAt message location) :=
  fun c => ⟨.warned c message (some location), rfl⟩

theorem keeps_expectedScope (expected : List Scope) : Keeps (expectedScope expected) :=
  keeps_scope fun _ => (keeps_warn _).bind fun _ => keeps_pure _

/-- `run` keeps the state, whatever the step inside it does to it. -/
theorem keeps_run {step : Build α} (overrides : Overrides) (h : Balanced step) :
    Keeps (run overrides step) := by
  intro c
  rw [run_apply]
  exact Context.restore_of_save (·.override overrides) (h _)

theorem keeps_runIn {step : Build α} (scope : Scope) (h : Balanced step) :
    Keeps (runIn scope step) := keeps_run (.inScope scope) h

end Build

/-! ## §4. Parts in a row. -/

namespace Render

open Build

theorem keeps_runAll (overrides : Overrides) :
    ∀ parts : List Rendering, (∀ p ∈ parts, Balanced p) → Keeps (runAll overrides parts)
  | [], _ => keeps_pure []
  | part :: rest, h => by
      have hpart : Keeps (run overrides part) := keeps_run overrides (h part List.mem_cons_self)
      have hrest : Keeps (runAll overrides rest) :=
        keeps_runAll overrides rest fun p hp => h p (List.mem_cons_of_mem _ hp)
      exact hpart.bind fun text => hrest.map fun texts => text :: texts

/-- The depth that is raised for the parts is what they leave behind, so lowering it afterwards
never meets depth zero. -/
theorem runAll_deeper (overrides : Overrides) {parts : List Rendering}
    (h : ∀ p ∈ parts, Balanced p) (c : Context) :
    (runAll overrides parts
      (c.withState fun s => { s with indentDepth := s.indentDepth + 1 })).2.state.indentDepth
        = c.state.indentDepth + 1 := by
  rw [(keeps_runAll overrides parts h _).2]
  rfl

theorem keeps_joined (join : Join) {parts : List Rendering} (h : ∀ p ∈ parts, Balanced p) :
    Keeps (joined join parts) := by
  have hparts : Keeps (runAll { scope := join.scope } parts) := keeps_runAll _ parts h
  unfold joined
  cases hi : join.indented with
  | false =>
      simp only [Bool.false_eq_true, if_false]
      refine hparts.bind fun texts => ?_
      split
      · exact keeps_pure _
      · exact keeps_pure _
  | true =>
      simp only [if_true]
      have hfinish : ∀ texts : List String, Keeps
          (if texts.isEmpty = true then pure ""
            else
              indented ((join.separator ++ join.ending).intercalate texts ++ join.ending) 1) := by
        intro texts
        split
        · exact keeps_pure _
        · exact keeps_indented _ _
      have hlower := fun texts =>
        (shifts_setState fun s => { s with indentDepth := s.indentDepth - 1 }).bind fun _ =>
          hfinish texts
      -- one level up and one level down again is no shift at all
      show Shifts (fun s => { s with indentDepth := s.indentDepth + 1 - 1 }) _
      exact (shifts_setState fun s => { s with indentDepth := s.indentDepth + 1 }).bind fun _ =>
        Shifts.bind hparts hlower

theorem keeps_blockBody (spaced : Bool) {body : List Rendering} (h : ∀ p ∈ body, Balanced p) :
    Keeps (blockBody spaced body) := keeps_state fun _ => keeps_joined _ h

theorem keeps_block (spaced : Bool) {body : List Rendering} (h : ∀ p ∈ body, Balanced p) :
    Keeps (block spaced body) := (keeps_blockBody spaced h).map _

theorem keeps_sequence (separator : String) {parts : List Rendering}
    (h : ∀ p ∈ parts, Balanced p) : Keeps (sequence separator parts) := keeps_joined _ h

end Render

end FeatureStudio
