/-
  FeatureStudio.Proofs.Script.Override: calls with arguments given by name.

  Arguments given by name replace those of the default call one after the other.  Behind every
  replacement the arguments are those of the parameters, each with what was given for it last.  A
  name that is no parameter's ends this, and nothing that follows it is looked at.

  Main statements:
    * `setArgument_map`: what one replacement does to the arguments.
    * `foldlM_setArgument`: what replacements in a row do to them.
    * `callWith_overrides`: the call, or the name that is refused, and which overrides may change
      places.
-/
import FeatureStudio.Script.Function
import Mathlib.Data.List.Nodup

namespace FeatureStudio

/-! ## §1. What is given. -/

/-- The arguments given for `name`, in order. -/
def given (overrides : List (String × Expr)) (name : String) : List Expr :=
  (overrides.filter (·.1 = name)).map Prod.snd

/-- The argument that overrides leave for the parameter: the last one given for it, else its
default, else its own name. -/
def Parameter.argumentFrom (overrides : List (String × Expr)) (p : Parameter) : Expr :=
  match (given overrides p.name).getLast?, p.default with
  | some argument, _ => argument
  | none, some argument => argument
  | none, none => .token p.name

theorem given_append_single (overrides : List (String × Expr)) (o : String × Expr)
    (name : String) :
    given (overrides ++ [o]) name
      = if name = o.1 then given overrides name ++ [o.2] else given overrides name := by
  by_cases h : name = o.1
  · simp [given, h]
  · simp [given, h, Ne.symm h]

namespace Parameter

/-- Without overrides the argument is that of the default call. -/
theorem argumentFrom_nil (p : Parameter) : p.argumentFrom [] = p.argument := by
  unfold argumentFrom argument
  cases p.default <;> rfl

/-- A further override counts for the parameter of its name only. -/
theorem argumentFrom_append_single (overrides : List (String × Expr)) (o : String × Expr)
    (p : Parameter) :
    p.argumentFrom (overrides ++ [o])
      = if p.name = o.1 then o.2 else p.argumentFrom overrides := by
  unfold argumentFrom
  rw [given_append_single]
  by_cases h : p.name = o.1
  · rw [if_pos h, if_pos h, List.getLast?_concat]
  · rw [if_neg h, if_neg h]

end Parameter

namespace Function

variable (f : Function)

/-- The names of the parameters. -/
def parameterNames : List String := f.parameters.map (·.name)

/-- The first override whose name is no parameter's. -/
def firstUnknown? (overrides : List (String × Expr)) : Option (String × Expr) :=
  overrides.find? (·.1 ∉ f.parameterNames)

/-- Overrides in another order: those of one parameter follow each other as before, and so do those
of no parameter.  Those of different parameters may have changed places. -/
structure Rearranged (overrides overrides' : List (String × Expr)) : Prop where
  known : ∀ name ∈ f.parameterNames, given overrides name = given overrides' name
  unknown : overrides.filter (·.1 ∉ f.parameterNames)
    = overrides'.filter (·.1 ∉ f.parameterNames)

/-! ## §2. Replacing arguments. -/

/-- Setting the value at the place of a name sets it for the parameter of that name. -/
theorem set_map_of_findIdx? {ps : List Parameter} (h : (ps.map (·.name)).Nodup)
    (g : Parameter → Expr) {name : String} {i : Nat}
    (hi : ps.findIdx? (·.name = name) = some i) (argument : Expr) :
    (ps.map g).set i argument = ps.map fun p => if p.name = name then argument else g p := by
  induction ps generalizing i with
  | nil => cases hi
  | cons p ps ih =>
      rw [List.map_cons, List.nodup_cons] at h
      rw [List.findIdx?_cons] at hi
      by_cases hp : p.name = name
      · -- no parameter behind has the name too
        have hrest : ∀ q ∈ ps, ¬ q.name = name := fun q hq hname =>
          h.1 (hp.trans hname.symm ▸ List.mem_map_of_mem hq)
        rw [if_pos (decide_eq_true hp)] at hi
        cases hi
        rw [List.map_cons, List.map_cons, List.set_cons_zero, if_pos hp]
        exact congrArg (argument :: ·) (List.map_congr_left fun q hq => (if_neg (hrest q hq)).symm)
      · rw [if_neg (by simpa using hp)] at hi
        obtain ⟨j, hj, rfl⟩ := Option.map_eq_some_iff.mp hi
        rw [List.map_cons, List.map_cons, List.set_cons_succ, if_neg hp, ih h.2 hj]

variable {f}

/-- **What one replacement does to arguments**: that of the named parameter is the new one.  A name
that is no parameter's is refused. -/
theorem setArgument_map (h : f.parameterNames.Nodup) (g : Parameter → Expr) (name : String)
    (argument : Expr) :
    f.setArgument (f.parameters.map g) name argument =
      if name ∈ f.parameterNames then
        .ok (f.parameters.map fun p => if p.name = name then argument else g p)
      else .error (.unknownArgument f.name name) := by
  have hmem : name ∈ f.parameterNames ↔ ∃ p ∈ f.parameters, p.name = name := List.mem_map
  unfold setArgument
  cases hi : f.parameters.findIdx? (·.name = name) with
  | none =>
      rw [if_neg]
      intro hname
      obtain ⟨p, hp, hpname⟩ := hmem.mp hname
      simpa [hpname] using List.findIdx?_eq_none_iff.mp hi p hp
  | some i =>
      rw [if_pos]
      · exact congrArg Except.ok (set_map_of_findIdx? h g hi argument)
      · obtain ⟨hlt, hname, -⟩ := List.findIdx?_eq_some_iff_getElem.mp hi
        exact hmem.mpr ⟨_, List.getElem_mem hlt, of_decide_eq_true hname⟩

/-- **Replacements in a row**, behind those that are `done`: they end at the first name that is
refused, and otherwise leave every parameter what was given for it last. -/
theorem foldlM_setArgument (h : f.parameterNames.Nodup) (done overrides : List (String × Expr)) :
    overrides.foldlM (fun args o => f.setArgument args o.1 o.2)
        (f.parameters.map (Parameter.argumentFrom done))
      = match f.firstUnknown? overrides with
        | some o => .error (.unknownArgument f.name o.1)
        | none => .ok (f.parameters.map (Parameter.argumentFrom (done ++ overrides))) := by
  unfold firstUnknown?
  induction overrides generalizing done with
  | nil => rw [List.append_nil]; rfl
  | cons o overrides ih =>
      rw [List.foldlM_cons, setArgument_map h]
      by_cases ho : o.1 ∈ f.parameterNames
      · have hargs : (f.parameters.map fun p =>
              if p.name = o.1 then o.2 else p.argumentFrom done)
            = f.parameters.map (Parameter.argumentFrom (done ++ [o])) :=
          List.map_congr_left fun p _ => (p.argumentFrom_append_single done o).symm
        rw [if_pos ho, hargs, List.find?_cons_of_neg (by simpa using ho),
          List.append_cons done o overrides]
        exact ih (done ++ [o])
      · rw [if_neg ho, List.find?_cons_of_pos (by simpa using ho)]
        rfl

/-! ## §3. Calls. -/

/-- The call that overrides leave, unless a name is refused. -/
theorem callWith_eq (h : f.parameterNames.Nodup) (overrides : List (String × Expr)) :
    f.callWith overrides = match f.firstUnknown? overrides with
      | some o => .error (.unknownArgument f.name o.1)
      | none => .ok (.call f.name (f.parameters.map (Parameter.argumentFrom overrides)) false) := by
  have hstart : f.arguments = f.parameters.map (Parameter.argumentFrom []) :=
    List.map_congr_left fun p _ => p.argumentFrom_nil.symm
  unfold callWith
  rw [hstart, foldlM_setArgument h]
  cases f.firstUnknown? overrides <;> rfl

/-- Neighbours that are overrides of different parameters may change places. -/
theorem rearranged_swap (front : List (String × Expr)) {o o' : String × Expr}
    (ho : o.1 ∈ f.parameterNames) (ho' : o'.1 ∈ f.parameterNames) (hne : o.1 ≠ o'.1)
    (rest : List (String × Expr)) :
    f.Rearranged (front ++ o :: o' :: rest) (front ++ o' :: o :: rest) where
  known name _ := by
    -- at most one of the two has the name
    have hpair : [o, o'].filter (·.1 = name) = [o', o].filter (·.1 = name) := by
      by_cases hname : o.1 = name
      · subst hname
        simp [hne.symm]
      · simp [hname, List.filter_cons]
    have hcut : ∀ a b : String × Expr, front ++ a :: b :: rest = front ++ ([a, b] ++ rest) :=
      fun _ _ => rfl
    rw [given, given, hcut, hcut, List.filter_append, List.filter_append, List.filter_append,
      List.filter_append, hpair]
  unknown := by simp [ho, ho']

namespace Rearranged

variable {overrides overrides' : List (String × Expr)}

/-- The same name is refused. -/
theorem firstUnknown?_eq (h : f.Rearranged overrides overrides') :
    f.firstUnknown? overrides = f.firstUnknown? overrides' := by
  unfold firstUnknown?
  rw [← List.head?_filter, ← List.head?_filter, h.unknown]

/-- The same arguments are left. -/
theorem argumentFrom_eq (h : f.Rearranged overrides overrides') {p : Parameter}
    (hp : p ∈ f.parameters) : p.argumentFrom overrides = p.argumentFrom overrides' := by
  unfold Parameter.argumentFrom
  rw [h.known p.name (List.mem_map_of_mem hp)]

end Rearranged

/-- **Arguments given by name**, where no two parameters have the same one.  The first name that is
no parameter's is refused; otherwise every parameter gets the last argument given for it, else its
default, else its own name.  So without overrides this is the default call, and overrides of
different parameters may change places. -/
theorem callWith_overrides (h : f.parameterNames.Nodup) :
    (∀ overrides, f.callWith overrides = match f.firstUnknown? overrides with
      | some o => .error (.unknownArgument f.name o.1)
      | none => .ok (.call f.name (f.parameters.map (Parameter.argumentFrom overrides)) false)) ∧
    f.callWith [] = .ok f.call ∧
    ∀ overrides overrides', f.Rearranged overrides overrides' →
      f.callWith overrides = f.callWith overrides' := by
  refine ⟨callWith_eq h, f.callWith_nil, fun overrides overrides' hsame => ?_⟩
  have hargs : f.parameters.map (Parameter.argumentFrom overrides)
      = f.parameters.map (Parameter.argumentFrom overrides') :=
    List.map_congr_left fun _ hp => hsame.argumentFrom_eq hp
  rw [callWith_eq h, callWith_eq h, hsame.firstUnknown?_eq, hargs]

/-- A parameter that is given twice gets what came last, the others their default or their name. -/
theorem make_callWith :
    let f : Function :=
      { kind := .function, name := "make"
        parameters := [{ FormalParameter.context with },
          { FormalParameter.id with default := some (.token "top") },
          { FormalParameter.definition with }, { name := "depth", typeName := none }] }
    let twice := [("definition", Expr.token "d"), ("context", .token "c"), ("definition", .token "e")]
    f.parameterNames.Nodup ∧
      f.callWith twice
        = .ok (.call "make" [.token "c", .token "top", .token "e", .token "depth"] false) ∧
      f.callWith [("context", .token "c"), ("definition", .token "d"), ("definition", .token "e")]
        = f.callWith twice ∧
      f.callWith (("missing", .token "x") :: ("other", .token "y") :: twice)
        = .error (.unknownArgument "make" "missing") := by
  intro f twice
  have hnames : f.parameterNames.Nodup := by decide +kernel
  obtain ⟨hcall, -, hsame⟩ := callWith_overrides hnames
  refine ⟨hnames, hcall twice, hsame _ _ ?_, hcall _⟩
  exact rearranged_swap [] (by decide +kernel) (by decide +kernel) (by decide +kernel) _

end Function

end FeatureStudio
