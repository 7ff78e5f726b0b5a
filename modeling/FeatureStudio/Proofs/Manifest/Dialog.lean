/-
  FeatureStudio.Proofs.Manifest.Dialog: what the UI predicate of a manifest declares.

  A manifest lists parameters, some of them in groups and some under conditions.  The UI predicate
  has a statement for each, inside blocks and branches.  Walking through these statements collects
  the declarations, each with the tests on the way to it; reading the manifest collects the
  parameters, each with the conditions that it stands under.  Both come to the same.

  Main statements:
    * `ParameterEntry.declares_node`: the statement of a parameter, inside whatever is around it.
    * `ParameterEntry.length_listedAll`: how many parameters are listed.
    * `Manifest.dialog_declares`: the UI predicate declares what the manifest lists.
-/
import FeatureStudio.Proofs.Manifest.Lookup
import FeatureStudio.Report

namespace FeatureStudio

/-! ## §1. Declarations among statements. -/

/-- A test on the way to a statement: it holds there, or it does not. -/
structure Guard where
  test : Expr
  holds : Bool

/-- A declaration of a dialog parameter with the tests on the way to it, the outermost first. -/
structure Reached where
  name : String
  /-- The type of the parameter, or the predicate that holds of it. -/
  word : String
  guards : List Guard

/-- The type of a parameter, or the predicate that holds of it. -/
def ParameterDeclaration.word : ParameterDeclaration → String
  | .typed typeName => typeName
  | .bounded predicate _ => predicate

mutual

/-- The declarations that a walk through a statement meets, in order; `guards` are the tests on the
way to the statement itself. -/
def Node.reached (guards : List Guard) : Node → List Reached
  | .uiParameter name _ declaration => [⟨name, declaration.word, guards⟩]
  | .block _ body | .group _ body | .sequence _ body | .uiPredicate _ body =>
    reachedAll guards body
  | .ifChain test body elseIfs otherwise =>
    reachedAll (guards ++ [⟨test, true⟩]) body
      ++ reachedBranches (guards ++ [⟨test, false⟩]) elseIfs
      ++ reachedElse (guards ++ ⟨test, false⟩ :: elseIfs.map fun b => ⟨b.1, false⟩) otherwise
  | _ => []

/-- The same for statements in a row. -/
def reachedAll (guards : List Guard) : List Node → List Reached
  | [] => []
  | n :: rest => n.reached guards ++ reachedAll guards rest

/-- The same for further branches, which are reached where the tests before them do not hold. -/
def reachedBranches (guards : List Guard) : List (Expr × List Node) → List Reached
  | [] => []
  | (test, body) :: rest =>
    reachedAll (guards ++ [⟨test, true⟩]) body ++ reachedBranches (guards ++ [⟨test, false⟩]) rest

/-- The same for the branch without a test. -/
def reachedElse (guards : List Guard) : Option (List Node) → List Reached
  | none => []
  | some body => reachedAll guards body

end

/-- A statement that is the only one of a branch is reached where the test of the branch holds. -/
theorem reached_branch (test : Expr) (n : Node) (guards : List Guard) :
    (IfChain.node { test, body := [n] }).reached guards = n.reached (guards ++ [⟨test, true⟩]) := by
  simp [IfChain.node, Node.reached, reachedAll, reachedBranches, reachedElse]

/-- The statements of a UI predicate. -/
def Node.dialog? : Node → Option (List Node)
  | .uiPredicate _ body => some body
  | _ => none

/-- The statements of each UI predicate of the studio. -/
def Studio.dialogs (s : Studio) : List (List Node) := s.body.filterMap Node.dialog?

/-! ## §2. Parameters in a manifest. -/

/-- A condition that a parameter of a manifest stands under. -/
inductive Condition where
  /-- A value of an enumeration is chosen, as a text `Enum.VALUE` says it. -/
  | chosen (text : String)
  /-- A checkbox is checked. -/
  | checked (name : String)

/-- A parameter of a manifest with the conditions that it stands under, the outermost first. -/
structure Listed where
  name : String
  /-- The type of the parameter, or the predicate that holds of it. -/
  word : String
  conditions : List Condition

/-- The field of `definition` that holds the enumeration of the given name. -/
def Manifest.parameterOf (m : Manifest) (enumName : String) : String :=
  (m.enum? enumName).elim "" EnumEntry.parameterName

/-- The condition that a parameter may have of its own. -/
def ownCondition (condition : Option String) : List Condition := condition.toList.map .chosen

namespace ParameterEntry

mutual

/-- The parameters that an entry lists, in order; `outer` are the conditions around the entry.  A
group that is driven lists its checkbox first, which is not inside the group. -/
def listed (m : Manifest) (outer : List Condition) : ParameterEntry → List Listed
  | .boolean _ name _ _ condition => [⟨name, "boolean", outer ++ ownCondition condition⟩]
  | .choice enumName _ _ _ condition =>
    [⟨m.parameterOf enumName, enumName, outer ++ ownCondition condition⟩]
  | .value kind name _ _ condition =>
    [⟨name, kind.parameterPredicate, outer ++ ownCondition condition⟩]
  | .query name _ _ _ condition => [⟨name, "Query", outer ++ ownCondition condition⟩]
  | .group _ _ ps condition => listedAll m (outer ++ ownCondition condition) ps
  | .drivenGroup name _ _ _ ps condition =>
    ⟨name, "boolean", outer ++ ownCondition condition⟩
      :: listedAll m (outer ++ ownCondition condition ++ [.checked name]) ps

/-- The parameters that several entries list. -/
def listedAll (m : Manifest) (outer : List Condition) : List ParameterEntry → List Listed
  | [] => []
  | p :: rest => p.listed m outer ++ listedAll m outer rest

end

mutual

/-- An entry lists as many parameters as it declares fields. -/
theorem length_listed (m : Manifest) :
    ∀ (entry : ParameterEntry) (outer : List Condition), (entry.listed m outer).length = entry.size
  | .boolean .., _ | .choice .., _ | .value .., _ | .query .., _ => rfl
  | .group _ _ ps _, _ => length_listedAll m ps _
  | .drivenGroup _ _ _ _ ps _, _ => by
      rw [listed, List.length_cons, length_listedAll m ps, size, Nat.add_comm]

theorem length_listedAll (m : Manifest) : ∀ (ps : List ParameterEntry) (outer : List Condition),
    (listedAll m outer ps).length = sizes ps
  | [], _ => rfl
  | p :: rest, outer => by
      rw [listedAll, List.length_append, length_listed m p, length_listedAll m rest, sizes]

end

end ParameterEntry

/-! ## §3. Tests for conditions. -/

namespace Manifest

/-- The test asks for the value that the text `Enum.VALUE` names, in any case. -/
def Tests (m : Manifest) (text : String) (test : Expr) : Prop :=
  ∃ enumName value e built member, Text.splitOnce '.' text = some (enumName, value) ∧
    m.enum? enumName = some e ∧ e.enumeration = .ok built ∧ member ∈ built.members ∧
    member.token = Text.upper value ∧ test = member.call

/-- On the way to a declaration the condition is tested and holds. -/
def States (m : Manifest) (condition : Condition) (guard : Guard) : Prop :=
  guard.holds = true ∧
    match condition with
    | .chosen text => m.Tests text guard.test
    | .checked name => guard.test = .definition name

/-- The declaration is that of the parameter, reached under its conditions and no others. -/
structure Declares (m : Manifest) (l : Listed) (r : Reached) : Prop where
  name : r.name = l.name
  word : r.word = l.word
  guards : List.Forall₂ m.States l.conditions r.guards

variable {m : Manifest} {enums : List Enumeration}

/-- What the test asks: whether the field of the enumeration holds the value. -/
theorem Tests.value {text : String} {test : Expr} (h : m.Tests text test) :
    ∃ enumName value e built, Text.splitOnce '.' text = some (enumName, value) ∧
      m.enum? enumName = some e ∧ e.enumeration = .ok built ∧
      ∀ I : Interpretation, I.Respects e built →
        (test.written false).value I = .truth (I.token ("definition." ++ e.parameterName)
          = I.token (e.qualified (Text.upper value))) := by
  obtain ⟨enumName, value, e, built, member, hsplit, he, hbuilt, hmember, htoken, rfl⟩ := h
  refine ⟨enumName, value, e, built, hsplit, he, hbuilt, fun I hI => ?_⟩
  rw [EnumEntry.value_test hbuilt hI hmember, htoken]

theorem tests_of_condition (h : m.Accepted) (hbuilds : m.Builds enums) {text : String}
    (hc : m.HasCondition text) {test : Expr}
    (htest : (m.declared enums).condition text = .ok test) : m.Tests text test := by
  obtain ⟨enumName, value, e, hsplit, he, hvalue⟩ := hc
  obtain ⟨built, hbuilt, henum⟩ := declared_enum h hbuilds he
  rw [← EnumEntry.get?_isSome hbuilt] at hvalue
  obtain ⟨member, hmember⟩ := Option.isSome_iff_exists.mp hvalue
  simp only [Declared.condition, hsplit, Option.getD_some, henum, hmember] at htest
  cases htest
  exact ⟨enumName, value, e, built, member, hsplit, he, hbuilt, List.mem_of_find?_eq_some hmember,
    by simpa using List.find?_some hmember, rfl⟩

/-- A statement under its own condition is reached where that holds, too. -/
theorem reached_guarded (h : m.Accepted) (hbuilds : m.Builds enums) {n guarded : Node}
    {condition : Option String} (hc : ∀ text ∈ condition, m.HasCondition text)
    (hg : (m.declared enums).guarded n condition = .ok guarded) (guards : List Guard) :
    ∃ own, List.Forall₂ m.States (ownCondition condition) own ∧
      guarded.reached guards = n.reached (guards ++ own) := by
  cases condition with
  | none =>
      cases hg
      exact ⟨[], .nil, by rw [List.append_nil]⟩
  | some text =>
      obtain ⟨test, htest, rfl⟩ := guarded_eq_ok hg
      have hstates : m.States (.chosen text) ⟨test, true⟩ :=
        ⟨rfl, tests_of_condition h hbuilds (hc text rfl) htest⟩
      exact ⟨[⟨test, true⟩], .cons hstates .nil, reached_branch test n guards⟩

/-- What holds of a statement under all tests around it holds of the statement under its own
condition, too. -/
theorem declares_guarded (h : m.Accepted) (hbuilds : m.Builds enums) {n guarded : Node}
    {condition : Option String} (hc : ∀ text ∈ condition, m.HasCondition text)
    (hg : (m.declared enums).guarded n condition = .ok guarded)
    {l : List Condition → List Listed}
    (hn : ∀ {conditions guards}, List.Forall₂ m.States conditions guards →
      List.Forall₂ m.Declares (l conditions) (n.reached guards))
    {outer : List Condition} {guards : List Guard} (houter : List.Forall₂ m.States outer guards) :
    List.Forall₂ m.Declares (l (outer ++ ownCondition condition)) (guarded.reached guards) := by
  obtain ⟨own, hown, hreached⟩ := reached_guarded h hbuilds hc hg guards
  rw [hreached]
  exact hn (List.rel_append houter hown)

end Manifest

/-- A single declaration, reached as it is listed. -/
theorem declares_parameter {m : Manifest} {p : DialogParameter} {name word : String}
    (hname : p.name = name) (hword : p.declaration.word = word) {conditions : List Condition}
    {guards : List Guard} (h : List.Forall₂ m.States conditions guards) :
    List.Forall₂ m.Declares [⟨name, word, conditions⟩] (p.node.reached guards) :=
  .cons ⟨hname, hword, h⟩ .nil

namespace ParameterEntry

variable {m : Manifest} {enums : List Enumeration}

mutual

/-- **The statement of a parameter declares what the entry lists**, under the tests around it. -/
theorem declares_node (h : m.Accepted) (hbuilds : m.Builds enums) :
    ∀ (entry : ParameterEntry) {n : Node}, (∀ q ∈ entry.family, q.WellFormed m) →
      entry.node (m.declared enums) = .ok n →
        ∀ {outer : List Condition} {guards : List Guard}, List.Forall₂ m.States outer guards →
          List.Forall₂ m.Declares (entry.listed m outer) (n.reached guards)
  | .boolean flip name labels default condition, n, hrules, hn, _, _, houter => by
      refine Manifest.declares_guarded h hbuilds (hrules _ List.mem_cons_self).1 hn
        (declares_parameter ?_ ?_) houter
      · cases flip <;> rfl
      · cases flip <;> rfl
  | .value kind name bounds labels condition, n, hrules, hn, _, _, houter => by
      refine Manifest.declares_guarded h hbuilds (hrules _ List.mem_cons_self).1 hn
        (declares_parameter ?_ ?_) houter
      · cases bounds <;> rfl
      · cases bounds <;> rfl
  | .query name filter maxPicks labels condition, n, hrules, hn, _, _, houter =>
      Manifest.declares_guarded h hbuilds (hrules _ List.mem_cons_self).1 hn
        (declares_parameter rfl rfl) houter
  | .choice enumName labels default style condition, n, hrules, hn, _, _, houter => by
      obtain ⟨hwhen, e, he, -⟩ := hrules _ List.mem_cons_self
      -- the enumeration that is found is the one that was built from the entry of that name
      obtain ⟨built, hbuilt, henum⟩ := Manifest.declared_enum h hbuilds he
      obtain ⟨built', hbuilt', hguarded⟩ := bind_eq_ok_iff.mp hn
      cases henum.symm.trans hbuilt'
      obtain ⟨hname, hparameter⟩ := EnumEntry.names_enumeration hbuilt
      have henumName : built.name = enumName := hname.trans (Manifest.mem_enums_of_enum? he).2
      have hfield : built.parameterName = m.parameterOf enumName := by
        rw [Manifest.parameterOf, he]
        exact hparameter
      refine Manifest.declares_guarded h hbuilds hwhen hguarded (declares_parameter ?_ ?_) houter
      · cases style <;> exact hfield
      · cases style <;> exact henumName
  | .group name collapsed ps condition, n, hrules, hn, _, _, houter => by
      obtain ⟨ns, hns, hguarded⟩ := bind_eq_ok_iff.mp hn
      exact Manifest.declares_guarded h hbuilds (hrules _ List.mem_cons_self).1 hguarded
        (l := fun conditions => listedAll m conditions ps)
        (declares_nodes h hbuilds ps (fun q hq => hrules q (List.mem_cons_of_mem _ hq)) hns) houter
  | .drivenGroup name groupName description collapsed ps condition, n, hrules, hn, _, _, houter => by
      obtain ⟨ns, hns, hguarded⟩ := bind_eq_ok_iff.mp hn
      refine Manifest.declares_guarded h hbuilds (hrules _ List.mem_cons_self).1 hguarded
        (l := fun conditions => ⟨name, "boolean", conditions⟩
          :: listedAll m (conditions ++ [.checked name]) ps)
        (fun {conditions guards} hguards => ?_) houter
      -- the checkbox stands in front of the group, which is reached where it is checked
      have hchecked : m.States (.checked name) ⟨.definition name, true⟩ := ⟨rfl, rfl⟩
      have hmembers := declares_nodes h hbuilds ps
        (fun q hq => hrules q (List.mem_cons_of_mem _ hq)) hns
        (List.rel_append hguards (.cons hchecked .nil))
      refine .cons ⟨rfl, rfl, hguards⟩ ?_
      show List.Forall₂ m.Declares _
        ((IfChain.node { test := .definition name, body := [.group _ ns] }).reached guards ++ [])
      rw [List.append_nil, reached_branch]
      exact hmembers

/-- The statements of several parameters declare what the entries list, one after the other. -/
theorem declares_nodes (h : m.Accepted) (hbuilds : m.Builds enums) :
    ∀ (ps : List ParameterEntry) {ns : List Node}, (∀ q ∈ families ps, q.WellFormed m) →
      parameterNodes (m.declared enums) ps = .ok ns →
        ∀ {outer : List Condition} {guards : List Guard}, List.Forall₂ m.States outer guards →
          List.Forall₂ m.Declares (listedAll m outer ps) (reachedAll guards ns)
  | [], ns, _, hns, _, _, _ => by
      cases hns
      exact .nil
  | p :: rest, ns, hrules, hns, _, _, houter => by
      obtain ⟨n, hn, hns⟩ := bind_eq_ok_iff.mp hns
      obtain ⟨ns', hns', hns⟩ := bind_eq_ok_iff.mp hns
      cases hns
      exact List.rel_append
        (declares_node h hbuilds p (fun q hq => hrules q (List.mem_append_left _ hq)) hn houter)
        (declares_nodes h hbuilds rest (fun q hq => hrules q (List.mem_append_right _ hq)) hns'
          houter)

end

end ParameterEntry

/-! ## §4. The dialog. -/

namespace Manifest

/-- The parameters that a manifest lists. -/
def listed (m : Manifest) : List Listed := ParameterEntry.listedAll m [] m.parameters

/-- Only the UI predicate of the manifest is one. -/
theorem dialogs_bodyOf (m : Manifest) (enums : List Enumeration) (ui : List Node)
    (lookups : List Function) :
    (m.bodyOf enums ui lookups).filterMap Node.dialog? = ui.filterMap Node.dialog? := by
  -- the other declarations are nodes of other kinds
  have hnone : ∀ {ns : List Node}, (∀ n ∈ ns, n.dialog? = none) → ns.filterMap Node.dialog? = [] :=
    List.filterMap_eq_nil_iff.mpr
  have henums : (enums.map Enumeration.node).filterMap Node.dialog? = [] := hnone fun n hn => by
    obtain ⟨built, -, rfl⟩ := List.mem_map.mp hn
    rfl
  have hbounds : ((m.bounds.map BoundEntry.spec).map Node.boundSpec).filterMap Node.dialog? = [] :=
    hnone fun n hn => by
      obtain ⟨spec, -, rfl⟩ := List.mem_map.mp hn
      rfl
  have hlookups : (lookups.map Function.node).filterMap Node.dialog? = [] := hnone fun n hn => by
    obtain ⟨f, -, rfl⟩ := List.mem_map.mp hn
    rfl
  have hfeatures : m.features.filterMap Node.dialog? = [] := hnone fun n hn => by
    unfold features at hn
    split at hn
    · rw [List.mem_singleton.mp hn]
      rfl
    · cases hn
  unfold bodyOf
  rw [List.filterMap_append, List.filterMap_append, List.filterMap_append, List.filterMap_append,
    henums, hbounds, hlookups, hfeatures, List.nil_append, List.nil_append, List.append_nil,
    List.append_nil]

/-- The statements of the UI predicate declare what the manifest lists. -/
theorem declares_ui {m : Manifest} (h : m.Accepted) {enums : List Enumeration}
    (hbuilds : m.Builds enums) {ui : List Node}
    (hui : List.Forall₂ (fun ui n => uiNode (m.declared enums) ui = .ok n) m.ui.toList ui) :
    (ui.filterMap Node.dialog?).length = m.ui.toList.length ∧
      List.Forall₂ m.Declares m.listed ((ui.filterMap Node.dialog?).flatMap (reachedAll [])) := by
  have hrules := h.parameters
  unfold listed
  unfold Manifest.parameters at hrules ⊢
  cases hdialog : m.ui with
  | none =>
      rw [hdialog] at hui
      cases hui
      exact ⟨rfl, .nil⟩
  | some entry =>
      rw [hdialog] at hui hrules
      obtain ⟨n, rest, hn, hrest, rfl⟩ := List.forall₂_cons_left_iff.mp hui
      cases hrest
      obtain ⟨ns, hns, rfl⟩ := uiNode_eq_ok hn
      refine ⟨rfl, ?_⟩
      show List.Forall₂ m.Declares _ (reachedAll [] ns ++ [])
      rw [List.append_nil]
      exact ParameterEntry.declares_nodes h hbuilds entry.parameters hrules hns .nil

/-- **The UI predicate declares what the manifest lists, under the right conditions.**  For a
manifest that validation accepts, the studio has a UI predicate if there is a dialog.  A walk
through its statements meets one declaration for every parameter and every checkbox of a group, in
order, under its name, and reached exactly under the conditions that it stands under; there are as
many as the report counts. -/
theorem dialog_declares {m : Manifest} {source : String} (h : m.validate source = .ok ()) :
    ∃ s, m.toStudio = .ok s ∧
      s.dialogs.length = m.ui.toList.length ∧
      List.Forall₂ m.Declares m.listed (s.dialogs.flatMap (reachedAll [])) ∧
      ∀ r path, (s.dialogs.flatMap (reachedAll [])).length = (m.check r path).parameters := by
  have hm := (m.validate_ok_iff source).mp h
  obtain ⟨_, s, -, hs⟩ := hm.toStudio_ok
  obtain ⟨enums, ui, lookups, hbuilds, hui, -, rfl⟩ := (m.toStudio_eq_ok_iff s).mp hs
  have hdialogs : ({ m.imported with body := m.bodyOf enums ui lookups } : Studio).dialogs
      = ui.filterMap Node.dialog? := m.dialogs_bodyOf enums ui lookups
  obtain ⟨hlength, hdeclares⟩ := declares_ui hm hbuilds hui
  rw [← hdialogs] at hlength hdeclares
  refine ⟨_, hs, hlength, hdeclares, fun r path => ?_⟩
  rw [← hdeclares.length_eq]
  exact ParameterEntry.length_listedAll m m.parameters []

/-- A checkbox under a condition, and a group under one that a checkbox shows, with a length that
has a condition of its own. -/
def layered : Manifest :=
  { sized with
    ui := some
      { name := "tube"
        parameters :=
          [.boolean false "capped" ⟨none, none⟩ false (some "TubeSize.CUSTOM"),
           .drivenGroup "walled" none none false
            [.value .length "wall" none ⟨none, none⟩ (some "TubeSize.one_by_one"),
             .choice "TubeSize" ⟨none, none⟩ none .horizontal none]
            (some "TubeSize.custom")] } }

theorem layered_declares :
    layered.validate "" = .ok () ∧
      layered.listed =
        [⟨"capped", "boolean", [.chosen "TubeSize.CUSTOM"]⟩,
         ⟨"walled", "boolean", [.chosen "TubeSize.custom"]⟩,
         ⟨"wall", "isLength",
          [.chosen "TubeSize.custom", .checked "walled", .chosen "TubeSize.one_by_one"]⟩,
         ⟨"tubeSize", "TubeSize", [.chosen "TubeSize.custom", .checked "walled"]⟩] ∧
      ∃ s, layered.toStudio = .ok s ∧
        List.Forall₂ layered.Declares layered.listed (s.dialogs.flatMap (reachedAll [])) := by
  have h : layered.validate "" = .ok () := by rfl
  obtain ⟨s, hs, -, hdeclares, -⟩ := dialog_declares h
  exact ⟨h, by rfl, s, hs, hdeclares⟩

end Manifest

end FeatureStudio
