/-
  FeatureStudio.Proofs.Disk.Sparing: jobs that spare what stands at a path, all at once.

  Such a job looks for the file first and takes its place some steps later.  In between others may
  act: further jobs of the kind, and a writer that creates, edits or removes the file.  What has
  come to be at the path since the job looked for it is replaced, and nothing else ever is.

  Main statements:
    * `Scene.Staged.next`: after any move each job has a temporary file of its own.
    * `Scene.replaces_iff`: content is replaced exactly by jobs that are late.
    * `Scene.exists_replaces`: how a job becomes late, on any disk.
-/
import FeatureStudio.Proofs.Disk.Stage

namespace FeatureStudio

open Text (Bytes)

/-! ## §1. Jobs and another writer. -/

/-- The job that writes a file if there is none. -/
def WriteJob.ifMissing (path content : String) : WriteJob := { path, content, sparing := true }

/-- A disk, and what is left of each of the jobs that are at work on it. -/
structure Scene where
  disk : Disk
  jobs : List (DiskProgram (Except WriteError WriteResult))

namespace Scene

/-- Who makes the next step: one of the jobs, with the request that has been answered, if any, or
the other writer. -/
inductive Move where
  | job (i : Nat) (event? : Option DiskEvent)
  | other

/-- The jobs for one path, before any of them has begun. -/
def start (path : String) (contents : List String) (d : Disk) : Scene where
  disk := d
  jobs := contents.map fun content => (WriteJob.ifMissing path content).program

/-- What can happen next.  The other writer does what it likes with the file, and makes directories
where nothing is. -/
inductive Next (path : String) : Scene → Move → Scene → Prop
  | job {s : Scene} {i : Nat} {p p' : DiskProgram (Except WriteError WriteResult)}
      {event? : Option DiskEvent} {d' : Disk} (hp : s.jobs[i]? = some p)
      (h : p.Step (s.disk.locationOf path) s.disk event? p' d') :
      Next path s (.job i event?) ⟨d', s.jobs.set i p'⟩
  | other {s : Scene} {d' : Disk} {way : Set Location}
      (h : s.disk.Grows {s.disk.locationOf path} way d') : Next path s .other ⟨d', s.jobs⟩

/-- A move, with what was before and after it. -/
structure Moment where
  before : Scene
  move : Move
  after : Scene

/-- What can have happened up to some moment, in any order of the steps. -/
inductive History (path : String) (start : Scene) : List Moment → Scene → Prop
  | start : History path start [] start
  | next {moments : List Moment} {s s' : Scene} {move : Move} (h : History path start moments s)
      (hnext : Next path s move s') : History path start (moments ++ [⟨s, move, s'⟩]) s'

/-- A job replaces the content that is present at the path. -/
def Moment.Replaces (m : Moment) (path : String) : Prop :=
  ∃ i event? content, m.move = .job i event? ∧ m.before.disk.read path = .ok content
    ∧ m.after.disk.read path ≠ .ok content

/-- A job looks for the file and finds none. -/
def Looked (path : String) (i : Nat) (m : Moment) : Prop :=
  m.move = .job i (some ⟨.probe path, false⟩) ∧ m.before.disk.find? path = none

/-- A job is late: when it looked for the file there was none, and when it takes the place of the
file there is other content than its own. -/
structure Late (path : String) (contents : List String) (i : Nat) (look take : Moment) : Prop where
  looked : Looked path i look
  takes : ∃ temporary, take.move = .job i (some ⟨.rename temporary path, .ok ()⟩)
  present : ∃ content own, take.before.disk.read path = .ok content
    ∧ contents[i]? = some own ∧ content ≠ Text.encode own

/-! ## §2. One move. -/

open WriteJob (Stage)

/-- The jobs are at some stages, and each has a temporary file of its own. -/
structure Staged (path : String) (contents : List String) (stages : Nat → Stage) (s : Scene) :
    Prop where
  jobs : ∀ i, s.jobs[i]?
    = contents[i]?.map fun content => (WriteJob.ifMissing path content).programAt (stages i)
  owns : ∀ i content, contents[i]? = some content →
    (WriteJob.ifMissing path content).Owns (s.disk.locationOf path) (stages i) s.disk
  apart : ∀ i j, i ≠ j → i < contents.length → j < contents.length →
    ∀ l ∈ (stages i).claims s.disk, l ∉ (stages j).claims s.disk

/-- How the stages and the disk go on with a move. -/
inductive Progress (path : String) (contents : List String) (stages : Nat → Stage) (d d' : Disk) :
    Move → (Nat → Stage) → Prop
  | job {i : Nat} {event? : Option DiskEvent} {content : String} {stage' : Stage}
      (hi : contents[i]? = some content)
      (h : (WriteJob.ifMissing path content).Moves (d.locationOf path) (stages i) d event?
        stage' d') :
      Progress path contents stages d d' (.job i event?) (Function.update stages i stage')
  | other {way : Set Location} (h : d.Grows {d.locationOf path} way d') :
      Progress path contents stages d d' .other stages

variable {path : String} {contents : List String} {stages : Nat → Stage} {s s' : Scene}
  {move : Move} {moments : List Moment} {d : Disk}

theorem staged_start (path : String) (contents : List String) (d : Disk) :
    Staged path contents (fun _ => .probing) (start path contents d) where
  jobs i := by
    simp [start, WriteJob.program_eq, WriteJob.firstStage, WriteJob.ifMissing]
  owns _ _ _ := WriteJob.owns_of_none rfl
  apart i j _ _ _ := by
    rintro l ⟨t, ⟨⟩, -⟩

/-- What one job does is nothing to the temporary file of another, and takes no part of it. -/
theorem owns_of_moves {job job' : WriteJob} {stage stage' stage₂ : Stage} {d d' : Disk}
    {event? : Option DiskEvent}
    (hmove : job.Moves (job.target d) stage d event? stage' d')
    (howns : job.Owns (job.target d) stage d) (hother : job'.Owns (job.target d) stage₂ d)
    (hapart : ∀ l ∈ stage.claims d, l ∉ stage₂.claims d) :
    job'.Owns (job.target d) stage₂ d' ∧ ∀ l ∈ stage'.claims d', l ∉ stage₂.claims d' := by
  have hnew : ∀ l ∈ stage'.claims d, l ∉ stage₂.claims d := by
    intro l hl hl₂
    obtain hold | hnone := hmove.claims_new hl
    · exact hapart l hold hl₂
    · exact hother.get?_ne_none hl₂ hnone
  refine ⟨hother.of_grows (hmove.grows howns) ?_, ?_⟩
  · rintro l hl₂ (rfl | hl | hl)
    · exact hother.apart hl₂
    · exact hapart l hl hl₂
    · exact hnew l hl hl₂
  · rwa [hmove.claims_eq howns, hmove.claims_eq howns]

/-- Where one job goes to a stage that is apart from those of the others, all are apart. -/
theorem apart_update {n i : Nat} {stage' : Stage}
    (h : ∀ j k, j ≠ k → j < n → k < n → ∀ l ∈ (stages j).claims d, l ∉ (stages k).claims d)
    (hnew : ∀ j, j ≠ i → j < n → ∀ l ∈ stage'.claims d, l ∉ (stages j).claims d) :
    ∀ j k, j ≠ k → j < n → k < n →
      ∀ l ∈ (Function.update stages i stage' j).claims d,
        l ∉ (Function.update stages i stage' k).claims d := by
  intro j k hjk hj hk
  by_cases hji : j = i
  · subst hji
    rw [Function.update_self, Function.update_of_ne hjk.symm]
    exact hnew k hjk.symm hk
  · rw [Function.update_of_ne hji]
    by_cases hki : k = i
    · subst hki
      rw [Function.update_self]
      exact fun l hl hl' => hnew j hji hj l hl' hl
    · rw [Function.update_of_ne hki]
      exact h j k hjk hj hk

/-- **After any move the jobs are at stages again**, each with a temporary file of its own. -/
theorem Staged.next (h : Staged path contents stages s) (hnext : Next path s move s') :
    ∃ stages', Progress path contents stages s.disk s'.disk move stages'
      ∧ Staged path contents stages' s' := by
  cases hnext with
  -- others leave what the jobs own alone
  | @other d' way hgrows =>
      refine ⟨stages, .other hgrows, h.jobs, fun i content hi => ?_, fun i j hij hi hj => ?_⟩
      · rw [hgrows.locationOf]
        refine (h.owns i content hi).of_grows hgrows fun l hl htarget => ?_
        exact (h.owns i content hi).apart (htarget ▸ hl)
      · rw [WriteJob.claims_of_grows hgrows, WriteJob.claims_of_grows hgrows]
        exact h.apart i j hij hi hj
  | @job i p p' event? d' hp hstep =>
      obtain ⟨content, hi, rfl⟩ := Option.map_eq_some_iff.mp ((h.jobs i).symm.trans hp)
      obtain ⟨stage', rfl, hmove⟩ := WriteJob.moves_of_step hstep
      have howns := h.owns i content hi
      have hlocation : d'.locationOf path = s.disk.locationOf path :=
        (hmove.grows howns).locationOf path
      have hlt : i < contents.length := (List.getElem?_eq_some_iff.mp hi).1
      -- the move touches the target and the temporary file of its job, and no other job has those
      have hothers : ∀ j own, j ≠ i → contents[j]? = some own →
          (WriteJob.ifMissing path own).Owns (s.disk.locationOf path) (stages j) d'
            ∧ ∀ l ∈ stage'.claims d', l ∉ (stages j).claims d' := fun j own hj hown =>
        owns_of_moves hmove howns (h.owns j own hown)
          (h.apart i j hj.symm hlt (List.getElem?_eq_some_iff.mp hown).1)
      refine ⟨Function.update stages i stage', .job hi hmove, ?_, ?_, ?_⟩
      · intro j
        by_cases hj : j = i
        · subst hj
          have hlt' : j < s.jobs.length := (List.getElem?_eq_some_iff.mp hp).1
          simp [hi, hlt']
        · simp [Function.update_of_ne hj, List.getElem?_set_ne (Ne.symm hj), h.jobs j]
      · intro j own hown
        rw [hlocation]
        by_cases hj : j = i
        · subst hj
          rw [Function.update_self]
          rw [hi] at hown
          cases hown
          exact hmove.owns howns
        · rw [Function.update_of_ne hj]
          exact (hothers j own hj hown).1
      · refine apart_update (fun j k hjk hj hk => ?_) fun j hj hlt =>
          (hothers j _ hj (List.getElem?_eq_getElem hlt)).2
        rw [hmove.claims_eq howns, hmove.claims_eq howns]
        exact h.apart j k hjk hj hk

/-! ## §3. A whole history. -/

/-- A job that has found no file and has not ended. -/
def AtWork : Stage → Prop
  | .probing | .done _ => False
  | _ => True

theorem atWork_of_moves {job : WriteJob} {target : Location} {stage stage' : Stage} {d d' : Disk}
    {event? : Option DiskEvent} (h : job.Moves target stage d event? stage' d')
    (hwork : AtWork stage') :
    AtWork stage ∨ event? = some ⟨.probe job.path, false⟩ ∧ d.find? job.path = none := by
  cases h with
  | missing h => exact .inr ⟨rfl, h⟩
  | found | upToDate | unreadable | unmade | unnamed | placed | discarded => exact hwork.elim
  | _ => exact .inl trivial

/-- **At every moment of a history** the jobs are at stages, and those at work have looked for the
file. -/
theorem staged_of_history (h : History path (start path contents d) moments s) :
    ∃ stages, Staged path contents stages s
      ∧ ∀ i, AtWork (stages i) → ∃ m ∈ moments, Looked path i m := by
  induction h with
  | start => exact ⟨_, staged_start path contents d, fun i h => h.elim⟩
  | @next moments s s' move h hnext ih =>
      obtain ⟨stages, hstaged, hlooked⟩ := ih
      obtain ⟨stages', hprogress, hstaged'⟩ := hstaged.next hnext
      refine ⟨stages', hstaged', fun i hwork => ?_⟩
      -- a job is at work because it was before, or because this move is its look at the path
      have hbefore : AtWork (stages i) → ∃ m ∈ moments ++ [⟨s, move, s'⟩], Looked path i m :=
        fun hwork => by
          obtain ⟨m, hm, hlook⟩ := hlooked i hwork
          exact ⟨m, by simp [hm], hlook⟩
      cases hprogress with
      | other _ => exact hbefore hwork
      | @job j event? content stage' hj hmove =>
          by_cases hij : i = j
          · subst hij
            rw [Function.update_self] at hwork
            obtain hold | ⟨rfl, hnone⟩ := atWork_of_moves hmove hwork
            · exact hbefore hold
            · exact ⟨_, List.mem_append_right _ (List.mem_singleton_self _), rfl, hnone⟩
          · rw [Function.update_of_ne hij] at hwork
            exact hbefore hwork

/-- What has happened before a moment of a history. -/
theorem History.exists_before {start : Scene} {m : Moment}
    (h : History path start moments s) (hm : m ∈ moments) :
    ∃ earlier later, moments = earlier ++ m :: later ∧ History path start earlier m.before
      ∧ Next path m.before m.move m.after := by
  induction h with
  | start => cases hm
  | @next moments s s' move h hnext ih =>
      obtain hm | hm := List.mem_append.mp hm
      · obtain ⟨earlier, later, rfl, hearlier, hmove⟩ := ih hm
        exact ⟨earlier, later ++ [⟨s, move, s'⟩], by simp, hearlier, hmove⟩
      · rw [List.mem_singleton] at hm
        subst hm
        exact ⟨moments, [], rfl, h, hnext⟩

/-- **Content is replaced exactly by jobs that are late.** -/
theorem replaces_iff (h : History path (start path contents d) moments s) :
    (∃ m ∈ moments, m.Replaces path)
      ↔ ∃ i look take, [look, take].Sublist moments ∧ Late path contents i look take := by
  constructor
  · rintro ⟨m, hm, i, event?, content, hmove, hread, hreplaced⟩
    obtain ⟨earlier, later, rfl, hearlier, hnext⟩ := h.exists_before hm
    obtain ⟨stages, hstaged, hlooked⟩ := staged_of_history hearlier
    obtain ⟨stages', hprogress, -⟩ := hstaged.next hnext
    rw [hmove] at hprogress
    cases hprogress with
    | @job _ _ own stage' hi hmoves =>
        have howns := hstaged.owns i own hi
        -- only the change of name replaces content, and whoever is about to make it has looked
        obtain hsame | ⟨t, rfl, hstage⟩ := hmoves.reads_or_places howns rfl hread
        · exact absurd hsame hreplaced
        · have htext := (hmoves.read_of_placing howns rfl).2
          obtain ⟨look, hlook, hlooked⟩ := hlooked i (by rw [hstage]; trivial)
          refine ⟨i, look, m, ?_, hlooked, ⟨t, hmove⟩, content, own, hread, hi, ?_⟩
          · exact (List.singleton_sublist.mpr hlook).append
              (List.singleton_sublist.mpr List.mem_cons_self)
          · rintro rfl
            exact hreplaced htext
  · rintro ⟨i, look, take, hsub, hlate⟩
    obtain ⟨t, hmove⟩ := hlate.takes
    obtain ⟨content, own, hread, hi, hother⟩ := hlate.present
    have htake : take ∈ moments := hsub.subset (by simp)
    obtain ⟨earlier, later, -, hearlier, hnext⟩ := h.exists_before htake
    obtain ⟨stages, hstaged, -⟩ := staged_of_history hearlier
    obtain ⟨stages', hprogress, -⟩ := hstaged.next hnext
    rw [hmove] at hprogress
    cases hprogress with
    | @job _ _ own' stage' hi' hmoves =>
        rw [hi] at hi'
        cases hi'
        have htext := (hmoves.read_of_placing (hstaged.owns i own hi) rfl).2
        exact ⟨take, htake, i, _, content, hmove, hread, fun hsame =>
          hother (Except.ok.inj (hsame.symm.trans htext))⟩

/-! ## §4. Late jobs. -/

/-- A history of one job goes on with a move of the job. -/
theorem History.moved {start : Scene} {job : WriteJob} {stage stage' : Stage} {d d' : Disk}
    {event? : Option DiskEvent} (h : History path start moments ⟨d, [job.programAt stage]⟩)
    (hmove : job.Moves (d.locationOf path) stage d event? stage' d') :
    History path start
      (moments ++ [⟨⟨d, [job.programAt stage]⟩, .job 0 event?, ⟨d', [job.programAt stage']⟩⟩])
      ⟨d', [job.programAt stage']⟩ :=
  h.next (.job rfl (WriteJob.step_of_moves hmove))

/-- A job replaces content that comes to be at its path between its first request and its last
one, whether another writer has put it there or the path leads to it since the job has made
directories. -/
theorem exists_replaces {own name : String} {content : Bytes} {d₀ d₁ d₂ d₃ d₄ d₅ : Disk}
    {way : Set Location} (hnone : d₀.find? path = none)
    (hmade : d₀.makeDirectories (DiskPath.directory path) = (.ok (), d₁))
    (hcreated : d₁.create (DiskPath.join (DiskPath.directory path) name) (.file []) = .ok d₂)
    (hname : d₁.locationOf (DiskPath.join (DiskPath.directory path) name) ≠ d₁.locationOf path)
    (hfilled : d₂.fill (DiskPath.join (DiskPath.directory path) name) (Text.encode own) = .ok d₃)
    (hother : d₃.Grows {d₃.locationOf path} way d₄) (hread : d₄.read path = .ok content)
    (hplaced : d₄.rename (DiskPath.join (DiskPath.directory path) name) path = .ok d₅)
    (hreplaced : d₅.read path ≠ .ok content) :
    ∃ moments s, History path (start path [own] d₀) moments s ∧ ∃ m ∈ moments, m.Replaces path := by
  -- one job up to its last request, in front of which the other writer comes
  let job := WriteJob.ifMissing path own
  have hprobing : job.Moves (d₀.locationOf path) .probing d₀ (some ⟨.probe path, false⟩)
      .reading d₀ := .missing hnone
  have hreading : job.Moves (d₀.locationOf path) .reading d₀ (some ⟨.read path, .error .notFound⟩)
      .making d₀ := .absent
  have hmaking : job.Moves (d₀.locationOf path) .making d₀
      (some ⟨.makeDirectories job.directory, .ok ()⟩) .naming d₁ := .made (.performed rfl hmade)
  have hnaming : job.Moves (d₁.locationOf path) .naming d₁ _ _ d₂ := .named hcreated hname
  have hstart : start path [own] d₀ = ⟨d₀, [job.programAt .probing]⟩ := by
    simp [start, job, WriteJob.program_eq, WriteJob.firstStage, WriteJob.ifMissing]
  rw [hstart]
  have hmade := ((History.start.moved hprobing).moved hreading).moved hmaking
  have hfull := (hmade.moved hnaming).moved (.filled hfilled)
  have hlast := (hfull.next (.other hother)).moved (.placed hplaced)
  exact ⟨_, _, hlast, _, List.mem_append_right _ (List.mem_singleton_self _), 0, _, content, rfl,
    hread, hreplaced⟩

/-- A working directory with some entries. -/
def workshop (entries : List (String × DiskEntry)) : Disk where
  home := ["work"]
  entries := entries.map (fun (name, e) => (["work", name], e)) ++ [(["work"], .directory)]

/-- A file with a text. -/
def holding (content : String) : DiskEntry := .file (Text.encode content)

/-- A job is late when another writer makes the file while it is at work. -/
theorem manifest_late :
    ∃ moments s, History "fsgen.toml" (start "fsgen.toml" ["starter"] (workshop [])) moments s
      ∧ ∃ i look take, [look, take].Sublist moments
        ∧ Late "fsgen.toml" ["starter"] i look take := by
  have hnone : (workshop []).find? "fsgen.toml" = none := by decide +kernel
  have hmade : (workshop []).makeDirectories (DiskPath.directory "fsgen.toml")
      = (.ok (), workshop []) := by decide +kernel
  have hcreated : (workshop []).create (DiskPath.join (DiskPath.directory "fsgen.toml") ".tmp0")
      (.file []) = .ok (workshop [(".tmp0", .file [])]) := by decide +kernel
  have hfilled : (workshop [(".tmp0", .file [])]).fill
      (DiskPath.join (DiskPath.directory "fsgen.toml") ".tmp0") (Text.encode "starter")
        = .ok (workshop [(".tmp0", holding "starter")]) := by decide +kernel
  have hother : (workshop [(".tmp0", holding "starter")]).Grows
      {(workshop [(".tmp0", holding "starter")]).locationOf "fsgen.toml"} ∅
      (workshop [("fsgen.toml", holding "mine"), (".tmp0", holding "starter")]) := by
    have hput : workshop [("fsgen.toml", holding "mine"), (".tmp0", holding "starter")]
        = (workshop [(".tmp0", holding "starter")]).put
            ((workshop [(".tmp0", holding "starter")]).locationOf "fsgen.toml")
            (holding "mine") := by decide +kernel
    rw [hput]
    exact Disk.grows_put _ (by decide +kernel)
  have hread : (workshop [("fsgen.toml", holding "mine"), (".tmp0", holding "starter")]).read
      "fsgen.toml" = .ok (Text.encode "mine") := by decide +kernel
  have hplaced : (workshop [("fsgen.toml", holding "mine"), (".tmp0", holding "starter")]).rename
      (DiskPath.join (DiskPath.directory "fsgen.toml") ".tmp0") "fsgen.toml"
        = .ok (workshop [("fsgen.toml", holding "starter")]) := by decide +kernel
  obtain ⟨moments, s, h, hreplaces⟩ := exists_replaces hnone hmade hcreated (by decide +kernel)
    hfilled hother hread hplaced (by decide +kernel)
  exact ⟨moments, s, h, (replaces_iff h).mp hreplaces⟩

/-- A job alone is late when its path leads through a directory that is missing: so it finds no
file, makes the directory, and replaces the file that the path leads to then. -/
theorem starter_replaces :
    ∃ moments s, History "new/../x"
        (start "new/../x" ["starter"] (workshop [("x", holding "mine")])) moments s
      ∧ ∃ m ∈ moments, m.Replaces "new/../x" := by
  have hnone : (workshop [("x", holding "mine")]).find? "new/../x" = none := by decide +kernel
  have hmade : (workshop [("x", holding "mine")]).makeDirectories (DiskPath.directory "new/../x")
      = (.ok (), workshop [("new", .directory), ("x", holding "mine")]) := by decide +kernel
  have hcreated : (workshop [("new", .directory), ("x", holding "mine")]).create
      (DiskPath.join (DiskPath.directory "new/../x") ".tmp0") (.file [])
        = .ok (workshop [(".tmp0", .file []), ("new", .directory), ("x", holding "mine")]) := by
    decide +kernel
  have hfilled : (workshop [(".tmp0", .file []), ("new", .directory), ("x", holding "mine")]).fill
      (DiskPath.join (DiskPath.directory "new/../x") ".tmp0") (Text.encode "starter")
        = .ok (workshop [(".tmp0", holding "starter"), ("new", .directory),
            ("x", holding "mine")]) := by decide +kernel
  have hread : (workshop [(".tmp0", holding "starter"), ("new", .directory),
      ("x", holding "mine")]).read "new/../x" = .ok (Text.encode "mine") := by decide +kernel
  have hplaced : (workshop [(".tmp0", holding "starter"), ("new", .directory),
      ("x", holding "mine")]).rename (DiskPath.join (DiskPath.directory "new/../x") ".tmp0")
        "new/../x" = .ok (workshop [("x", holding "starter"), ("new", .directory)]) := by
    decide +kernel
  exact exists_replaces hnone hmade hcreated (by decide +kernel) hfilled (.refl _ ∅ _) hread
    hplaced (by decide +kernel)

end Scene

end FeatureStudio
