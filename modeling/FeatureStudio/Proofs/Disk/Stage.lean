/-
  FeatureStudio.Proofs.Disk.Stage: a write job stage by stage.

  A job is always at one of a few stages, and from each it can go on in a few ways only.  From the
  moment it has a temporary file until that is gone, the file is at a location of its own; and when
  it is about to take the place of the target it holds the whole text.

  Main statements:
    * `moves_of_step`, `step_of_moves`: the steps of the program are the moves from one stage to
      another.
    * `Moves.grows_or_places`: only the change of name touches more than the temporary file.
    * `Moves.owns`: the temporary file stays the job's own.
-/
import FeatureStudio.Disk.Program
import FeatureStudio.Proofs.Disk.Step

namespace FeatureStudio.WriteJob

open Text (Bytes)

/-! ## §1. Stages and moves. -/

/-- What a job is about to do, or what has become of it. -/
inductive Stage where
  | probing
  | reading
  | making
  | naming
  | filling (temporary : String)
  | placing (temporary : String)
  | discarding (temporary : String) (error : WriteError)
  | done (result : Except WriteError WriteResult)

/-- The text in bytes. -/
def text (job : WriteJob) : Bytes := Text.encode job.content

/-- The directory of the target. -/
def directory (job : WriteJob) : String := DiskPath.directory job.path

/-- The location of the target. -/
def target (job : WriteJob) (d : Disk) : Location := d.locationOf job.path

/-- What is left of a failed job that has a temporary file. -/
def discarding (temporary : String) (error : WriteError) :
    DiskProgram (Except WriteError WriteResult) :=
  .ask (.discard temporary) fun _ => .done (.error error)

def placing (job : WriteJob) (temporary : String) : DiskProgram (Except WriteError WriteResult) :=
  .ask (.rename temporary job.path) fun
    | .error _ => discarding temporary (.unwritable job.path)
    | .ok () => .done (.ok .written)

def filling (job : WriteJob) (temporary : String) : DiskProgram (Except WriteError WriteResult) :=
  .ask (.fill temporary job.text) fun
    | .error _ => discarding temporary (.unfilled temporary)
    | .ok () => job.placing temporary

def naming (job : WriteJob) : DiskProgram (Except WriteError WriteResult) :=
  .ask (.makeTemporary job.directory) fun
    | .error _ => .done (.error (.noTemporary job.directory))
    | .ok temporary => job.filling temporary

theorem replacement_eq (job : WriteJob) :
    job.replacement = .ask (.makeDirectories job.directory) fun
      | .error _ => .done (.error (.noDirectory job.directory))
      | .ok () => job.naming := by
  refine congrArg (DiskProgram.ask _) (funext fun reply => ?_)
  rcases reply with _ | ⟨⟩
  · rfl
  · refine congrArg (DiskProgram.ask _) (funext fun reply => ?_)
    cases reply with
    | error _ => rfl
    | ok t =>
        refine congrArg (DiskProgram.ask _) (funext fun reply => ?_)
        rcases reply with _ | ⟨⟩
        · rfl
        · refine congrArg (DiskProgram.ask _) (funext fun reply => ?_)
          rcases reply with _ | ⟨⟩ <;> rfl

/-- What is left of a job after the attempt to read the file. -/
def afterReply (job : WriteJob) (reply : Except DiskError Bytes) :
    DiskProgram (Except WriteError WriteResult) :=
  match job.afterReading reply with
  | some result => .done result
  | none => job.replacement

theorem update_eq (job : WriteJob) : job.update = .ask (.read job.path) job.afterReply := rfl

theorem afterReply_text (job : WriteJob) :
    job.afterReply (.ok job.text) = .done (.ok .unchanged) := by
  simp [afterReply, afterReading, text]

theorem afterReply_other {job : WriteJob} {content : Bytes} (h : content ≠ job.text) :
    job.afterReply (.ok content) = job.replacement := by
  have h' : content ≠ Text.encode job.content := h
  simp [afterReply, afterReading, h']

theorem afterReply_notFound (job : WriteJob) :
    job.afterReply (.error .notFound) = job.replacement := rfl

theorem afterReply_error {job : WriteJob} {error : DiskError} (h : error ≠ .notFound) :
    job.afterReply (.error error) = .done (.error (.unreadable job.path)) := by
  cases error <;> first | rfl | exact absurd rfl h

/-- What is left of a job at a stage. -/
def programAt (job : WriteJob) : Stage → DiskProgram (Except WriteError WriteResult)
  | .probing => .ask (.probe job.path) fun
    | true => .done (.ok .skipped)
    | false => job.update
  | .reading => job.update
  | .making => job.replacement
  | .naming => job.naming
  | .filling temporary => job.filling temporary
  | .placing temporary => job.placing temporary
  | .discarding temporary error => discarding temporary error
  | .done result => .done result

/-- The stage at which a job starts. -/
def firstStage (job : WriteJob) : Stage := if job.sparing then .probing else .reading

theorem program_eq (job : WriteJob) : job.program = job.programAt job.firstStage := by
  unfold program firstStage
  split <;> rfl

/-- How a job goes from one stage to another, the request that has been answered, if any, and what
becomes of the disk. -/
inductive Moves (job : WriteJob) (target : Location) :
    Stage → Disk → Option DiskEvent → Stage → Disk → Prop
  | found {d : Disk} (h : (d.find? job.path).isSome) :
      Moves job target .probing d (some ⟨.probe job.path, true⟩) (.done (.ok .skipped)) d
  | missing {d : Disk} (h : d.find? job.path = none) :
      Moves job target .probing d (some ⟨.probe job.path, false⟩) .reading d
  | upToDate {d : Disk} (h : d.read job.path = .ok job.text) :
      Moves job target .reading d (some ⟨.read job.path, .ok job.text⟩) (.done (.ok .unchanged)) d
  | outdated {d : Disk} {content : Bytes} (h : d.read job.path = .ok content)
      (hother : content ≠ job.text) :
      Moves job target .reading d (some ⟨.read job.path, .ok content⟩) .making d
  | absent {d : Disk} :
      Moves job target .reading d (some ⟨.read job.path, .error .notFound⟩) .making d
  | unreadable {d : Disk} {error : DiskError} (herror : error ≠ .notFound) :
      Moves job target .reading d (some ⟨.read job.path, .error error⟩)
        (.done (.error (.unreadable job.path))) d
  | madePartly {d d' : Disk} (h : (DiskRequest.makeDirectories job.directory).Partly d d') :
      Moves job target .making d none .making d'
  | unmade {d d' : Disk} {error : DiskError}
      (h : (DiskRequest.makeDirectories job.directory).Answers target d (.error error) d') :
      Moves job target .making d (some ⟨.makeDirectories job.directory, .error error⟩)
        (.done (.error (.noDirectory job.directory))) d'
  | made {d d' : Disk}
      (h : (DiskRequest.makeDirectories job.directory).Answers target d (.ok ()) d') :
      Moves job target .making d (some ⟨.makeDirectories job.directory, .ok ()⟩) .naming d'
  | unnamed {d : Disk} {error : DiskError} :
      Moves job target .naming d (some ⟨.makeTemporary job.directory, .error error⟩)
        (.done (.error (.noTemporary job.directory))) d
  | named {d d' : Disk} {name : String}
      (h : d.create (DiskPath.join job.directory name) (.file []) = .ok d')
      (hname : d.locationOf (DiskPath.join job.directory name) ≠ target) :
      Moves job target .naming d
        (some ⟨.makeTemporary job.directory, .ok (DiskPath.join job.directory name)⟩)
        (.filling (DiskPath.join job.directory name)) d'
  | filledPartly {d d' : Disk} {temporary : String} {piece : Bytes} (hpiece : piece <+: job.text)
      (h : d.fill temporary piece = .ok d') :
      Moves job target (.filling temporary) d none (.filling temporary) d'
  | unfilled {d : Disk} {temporary : String} {error : DiskError} :
      Moves job target (.filling temporary) d (some ⟨.fill temporary job.text, .error error⟩)
        (.discarding temporary (.unfilled temporary)) d
  | filled {d d' : Disk} {temporary : String} (h : d.fill temporary job.text = .ok d') :
      Moves job target (.filling temporary) d (some ⟨.fill temporary job.text, .ok ()⟩)
        (.placing temporary) d'
  | unplaced {d : Disk} {temporary : String} {error : DiskError} :
      Moves job target (.placing temporary) d (some ⟨.rename temporary job.path, .error error⟩)
        (.discarding temporary (.unwritable job.path)) d
  | placed {d d' : Disk} {temporary : String} (h : d.rename temporary job.path = .ok d') :
      Moves job target (.placing temporary) d (some ⟨.rename temporary job.path, .ok ()⟩)
        (.done (.ok .written)) d'
  | discarded {d : Disk} {temporary : String} {error : WriteError} :
      Moves job target (.discarding temporary error) d (some ⟨.discard temporary, ()⟩)
        (.done (.error error)) (d.discard temporary)

variable {job : WriteJob} {target : Location} {s s' : Stage} {d d' : Disk}
  {event? : Option DiskEvent} {p' : DiskProgram (Except WriteError WriteResult)}

/-- What is settled has failed and changed nothing, or is done. -/
theorem settle_cases {x : Except DiskError Disk} {reply : Except DiskError Unit}
    (h : DiskRequest.settle d (x.map fun d => ((), d)) = (reply, d')) :
    (∃ error, reply = .error error ∧ d' = d) ∨ reply = .ok () ∧ x = .ok d' := by
  cases x with
  | error error =>
      cases h
      exact .inl ⟨error, rfl, rfl⟩
  | ok after =>
      cases h
      exact .inr ⟨rfl, rfl⟩

/-- The directories that others may see are on the way. -/
theorem grows_of_partly {path : String} (h : (DiskRequest.makeDirectories path).Partly d d') :
    d.Grows ∅ (d.wayTo path) d' := by
  cases h with
  | made hmem h =>
      exact (Disk.grows_makeDirectory h).mono subset_rfl fun l hl => ⟨_, hmem, hl.symm⟩

theorem grows_of_answers {path : String} {reply : Except DiskError Unit}
    (h : (DiskRequest.makeDirectories path).Answers target d reply d') :
    d.Grows ∅ (d.wayTo path) d' := by
  cases h with
  | performed _ h =>
      have hd : (d.makeDirectories path).2 = d' := congrArg Prod.snd h
      exact hd ▸ Disk.grows_makeDirectories d path
  | failed _ => exact .refl _ _ d

theorem moves_of_reading {reply : Except DiskError Bytes}
    (h : (DiskRequest.read job.path).Answers target d reply d') :
    ∃ s', job.afterReply reply = job.programAt s'
      ∧ job.Moves target .reading d (some ⟨.read job.path, reply⟩) s' d' := by
  -- content that is answered is the one that is there, but any error can be answered
  have hread : d' = d ∧ ∀ content, reply = .ok content → d.read job.path = .ok content := by
    cases h with
    | performed _ h =>
        cases h
        exact ⟨rfl, fun _ => id⟩
    | failed h =>
        cases h
        exact ⟨rfl, nofun⟩
  obtain ⟨rfl, hread⟩ := hread
  cases reply with
  | ok content =>
      by_cases hsame : content = job.text
      · subst hsame
        exact ⟨.done (.ok .unchanged), job.afterReply_text, .upToDate (hread _ rfl)⟩
      · exact ⟨.making, afterReply_other hsame, .outdated (hread content rfl) hsame⟩
  | error error =>
      by_cases hmissing : error = .notFound
      · subst hmissing
        exact ⟨.making, rfl, .absent⟩
      · exact ⟨.done _, afterReply_error hmissing, .unreadable hmissing⟩

/-- **Every step of the program is a move** from one stage to another. -/
theorem moves_of_step (hstep : (job.programAt s).Step target d event? p' d') :
    ∃ s', p' = job.programAt s' ∧ job.Moves target s d event? s' d' := by
  -- one case for each stage: only directories and content may be seen before they are all there
  cases s with
  | probing =>
      obtain ⟨reply, rfl, rfl, hanswer⟩ := DiskProgram.step_ask_whole hstep nofun
      cases hanswer with
      | failed h => cases h
      | performed _ h =>
          cases h
          cases hfind : d.find? job.path with
          | none => exact ⟨.reading, rfl, .missing hfind⟩
          | some e => exact ⟨.done (.ok .skipped), rfl, .found (by simp [hfind])⟩
  | reading =>
      obtain ⟨reply, rfl, rfl, hanswer⟩ := DiskProgram.step_ask_whole hstep nofun
      exact moves_of_reading hanswer
  | making =>
      rw [programAt, replacement_eq] at hstep
      obtain ⟨rfl, rfl, hpart⟩ | ⟨reply, rfl, rfl, hanswer⟩ := DiskProgram.step_ask hstep
      · exact ⟨.making, job.replacement_eq.symm, .madePartly hpart⟩
      · cases reply with
        | error error => exact ⟨.done _, rfl, .unmade hanswer⟩
        | ok u => exact ⟨.naming, rfl, .made hanswer⟩
  | naming =>
      obtain ⟨reply, rfl, rfl, hanswer⟩ := DiskProgram.step_ask_whole hstep nofun
      cases hanswer with
      | performed hr _ => cases hr
      | failed h =>
          cases h
          exact ⟨.done _, rfl, .unnamed⟩
      | named h hname => exact ⟨.filling _, rfl, .named h hname⟩
  | filling temporary =>
      obtain ⟨rfl, rfl, hpart⟩ | ⟨reply, rfl, rfl, hanswer⟩ := DiskProgram.step_ask hstep
      · cases hpart with
        | filled hpiece h => exact ⟨.filling temporary, rfl, .filledPartly hpiece h⟩
      · cases hanswer with
        | performed _ h =>
            obtain ⟨error, rfl, rfl⟩ | ⟨rfl, hfilled⟩ := settle_cases h
            · exact ⟨.discarding _ _, rfl, .unfilled⟩
            · exact ⟨.placing _, rfl, .filled hfilled⟩
        | failed h =>
            cases h
            exact ⟨.discarding _ _, rfl, .unfilled⟩
  | placing temporary =>
      obtain ⟨reply, rfl, rfl, hanswer⟩ := DiskProgram.step_ask_whole hstep nofun
      cases hanswer with
      | performed _ h =>
          obtain ⟨error, rfl, rfl⟩ | ⟨rfl, hplaced⟩ := settle_cases h
          · exact ⟨.discarding _ _, rfl, .unplaced⟩
          · exact ⟨.done _, rfl, .placed hplaced⟩
      | failed h =>
          cases h
          exact ⟨.discarding _ _, rfl, .unplaced⟩
  | discarding temporary error =>
      obtain ⟨reply, rfl, rfl, hanswer⟩ := DiskProgram.step_ask_whole hstep nofun
      cases hanswer with
      | failed h => cases h
      | performed _ h =>
          cases h
          exact ⟨.done _, rfl, .discarded⟩
  | done result => exact absurd hstep DiskProgram.step_done

theorem step_of_reading {reply : Except DiskError Bytes}
    (h : (DiskRequest.read job.path).Answers target d reply d)
    (hnext : job.afterReply reply = job.programAt s') :
    (job.programAt .reading).Step target d (some ⟨.read job.path, reply⟩) (job.programAt s') d := by
  rw [← hnext]
  exact .answered h

/-- Every move is a step of the program. -/
theorem step_of_moves (h : job.Moves target s d event? s' d') :
    (job.programAt s).Step target d event? (job.programAt s') d' := by
  -- a move answers the request that the program makes at that stage, or does a part of it
  cases h with
  | found h =>
      exact .answered (.performed rfl (by simp [DiskRequest.perform, h]))
  | missing h =>
      exact .answered (.performed rfl (by simp [DiskRequest.perform, h]))
  | upToDate h =>
      exact step_of_reading (.performed rfl (by rw [DiskRequest.perform, h])) job.afterReply_text
  | outdated h hother =>
      exact step_of_reading (.performed rfl (by rw [DiskRequest.perform, h]))
        (afterReply_other hother)
  | absent => exact step_of_reading (.failed rfl) job.afterReply_notFound
  | unreadable herror => exact step_of_reading (.failed rfl) (afterReply_error herror)
  | madePartly h =>
      rw [programAt, replacement_eq]
      exact .partly h
  | unmade h | made h =>
      rw [programAt, replacement_eq]
      exact .answered h
  | unnamed =>
      exact .answered (.failed rfl)
  | named h hname => exact .answered (.named h hname)
  | filledPartly hpiece h => exact .partly (.filled hpiece h)
  | unfilled => exact .answered (.failed rfl)
  | filled h => exact .answered (.performed rfl (by simp [DiskRequest.perform, h]; rfl))
  | unplaced => exact .answered (.failed rfl)
  | placed h => exact .answered (.performed rfl (by simp [DiskRequest.perform, h]; rfl))
  | discarded => exact .answered (.performed rfl rfl)

theorem runs_move {p : DiskProgram (Except WriteError WriteResult)} {d₀ : Disk}
    {events : List DiskEvent} (h : DiskProgram.Runs target p d₀ events (job.programAt s) d)
    (hmove : job.Moves target s d event? s' d') :
    DiskProgram.Runs target p d₀ (events ++ event?.toList) (job.programAt s') d' :=
  h.step (step_of_moves hmove)

/-! ## §2. The temporary file. -/

/-- The temporary file of a stage. -/
def Stage.temporary? : Stage → Option String
  | .filling temporary | .placing temporary | .discarding temporary _ => some temporary
  | _ => none

/-- Where the temporary file of a stage is. -/
def Stage.claims (s : Stage) (d : Disk) : Set Location :=
  {l | ∃ t ∈ s.temporary?, d.locationOf t = l}

@[simp] theorem Stage.mem_claims {l : Location} :
    l ∈ s.claims d ↔ ∃ t, s.temporary? = some t ∧ d.locationOf t = l := Iff.rfl

/-- What a job relies on: its temporary file is there, it is not the target, and it holds the whole
text when it is about to take the target's place. -/
structure Owns (job : WriteJob) (target : Location) (s : Stage) (d : Disk) : Prop where
  apart : target ∉ s.claims d
  there : ∀ t, s.temporary? = some t → ∃ content, d.read t = .ok content
  whole : ∀ t, s = .placing t → d.read t = .ok job.text

theorem Owns.ne_target {t : String} (h : job.Owns target s d) (ht : s.temporary? = some t) :
    d.locationOf t ≠ target := fun hsame => h.apart ⟨t, ht, hsame⟩

theorem Owns.get?_ne_none {l : Location} (h : job.Owns target s d) (hl : l ∈ s.claims d) :
    d.get? l ≠ none := by
  obtain ⟨t, ht, rfl⟩ := hl
  obtain ⟨content, hread⟩ := h.there t ht
  rw [(Disk.read_eq_ok.mp hread).2]
  nofun

theorem owns_of_none (h : s.temporary? = none) : job.Owns target s d where
  apart := by simp [h]
  there := by simp [h]
  whole := by
    rintro t rfl
    cases h

theorem claims_of_grows {apart way : Set Location} (hgrows : d.Grows apart way d') (s : Stage) :
    s.claims d' = s.claims d := by
  ext l
  simp [hgrows.locationOf]

/-- What happens elsewhere is nothing to the temporary file. -/
theorem Owns.of_grows {apart way : Set Location} (h : job.Owns target s d)
    (hgrows : d.Grows apart way d') (hapart : ∀ l ∈ s.claims d, l ∉ apart) :
    job.Owns target s d' where
  apart := claims_of_grows hgrows s ▸ h.apart
  there t ht := by
    obtain ⟨content, hread⟩ := h.there t ht
    exact ⟨content, hgrows.read (hapart _ ⟨t, ht, rfl⟩) hread⟩
  whole t hs := hgrows.read (hapart _ ⟨t, by rw [hs]; rfl, rfl⟩) (h.whole t hs)

namespace Moves

/-- **Only the change of name touches more than the temporary file**; besides, there may be new
directories on the way to the target. -/
theorem grows_or_places (h : job.Moves target s d event? s' d') (howns : job.Owns target s d) :
    d.Grows (s.claims d ∪ s'.claims d) (d.wayTo job.directory) d'
      ∨ ∃ t, s = .placing t ∧ s' = .done (.ok .written)
          ∧ event? = some ⟨.rename t job.path, .ok ()⟩ ∧ d.rename t job.path = .ok d' := by
  cases h with
  | found | missing | upToDate | outdated | absent | unreadable | unnamed | unfilled | unplaced =>
      exact .inl (.refl _ _ d)
  | madePartly h => exact .inl ((grows_of_partly h).mono (by simp) subset_rfl)
  | unmade h | made h => exact .inl ((grows_of_answers h).mono (by simp) subset_rfl)
  | named h hname =>
      exact .inl ((Disk.grows_create h).1.mono (by simp [Stage.temporary?]) subset_rfl)
  | filledPartly _ h | filled h =>
      exact .inl ((Disk.grows_fill h).mono (by simp [Stage.temporary?]) subset_rfl)
  | placed h => exact .inr ⟨_, rfl, rfl, rfl, h⟩
  | discarded =>
      obtain ⟨content, hread⟩ := howns.there _ rfl
      exact .inl ((Disk.discard_of_read hread).1.mono (by simp [Stage.temporary?]) subset_rfl)

theorem grows (h : job.Moves target s d event? s' d') (howns : job.Owns target s d) :
    d.Grows ({job.target d} ∪ (s.claims d ∪ s'.claims d)) (d.wayTo job.directory) d' := by
  obtain hgrows | ⟨t, rfl, -, -, hplaced⟩ := h.grows_or_places howns
  · exact hgrows.mono Set.subset_union_right subset_rfl
  · refine (Disk.grows_rename hplaced).mono ?_ subset_rfl
    rintro l (rfl | rfl)
    · exact .inl rfl
    · exact .inr (.inl ⟨t, rfl, rfl⟩)

theorem claims_eq (h : job.Moves target s d event? s' d') (howns : job.Owns target s d)
    (s'' : Stage) : s''.claims d' = s''.claims d := claims_of_grows (h.grows howns) s''

/-- **The temporary file stays the job's own.** -/
theorem owns (h : job.Moves target s d event? s' d') (howns : job.Owns target s d) :
    job.Owns target s' d' := by
  -- something is owned from the naming of the file until it is placed or discarded
  cases h with
  | found | missing | upToDate | outdated | absent | unreadable | unnamed | madePartly | unmade
  | made | placed | discarded => exact owns_of_none rfl
  | named h hname =>
      obtain ⟨hgrows, -, hread⟩ : d.Grows _ ∅ d' ∧ _ := Disk.grows_create h
      exact {
        apart := by simpa [claims_of_grows hgrows, Stage.temporary?] using hname
        there := by simpa [Stage.temporary?] using ⟨_, hread⟩
        whole := nofun }
  | filledPartly _ h =>
      have hgrows : d.Grows _ ∅ d' := Disk.grows_fill h
      exact {
        apart := claims_of_grows hgrows _ ▸ howns.apart
        there := by simpa [Stage.temporary?] using ⟨_, Disk.read_of_fill h⟩
        whole := nofun }
  | filled h =>
      have hgrows : d.Grows _ ∅ d' := Disk.grows_fill h
      exact {
        apart := claims_of_grows hgrows _ ▸ howns.apart
        there := by simpa [Stage.temporary?] using ⟨_, Disk.read_of_fill h⟩
        whole := by
          rintro t ⟨⟩
          exact Disk.read_of_fill h }
  | unfilled | unplaced => exact ⟨howns.apart, howns.there, nofun⟩

/-- A temporary file is a new one. -/
theorem claims_new {l : Location} (h : job.Moves target s d event? s' d') (hl : l ∈ s'.claims d) :
    l ∈ s.claims d ∨ d.get? l = none := by
  cases h with
  | found | missing | upToDate | outdated | absent | unreadable | unnamed | madePartly | unmade
  | made | placed | discarded => simp [Stage.temporary?] at hl
  | named h hname =>
      obtain ⟨t, ⟨⟩, rfl⟩ := hl
      exact .inr (Disk.create_eq_ok h).2.1
  | filledPartly | filled | unfilled | unplaced => exact .inl hl

/-- A temporary file that a job has no longer is gone. -/
theorem claims_cleared {l : Location} (h : job.Moves target s d event? s' d')
    (howns : job.Owns target s d) (htarget : target = job.target d) (hl : l ∈ s.claims d)
    (hl' : l ∉ s'.claims d) : d'.get? l = none := by
  subst htarget
  cases h with
  | found | missing | upToDate | outdated | absent | unreadable | unnamed | madePartly | unmade
  | made | named => simp [Stage.temporary?] at hl
  | filledPartly | filled | unfilled | unplaced => exact absurd hl hl'
  | placed h =>
      obtain ⟨t, ⟨⟩, rfl⟩ := hl
      exact (Disk.read_of_rename h (howns.whole _ rfl) (howns.ne_target rfl)).2
  | discarded =>
      obtain ⟨t, ⟨⟩, rfl⟩ := hl
      obtain ⟨content, hread⟩ := howns.there _ rfl
      have hdiscarded : d.Grows _ ∅ _ ∧ _ := Disk.discard_of_read hread
      exact hdiscarded.2

/-- **Content that can be read is replaced by a change of name only**, and then by the whole
text. -/
theorem reads_or_places {content : Bytes} (h : job.Moves target s d event? s' d')
    (howns : job.Owns target s d) (htarget : target = job.target d)
    (hread : d.read job.path = .ok content) :
    d'.read job.path = .ok content
      ∨ ∃ t, event? = some ⟨.rename t job.path, .ok ()⟩ ∧ s = .placing t := by
  obtain hgrows | ⟨t, rfl, -, rfl, -⟩ := h.grows_or_places howns
  · have hbefore : target ∉ s.claims d := howns.apart
    have hafter : target ∉ s'.claims d := h.claims_eq howns s' ▸ (h.owns howns).apart
    refine .inl (hgrows.read ?_ hread)
    rintro (hl | hl)
    · exact hbefore (htarget ▸ hl)
    · exact hafter (htarget ▸ hl)
  · exact .inr ⟨t, rfl, rfl⟩

/-- Behind the change of name the whole text is at the target. -/
theorem read_of_placing {t : String}
    (h : job.Moves target s d (some ⟨.rename t job.path, .ok ()⟩) s' d')
    (howns : job.Owns target s d) (htarget : target = job.target d) :
    s = .placing t ∧ d'.read job.path = .ok job.text := by
  subst htarget
  cases h with
  | placed h =>
      exact ⟨rfl, (Disk.read_of_rename h (howns.whole t rfl) (howns.ne_target rfl)).1⟩

end Moves

end FeatureStudio.WriteJob
