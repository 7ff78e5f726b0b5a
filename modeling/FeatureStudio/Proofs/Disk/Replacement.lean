/-
  FeatureStudio.Proofs.Disk.Replacement: files are written whole or not at all.

  A job that replaces what is there puts its text into a temporary file first.  Whatever fails on
  the way, and at whatever moment one looks, the target is as it was or holds the whole text.  There
  is one exception: where a path leads through its own target, as `b/../b` does, the directories
  that are made for the file may be one in its place.

  Main statements:
    * `Since.next`, `since_of_runs`: what is the case at every moment of a run.
    * `allOrNothing`: what others see of the target, and what the result says of it.
    * `not_allOrNothing_of_way`: a path that leads through its own target.
-/
import FeatureStudio.Report
import FeatureStudio.Proofs.Disk.Stage
import FeatureStudio.Proofs.Disk.Way

namespace FeatureStudio.WriteJob

open Text (Bytes)

variable {job : WriteJob} {s s' : Stage} {d d₀ d' : Disk} {event? : Option DiskEvent}
  {events : List DiskEvent} {p : DiskProgram (Except WriteError WriteResult)}

/-! ## §1. One move. -/

/-- The reply that the file holds the text already. -/
def held (job : WriteJob) : DiskEvent := ⟨.read job.path, .ok job.text⟩

namespace Moves

variable {target : Location}

theorem ne_done {result : Except WriteError WriteResult}
    (h : job.Moves target s d event? s' d') : s ≠ .done result := by
  cases h <;> nofun

/-- A job ends as unchanged with the reply that the file holds the text, and only then. -/
theorem held_iff (h : job.Moves target s d event? s' d') :
    job.held ∈ event?.toList ↔ s' = .done (.ok .unchanged) := by
  cases h with
  | outdated h hother => simpa [held] using hother.symm
  | _ => simp [held]

/-- A job that ends as unchanged has done nothing but read. -/
theorem of_unchanged (h : job.Moves target s d event? (.done (.ok .unchanged)) d') :
    s = .reading ∧ d' = d ∧ d.read job.path = .ok job.text := by
  cases h with
  | upToDate h => exact ⟨rfl, rfl, h⟩

theorem of_written (h : job.Moves target s d event? (.done (.ok .written)) d') :
    ∃ t, event? = some ⟨.rename t job.path, .ok ()⟩ := by
  cases h with
  | placed _ => exact ⟨_, rfl⟩

/-- The file is not looked for again. -/
theorem begun (h : job.Moves target s d event? s' d') (hs : s ≠ .probing) :
    s' ≠ .probing ∧ s' ≠ .reading ∧ s' ≠ .done (.ok .skipped) := by
  cases h with
  | found | missing => exact absurd rfl hs
  | _ => simp

end Moves

/-! ## §2. A whole run. -/

/-- What is the case at a stage of a job that started on a disk `d₀` and has had some replies. -/
structure Since (job : WriteJob) (d₀ : Disk) (events : List DiskEvent) (s : Stage) (d : Disk) :
    Prop where
  owns : job.Owns (job.target d₀) s d
  fresh : ∀ l ∈ s.claims d, d₀.get? l = none
  /-- Only the temporary file is there besides, until it has taken the place of the target. -/
  unwritten : s ≠ .done (.ok .written) → d₀.Grows (s.claims d) (d₀.wayTo job.directory) d
  written : s = .done (.ok .written) →
    d.read job.path = .ok job.text ∧ d₀.Grows {job.target d₀} (d₀.wayTo job.directory) d
  untouched : s = .reading ∨ s = .done (.ok .unchanged) → d = d₀
  unchanged : s = .done (.ok .unchanged) → d.read job.path = .ok job.text
  held : job.held ∈ events ↔ s = .done (.ok .unchanged)
  begun : s ≠ .probing ∧ s ≠ .done (.ok .skipped)

theorem since_start (d : Disk) : Since job d [] .reading d where
  owns := owns_of_none rfl
  fresh := by simp [Stage.temporary?]
  unwritten _ := .refl _ _ d
  written := nofun
  untouched _ := rfl
  unchanged := nofun
  held := by simp
  begun := by simp

theorem Since.next (h : Since job d₀ events s d)
    (hmove : job.Moves (job.target d₀) s d event? s' d') :
    Since job d₀ (events ++ event?.toList) s' d' := by
  have hgrows : d₀.Grows (s.claims d) (d₀.wayTo job.directory) d := h.unwritten hmove.ne_done
  have htarget : job.target d = job.target d₀ := hgrows.locationOf job.path
  -- what is claimed no longer was missing at first, and now it is missing again
  have hgone : ∀ l ∈ s.claims d, l ∉ s'.claims d → d'.get? l = d₀.get? l := fun l hl hl' => by
    rw [hmove.claims_cleared h.owns htarget.symm hl hl', h.fresh l hl]
  obtain ⟨hprobing, hreading, hskipped⟩ := hmove.begun h.begun.1
  exact {
    owns := hmove.owns h.owns
    fresh := fun l hl => by
      rw [hmove.claims_eq h.owns] at hl
      by_cases hold : l ∈ s.claims d
      · exact h.fresh l hold
      · exact hgrows.get?_none hold ((hmove.claims_new hl).resolve_left hold)
    unwritten := fun hs' => by
      obtain hquiet | ⟨t, -, hdone, -⟩ := hmove.grows_or_places h.owns
      · rw [hgrows.wayTo] at hquiet
        have hboth := (hgrows.mono Set.subset_union_left subset_rfl).trans hquiet
        rw [Set.union_comm] at hboth
        rw [hmove.claims_eq h.owns]
        exact hboth.without hgone
      · exact absurd hdone hs'
    written := by
      rintro rfl
      obtain ⟨t, rfl⟩ := hmove.of_written
      obtain ⟨rfl, hread⟩ := hmove.read_of_placing h.owns htarget.symm
      have hmoved := hmove.grows h.owns
      rw [htarget, hgrows.wayTo] at hmoved
      have hboth := (hgrows.mono (fun l hl => .inr (.inl hl)) subset_rfl).trans hmoved
      refine ⟨hread, hboth.without fun l hl _ => ?_⟩
      obtain hl | ⟨t, ⟨⟩, -⟩ := hl
      exact hgone l hl (by simp [Stage.temporary?])
    untouched := by
      rintro (rfl | rfl)
      · exact absurd rfl hreading
      · obtain ⟨hs, hd, -⟩ := hmove.of_unchanged
        exact hd.trans (h.untouched (.inl hs))
    unchanged := by
      rintro rfl
      obtain ⟨-, rfl, hread⟩ := hmove.of_unchanged
      exact hread
    held := by
      have hbefore : job.held ∉ events := fun hmem => hmove.ne_done (h.held.mp hmem)
      rw [List.mem_append, ← hmove.held_iff]
      simp [hbefore]
    begun := ⟨hprobing, hskipped⟩ }

theorem Since.changes (h : Since job d₀ events s d) :
    d₀.Grows (s.claims d) (d₀.wayTo job.directory) d
      ∨ d.read job.path = .ok job.text
        ∧ d₀.Grows {job.target d₀} (d₀.wayTo job.directory) d := by
  by_cases hs : s = .done (.ok .written)
  · exact .inr (h.written hs)
  · exact .inl (h.unwritten hs)

/-- **At every moment of a run the job is at a stage where this is the case.** -/
theorem since_of_runs (hjob : job.sparing = false)
    (h : DiskProgram.Runs (job.target d₀) job.program d₀ events p d) :
    ∃ s, p = job.programAt s ∧ Since job d₀ events s d := by
  induction h with
  | start => exact ⟨.reading, program_missing hjob, since_start d₀⟩
  | step h hstep ih =>
      obtain ⟨s, rfl, hsince⟩ := ih
      obtain ⟨s', rfl, hmove⟩ := moves_of_step hstep
      exact ⟨s', rfl, hsince.next hmove⟩

theorem eq_done_of_programAt {result : Except WriteError WriteResult}
    (h : job.programAt s = .done result) : s = .done result := by
  cases s with
  | done r =>
      cases h
      rfl
  | _ => cases h

/-! ## §3. What others see. -/

/-- A file that holds the text is left as it is. -/
theorem run_of_read (hjob : job.sparing = false) (h : d.read job.path = .ok job.text) :
    job.program.run d = (.ok .unchanged, d) := by
  rw [program_missing hjob, update_eq]
  simp only [DiskProgram.run, DiskRequest.perform]
  rw [h, afterReply_text]
  rfl

theorem generate_of_read {r : RenderedStudio} {directory : String}
    (hpath : job.path = DiskPath.join directory r.name) (hcontent : job.content = r.content)
    (hjob : job.sparing = false) (h : d.read job.path = .ok job.text) :
    (r.generate directory false).run d = (.ok (r.report job.path .unchanged), d) := by
  have hsame : job = { path := DiskPath.join directory r.name, content := r.content } := by
    obtain ⟨path, content, sparing⟩ := job
    simp only at hpath hcontent hjob
    rw [hpath, hcontent, hjob]
  rw [RenderedStudio.generate, if_neg (by simp), DiskProgram.run_bind, ← hsame,
    run_of_read hjob h, ← hpath]
  rfl

/-- All or nothing: what holds of the target at any moment of a run of a job that started on a disk
`d`, when `p` is left of the job. -/
structure AllOrNothing (job : WriteJob) (d : Disk) (p : DiskProgram (Except WriteError WriteResult))
    (d' : Disk) : Prop where
  /-- The target is as it was, or holds the whole text. -/
  whole : d'.get? (job.target d) = d.get? (job.target d)
    ∨ d'.get? (job.target d) = some (.file job.text)
  /-- With an error it is as it was. -/
  failed : ∀ error, p = .done (.error error) → d'.get? (job.target d) = d.get? (job.target d)

/-- What else holds, when some requests have been answered: what others can read, and what the
result says. -/
structure Accounts (job : WriteJob) (d : Disk) (events : List DiskEvent)
    (p : DiskProgram (Except WriteError WriteResult)) (d' : Disk) : Prop where
  /-- Who reads the file gets what the target held, or the whole text. -/
  seen : ∀ content, d'.read job.path = .ok content →
    d.get? (job.target d) = some (.file content) ∨ content = job.text
  /-- Who could read the file still can. -/
  readable : ∀ content, d.read job.path = .ok content →
    d'.read job.path = .ok content ∨ d'.read job.path = .ok job.text
  /-- With an error there are new directories on the way at most. -/
  failed : ∀ error, p = .done (.error error) → d.Grows ∅ (d.wayTo job.directory) d'
  unchanged_iff : p = .done (.ok .unchanged) ↔ job.held ∈ events
  untouched : p = .done (.ok .unchanged) → d' = d
  settled : ∀ result, p = .done (.ok result) →
    result ≠ .skipped ∧ d'.read job.path = .ok job.text
  repeated : ∀ result, p = .done (.ok result) → job.program.run d' = (.ok .unchanged, d')
  regenerated : ∀ result (r : RenderedStudio) directory, p = .done (.ok result) →
    job.path = DiskPath.join directory r.name → job.content = r.content →
      (r.generate directory false).run d' = (.ok (r.report job.path .unchanged), d')
  /-- Nothing but the target is another in the end, and no temporary file is left. -/
  cleared : ∀ result, p = .done result →
    d.Grows {job.target d} (d.wayTo job.directory) d'

/-- The target has the same location all the time. -/
theorem Since.target_eq (h : Since job d₀ events s d) : job.target d = job.target d₀ := by
  obtain hgrows | ⟨-, hgrows⟩ := h.changes <;> exact hgrows.locationOf job.path

/-- Nothing replaces the target but the whole text. -/
theorem Since.whole (h : Since job d₀ events s d) :
    (∃ apart, job.target d₀ ∉ apart ∧ d₀.Grows apart (d₀.wayTo job.directory) d)
      ∨ d.get? (job.target d₀) = some (.file job.text) := by
  obtain hgrows | ⟨hread, -⟩ := h.changes
  · exact .inl ⟨_, h.owns.apart, hgrows⟩
  · rw [← h.target_eq]
    exact .inr (Disk.read_eq_ok.mp hread).2

theorem Since.seen {content : Bytes} (h : Since job d₀ events s d)
    (hread : d.read job.path = .ok content) :
    d₀.get? (job.target d₀) = some (.file content) ∨ content = job.text := by
  have hfile : d.get? (job.target d₀) = some (.file content) := by
    rw [← h.target_eq]
    exact (Disk.read_eq_ok.mp hread).2
  obtain ⟨apart, hapart, hgrows⟩ | hnew := h.whole
  · exact .inl (hgrows.file_of_get? hapart hfile)
  · right
    rw [hfile] at hnew
    cases hnew
    rfl

theorem Since.readable {content : Bytes} (h : Since job d₀ events s d)
    (hread : d₀.read job.path = .ok content) :
    d.read job.path = .ok content ∨ d.read job.path = .ok job.text := by
  obtain hgrows | ⟨hread', -⟩ := h.changes
  · exact .inl (hgrows.read h.owns.apart hread)
  · exact .inr hread'

/-- After an error there is nothing but new directories on the way. -/
theorem Since.failed {error : WriteError} (h : Since job d₀ events (.done (.error error)) d) :
    d₀.Grows ∅ (d₀.wayTo job.directory) d := by
  exact (h.unwritten nofun).mono (by rintro l ⟨t, ⟨⟩, -⟩) subset_rfl

theorem Since.settled {result : WriteResult} (h : Since job d₀ events (.done (.ok result)) d) :
    result ≠ .skipped ∧ d.read job.path = .ok job.text := by
  cases result with
  | written => exact ⟨nofun, (h.written rfl).1⟩
  | unchanged => exact ⟨nofun, h.unchanged rfl⟩
  | skipped => exact absurd rfl h.begun.2

theorem Since.cleared {result : Except WriteError WriteResult}
    (h : Since job d₀ events (.done result) d) :
    d₀.Grows {job.target d₀} (d₀.wayTo job.directory) d := by
  obtain hgrows | ⟨-, hgrows⟩ := h.changes
  · exact hgrows.mono (by rintro l ⟨t, ⟨⟩, -⟩) subset_rfl
  · exact hgrows

/-- The target is as it was or holds the whole text, unless a directory may be made in its place. -/
theorem Since.isAllOrNothing (h : Since job d₀ events s d)
    (hway : d₀.get? (job.target d₀) = none → job.target d₀ ∉ d₀.wayTo job.directory) :
    job.AllOrNothing d₀ (job.programAt s) d where
  whole := h.whole.imp_left fun ⟨_, hapart, hgrows⟩ => hgrows.get?_of_notMem hapart hway
  failed error hs := by
    cases eq_done_of_programAt hs
    exact h.failed.get?_of_notMem (Set.notMem_empty _) hway

theorem Since.accounts (hjob : job.sparing = false) (h : Since job d₀ events s d) :
    job.Accounts d₀ events (job.programAt s) d := by
  have hdone : ∀ {result}, job.programAt s = .done result → Since job d₀ events (.done result) d :=
    fun hs => eq_done_of_programAt hs ▸ h
  have hread : ∀ result, job.programAt s = .done (.ok result) → d.read job.path = .ok job.text :=
    fun _ hs => (hdone hs).settled.2
  exact {
    seen := fun _ => h.seen
    readable := fun _ => h.readable
    failed := fun _ hs => (hdone hs).failed
    unchanged_iff := ⟨fun hs => (hdone hs).held.mpr rfl, fun hmem => by rw [h.held.mp hmem]; rfl⟩
    untouched := fun hs => (hdone hs).untouched (.inr rfl)
    settled := fun _ hs => (hdone hs).settled
    repeated := fun result hs => run_of_read hjob (hread result hs)
    regenerated := fun result r directory hs hpath hcontent =>
      generate_of_read hpath hcontent hjob (hread result hs)
    cleared := fun _ hs => (hdone hs).cleared }

/-- **Writes are all or nothing**: at every moment of every run, whatever fails on the way, the
target is as it was or holds the whole text, and the result says which.  Where nothing is at the
target, it must not be one of the directories that are made for the path.  Of a path that names
something and never goes up it is none. -/
theorem allOrNothing (hjob : job.sparing = false)
    (h : DiskProgram.Runs (job.target d) job.program d events p d') :
    ((d.get? (job.target d) = none → job.target d ∉ d.wayTo job.directory) →
        job.AllOrNothing d p d')
      ∧ (DiskPath.names job.path ≠ [] → ".." ∉ Text.split '/' job.path → job.AllOrNothing d p d')
      ∧ job.Accounts d events p d' := by
  obtain ⟨s, rfl, hsince⟩ := since_of_runs hjob h
  refine ⟨hsince.isAllOrNothing, fun hnames hup => ?_, hsince.accounts hjob⟩
  exact hsince.isAllOrNothing fun _ => d.notMem_wayTo hnames hup

/-- A job to replace a file. -/
def tube : WriteJob := { path := "tube.fs", content := "new" }

/-- A disk with the file. -/
def tubeDisk : Disk where
  home := ["work"]
  entries := [(["work"], .directory), (["work", "tube.fs"], .file (Text.encode "old"))]

/-- The disk with a temporary file beside the file. -/
def tubeDiskWith (content : String) : Disk :=
  tubeDisk.put ["work", ".tmp0"] (.file (Text.encode content))

/-- The temporary file cannot be filled to its end. -/
theorem tube_halfFilled :
    let p : DiskProgram (Except WriteError WriteResult) := .done (.error (.unfilled "./.tmp0"))
    tube.AllOrNothing tubeDisk p tubeDisk
      ∧ tube.Accounts tubeDisk
        [⟨.read "tube.fs", .ok (Text.encode "old")⟩, ⟨.makeDirectories ".", .ok ()⟩,
          ⟨.makeTemporary ".", .ok "./.tmp0"⟩,
          ⟨.fill "./.tmp0" (Text.encode "new"), .error .unusableName⟩, ⟨.discard "./.tmp0", ()⟩]
        p tubeDisk := by
  intro p
  have hdirectory : tube.directory = "." := by decide +kernel
  have hread : tube.Moves (tube.target tubeDisk) .reading tubeDisk
      (some ⟨.read "tube.fs", .ok (Text.encode "old")⟩) .making tubeDisk :=
    .outdated (by decide +kernel) (by decide +kernel)
  have hmade : tube.Moves (tube.target tubeDisk) .making tubeDisk
      (some ⟨.makeDirectories tube.directory, .ok ()⟩) .naming tubeDisk :=
    .made (.performed rfl (by decide +kernel))
  have hnamed : tube.Moves (tube.target tubeDisk) .naming tubeDisk
      (some ⟨.makeTemporary tube.directory, .ok (DiskPath.join tube.directory ".tmp0")⟩)
      (.filling (DiskPath.join tube.directory ".tmp0")) (tubeDiskWith "") :=
    .named (by decide +kernel) (by decide +kernel)
  have hpiece : (tubeDiskWith "").fill "./.tmp0" (Text.encode "ne") = .ok (tubeDiskWith "ne") := by
    decide +kernel
  have hpart : tube.Moves (tube.target tubeDisk) (.filling "./.tmp0") (tubeDiskWith "") none
      (.filling "./.tmp0") (tubeDiskWith "ne") :=
    .filledPartly (by decide +kernel) hpiece
  have hfull : tube.Moves (tube.target tubeDisk) (.filling "./.tmp0") (tubeDiskWith "ne")
      (some ⟨.fill "./.tmp0" (Text.encode "new"), .error .unusableName⟩)
      (.discarding "./.tmp0" (.unfilled "./.tmp0")) (tubeDiskWith "ne") := .unfilled
  have hdiscarded : (tubeDiskWith "ne").discard "./.tmp0" = tubeDisk := by decide +kernel
  -- all moves in a row; the directory of a bare name is spelled by a dot
  have hnaming := runs_move (runs_move (runs_move .start hread) hmade) hnamed
  rw [hdirectory] at hnaming
  have hruns := runs_move (runs_move (runs_move hnaming hpart) hfull) .discarded
  rw [hdiscarded] at hruns
  have hresult := allOrNothing rfl hruns
  exact ⟨hresult.2.1 (by decide +kernel) (by decide +kernel), hresult.2.2⟩

/-- A job with a path that leads through its own target. -/
def detour : WriteJob := { path := "b/../b", content := "new" }

/-- On a disk without anything, the directory that is made for the path is the target: the job fails
and leaves it. -/
theorem not_allOrNothing_of_way :
    ¬ ∀ (job : WriteJob) (d d' : Disk) (events : List DiskEvent)
      (p : DiskProgram (Except WriteError WriteResult)), job.sparing = false →
        DiskProgram.Runs (job.target d) job.program d events p d' → job.AllOrNothing d p d' := by
  intro h
  let d : Disk := { home := ["work"], entries := [(["work"], .directory)] }
  let d' : Disk := d.put ["work", "b"] .directory
  have htarget : detour.target d = ["work", "b"] := by decide +kernel
  have hrun : detour.program.run d = (.error (.unwritable "b/../b"), d') := by decide +kernel
  have hname : ∀ rest, (detour.target d).getLast? ≠ some (".tmp" ++ rest) := by
    intro rest hlast
    rw [htarget] at hlast
    have hchars := congrArg String.toList (Option.some.inj hlast)
    simp at hchars
  obtain ⟨events, hruns⟩ := DiskProgram.runs_run hname detour.program d
  rw [hrun] at hruns
  have hkept := (h detour d d' events _ rfl hruns).failed _ rfl
  have hchanged : d'.get? (detour.target d) ≠ d.get? (detour.target d) := by decide +kernel
  exact hchanged hkept

end FeatureStudio.WriteJob
