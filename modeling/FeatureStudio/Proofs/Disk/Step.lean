/-
  FeatureStudio.Proofs.Disk.Step: programs step by step, with failures.

  A program goes on when its request is answered.  What can fail may fail at any time, and then
  nothing changes any more; but directories are made one by one and files are filled piece by piece,
  so others may see such a request half done, and so it may stay.  A temporary file gets any name
  that nothing has.

  Main statements:
    * `DiskProgram.Step`: what can happen next, and what the program asked and was told.
    * `DiskProgram.Runs`: what can have happened up to some moment.
    * `DiskProgram.runs_run`: an undisturbed run is one of these.
-/
import FeatureStudio.Proofs.Disk.Way
import FeatureStudio.Disk.Program

namespace FeatureStudio

open Text (Bytes)

/-- A request with its reply. -/
abbrev DiskEvent := (request : DiskRequest) × request.Reply

namespace DiskRequest

/-- The reply that a request has failed, if it is one that can fail. -/
def failure : (r : DiskRequest) → DiskError → Option r.Reply
  | probe _, _ => none
  | read _, error => some (.error error)
  | makeDirectories _, error => some (.error error)
  | makeTemporary _, error => some (.error error)
  | fill .., error => some (.error error)
  | rename .., error => some (.error error)
  | discard _, _ => none
  | nameOf _, error => some (.error error)

/-- Whether a request makes a temporary file. -/
def makesTemporary : DiskRequest → Bool
  | makeTemporary _ => true
  | _ => false

/-- What others may see of a request before it is answered. -/
inductive Partly : DiskRequest → Disk → Disk → Prop
  /-- One of the directories is there. -/
  | made {path above : String} {d d' : Disk}
      (hmem : above ∈ DiskPath.ancestors (path.length + 1) path)
      (h : d.makeDirectory above = .ok d') : Partly (.makeDirectories path) d d'
  /-- A part of the content is in the file. -/
  | filled {path : String} {content piece : Bytes} {d d' : Disk} (hpiece : piece <+: content)
      (h : d.fill path piece = .ok d') : Partly (.fill path content) d d'

/-- How a request may be answered, and the disk as it is then.  The name of a temporary file is not
one that a target has. -/
inductive Answers (target : Location) : (r : DiskRequest) → Disk → r.Reply → Disk → Prop
  /-- The request is done. -/
  | performed {r : DiskRequest} {d d' : Disk} {reply : r.Reply}
      (hr : r.makesTemporary = false) (h : r.perform d = (reply, d')) :
      Answers target r d reply d'
  /-- A temporary file has a name of its own. -/
  | named {directory name : String} {d d' : Disk}
      (h : d.create (DiskPath.join directory name) (.file []) = .ok d')
      (hname : d.locationOf (DiskPath.join directory name) ≠ target) :
      Answers target (.makeTemporary directory) d (.ok (DiskPath.join directory name)) d'
  /-- The request has failed. -/
  | failed {r : DiskRequest} {d : Disk} {error : DiskError} {reply : r.Reply}
      (h : r.failure error = some reply) : Answers target r d reply d

end DiskRequest

namespace DiskProgram

variable {α : Type} {target : Location} {p p' p'' : DiskProgram α} {d d' d'' : Disk}
  {event? : Option DiskEvent} {events events' : List DiskEvent}

/-- What can happen next to a program and its disk, and the request that has been answered, if
any. -/
inductive Step (target : Location) :
    DiskProgram α → Disk → Option DiskEvent → DiskProgram α → Disk → Prop
  | partly {r : DiskRequest} {next : r.Reply → DiskProgram α} {d d' : Disk}
      (h : r.Partly d d') : Step target (.ask r next) d none (.ask r next) d'
  | answered {r : DiskRequest} {next : r.Reply → DiskProgram α} {d d' : Disk} {reply : r.Reply}
      (h : r.Answers target d reply d') :
      Step target (.ask r next) d (some ⟨r, reply⟩) (next reply) d'

/-- What can have happened up to some moment: the requests answered by then, what is left of the
program, and the disk. -/
inductive Runs (target : Location) (p : DiskProgram α) (d : Disk) :
    List DiskEvent → DiskProgram α → Disk → Prop
  | start : Runs target p d [] p d
  | step {events : List DiskEvent} {p' p'' : DiskProgram α} {d' d'' : Disk}
      {event? : Option DiskEvent} (h : Runs target p d events p' d')
      (hstep : p'.Step target d' event? p'' d'') :
      Runs target p d (events ++ event?.toList) p'' d''

theorem step_done {a : α} : ¬ (DiskProgram.done a).Step target d event? p' d' := nofun

theorem step_ask {r : DiskRequest} {next : r.Reply → DiskProgram α}
    (h : (DiskProgram.ask r next).Step target d event? p' d') :
    (event? = none ∧ p' = .ask r next ∧ r.Partly d d')
      ∨ ∃ reply, event? = some ⟨r, reply⟩ ∧ p' = next reply ∧ r.Answers target d reply d' := by
  cases h with
  | partly h => exact .inl ⟨rfl, rfl, h⟩
  | answered h => exact .inr ⟨_, rfl, rfl, h⟩

/-- A request that is done as a whole is answered by the step. -/
theorem step_ask_whole {r : DiskRequest} {next : r.Reply → DiskProgram α}
    (h : (DiskProgram.ask r next).Step target d event? p' d') (hwhole : ¬ r.Partly d d') :
    ∃ reply, event? = some ⟨r, reply⟩ ∧ p' = next reply ∧ r.Answers target d reply d' :=
  (step_ask h).resolve_left fun hpart => hwhole hpart.2.2

theorem Runs.behind_step (hstep : p.Step target d event? p' d')
    (h : Runs target p' d' events p'' d'') :
    Runs target p d (event?.toList ++ events) p'' d'' := by
  induction h with
  | start => simpa using Runs.start.step hstep
  | step h hstep' ih =>
      rw [← List.append_assoc]
      exact ih.step hstep'

/-- What the disk does when asked is one of the answers. -/
theorem answers_perform (r : DiskRequest)
    (hname : ∀ directory path d', d.makeTemporary directory = .ok (path, d') →
      d.locationOf path ≠ target) :
    r.Answers target d (r.perform d).1 (r.perform d).2 := by
  cases r with
  | makeTemporary directory =>
      cases hmade : d.makeTemporary directory with
      | error error =>
          simp only [DiskRequest.perform, hmade, DiskRequest.settle]
          exact .failed rfl
      | ok made =>
          obtain ⟨path, d'⟩ := made
          obtain ⟨l, rfl, hcreate⟩ := Disk.makeTemporary_eq_ok hmade
          simp only [DiskRequest.perform, hmade, DiskRequest.settle]
          exact .named hcreate (hname directory _ d' hmade)
  | _ => exact .performed rfl rfl

/-- **An undisturbed run is one of the runs**, if the target has no name that the disk gives to
temporary files. -/
theorem runs_run (hname : ∀ rest, target.getLast? ≠ some (".tmp" ++ rest)) (p : DiskProgram α)
    (d : Disk) : ∃ events, Runs target p d events (.done (p.run d).1) (p.run d).2 := by
  induction p generalizing d with
  | done a => exact ⟨[], .start⟩
  | ask r next ih =>
      obtain ⟨events, h⟩ := ih (r.perform d).1 (r.perform d).2
      have hother : ∀ directory path d', d.makeTemporary directory = .ok (path, d') →
          d.locationOf path ≠ target := fun directory path d' hmade hsame => by
        obtain ⟨rest, hlocation⟩ := Disk.locationOf_makeTemporary hmade
        refine hname rest ?_
        rw [← hsame, hlocation, List.getLast?_concat]
      exact ⟨_, Runs.behind_step (.answered (answers_perform r hother)) h⟩

end DiskProgram

end FeatureStudio
