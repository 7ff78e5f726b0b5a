/-
  FeatureStudio.Disk.Program: what a program does to a disk, and files written as a whole.

  A program asks for one thing at a time and goes on with the reply.  Every request is done as a
  whole; between two requests others may change the disk.

  A file is written to a temporary file beside it, which then takes its place, so that the file
  is never seen half written.  A file that holds the text already is left as it is.

  Main statements:
    * `run_bind`: programs run one after the other.
    * `program_missing`: a job that does not spare what is there does not ask for it.
-/
import FeatureStudio.Disk.Basic

namespace FeatureStudio

open Text (Bytes)

/-! ## §1. Requests and programs. -/

/-- A request to the disk. -/
inductive DiskRequest where
  /-- Whether there is anything at a path. -/
  | probe (path : String)
  | read (path : String)
  /-- Makes a directory and those above it. -/
  | makeDirectories (path : String)
  /-- Makes an empty file in a directory. -/
  | makeTemporary (directory : String)
  | fill (path : String) (content : Bytes)
  | rename (source target : String)
  | discard (path : String)
  /-- The name of what a path leads to. -/
  | nameOf (path : String)
  deriving DecidableEq, Repr

namespace DiskRequest

/-- The reply to a request. -/
abbrev Reply : DiskRequest → Type
  | probe _ => Bool
  | read _ => Except DiskError Bytes
  | makeDirectories _ => Except DiskError Unit
  | makeTemporary _ => Except DiskError String
  | fill .. => Except DiskError Unit
  | rename .. => Except DiskError Unit
  | discard _ => Unit
  | nameOf _ => Except DiskError String

/-- The reply, with the disk as it is afterwards; what fails changes nothing. -/
def settle {α : Type} (d : Disk) : Except DiskError (α × Disk) → Except DiskError α × Disk
  | .ok (a, d) => (.ok a, d)
  | .error error => (.error error, d)

/-- What a request does, and its reply. -/
def perform : (r : DiskRequest) → Disk → r.Reply × Disk
  | probe path, d => ((d.find? path).isSome, d)
  | read path, d => (d.read path, d)
  | makeDirectories path, d => d.makeDirectories path
  | makeTemporary directory, d => settle d (d.makeTemporary directory)
  | fill path content, d => settle d ((d.fill path content).map fun d => ((), d))
  | rename source target, d => settle d ((d.rename source target).map fun d => ((), d))
  | discard path, d => ((), d.discard path)
  | nameOf path, d => (d.nameOf path, d)

end DiskRequest

/-- A program that ends with a result. -/
inductive DiskProgram (α : Type) where
  | done (result : α)
  | ask (request : DiskRequest) (next : request.Reply → DiskProgram α)

namespace DiskProgram

/-- The program that makes one request. -/
def request (r : DiskRequest) : DiskProgram r.Reply := .ask r .done

/-- Goes on with the result. -/
def bind {α β : Type} (p : DiskProgram α) (f : α → DiskProgram β) : DiskProgram β :=
  match p with
  | .done a => f a
  | .ask r next => .ask r fun reply => (next reply).bind f

instance : Monad DiskProgram where
  pure := .done
  bind := bind

/-- Runs the program undisturbed. -/
def run {α : Type} : DiskProgram α → Disk → α × Disk
  | .done a, d => (a, d)
  | .ask r next, d =>
    let (reply, d) := r.perform d
    (next reply).run d

theorem run_bind {α β : Type} (p : DiskProgram α) (f : α → DiskProgram β) (d : Disk) :
    (p.bind f).run d = (f (p.run d).1).run (p.run d).2 := by
  induction p generalizing d with
  | done a => rfl
  | ask r next ih => exact ih _ _

end DiskProgram

/-! ## §2. Files written as a whole. -/

/-- A text to be written to a file. -/
structure WriteJob where
  path : String
  content : String
  /-- Whether whatever stands at the path is left as it is. -/
  sparing : Bool := false
  deriving DecidableEq, Repr

/-- What has become of a job. -/
inductive WriteResult where
  | written
  /-- The file held the text already. -/
  | unchanged
  /-- Something stands at the path and was to be spared. -/
  | skipped
  deriving DecidableEq, Repr

/-- Why a job failed. -/
inductive WriteError where
  | unreadable (path : String)
  | noDirectory (directory : String)
  | noTemporary (directory : String)
  | unfilled (path : String)
  | unwritable (path : String)
  deriving DecidableEq, Repr

/-- What is said of the failure. -/
def WriteError.message : WriteError → String
  | .unreadable path => "failed to read " ++ path
  | .noDirectory directory => "failed to create " ++ directory
  | .noTemporary directory => "failed to create a temporary file in " ++ directory
  | .unfilled path => "failed to write " ++ path
  | .unwritable path => "failed to write " ++ path

namespace WriteJob

/-- Whether the job goes on after the attempt to read the file, or what has become of it. -/
def afterReading (job : WriteJob) :
    Except DiskError Text.Bytes → Option (Except WriteError WriteResult)
  | .ok content => if content = Text.encode job.content then some (.ok .unchanged) else none
  | .error .notFound => none
  | .error _ => some (.error (.unreadable job.path))

/-- Puts the text in the place of what is there. -/
def replacement (job : WriteJob) : DiskProgram (Except WriteError WriteResult) :=
  let directory := DiskPath.directory job.path
  .ask (.makeDirectories directory) fun
    | .error _ => .done (.error (.noDirectory directory))
    | .ok () => .ask (.makeTemporary directory) fun
      | .error _ => .done (.error (.noTemporary directory))
      | .ok temporary =>
        let failed (error : WriteError) : DiskProgram (Except WriteError WriteResult) :=
          .ask (.discard temporary) fun _ => .done (.error error)
        .ask (.fill temporary (Text.encode job.content)) fun
          | .error _ => failed (.unfilled temporary)
          | .ok () => .ask (.rename temporary job.path) fun
            | .error _ => failed (.unwritable job.path)
            | .ok () => .done (.ok .written)

/-- Writes the text unless the file holds it already. -/
def update (job : WriteJob) : DiskProgram (Except WriteError WriteResult) :=
  .ask (.read job.path) fun reply =>
    match job.afterReading reply with
    | some result => .done result
    | none => job.replacement

/-- What the job asks of the disk. -/
def program (job : WriteJob) : DiskProgram (Except WriteError WriteResult) :=
  if job.sparing then
    .ask (.probe job.path) fun
      | true => .done (.ok .skipped)
      | false => job.update
  else job.update

theorem program_missing {job : WriteJob} (h : job.sparing = false) :
    job.program = job.update := by
  simp [program, h]

end WriteJob

end FeatureStudio
