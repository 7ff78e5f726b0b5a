/-
  FeatureStudio.Main: the program on the disk of the machine.
-/
import FeatureStudio.CommandLine.Run

namespace FeatureStudio

/-- Does something to the disk and says how it went. -/
def attempt {α : Type} (action : IO α) : IO (Except DiskError α) := do
  try
    return .ok (← action)
  catch
    | .noFileOrDirectory .. => return .error .notFound
    | .alreadyExists .. => return .error .alreadyExists
    | _ => return .error .notADirectory

/-- Makes an empty file under a name that nothing has in a directory. -/
def makeTemporaryFile (directory : String) : IO String := do
  let path := DiskPath.join directory (".tmp" ++ toString (← IO.rand 0 999999999))
  let _ ← IO.FS.Handle.mk path .writeNew
  return path

/-- Whether there is anything at a path. -/
def isThere (path : String) : IO Bool := do
  try
    let _ ← IO.FS.Handle.mk path .read
    return true
  catch _ => return false

/-- Does what a request asks for. -/
def DiskRequest.performIO : (r : DiskRequest) → IO r.Reply
  | .probe path => isThere path
  | .read path => attempt do return (← IO.FS.readBinFile path).data.toList
  | .makeDirectories path => attempt (IO.FS.createDirAll path)
  | .makeTemporary directory => attempt (makeTemporaryFile directory)
  | .fill path content => attempt (IO.FS.writeBinFile path ⟨content.toArray⟩)
  | .rename source target => attempt (IO.FS.rename source target)
  | .discard path => do
    let _ ← attempt (IO.FS.removeFile path)
    return ()
  | .nameOf path => attempt do
    return ((Text.split '/' (toString (← IO.FS.realPath path))).getLast?).getD ""

/-- Runs a program on the disk of the machine. -/
def DiskProgram.runIO {α : Type} : DiskProgram α → IO α
  | .done a => return a
  | .ask r next => do (next (← r.performIO)).runIO

end FeatureStudio

open FeatureStudio in
/-- Runs the command that the arguments state. -/
def main (arguments : List String) : IO UInt32 := do
  let result ← (Command.runArguments arguments).runIO
  for complaint in result.complaints do
    IO.eprintln complaint
  IO.print result.output
  return result.exitCode.toUInt32
