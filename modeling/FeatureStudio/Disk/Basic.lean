/-
  FeatureStudio.Disk.Basic: files and directories.

  A path is names between slashes.  Empty names, and single dots but for a leading one, do not
  count.  A disk holds files and directories by their locations, the lists of names from the
  root.  Paths that do not start at the root start at the working directory.

  Main statements:
    * `get?_put_self`, `get?_put_of_ne`: what is put is seen at its own location only.
    * `get?_remove_self`, `get?_remove_of_ne`: what is removed is gone, and nothing else is.
-/
import FeatureStudio.Text.Basic

namespace FeatureStudio

open Text (Bytes)

/-! ## §1. Paths as texts. -/

namespace DiskPath

/-- Whether the path starts at the root. -/
def isAbsolute (path : String) : Bool := path.toList.head? = some '/'

/-- The path of `name` below a directory. -/
def join (directory name : String) : String :=
  if isAbsolute name then name
  else if directory.isEmpty || directory.toList.getLast? = some '/' then directory ++ name
  else directory ++ "/" ++ name

/-- The names of a path from the last to the first, without those at its end that do not count. -/
def trimmed : List String → List String
  | [] => []
  | [first] => [first]
  | name :: rest => if name = "" || name = "." then trimmed rest else name :: rest

/-- The path of names given from the last to the first. -/
def ofReversed : List String → String
  | [""] => "/"
  | names => "/".intercalate names.reverse

/-- The path without its last name; the root and the empty path have none. -/
def parent? (path : String) : Option String :=
  match trimmed (Text.split '/' path).reverse with
  | [] | [""] => none
  | [_] => some ""
  | _ :: rest => some (ofReversed (trimmed rest))

/-- The directory of a path, as a path that is not empty. -/
def directory (path : String) : String :=
  match parent? path with
  | none | some "" => "."
  | some d => d

/-- The path and those above it, from below; the first argument bounds their number. -/
def ancestors : Nat → String → List String
  | 0, _ => []
  | bound + 1, path =>
    path :: match parent? path with
      | none => []
      | some d => ancestors bound d

end DiskPath

/-! ## §2. Disks. -/

/-- Names from the root. -/
abbrev Location := List String

/-- What stands at a location. -/
inductive DiskEntry where
  | file (content : Bytes)
  | directory
  deriving DecidableEq, Repr

/-- Why something cannot be done. -/
inductive DiskError where
  | notFound
  | notADirectory
  | isADirectory
  | alreadyExists
  /-- The name or path is too long or holds a NUL. -/
  | unusableName
  deriving DecidableEq, Repr

/-- Files and directories, with the location that relative paths start from. -/
structure Disk where
  home : Location
  entries : List (Location × DiskEntry)
  deriving DecidableEq, Repr

namespace Disk

/-! ## §3. Locations. -/

/-- What stands at a location; the root is always a directory. -/
def get? (d : Disk) : Location → Option DiskEntry
  | [] => some .directory
  | l => d.entries.lookup l

/-- Removes what stands at a location. -/
def remove (d : Disk) (l : Location) : Disk :=
  { d with entries := d.entries.filter (·.1 ≠ l) }

/-- Puts an entry at a location in place of what is there. -/
def put (d : Disk) (l : Location) (e : DiskEntry) : Disk :=
  { d with entries := (l, e) :: (d.remove l).entries }

theorem get?_put_self (d : Disk) {l : Location} (e : DiskEntry) (h : l ≠ []) :
    (d.put l e).get? l = some e := by
  cases l with
  | nil => exact absurd rfl h
  | cons n l => simp [get?, put]

theorem lookup_filter_ne {l m : Location} (entries : List (Location × DiskEntry)) (h : m ≠ l) :
    (entries.filter (·.1 ≠ l)).lookup m = entries.lookup m := by
  induction entries with
  | nil => rfl
  | cons e rest ih =>
    obtain ⟨k, v⟩ := e
    by_cases hk : k = l
    · subst hk
      have hm : (m == k) = false := by simpa using h
      simpa [List.lookup_cons, hm] using ih
    · by_cases hm : m = k
      · subst hm; simp [hk]
      · have hm' : (m == k) = false := by simpa using hm
        simpa [List.lookup_cons, hk, hm'] using ih

theorem get?_put_of_ne (d : Disk) {l m : Location} (e : DiskEntry) (h : m ≠ l) :
    (d.put l e).get? m = d.get? m := by
  cases m with
  | nil => rfl
  | cons n m =>
    have h' : (n :: m == l) = false := by simpa using h
    simpa [get?, put, remove, List.lookup_cons, h'] using lookup_filter_ne d.entries h

theorem get?_remove_self (d : Disk) {l : Location} (h : l ≠ []) : (d.remove l).get? l = none := by
  cases l with
  | nil => exact absurd rfl h
  | cons n l =>
    simp only [get?, remove, List.lookup_eq_none_iff, List.mem_filter, decide_eq_true_eq]
    exact fun e he => by simpa using fun hc => he.2 hc.symm

theorem get?_remove_of_ne (d : Disk) {l m : Location} (h : m ≠ l) :
    (d.remove l).get? m = d.get? m := by
  cases m with
  | nil => rfl
  | cons n m => simpa [get?, remove] using lookup_filter_ne d.entries h

/-! ## §4. Paths. -/

/-- The number of bytes that a name may have. -/
def maxName : Nat := 255

/-- The number of bytes that a path may have. -/
def maxPath : Nat := 4095

/-- Follows names from a location.  Whatever a name is looked up in has to be a directory, but
what the last name leads to need not be there. -/
def follow (d : Disk) : Location → List String → Except DiskError Location
  | l, [] => .ok l
  | l, name :: rest =>
    match d.get? l with
    | none => .error .notFound
    | some (.file _) => .error .notADirectory
    | some .directory =>
      if name = "" || name = "." then follow d l rest
      else if name = ".." then follow d l.dropLast rest
      else if maxName < name.utf8ByteSize then .error .unusableName
      else follow d (l ++ [name]) rest

/-- The location that a path leads to. -/
def resolve (d : Disk) (path : String) : Except DiskError Location :=
  if path.isEmpty then .error .notFound
  else if path.toList.contains '\x00' || maxPath < path.utf8ByteSize then .error .unusableName
  else d.follow (if DiskPath.isAbsolute path then [] else d.home) (Text.split '/' path)

/-- What a path leads to. -/
def find? (d : Disk) (path : String) : Option DiskEntry :=
  match d.resolve path with
  | .ok l => d.get? l
  | .error _ => none

/-- Whether a path leads to a directory. -/
def isDirectory (d : Disk) (path : String) : Bool := d.find? path = some .directory

/-- The content of a file. -/
def read (d : Disk) (path : String) : Except DiskError Bytes := do
  match d.get? (← d.resolve path) with
  | some (.file content) => .ok content
  | some .directory => .error .isADirectory
  | none => .error .notFound

/-! ## §5. Changes. -/

/-- A new entry at a path where nothing is. -/
def create (d : Disk) (path : String) (e : DiskEntry) : Except DiskError Disk := do
  let l ← d.resolve path
  match d.get? l with
  | some _ => .error .alreadyExists
  | none => .ok (d.put l e)

/-- A new directory. -/
def makeDirectory (d : Disk) (path : String) : Except DiskError Disk := d.create path .directory

/-- New directories for the first of some paths, each of which is the parent of the one before.
What has been made stays even if the rest cannot be made. -/
def makeAll : List String → Disk → Except DiskError Unit × Disk
  | [], d => (.error .notFound, d)
  | path :: above, d =>
    let settled (error : DiskError) (d : Disk) : Except DiskError Unit × Disk :=
      (if d.isDirectory path then .ok () else .error error, d)
    if path.isEmpty then (.ok (), d)
    else
      match d.makeDirectory path with
      | .ok d => (.ok (), d)
      | .error .notFound =>
        match makeAll above d with
        | (.error error, d) => (.error error, d)
        | (.ok (), d) =>
          match d.makeDirectory path with
          | .ok d => (.ok (), d)
          | .error error => settled error d
      | .error error => settled error d

/-- New directories for a path and those above it that are missing. -/
def makeDirectories (d : Disk) (path : String) : Except DiskError Unit × Disk :=
  makeAll (DiskPath.ancestors (path.length + 1) path) d

/-- Gives a file its content; the file is made if it is missing. -/
def fill (d : Disk) (path : String) (content : Bytes) : Except DiskError Disk := do
  let l ← d.resolve path
  match d.get? l with
  | some .directory => .error .isADirectory
  | _ => .ok (d.put l (.file content))

/-- A name that nothing has in a directory. -/
def freshName (d : Disk) (directory : Location) : String :=
  let candidates := (List.range (d.entries.length + 1)).map fun n => ".tmp" ++ toString n
  (candidates.find? fun name => (d.get? (directory ++ [name])).isNone).getD ".tmp"

/-- A new empty file in a directory, by its path. -/
def makeTemporary (d : Disk) (directory : String) : Except DiskError (String × Disk) := do
  let l ← d.resolve directory
  match d.get? l with
  | some .directory =>
    let path := DiskPath.join directory (d.freshName l)
    let d ← d.create path (.file [])
    .ok (path, d)
  | some (.file _) => .error .notADirectory
  | none => .error .notFound

/-- Moves a file to another path, in place of a file that is there. -/
def rename (d : Disk) (source target : String) : Except DiskError Disk := do
  let content ← d.read source
  let l ← d.resolve source
  let m ← d.resolve target
  match d.get? m with
  | some .directory => .error .isADirectory
  | _ => .ok ((d.remove l).put m (.file content))

/-- Removes a file, if it is there. -/
def discard (d : Disk) (path : String) : Disk :=
  match d.resolve path with
  | .ok l => if d.get? l = some .directory then d else d.remove l
  | .error _ => d

/-- The name of the directory or file that a path leads to. -/
def nameOf (d : Disk) (path : String) : Except DiskError String := do
  let l ← d.resolve path
  match d.get? l, l.getLast? with
  | some _, some name => .ok name
  | _, _ => .error .notFound

/-! ## §6. Whole disks. -/

/-- Puts a file or directory below the working directory, with the directories above it. -/
def plant (d : Disk) (path : String) (e : DiskEntry) : Disk :=
  let d := (d.makeDirectories (DiskPath.directory path)).2
  match d.resolve path with
  | .ok l => if d.get? l = some .directory then d else d.put l e
  | .error _ => d

/-- A disk whose working directory has the given name and holds what is given by path. -/
def ofList (home : String) (items : List (String × DiskEntry)) : Disk :=
  items.foldl (fun d (path, e) => d.plant path e) { home := [home], entries := [([home], .directory)] }

/-- What stands below the working directory: files with their content as text, and directories
with a slash after their names. -/
def listing (d : Disk) : List (String × Option String) :=
  d.entries.filterMap fun (l, e) =>
    if d.home.isPrefixOf l && l ≠ d.home then
      let path := "/".intercalate (l.drop d.home.length)
      match e with
      | .file content => some (path, some (Text.shownBytes content))
      | .directory => some (path ++ "/", none)
    else none

end Disk

end FeatureStudio
