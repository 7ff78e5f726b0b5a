/-
  FeatureStudio.CommandLine.Arguments: commands read from arguments.

  An option is given once, by its long name or its letter.  Its value is the next argument, or
  stands behind the name after `=` or behind the letter.  After `--` no argument is an option.
-/
import FeatureStudio.Text.Basic

namespace FeatureStudio

/-! ## §1. Options. -/

/-- An option of a command. -/
structure OptionSpec where
  name : String
  letter : Option Char := none
  /-- Whether the option has a value. -/
  valued : Bool := false
  deriving DecidableEq, Repr

/-- Options with their values, and the other arguments. -/
structure Arguments where
  options : List (String × String) := []
  others : List String := []
  deriving DecidableEq, Repr

namespace Arguments

/-- Adds an option in front. -/
def addOption (name value : String) (a : Arguments) : Arguments :=
  { a with options := (name, value) :: a.options }

/-- Adds another argument in front. -/
def addOther (argument : String) (a : Arguments) : Arguments :=
  { a with others := argument :: a.others }

/-- The value of an option. -/
def value? (a : Arguments) (name : String) : Option String := a.options.lookup name

/-- Whether an option is given. -/
def has (a : Arguments) (name : String) : Bool := (a.value? name).isSome

end Arguments

/-- What an argument is. -/
inductive ArgumentKind where
  | other
  /-- From here on no argument is an option. -/
  | endOfOptions
  /-- An option, with its value if that stands in the same argument. -/
  | option (spec : OptionSpec) (value : Option String)
  | unknown
  deriving DecidableEq, Repr

/-- An argument that begins like an option. -/
def looksLikeOption (argument : String) : Bool :=
  match argument.toList with
  | '-' :: _ :: _ => true
  | _ => false

/-- What an argument is, for a command with the given options. -/
def ArgumentKind.of (specs : List OptionSpec) (argument : String) : ArgumentKind :=
  match argument.toList with
  | ['-', '-'] => .endOfOptions
  | '-' :: '-' :: rest =>
    let (name, value) :=
      match Text.splitOnce '=' (String.ofList rest) with
      | some (name, value) => (name, some value)
      | none => (String.ofList rest, none)
    match specs.find? (·.name = name) with
    | some spec => .option spec value
    | none => .unknown
  | '-' :: letter :: rest =>
    match specs.find? (·.letter = some letter), rest with
    | some spec, [] => .option spec none
    | some spec, '=' :: value => .option spec (some (String.ofList value))
    | some spec, value => .option spec (some (String.ofList value))
    | none, _ => .unknown
  | _ => .other

/-- Tells options from other arguments.  The second argument is an option that waits for its
value. -/
def scan (specs : List OptionSpec) : Option String → List String → Option Arguments
  | some _, [] => none
  | none, [] => some {}
  | some name, value :: rest =>
    if looksLikeOption value then none else (scan specs none rest).map (·.addOption name value)
  | none, argument :: rest =>
    match ArgumentKind.of specs argument with
    | .other => (scan specs none rest).map (·.addOther argument)
    | .endOfOptions => some { others := rest }
    | .unknown => none
    | .option spec value =>
      match spec.valued, value with
      | true, some value => (scan specs none rest).map (·.addOption spec.name value)
      | true, none => scan specs (some spec.name) rest
      | false, none => (scan specs none rest).map (·.addOption spec.name "")
      | false, some _ => none

/-- The arguments of a command, if no option is given twice. -/
def arguments? (specs : List OptionSpec) (arguments : List String) : Option Arguments :=
  match scan specs none arguments with
  | some a => if (a.options.map Prod.fst).Nodup then some a else none
  | none => none

/-! ## §2. Commands. -/

/-- What the program is asked to do. -/
inductive Command where
  | version
  /-- Makes a manifest for a new feature. -/
  | start (directory : String) (name : Option String)
  | generate (config : String) (output : Option String) (dryRun : Bool)
  | check (config : String) (json denyWarnings : Bool)
  deriving DecidableEq, Repr

namespace Command

/-- The path of the manifest unless another is given. -/
def defaultConfig : String := "fsgen.toml"

/-- The option for the path of the manifest. -/
def configOption : OptionSpec := { name := "config", letter := some 'c', valued := true }

/-- A path, which is not empty. -/
def path? (s : String) : Option String := if s.isEmpty then none else some s

/-- The path that an option gives, if it is given. -/
def pathOf? (a : Arguments) (name : String) : Option (Option String) :=
  match a.value? name with
  | none => some none
  | some s => (path? s).map some

def start? (arguments : List String) : Option Command := do
  let a ← arguments? [{ name := "name", letter := some 'n', valued := true }] arguments
  match a.others with
  | [] => return .start "." (a.value? "name")
  | [directory] => return .start (← path? directory) (a.value? "name")
  | _ => none

def generate? (arguments : List String) : Option Command := do
  let a ← arguments?
    [configOption, { name := "output", letter := some 'o', valued := true },
     { name := "dry-run" }] arguments
  if a.others.isEmpty then
    return .generate ((← pathOf? a "config").getD defaultConfig) (← pathOf? a "output")
      (a.has "dry-run")
  else none

def check? (arguments : List String) : Option Command := do
  let a ← arguments? [configOption, { name := "json" }, { name := "deny-warnings" }] arguments
  if a.others.isEmpty then
    return .check ((← pathOf? a "config").getD defaultConfig) (a.has "json")
      (a.has "deny-warnings")
  else none

/-- The command that the arguments state. -/
def ofArguments : List String → Option Command
  | [] => none
  | first :: rest =>
    if first = "--version" || "-V".toList.isPrefixOf first.toList then some .version
    else if first = "init" then start? rest
    else if first = "generate" then generate? rest
    else if first = "check" then check? rest
    else none

end Command

end FeatureStudio
