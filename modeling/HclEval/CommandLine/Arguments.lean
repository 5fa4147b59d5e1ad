import HclEval.Text.Blank

/-!
What the arguments of the command line ask for. An option is given as `--name value`,
`--name=value`, `-n value`, `-nvalue` or `-n=value`. Options of a command stand after its name; the
work directory may be given anywhere, and the innermost place where it is given counts.
-/
namespace HclEval.CommandLine

inductive Format where
  | json | yaml
  deriving DecidableEq, Repr

structure Input where
  files : List String
  ignoreErrors : Bool
  deriving Repr

inductive Command where
  | parse (input : Input) (vars : List (String × String)) (format : Format)
  | nodes (input : Input)
  | document (input : Input)
  deriving Repr

structure Invocation where
  folders : List String
  command : Command
  deriving Repr

structure OptionForm where
  name : String
  short : Option Char := none
  takesValue : Bool := true

def folderOption : OptionForm := { name := "directory", short := some 'C' }
def fileOption : OptionForm := { name := "file", short := some 'f' }
def lenientOption : OptionForm := { name := "ignore-errors", takesValue := false }
def variableOption : OptionForm := { name := "var" }
def formatOption : OptionForm := { name := "output-format", short := some 'F' }

abbrev Given := List (String × String)

/-- A value that is an argument of its own does not look like an option. -/
def isValue (argument : String) : Bool := argument == "-" || !argument.startsWith "-"

/-- The value of an option and the arguments after it, where `attached` is what the argument itself
holds of the value. -/
def takeValue? (form : OptionForm) (attached : Option String) (rest : List String) :
    Option (String × List String) :=
  match form.takesValue, attached, rest with
  | true, some value, rest => some (value, rest)
  | true, none, value :: rest => if isValue value then some (value, rest) else none
  | false, none, rest => some ("", rest)
  | _, _, _ => none

def option? (forms : List OptionForm) (argument : String) : Option (OptionForm × Option String) :=
  match argument.toList with
  | '-' :: '-' :: long =>
    let name := String.ofList (long.takeWhile (· ≠ '='))
    let attached := match long.dropWhile (· ≠ '=') with
      | _ :: value => some (String.ofList value)
      | [] => none
    (forms.find? (·.name == name)).map (·, attached)
  | '-' :: short :: value =>
    let attached := match value with
      | [] => none
      | '=' :: value => some (String.ofList value)
      | value => some (String.ofList value)
    (forms.find? (·.short == some short)).map (·, attached)
  | _ => none

def optionsWithin (forms : List OptionForm) : (fuel : Nat) → List String →
    Option (Given × List String)
  | 0, _ => none
  | _ + 1, [] => some ([], [])
  | fuel + 1, argument :: rest =>
    if isValue argument then some ([], argument :: rest)
    else do
      let (form, attached) ← option? forms argument
      let (value, rest) ← takeValue? form attached rest
      let (given, rest) ← optionsWithin forms fuel rest
      return ((form.name, value) :: given, rest)

def options? (forms : List OptionForm) (arguments : List String) : Option (Given × List String) :=
  optionsWithin forms (arguments.length + 1) arguments

def Given.all (given : Given) (form : OptionForm) : List String :=
  (given.filter (·.1 == form.name)).map Prod.snd

def Given.atMostOne? (given : Given) (form : OptionForm) : Option (Option String) :=
  match given.all form with
  | [] => some none
  | [value] => some (some value)
  | _ => none

def Given.paths? (given : Given) (form : OptionForm) : Option (List String) :=
  let paths := given.all form
  if paths.contains "" then none else some paths

def Given.input? (given : Given) : Option Input :=
  return ⟨← given.paths? fileOption, (← given.atMostOne? lenientOption).isSome⟩

/-- `key=value`; blanks around the key do not count. -/
def assignment? (argument : String) : Option (String × String) :=
  let chars := argument.toList
  match chars.dropWhile (· ≠ '=') with
  | _ :: value =>
    some (String.ofList (Text.trim (chars.takeWhile (· ≠ '='))), String.ofList value)
  | [] => none

def format? : Option String → Option Format
  | none | some "yaml" => some .yaml
  | some "json" => some .json
  | some _ => none

def innermost (outer inner : List String) : List String := if inner.isEmpty then outer else inner

def Invocation.ofArguments? (arguments : List String) : Option Invocation := do
  let (given, rest) ← options? [folderOption] arguments
  let folders ← given.paths? folderOption
  match rest with
  | "parse" :: rest =>
    let (given, rest) ← options?
      [folderOption, fileOption, lenientOption, variableOption, formatOption] rest
    if !rest.isEmpty then none
    let folders := innermost folders (← given.paths? folderOption)
    let vars ← (given.all variableOption).mapM assignment?
    let format ← format? (← given.atMostOne? formatOption)
    return ⟨folders, .parse (← given.input?) vars format⟩
  | "dev" :: rest =>
    let (given, rest) ← options? [folderOption, fileOption, lenientOption] rest
    let folders := innermost folders (← given.paths? folderOption)
    let input ← given.input?
    match rest with
    | [] => none
    | name :: rest =>
      let (given, rest) ← options? [folderOption] rest
      if !rest.isEmpty then none
      let folders := innermost folders (← given.paths? folderOption)
      match name with
      | "nodes" => return ⟨folders, .nodes input⟩
      | "document" => return ⟨folders, .document input⟩
      | _ => none
  | _ => none

end HclEval.CommandLine
