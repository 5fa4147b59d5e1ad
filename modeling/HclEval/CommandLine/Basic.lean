import HclEval.Builtin.Basic
import HclEval.CommandLine.Arguments
import HclEval.Listing
import HclEval.Session
import HclEval.Yaml

/-!
The commands. What they read is given by the surroundings, and what they answer is text and a
status: 0 for success, 1 for an error, 2 for arguments that ask for nothing there is.
-/
namespace HclEval.CommandLine

structure Surroundings (m : Type → Type) where
  enter : String → m (Except String Unit)
  read : String → m (Except String String)
  readInput : m (Except String String)

structure Outcome where
  status : Nat
  output : String
  errors : String
  deriving DecidableEq, Repr

namespace Outcome

def success (output : String) : Outcome := ⟨0, output, ""⟩

def failure (errors : String) : Outcome := ⟨1, "", errors ++ "\n"⟩

def usage : Outcome := ⟨2, "", "Usage: [-C <DIRECTORY>] <parse|dev> [OPTIONS]\n"⟩

end Outcome

def errorText (error : Error) : String :=
  error.message ++ (match error.cause? with | some cause => "\n" ++ cause | none => "")

def stopText : Stop → String
  | .error error => errorText error
  | .exhausted => "Functions returned expressions that are nested too deep"

def writeDocument (format : Format) (document : Document) : String :=
  match format with
  | .json => Json.writeIndented 0 (.map document)
  | .yaml => Yaml.write (.map document)

def session (now : Nat) (ignoreErrors : Bool) : Session :=
  { functions := Builtin.functions now, options := { ignoreErrors } }

def Command.answer (now : Nat) (source : String) : Command → Outcome
  | .parse input vars format =>
    let vars := vars.map fun (name, value) => (name, Value.string value)
    match (((session now input.ignoreErrors).setVariables vars).parse source).1 with
    | .ok result => .success (writeDocument format result)
    | .error stop => .failure (stopText stop)
  | .nodes input =>
    match (session now input.ignoreErrors).nodes source with
    | .ok result => .success ((Listing.list (Node.listings result)).text ++ "\n")
    | .error error => .failure (errorText error)
  | .document input =>
    match ((session now input.ignoreErrors).parse source).1 with
    | .ok result => .success ((Document.listing result).text ++ "\n")
    | .error stop => .failure (stopText stop)

def Command.input : Command → Input
  | .parse input _ _ | .nodes input | .document input => input

variable {m : Type → Type} [Monad m]

def enterAll (surroundings : Surroundings m) : List String → ExceptT String m Unit
  | [] => pure ()
  | folder :: rest => do
    let entered : Except String Unit ← surroundings.enter folder
    match entered with
    | .ok () => enterAll surroundings rest
    | .error reason =>
      throw ("Failed to resolve path for -C/--directory " ++ folder ++ "\n" ++ reason)

/-- The text of all files, each with a newline after it. -/
def readAll (surroundings : Surroundings m) : List String → ExceptT String m String
  | [] => pure ""
  | file :: rest => do
    let text ← ExceptT.mk (surroundings.read file)
    return text ++ "\n" ++ (← readAll surroundings rest)

def readSource (surroundings : Surroundings m) (files : List String) : ExceptT String m String :=
  if files.isEmpty then ExceptT.mk surroundings.readInput else readAll surroundings files

def run (surroundings : Surroundings m) (now : Nat) (arguments : List String) : m Outcome := do
  match Invocation.ofArguments? arguments with
  | none => return .usage
  | some invocation =>
    let source ← (do
      enterAll surroundings invocation.folders
      readSource surroundings invocation.command.input.files : ExceptT String m String).run
    match source with
    | .ok source => return invocation.command.answer now source
    | .error reason => return .failure reason

end HclEval.CommandLine
