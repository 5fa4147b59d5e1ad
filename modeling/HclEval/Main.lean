import HclEval.CommandLine.Basic
import Std.Time.DateTime.Timestamp

/-!
The command line. Paths are taken from within the work directory.
-/
namespace HclEval.CommandLine

def ioReason : IO.Error → String
  | .noFileOrDirectory .. => "No such file or directory (os error 2)"
  | error => toString error

def attempt {α : Type} (action : IO α) : IO (Except String α) := do
  try
    return .ok (← action)
  catch error =>
    return .error (ioReason error)

def within (folder path : String) : String :=
  if folder.isEmpty || path.startsWith "/" then path else folder ++ "/" ++ path

def machine : Surroundings (StateT String IO) where
  enter path := do
    let folder ← get
    match ← attempt (do
      let real ← IO.FS.realPath (within folder path)
      discard real.readDir
      return real.toString) with
    | .ok real =>
      set real
      return .ok ()
    | .error reason => return .error reason
  read path := do
    let folder ← get
    attempt (IO.FS.readFile (within folder path))
  readInput := attempt (do
    let input ← IO.getStdin
    input.readToEnd)

end HclEval.CommandLine

def main (arguments : List String) : IO UInt32 := do
  let now ← Std.Time.Timestamp.now
  let (outcome, _) ← (HclEval.CommandLine.run HclEval.CommandLine.machine
    now.toSecondsSinceUnixEpoch.val.toNat arguments).run ""
  let output ← IO.getStdout
  output.putStr outcome.output
  output.flush
  let errors ← IO.getStderr
  errors.putStr outcome.errors
  return outcome.status.toUInt32
