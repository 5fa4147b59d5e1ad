import HclEval.CommandLine.Basic

/-!
Folders kept in memory: files with the names that lead to them. A folder is there if some file
lies in it, and the outermost one always is.
-/
namespace HclEval.CommandLine

structure Folder where
  files : List (List String × String)
  current : List String := []

namespace Folder

/-- Goes along the names of a path. `.` stays and `..` goes back, but only in a folder. -/
def walk (isFolder : List String → Bool) : List String → List String → Option (List String)
  | here, [] => some here
  | here, name :: rest =>
    if !isFolder here then none
    else if name == "" || name == "." then walk isFolder here rest
    else if name == ".." then
      if here.isEmpty then none else walk isFolder here.dropLast rest
    else walk isFolder (here ++ [name]) rest

def isFolder (folder : Folder) (path : List String) : Bool :=
  path.isEmpty || folder.files.any fun (names, _) => path.isPrefixOf names && path != names

def resolve? (folder : Folder) (path : String) : Option (List String) :=
  if path.startsWith "/" then none
  else walk folder.isFolder folder.current (path.splitOn "/")

def file? (folder : Folder) (path : String) : Option String := do
  let names ← folder.resolve? path
  (folder.files.find? (·.1 == names)).map Prod.snd

def ofFiles (files : List (String × String)) : Folder :=
  { files := files.map fun (path, text) => (path.splitOn "/", text) }

def missing : String := "No such file or directory (os error 2)"

def surroundings (input : String) : Surroundings (StateM Folder) where
  enter path := do
    let folder ← get
    match folder.resolve? path with
    | some names =>
      if folder.isFolder names then
        set { folder with current := names }
        return .ok ()
      else return .error missing
    | none => return .error missing
  read path := do
    let folder ← get
    match folder.file? path with
    | some text => return .ok text
    | none =>
      match folder.resolve? path with
      | some names =>
        return .error (if folder.isFolder names then "Is a directory (os error 21)" else missing)
      | none => return .error missing
  readInput := return .ok input

end Folder
end HclEval.CommandLine
