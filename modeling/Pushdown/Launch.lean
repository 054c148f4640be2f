/-
  Pushdown/Launch.lean
  ====================
  **Finding the VM program.**  A VM is started by a command: a program and its
  arguments, to which the debugger appends where to listen.  The program is a
  path to an existing file or a name to be looked up in the search path.  What
  exists is a question to the file system, asked through a predicate.
-/
import Pushdown.Error

namespace Pushdown

/-- What has to be known of the file system: which paths exist, which of them are
    files, and the directories to search. -/
structure Files where
  pathExists : String → Bool
  isFile : String → Bool
  searchPath : List String

/-- A program ready to be started. -/
structure Launch where
  program : String
  args : List String
deriving DecidableEq, Repr

/-- The name below a directory; an absolute name stands for itself. -/
def joinPath (dir name : String) : String :=
  if name.startsWith "/" then name
  else if dir.isEmpty || dir.endsWith "/" then dir ++ name
  else dir ++ "/" ++ name

/-- The first file of this name in the search path, or else the name itself. -/
def Files.locate (fs : Files) (name : String) : String :=
  ((fs.searchPath.map (joinPath · name)).find? fs.isFile).getD name

/-- How to start the VM so that it listens for a debugger at the given number. -/
def Launch.ofCommand (fs : Files) (vmCommand : List String) (listenAt : Nat) :
    Except Error Launch :=
  match vmCommand with
  | [] => .error (.invalidArgument (.described "no PDA VM command given"))
  | name :: args =>
    let program := if fs.pathExists name then name else fs.locate name
    if fs.pathExists program then
      .ok ⟨program, args ++ ["-debug", toString listenAt]⟩
    else
      .error (.invalidArgument
        (.described ("can't launch PDA VM as " ++ program ++ " does not exist")))

end Pushdown
