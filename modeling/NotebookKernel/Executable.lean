import NotebookKernel.FileTree

namespace NotebookKernel.Executable

inductive Fault where
  | notExecutable (path : Path)
  | notFound
  deriving DecidableEq, Repr

def Fault.message : Fault → String
  | notExecutable path => path.shown ++ ": not an executable file"
  | notFound => "python: command not found"

/-- The names to look for; the first is looked for in every directory before the second. -/
def candidates : List Path := ["python3", "python"].map Path.ofText

/-- Where to look when there is no search path. -/
def usualSearchPath : Path := .ofText "/usr/local/bin:/usr/bin:/bin"

/-- The directories of a search path stand between colons; empty entries name none. -/
def searchDirectories (searchPath : Path) : List Path :=
  (searchPath.splitOn 0x3A).filter (!·.isEmpty)

def searchOrder (searchPath : Path) : List Path :=
  candidates.flatMap fun name => (searchDirectories searchPath).map (Path.join · name)

/-- An override decides alone; else the preferred path is taken if it can be executed, else the first
executable on the search path. -/
def resolve (files : FileTree) (override preferred searchPath : Option Path) :
    Except Fault Path :=
  match override with
  | some path => if files.isExecutable path then .ok path else .error (.notExecutable path)
  | none =>
    match preferred.filter files.isExecutable with
    | some path => .ok path
    | none => match (searchOrder (searchPath.getD usualSearchPath)).find? files.isExecutable with
      | some path => .ok path
      | none => .error .notFound

end NotebookKernel.Executable
