import NotebookKernel.Path
import NotebookKernel.Text.Utf8

namespace NotebookKernel

/-- Why a path leads to nothing that can be read. -/
inductive PathFault where
  | notFound
  | notDirectory
  | denied
  | isDirectory
  | tooManyLinks
  | nameTooLong
  | nulInName
  | notUtf8
  deriving DecidableEq, Repr

def PathFault.message : PathFault → String
  | notFound => "No such file or directory (os error 2)"
  | notDirectory => "Not a directory (os error 20)"
  | denied => "Permission denied (os error 13)"
  | isDirectory => "Is a directory (os error 21)"
  | tooManyLinks => "Too many levels of symbolic links (os error 40)"
  | nameTooLong => "File name too long (os error 36)"
  | nulInName => "file name contained an unexpected NUL byte"
  | notUtf8 => "stream did not contain valid UTF-8"

inductive Node where
  | file (bytes : List UInt8) (mode : Nat)
  /-- A name can be looked up in a directory if it may be searched. -/
  | directory (searchable : Bool)
  | link (target : Path)
  deriving DecidableEq

/-- Places are lists of names from the root. -/
abbrev Place := List Path

/-- A place that is listed twice holds what was listed last, at the front. The root is a directory that may
be searched unless something else is listed. -/
structure FileTree where
  nodes : List (Place × Node)
  /-- Where relative paths start. -/
  workplace : Place

namespace FileTree

/-- No more than this many links are followed on the way along one path. -/
def linkLimit : Nat := 40

/-- The length in bytes that a name may have at most. -/
def nameLimit : Nat := 255

/-- The length in bytes from which on a path is too long. -/
def pathLimit : Nat := 4096

def node? (t : FileTree) (place : Place) : Option Node :=
  (t.nodes.lookup place).or (if place.isEmpty then some (.directory true) else none)

/-- Goes on from a place. Every name must be looked up in a directory. -/
def walk (t : FileTree) (links : Nat) (names : List Path) (place : Place) :
    Except PathFault (Place × Node) :=
  match names with
  | [] => match t.node? place with
    | some node => .ok (place, node)
    | none => .error .notFound
  | name :: names =>
    match t.node? place with
    | some (.directory searchable) =>
      if name.isEmpty then walk t links names place
      else if !searchable then .error .denied
      else if name = Path.here then walk t links names place
      else if name = Path.parent then walk t links names place.dropLast
      else if nameLimit < name.length then .error .nameTooLong
      else match t.node? (place ++ [name]) with
        | none => .error .notFound
        | some (.link target) => match links with
          | 0 => .error .tooManyLinks
          | links + 1 =>
            walk t links (Path.steps target ++ names) (if Path.isAbsolute target then [] else place)
        | some _ => walk t links names (place ++ [name])
    | _ => .error .notDirectory
termination_by (links, names.length)

def locate (t : FileTree) (path : Path) : Except PathFault (Place × Node) :=
  if path.contains 0 then .error .nulInName
  else if path.isEmpty then .error .notFound
  else if pathLimit ≤ path.length then .error .nameTooLong
  else t.walk linkLimit (Path.steps path) (if Path.isAbsolute path then [] else t.workplace)

def readText (t : FileTree) (path : Path) : Except PathFault (List Char) := do
  match (← t.locate path).2 with
  | .file bytes _ => match Utf8.decode? bytes with
    | some cs => return cs
    | none => throw .notUtf8
  | _ => throw .isDirectory

/-- A regular file that anybody may execute; links are followed. -/
def isExecutable (t : FileTree) (path : Path) : Bool :=
  match t.locate path with
  | .ok (_, .file _ mode) => mode &&& 0o111 != 0
  | _ => false

/-- Makes the directories on the way where they are missing. -/
def makeDirectories (t : FileTree) (place : Place) : List Path → FileTree × Place
  | [] => (t, place)
  | name :: names =>
    match t.walk linkLimit [name] place with
    | .ok (place, _) => makeDirectories t place names
    | .error _ =>
      makeDirectories { t with nodes := (place ++ [name], .directory true) :: t.nodes }
        (place ++ [name]) names

/-- Puts a node at the path, below the directory at `base`. -/
def add (t : FileTree) (base : Place) (path : Path) (node : Node) : FileTree :=
  let names := Path.steps path
  match names.getLast? with
  | none => t
  | some name =>
    let (t, place) := t.makeDirectories base names.dropLast
    { t with nodes := (place ++ [name], node) :: t.nodes }

end FileTree

end NotebookKernel
