import NotebookKernel.Executable

namespace NotebookKernel

/-- Texts are of any code points where they carry any bytes. -/
structure Reported where
  executable : List Nat
  arguments : List (List Nat)
  modulePath : List String
  deriving DecidableEq

namespace Reported

/-- Reports the executable that is found; if there is none, nothing changes. -/
def locate (r : Reported) (files : FileTree) (override preferred searchPath : Option Path) :
    Except Executable.Fault Path × Reported :=
  match Executable.resolve files override preferred searchPath with
  | .ok path => (.ok path, { r with executable := Utf8.decodeEscaping path })
  | .error fault => (.error fault, r)

def setArguments (r : Reported) (arguments : List (List UInt8)) : Reported :=
  { r with arguments := arguments.map Utf8.decodeEscaping }

end Reported

end NotebookKernel
