import NotebookKernel.Config
import NotebookKernel.FileTree

namespace NotebookKernel.Config

def unreadableFile (path : Path) (fault : PathFault) : Failure :=
  .config ("cannot read " ++ path.shown ++ ": " ++ fault.message)

/-- Only configurations for the supported transport are accepted. -/
def ofText (text : List Char) : Except Failure Config := do
  (← readable (Config.parse text)).validate

def ofFile (files : FileTree) (home path : Path) : Except Failure Config := do
  let path := Path.expandHome home path
  ofText (← (files.readText path).mapError (unreadableFile path))

end NotebookKernel.Config
