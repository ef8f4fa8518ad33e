import NotebookKernel.Interpreter
import NotebookKernel.Redirection.Argument

namespace NotebookKernel

/-- A hook that is not enabled refuses to ask. -/
structure Hook where
  enabled : Bool
  password : Bool
  deriving DecidableEq, Repr

namespace Hook

def description (h : Hook) : String :=
  "<kernel " ++ (if h.password then "getpass" else "input")
    ++ (if h.enabled then ">" else " (disabled)>")

/-- The first argument, else the one that is named; without either the prompt is empty. -/
def prompt (args : List Argument) (named : List (String × Argument)) : Except Raised String := do
  match args.head?.or (named.lookup "prompt") with
  | some a => Argument.encodable (← a.shown)
  | none => return ""

/-- A disabled hook does not look at its arguments. -/
def call (h : Hook) (args : List Argument) (named : List (String × Argument)) :
    Execution (Except Raised String) :=
  if h.enabled then
    match prompt args named with
    | .error raised => .done (.error raised)
    | .ok text => .ask text h.password fun answer => .done (answer.mapError .runtime)
  else .done (.error (.runtime .stdinNotAllowed))

end Hook

end NotebookKernel
