import NotebookKernel.Interpreter
import NotebookKernel.Redirection.Argument

namespace NotebookKernel

open Json

inductive Stream where
  | stdout
  | stderr
  deriving DecidableEq, Repr

namespace Stream

def name : Stream → String
  | stdout => "stdout"
  | stderr => "stderr"

def label (s : Stream) : String := "<" ++ s.name ++ ">"

/-- Answers the number of code points; nothing is published for an empty text. -/
def write (s : Stream) (text : String) : Execution Nat :=
  let written := .done text.length
  if text = "" then written else .publishStream s.name text written

/-- The lines are published together. -/
def writeLines (s : Stream) (lines : List String) : Execution Unit :=
  (s.write (String.join lines)).map fun _ => ()

/-- What user code can do with a stream. -/
inductive Method where
  | write
  | writeLines
  | flush
  /-- Whether the stream is a terminal, can be written to, or can be read from. -/
  | ability (present : Bool)
  | attribute (text : String)
  deriving DecidableEq, Repr

def method? (s : Stream) (name : String) : Option Method :=
  [("write", .write), ("writelines", .writeLines), ("flush", .flush), ("isatty", .ability false),
    ("writable", .ability true), ("readable", .ability false), ("encoding", .attribute "utf-8"),
    ("name", .attribute s.label)].lookup name

def raise {α : Type} (raised : Raised) : Execution (Except Raised α) := .done (.error raised)

def run (s : Stream) (m : Method) (args : List Argument) : Execution (Except Raised Value) :=
  match m, args with
  | .write, [a] => match a.asText with
    | .error raised => raise raised
    | .ok text => (s.write text).map fun n => .ok (.ofNat n)
  | .writeLines, [.list lines] => match lines.mapM Argument.asText with
    | .error raised => raise raised
    | .ok lines => (s.writeLines lines).map fun () => .ok .null
  | .flush, [] => .done (.ok .null)
  | .ability present, [] => .done (.ok (.bool present))
  | .attribute text, _ => .done (.ok (.string text))
  | _, _ => raise .wrongArguments

def call (s : Stream) (name : String) (args : List Argument) : Execution (Except Raised Value) :=
  match s.method? name with
  | some m => s.run m args
  | none => raise .noSuchAttribute

end Stream

end NotebookKernel
