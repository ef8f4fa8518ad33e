import NotebookKernel.Interpreter
import NotebookKernel.Text.Quoted

namespace NotebookKernel

open Json

namespace Script

inductive Action where
  | stream (name text : String)
  | result (data : Value)
  | publish (msgType : String) (content : Value)
  /-- Shows the request. -/
  | request
  | fail (ename evalue : String) (traceback : List String)
  /-- Asks for input and shows the answer. -/
  | input (prompt : String) (password : Bool)

end Script

/-- Codes without actions are answered by themselves. -/
structure Script where
  cells : List (String × List Script.Action)
  completeness : List (String × Completeness)
  info : Value
  /-- Why the interpreter cannot be made ready. -/
  obstacle : Option String

namespace Script

def boolText (b : Bool) : String := if b then "true" else "false"

def describe (e : ExecuteRequest) : String :=
  "ExecuteRequest \x7b code: " ++ String.ofList (Quoted.braced e.code.toList)
    ++ ", silent: " ++ boolText e.silent ++ ", store_history: " ++ boolText e.storeHistory
    ++ ", allow_stdin: " ++ boolText e.allowStdin ++ " \x7d"

/-- A failure and an unanswered question end the run. -/
def perform (e : ExecuteRequest) (count : Nat) : List Action → Execution Outcome
  | [] => .done .ok
  | .stream name text :: rest => .publishStream name text (perform e count rest)
  | .result data :: rest => .publishResult count data (perform e count rest)
  | .publish msgType content :: rest => .publish msgType content (perform e count rest)
  | .request :: rest => .publishStream "request" (describe e) (perform e count rest)
  | .fail ename evalue traceback :: _ => .done (.error ename evalue traceback)
  | .input prompt password :: rest => .ask prompt password fun
    | .ok answer => .publishStream "stdout" answer (perform e count rest)
    | .error failure => .done (.error failure.kind failure.message [])

def execute (s : Script) (e : ExecuteRequest) (count : Nat) : Execution Outcome :=
  match s.cells.lookup e.code with
  | some actions => perform e count actions
  | none => .publishResult count (.ofFields [("text/plain", .string e.code)]) (.done .ok)

def interpreter (s : Script) : Interpreter Unit where
  configure _ := match s.obstacle with
    | some reason => .error reason
    | none => .ok ()
  execute e count _ := (s.execute e count).map (·, ())
  isComplete code _ := ((s.completeness.lookup code).getD .unknown, ())
  info _ := s.info

end Script

end NotebookKernel
