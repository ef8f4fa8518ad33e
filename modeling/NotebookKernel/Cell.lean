import NotebookKernel.Message

namespace NotebookKernel

open Json

structure ExecuteRequest where
  code : String
  silent : Bool
  storeHistory : Bool
  allowStdin : Bool
  deriving DecidableEq, Repr

/-- A silent request is never stored. -/
def ExecuteRequest.ofMessage (m : Message) : ExecuteRequest :=
  let silent := m.contentBool "silent" false
  { code := m.contentText "code"
    silent
    storeHistory := !silent && m.contentBool "store_history" true
    allowStdin := m.contentBool "allow_stdin" true }

inductive Outcome where
  | ok
  | error (ename evalue : String) (traceback : List String)
  deriving DecidableEq, Repr

/-- The content by which a failed run is made known. -/
def Outcome.errorFields (ename evalue : String) (traceback : List String) :
    List (String × Value) :=
  [("ename", .string ename), ("evalue", .string evalue),
    ("traceback", .array (traceback.map .string))]

/-- Whether a code could be run as it stands. -/
inductive Completeness where
  | complete
  | incomplete
  | invalid
  | unknown
  deriving DecidableEq, Repr

def Completeness.name : Completeness → String
  | complete => "complete"
  | incomplete => "incomplete"
  | invalid => "invalid"
  | unknown => "unknown"

end NotebookKernel
