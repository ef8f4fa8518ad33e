import NotebookKernel.Cell
import NotebookKernel.Failure

namespace NotebookKernel

open Json

/-- A run that comes to an `α`. -/
inductive Execution (α : Type) where
  | done (result : α)
  | publish (msgType : String) (content : Value) (next : Execution α)
  | ask (prompt : String) (password : Bool) (next : Except Failure String → Execution α)

def Execution.map {α β : Type} (f : α → β) : Execution α → Execution β
  | done a => done (f a)
  | publish msgType content next => publish msgType content (next.map f)
  | ask prompt password next => ask prompt password fun answer => (next answer).map f

def streamContent (name text : String) : Value :=
  .ofFields [("name", .string name), ("text", .string text)]

namespace Execution

def publishStream {α : Type} (name text : String) (next : Execution α) : Execution α :=
  publish "stream" (streamContent name text) next

def publishResult {α : Type} (count : Nat) (data : Value) (next : Execution α) : Execution α :=
  publish "execute_result" (.ofFields
    [("execution_count", .ofNat count), ("data", data), ("metadata", .emptyObject)]) next

end Execution

/-- An interpreter with states of type `S`. A cell is told how many were counted before it, itself
included. -/
structure Interpreter (S : Type) where
  configure : S → Except String S
  execute : ExecuteRequest → (count : Nat) → S → Execution (Outcome × S)
  isComplete : String → S → Completeness × S
  info : S → Value

structure Debugger (D : Type) where
  respond : Value → D → Value × D

/-- Answers every request with its number and its content. -/
def Debugger.echo : Debugger Nat where
  respond content n :=
    (.ofFields [("type", .string "response"), ("success", .bool true), ("seq", .ofNat (n + 1)),
      ("request", content)], n + 1)

end NotebookKernel
