import NotebookKernel.History
import NotebookKernel.Outlet

namespace NotebookKernel

open Json

def implementation : String := "py-kernel"

def implementationVersion : String := "0.1.0"

/-- A kernel speaks through its outlet, runs cells with its interpreter, and may have a debugger. -/
structure Kernel (S D σ : Type) where
  outlet : Outlet σ
  interpreter : Interpreter S
  debugger : Option (Debugger D)

structure Kernel.State (S D σ : Type) where
  link : Link σ
  interpreter : S
  debugger : D
  executionCount : Nat
  history : History

/-- What a request that is answered can ask for. -/
inductive Demand where
  | kernelInfo
  | execute
  | isComplete
  | history
  | debug
  | shutdown
  deriving DecidableEq, Repr

namespace Demand

def all : List Demand := [kernelInfo, execute, isComplete, history, debug, shutdown]

def msgType : Demand → String
  | kernelInfo => "kernel_info_request"
  | execute => "execute_request"
  | isComplete => "is_complete_request"
  | history => "history_request"
  | debug => "debug_request"
  | shutdown => "shutdown_request"

/-- What a message demands; messages of other types are not answered. -/
def ofMessage? (m : Message) : Option Demand := all.find? (·.msgType == m.msgType)

end Demand

/-- What follows after a request. -/
inductive Flow where
  | proceed
  | shutdown
  deriving DecidableEq, Repr

def Flow.after : Option Demand → Flow
  | some .shutdown => shutdown
  | _ => proceed

namespace Kernel

variable {S D σ : Type}

/-- The interpreter may replace and add fields. -/
def info (k : Kernel S D σ) (s : State S D σ) : Value :=
  let fields := [("status", .string "ok"), ("protocol_version", .string protocolVersion),
    ("implementation", .string implementation),
    ("implementation_version", .string implementationVersion), ("help_links", .array []),
    ("debugger", .bool k.debugger.isSome)]
  .ofFields (fields ++ ((k.interpreter.info s.interpreter).asFields?.getD []))

def publish (k : Kernel S D σ) (parent : Header) (msgType : String) (content : Value)
    (s : State S D σ) : State S D σ :=
  { s with link := k.outlet.publish parent msgType content s.link }

/-- The count goes up with every cell that is stored. -/
def count (e : ExecuteRequest) (s : State S D σ) : State S D σ :=
  if e.storeHistory then
    { s with
      executionCount := s.executionCount + 1
      history := s.history.store (s.executionCount + 1 : Nat) e.code }
  else s

/-- The content of the reply to a cell that was run. -/
def outcomeContent (count : Nat) : Outcome → Value
  | .ok => .ofFields [("status", .string "ok"), ("execution_count", .ofNat count),
      ("payload", .array []), ("user_expressions", .emptyObject)]
  | .error ename evalue traceback => .ofFields (Outcome.errorFields ename evalue traceback ++
      [("status", .string "error"), ("execution_count", .ofNat count)])

/-- Runs a cell; an error is published before it is answered. -/
def execute (k : Kernel S D σ) (m : Message) (s : State S D σ) : Value × State S D σ :=
  let e := ExecuteRequest.ofMessage m
  let s := count e s
  let s := if e.silent then s
    else k.publish m.header "execute_input"
      (.ofFields [("code", .string e.code), ("execution_count", .ofNat s.executionCount)]) s
  let run := k.interpreter.execute e s.executionCount s.interpreter
  let ((outcome, interpreter), link) := k.outlet.perform m.header e.allowStdin run s.link
  let s := { s with link, interpreter }
  let s := match outcome with
    | .ok => s
    | .error ename evalue traceback =>
      k.publish m.header "error" (.ofFields (Outcome.errorFields ename evalue traceback)) s
  (outcomeContent s.executionCount outcome, s)

def historyContent (h : History) (content : Value) : Value :=
  .ofFields [("status", .string "ok"), ("history", .array ((h.shown content).map Entry.toValue))]

def debuggerMissing : Value :=
  .ofFields [("type", .string "response"), ("success", .bool false),
    ("message", .string "debugger not available")]

/-- The content of the reply to a demand. -/
def respond (k : Kernel S D σ) (m : Message) (s : State S D σ) : Demand → Value × State S D σ
  | .kernelInfo => (k.info s, s)
  | .execute => k.execute m s
  | .isComplete =>
    let (status, interpreter) := k.interpreter.isComplete (m.contentText "code") s.interpreter
    (.ofFields [("status", .string status.name)], { s with interpreter })
  | .history => (historyContent s.history m.content, s)
  | .debug => match k.debugger with
    | some d =>
      let (content, debugger) := d.respond m.content s.debugger
      (content, { s with debugger })
    | none => (debuggerMissing, s)
  | .shutdown =>
    (.ofFields [("status", .string "ok"), ("restart", .bool (m.contentBool "restart" false))], s)

/-- Answers a request, if it is one that is answered. -/
def answer (k : Kernel S D σ) (request : Request) (s : State S D σ) :
    Except Failure Unit × State S D σ :=
  match Demand.ofMessage? request.message with
  | none => (.ok (), s)
  | some demand =>
    let (content, s) := k.respond request.message s demand
    let (sent, link) := k.outlet.reply request content s.link
    (sent, { s with link })

def publishState (k : Kernel S D σ) (m : Message) (name : String) (s : State S D σ) :
    State S D σ :=
  k.publish m.header "status" (.ofFields [("execution_state", .string name)]) s

/-- A reply that cannot be delivered ends the dealings with the request at once. -/
def dispatch (k : Kernel S D σ) (request : Request) (s : State S D σ) :
    Except Failure Flow × State S D σ :=
  let m := request.message
  match k.answer request (k.publishState m "busy" s) with
  | (.error failure, s) => (.error failure, s)
  | (.ok (), s) => (.ok (.after (Demand.ofMessage? m)), k.publishState m "idle" s)

/-- Takes requests until one shuts the kernel down or there are no more, and passes over those that
fail. What is left is not looked at. -/
def serve (k : Kernel S D σ) : List Request → State S D σ → List Request × State S D σ
  | [], s => ([], s)
  | request :: rest, s =>
    match k.dispatch request s with
    | (.ok .shutdown, s) => (rest, s)
    | (_, s) => k.serve rest s

/-- The state in which a kernel starts to serve, unless its interpreter cannot be made ready. -/
def configure (k : Kernel S D σ) (s : State S D σ) : Except String (State S D σ) := do
  return { s with interpreter := ← k.interpreter.configure s.interpreter }

/-- The exit status, and the state in which the kernel stops. -/
def start (k : Kernel S D σ) (requests : List Request) (s : State S D σ) : Nat × State S D σ :=
  match k.configure s with
  | .error _ => (1, s)
  | .ok s => (0, (k.serve requests s).2)

end Kernel

end NotebookKernel
