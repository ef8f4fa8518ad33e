import NotebookKernel.Inbox
import NotebookKernel.Interpreter

namespace NotebookKernel

open Json

structure Identity where
  username : String
  session : String

structure Stamp where
  id : String
  date : String

/-- The way out of a kernel; `stamp` gives the number and the date of every message. -/
structure Outlet (σ : Type) where
  identity : Identity
  stamp : Nat → Stamp
  sink : Sink σ

/-- The state of a kernel's dealings with its frontends. -/
structure Link (σ : Type) where
  transport : σ
  inbox : Inbox
  /-- How many messages were made. -/
  stamped : Nat

namespace Outlet

variable {σ α : Type}

def header (o : Outlet σ) (msgType : String) (n : Nat) : Header :=
  ⟨(o.stamp n).id, o.identity.session, o.identity.username, (o.stamp n).date, msgType,
    protocolVersion⟩

def message (o : Outlet σ) (parent : Header) (msgType : String) (content : Value) (n : Nat) :
    Message :=
  .inReplyTo parent (o.header msgType n) content

def send (o : Outlet σ) (channel : Channel) (parent : Header) (msgType : String) (content : Value)
    (l : Link σ) : Except Failure Unit × Link σ :=
  let (sent, transport) :=
    o.sink.send channel (o.message parent msgType content l.stamped) l.transport
  (sent, { l with transport, stamped := l.stamped + 1 })

/-- What cannot be published is lost. -/
def publish (o : Outlet σ) (parent : Header) (msgType : String) (content : Value) (l : Link σ) :
    Link σ :=
  (o.send .iopub parent msgType content l).2

def reply (o : Outlet σ) (request : Request) (content : Value) (l : Link σ) :
    Except Failure Unit × Link σ :=
  let reply := o.message request.message.header (replyType request.message.msgType) content
    l.stamped
  let (sent, transport) := o.sink.reply request reply l.transport
  (sent, { l with transport, stamped := l.stamped + 1 })

/-- What has arrived before is discarded; without a question there is no answer. -/
def ask (o : Outlet σ) (parent : Header) (prompt : String) (password : Bool) (l : Link σ) :
    Except Failure String × Link σ :=
  let question : Value := .ofFields [("prompt", .string prompt), ("password", .bool password)]
  let (sent, l) :=
    o.send .stdin parent "input_request" question { l with inbox := l.inbox.discard }
  match sent with
  | .error failure => (.error failure, l)
  | .ok () =>
    let (answer, inbox) := l.inbox.await
    (answer, { l with inbox })

/-- Carries out a run on behalf of a request. Where asking is not allowed, no question goes out. -/
def perform (o : Outlet σ) (parent : Header) (mayAsk : Bool) :
    Execution α → Link σ → α × Link σ
  | .done result, l => (result, l)
  | .publish msgType content next, l =>
    o.perform parent mayAsk next (o.publish parent msgType content l)
  | .ask prompt password next, l =>
    if mayAsk then
      let (answer, l) := o.ask parent prompt password l
      o.perform parent mayAsk (next answer) l
    else o.perform parent mayAsk (next (.error .stdinNotAllowed)) l

end Outlet

end NotebookKernel
