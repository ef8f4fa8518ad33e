import NotebookKernel.Kernel.Basic
import NotebookKernel.Transport.Memory

namespace NotebookKernel

open Json

/-- What the frontend does at one time: events are sent ahead, and the n-th question is answered by
the n-th list of events. -/
structure Turn where
  channel : Channel
  message : Option (Except Fault Message)
  ahead : List StdinEvent
  answers : List (List StdinEvent)

/-- A kernel that serves, or the status with which it stopped. -/
inductive Session (S D : Type) where
  | serving (state : Kernel.State S D Memory)
  | stopped (status : Nat)

namespace Session

variable {S D : Type}

def kernelStopped : Failure := .disconnected "kernel stopped"

/-- The events up to the first that is an answer; if none is, the frontend closes its side. -/
def untilAnswer : List StdinEvent → List StdinEvent
  | [] => [.closed]
  | e :: rest => if (Inbox.answer? e).isSome then [e] else e :: untilAnswer rest

def start (k : Kernel S D Memory) (s : Kernel.State S D Memory) : Session S D :=
  match k.configure s with
  | .ok s => serving s
  | .error _ => stopped 1

/-- The status with which the kernel stops when the frontend leaves. -/
def status : Session S D → Nat
  | serving _ => 0
  | stopped status => status

/-- After the kernel has stopped, closing goes unnoticed. -/
def sendAhead (events : List StdinEvent) : Session S D → Except Failure (Session S D)
  | serving s => .ok (serving { s with link.inbox := s.link.inbox.arrive events })
  | stopped status =>
    if events.any (· matches .reply _) then .error kernelStopped else .ok (stopped status)

/-- What the kernel sends while it deals with a request. -/
def request (k : Kernel S D Memory) (r : Request) (answers : List (List StdinEvent)) :
    Session S D → Except Failure (List Delivery × Session S D)
  | stopped _ => .error kernelStopped
  | serving s =>
    let inbox := { s.link.inbox with arrivals := answers.map untilAnswer }
    let (flow, s) := k.dispatch r { s with link := ⟨.initial, inbox, s.link.stamped⟩ }
    let next := match flow with
      | .ok .shutdown => stopped 0
      | _ => serving s
    .ok (s.link.transport.sent, next)

def turn (k : Kernel S D Memory) (t : Turn) (s : Session S D) :
    Except Failure (List Delivery) × Session S D :=
  match s.sendAhead t.ahead with
  | .error failure => (.error failure, s)
  | .ok s => match t.message with
    | none => (.ok [], s)
    | some message => match readable message with
      | .error failure => (.error failure, s)
      | .ok message => match s.request k ⟨t.channel, 0, message⟩ t.answers with
        | .error failure => (.error failure, s)
        | .ok (sent, s) => (.ok sent, s)

end Session

end NotebookKernel
