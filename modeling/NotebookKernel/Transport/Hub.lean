import NotebookKernel.Endpoint
import NotebookKernel.Transport.Connection
import NotebookKernel.Wire

namespace NotebookKernel

structure Limits where
  lineBytes : Nat := 5242880
  queueLength : Nat := 64
  connections : Nat := 64
  deriving DecidableEq, Repr

structure Service where
  signer : Signer
  limits : Limits

/-- All connections that ever were, in the order of their numbers, and what has come in on them. Nobody is
waited for: a connection whose queue is full is dropped. -/
structure Hub where
  connections : List Connection
  requests : List Request
  events : List StdinEvent

namespace Hub

def empty : Hub := ⟨[], [], []⟩

/-- The connection of that number, if it is registered. -/
def peer? (h : Hub) (id : Nat) : Option Connection :=
  h.connections.find? fun c => c.id == id && c.registered

def modify (h : Hub) (id : Nat) (f : Connection → Connection) : Hub :=
  { h with connections := h.connections.map fun c => if c.id = id then f c else c }

/-- The numbers of the registered connections of a channel. -/
def peers (h : Hub) (channel : Channel) : List Nat :=
  (h.connections.filter fun c => c.registered && c.channel == channel).map Connection.id

/-- The connection that questions go to. -/
def route? (h : Hub) : Option Nat := (h.peers .stdin).max?

/-- Numbers start at 1 and are never used again. -/
def register (h : Hub) (channel : Channel) : Nat × Hub :=
  let id := h.connections.length + 1
  (id, { h with connections := h.connections ++ [.fresh id channel] })

/-- Losing the connection that questions go to is made known. -/
def unregister (h : Hub) (id : Nat) : Hub :=
  let events := if h.route? = some id then h.events ++ [.closed] else h.events
  { h.modify id Connection.unregister with events }

def connectionText (id : Nat) (fate : String) : Failure :=
  .disconnected ("connection " ++ toString id ++ " " ++ fate)

def gone (id : Nat) : Failure := connectionText id "is gone"

def closed (id : Nat) : Failure := connectionText id "closed"

def stoppedReading (id : Nat) : Failure := connectionText id "stopped reading"

def nobodyOnStdin : Failure := .disconnected "no frontend connected on stdin"

def onlyReplies (channel : Channel) : Failure :=
  .protocol (channel.name ++ " messages are replies to a request")

def noHeartbeatMessages : Failure := .protocol "heartbeat carries no messages"

end Hub

namespace Service

/-- Queues a line for one connection. -/
def push (s : Service) (id : Nat) (line : LineText) (h : Hub) : Except Failure Unit × Hub :=
  match h.peer? id with
  | none => (.error (Hub.gone id), h)
  | some c =>
    if c.writerEnded then (.error (Hub.closed id), h.unregister id)
    else if s.limits.queueLength ≤ c.queue.length then
      (.error (Hub.stoppedReading id), h.unregister id)
    else (.ok (), h.modify id (·.enqueue line))

/-- Queues a line for several connections, whatever becomes of it. -/
def pushAll (s : Service) (ids : List Nat) (line : LineText) (h : Hub) : Hub :=
  ids.foldl (fun h id => (s.push id line h).2) h

def broadcast (s : Service) (line : LineText) (h : Hub) : Hub := s.pushAll (h.peers .iopub) line h

/-- Takes a line that came in. Lines that are no messages or are not signed as they should be are
passed over. -/
def deliver (s : Service) (channel : Channel) (origin : Nat) (line : LineText) (h : Hub) : Hub :=
  match Wire.decode s.signer line with
  | .error _ => h
  | .ok message => match channel with
    | .shell | .control => { h with requests := h.requests ++ [⟨channel, origin, message⟩] }
    | .stdin => { h with events := h.events ++ [.reply message] }
    | .iopub | .heartbeat => h

def send (s : Service) (channel : Channel) (m : Message) (h : Hub) : Except Failure Unit × Hub :=
  match channel with
  | .iopub => (.ok (), s.broadcast (Wire.encode s.signer m) h)
  | .stdin => match h.route? with
    | some id => s.push id (Wire.encode s.signer m) h
    | none => (.error Hub.nobodyOnStdin, h)
  | .shell | .control => (.error (Hub.onlyReplies channel), h)
  | .heartbeat => (.error Hub.noHeartbeatMessages, h)

def replyTo (s : Service) (origin : Nat) (m : Message) (h : Hub) : Except Failure Unit × Hub :=
  s.push origin (Wire.encode s.signer m) h

def sink (s : Service) : Sink Hub where
  send := s.send
  reply request := s.replyTo request.origin

end Service

end NotebookKernel
