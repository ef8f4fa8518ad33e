import NotebookKernel.Inbox
import NotebookKernel.Transport.Run

namespace NotebookKernel

namespace Connection

def stopReading (c : Connection) : Connection := { c with phase := .left }

/-- The task of a connection that is not read from any more tells its writer to end. -/
def cancel (c : Connection) : Connection := if c.phase = .left then { c with cancelled := true } else c

end Connection

namespace Hub

/-- A new connection has its number before it is entered into the table. -/
def allocate (h : Hub) (channel : Channel) : Nat × Hub :=
  let id := h.connections.length + 1
  (id, { h with connections := h.connections ++ [{ Connection.fresh id channel with registered := false }] })

def enter (h : Hub) (id : Nat) : Hub := h.modify id fun c => { c with registered := true }

/-- Takes a connection out of the table, and tells whether questions went to it. -/
def remove (h : Hub) (id : Nat) : Bool × Hub := (h.route? = some id, h.modify id Connection.unregister)

def announce (h : Hub) : Hub := { h with events := h.events ++ [.closed] }

end Hub

/-- A line that was to be queued for a connection: whether it was, whether the connection is to be taken out
of the table over it, and the connections. -/
structure Attempt where
  outcome : Except Failure Unit
  givesUp : Bool
  hub : Hub

def Service.attempt (s : Service) (id : Nat) (line : LineText) (h : Hub) : Attempt :=
  match h.peer? id with
  | none => ⟨.error (Hub.gone id), false, h⟩
  | some c =>
    if c.writerEnded then ⟨.error (Hub.closed id), true, h⟩
    else if s.limits.queueLength ≤ c.queue.length then ⟨.error (Hub.stoppedReading id), true, h⟩
    else ⟨.ok (), false, h.modify id (·.enqueue line)⟩

/-- How far the one who asks for input has come. -/
inductive Asker where
  | idle
  /-- Takes what has come in before. -/
  | discarding (question : Message)
  | routing (question : Message)
  /-- Found the connection that questions go to. -/
  | queueing (question : Message) (id : Nat)
  /-- The question is queued for a connection, and nothing that was received has answered it. -/
  | waiting (question : Message) (id : Nat)
  | returned (answer : Except Failure String)

/-- A transport whose tasks share the table of connections. None of them keeps it to itself for more than one
move, so that what a task does in several moves is met half done by the others. Whoever asks keeps the sink,
which is therefore never dropped meanwhile. -/
structure Tasks where
  hub : Hub
  /-- Who has a number and is not in the table yet. -/
  joining : List Nat
  /-- Who is to be taken out of the table, once for each task that has found it lost. -/
  leaving : List Nat
  /-- Who was taken out when questions went there, which is still to be made known. -/
  owed : List Nat
  /-- How many events the one who asks has taken. -/
  received : Nat
  asker : Asker

namespace Tasks

def initial : Tasks := ⟨.empty, [], [], [], 0, .idle⟩

inductive Move where
  | allocate (channel : Channel)
  | enter (id : Nat)
  /-- A connection's task reads a line. -/
  | hear (id : Nat) (text : LineText)
  /-- A connection's task stops reading. -/
  | stop (id : Nat)
  | remove (id : Nat)
  | announce (id : Nat)
  | cancel (id : Nat)
  | finish (id : Nat)
  | takeLine (id : Nat)
  | put (id : Nat) (n : Nat)
  | endWriter (id : Nat)
  | failWriter (id : Nat)
  /-- A reply or a part of a broadcast is to be queued. -/
  | offer (id : Nat) (line : LineText)
  /-- A question is to be put. -/
  | call (question : Message)
  /-- The one who asks goes on. -/
  | proceed

def connection? (t : Tasks) (id : Nat) : Option Connection := t.hub.connections.find? (·.id == id)

def modify (t : Tasks) (id : Nat) (f : Connection → Connection) : Tasks := { t with hub := t.hub.modify id f }

def allocate (channel : Channel) (t : Tasks) : Tasks :=
  if channel = .heartbeat then t
  else
    let (id, hub) := t.hub.allocate channel
    { t with hub, joining := id :: t.joining }

def enter (id : Nat) (t : Tasks) : Tasks :=
  if id ∈ t.joining then { t with hub := t.hub.enter id, joining := t.joining.erase id } else t

/-- A connection is read from once it is in the table. -/
def hear (s : Service) (id : Nat) (text : LineText) (t : Tasks) : Tasks :=
  match t.connection? id with
  | some c =>
    if c.phase = .reading ∧ id ∉ t.joining then { t with hub := s.deliver c.channel id text t.hub } else t
  | none => t

def stop (id : Nat) (t : Tasks) : Tasks :=
  match t.connection? id with
  | some c =>
    if c.phase = .reading ∧ id ∉ t.joining then
      { t with hub := t.hub.modify id .stopReading, leaving := id :: t.leaving }
    else t
  | none => t

def remove (id : Nat) (t : Tasks) : Tasks :=
  if id ∈ t.leaving then
    let (routed, hub) := t.hub.remove id
    { t with hub, leaving := t.leaving.erase id, owed := if routed then id :: t.owed else t.owed }
  else t

def announce (id : Nat) (t : Tasks) : Tasks :=
  if id ∈ t.owed then { t with hub := t.hub.announce, owed := t.owed.erase id } else t

/-- What is still to be done about an attempt to queue a line. -/
def attempted (id : Nat) (a : Attempt) (t : Tasks) : Tasks :=
  { t with hub := a.hub, leaving := if a.givesUp then id :: t.leaving else t.leaving }

def offer (s : Service) (id : Nat) (line : LineText) (t : Tasks) : Tasks :=
  t.attempted id (s.attempt id line t.hub)

/-- Nobody asks while another waits. -/
def call (question : Message) (t : Tasks) : Tasks :=
  match t.asker with
  | .idle | .returned _ => { t with asker := .discarding question }
  | _ => t

def proceed (s : Service) (t : Tasks) : Tasks :=
  match t.asker with
  | .idle | .returned _ => t
  | .discarding question =>
    if t.received < t.hub.events.length then { t with received := t.received + 1 }
    else { t with asker := .routing question }
  | .routing question => match t.hub.route? with
    | some id => { t with asker := .queueing question id }
    | none => { t with asker := .returned (.error Hub.nobodyOnStdin) }
  | .queueing question id =>
    let a := s.attempt id (Wire.encode s.signer question) t.hub
    { t.attempted id a with
      asker := match a.outcome with
        | .ok () => .waiting question id
        | .error failure => .returned (.error failure) }
  | .waiting question id => match t.hub.events[t.received]? with
    | some e =>
      { t with
        received := t.received + 1
        asker := match Inbox.answer? e with
          | some answer => .returned answer
          | none => .waiting question id }
    | none => t

/-- What cannot happen in a state leaves it as it is. -/
def step (s : Service) : Move → Tasks → Tasks
  | .allocate channel, t => t.allocate channel
  | .enter id, t => t.enter id
  | .hear id text, t => t.hear s id text
  | .stop id, t => t.stop id
  | .remove id, t => t.remove id
  | .announce id, t => t.announce id
  | .cancel id, t => t.modify id .cancel
  | .finish id, t => t.modify id fun c => if c.phase = .left then { c with phase := .finished } else c
  | .takeLine id, t => t.modify id .takeLine
  | .put id n, t => t.modify id (·.put n)
  | .endWriter id, t => if id ∈ t.joining then t else t.modify id .endWriter
  | .failWriter id, t => t.modify id .failWriter
  | .offer id line, t => t.offer s id line
  | .call question, t => t.call question
  | .proceed, t => t.proceed s

def run (s : Service) (moves : List Move) (t : Tasks) : Tasks := moves.foldl (fun t a => step s a t) t

end Tasks

end NotebookKernel
