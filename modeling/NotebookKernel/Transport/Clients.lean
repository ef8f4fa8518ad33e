import NotebookKernel.Transport.Framing
import NotebookKernel.Transport.Run

namespace NotebookKernel

/-- A frontend's end of a connection. -/
structure Client where
  name : String
  channel : Channel
  /-- The number of the connection; heartbeats have none. -/
  id : Option Nat
  /-- The bytes of a line that was not sent to its end. -/
  unfinished : List UInt8

inductive ClientFault where
  /-- No frontend can connect at all. -/
  | unreachable
  | notConnected
  deriving DecidableEq, Repr

/-- What has come in during a step. -/
structure Arrivals where
  requests : List Request
  events : List StdinEvent

/-- What is said of the bytes that a client sent. -/
inductive Sent where
  | echoed (lines : List LineText) (closed : Bool)
  | ignored (count : Nat)
  | taken (arrivals : Arrivals) (closed : Bool)

structure Closing where
  received : List LineText
  arrivals : Arrivals

/-- The lines that clients received. -/
abbrev Received := List (String × List LineText)

structure Flooded where
  first : Except Failure Unit
  again : Except Failure Unit
  events : List StdinEvent

structure Clients where
  service : Service
  /-- Whether frontends can connect. -/
  reachable : Bool
  transport : Transport
  clients : List Client

namespace Clients

def initial (service : Service) (reachable : Bool) : Clients := ⟨service, reachable, .initial, []⟩

def client? (c : Clients) (name : String) : Option Client := c.clients.find? (·.name == name)

/-- No connection has the number 0. -/
def idOf (c : Clients) (name : String) : Nat := ((c.client? name).bind Client.id).getD 0

def without (c : Clients) (name : String) : List Client := c.clients.filter (·.name != name)

def step (c : Clients) (a : Transport.Step) : Clients :=
  { c with transport := Transport.step c.service a c.transport }

def steps (c : Clients) (as : List Transport.Step) : Clients := as.foldl step c

/-- What has come in since a state. -/
def since (before after : Clients) : Arrivals where
  requests := after.transport.hub.requests.drop before.transport.hub.requests.length
  events := after.transport.hub.events.drop before.transport.hub.events.length

/-- The connection of a client ends. -/
def part (c : Clients) (client : Client) : Clients :=
  let c := { c with clients := c.without client.name }
  match client.id with
  | some id => c.steps [.leave id, .finish id]
  | none => c.step (.release client.channel)

/-- `none` where there are too many connections already. -/
def connect (c : Clients) (name : String) (channel : Channel) :
    Except ClientFault (Option Client × Clients) :=
  if !c.reachable then .error .unreachable
  else
    let arrived := c.step (.arrive channel)
    if arrived.transport.admitted.length = c.transport.admitted.length then .ok (none, c)
    else
      let registered := arrived.step (.register channel)
      let id := if channel = .heartbeat then none
        else some registered.transport.hub.connections.length
      let client : Client := ⟨name, channel, id, []⟩
      .ok (client, { registered with clients := client :: registered.without name })

def named (c : Clients) (name : String) : Except ClientFault Client :=
  match c.client? name with
  | some client => .ok client
  | none => .error .notConnected

/-- Sends the start of a line. -/
def begin (c : Clients) (name : String) (bytes : List UInt8) : Except ClientFault Clients := do
  let client ← c.named name
  let client := { client with unfinished := client.unfinished ++ bytes }
  return { c with clients := client :: c.without name }

def read (c : Clients) (client : Client) (lines : List LineText) : Clients :=
  match client.id with
  | some id => c.steps (lines.map (.line id))
  | none => c

/-- A stream that breaks is dropped after the lines before. -/
def send (c : Clients) (name : String) (bytes : List UInt8) : Except ClientFault (Sent × Clients) := do
  let client ← c.named name
  let framed := Framing.frame c.service.limits.lineBytes (client.unfinished ++ bytes)
  let client := { client with unfinished := framed.rest.getD [] }
  let kept := { c.read client framed.lines with clients := client :: c.without name }
  let closed := framed.rest.isNone
  let after := if closed then kept.part client else kept
  return (match client.channel with
    | .heartbeat => .echoed framed.lines closed
    | .iopub => .ignored bytes.length
    | _ => .taken (c.since after) closed, after)

def close (c : Clients) (name : String) : Except ClientFault (Closing × Clients) := do
  let client ← c.named name
  let lines := Framing.finish (Framing.frame c.service.limits.lineBytes client.unfinished)
  let after := (c.read client lines).part client
  return (⟨if client.channel = .heartbeat then lines else [], c.since after⟩, after)

/-- The writer of a connection puts all that is queued on the socket. -/
def drain (c : Clients) (id : Nat) : List LineText × Clients :=
  match c.transport.connection? id with
  | none => ([], c)
  | some connection => (connection.queue, connection.queue.foldl
      (fun c line => c.steps [.takeLine id, .put id (Connection.lineBytes line).length]) c)

/-- All connections are drained. -/
def drainAll (c : Clients) : Received × Clients :=
  c.clients.reverse.foldl (fun (received, c) client =>
    let (lines, c) := c.drain (client.id.getD 0)
    ((client.name, lines) :: received, c)) ([], c)

/-- The lines that clients received, those without any left out. -/
def delivered (c : Clients) : Received × Clients :=
  let (received, c) := c.drainAll
  (received.filter (!·.2.isEmpty), c)

def withHub (c : Clients) (result : Except Failure Unit × Hub) : Except Failure Unit × Clients :=
  (result.1, { c with transport.hub := result.2 })

def reply (c : Clients) (origin : Nat) (m : Message) :
    Except Failure Unit × Received × Clients :=
  let (sent, c) := c.withHub (c.service.replyTo origin m c.transport.hub)
  (sent, c.delivered)

def publish (c : Clients) (channel : Channel) (m : Message) :
    Except Failure Unit × Received × Clients :=
  let (sent, c) := c.withHub (c.service.send channel m c.transport.hub)
  (sent, c.delivered)

def pushLine (c : Clients) (id : Nat) (line : LineText) : Except Failure Unit × Clients :=
  c.withHub (c.service.push id line c.transport.hub)

/-- Pushes lines that nobody reads; a queue holds no more than `n` of them. -/
def overflow (id : Nat) : Nat → Clients → Except Failure Unit × Clients
  | 0, c => c.pushLine id []
  | n + 1, c => match c.pushLine id [] with
    | (.ok (), c) => overflow id n c
    | (.error failure, c) => (.error failure, c)

def endClient (c : Clients) (name : String) : Clients :=
  match c.client? name with
  | some client => c.part client
  | none => c

/-- A client that does not read is sent lines until one cannot be queued. -/
def flood (c : Clients) (name : String) : Flooded × Clients :=
  let id := c.idOf name
  let (first, after) := overflow id c.service.limits.queueLength c
  let (again, after) := (after.endClient name).pushLine id []
  (⟨first, again, (c.since after).events⟩, after)

/-- A client that does not read one line in time is dropped. -/
def stall (c : Clients) (name : String) : Except Failure (Except Failure Unit × List StdinEvent) × Clients :=
  let id := c.idOf name
  match c.pushLine id [] with
  | (.error failure, after) => (.error failure, after)
  | (.ok (), after) =>
    let after := (after.steps [.takeLine id, .failWriter id]).endClient name
    let (again, after) := after.pushLine id []
    (.ok (again, (c.since after).events), after)

/-- Queues a reply that nobody reads yet. -/
def queueReply (c : Clients) (name : String) (m : Message) : Except Failure Clients :=
  match c.withHub (c.service.replyTo (c.idOf name) m c.transport.hub) with
  | (.ok (), c) => .ok c
  | (.error failure, _) => .error failure

/-- What is queued when the transport goes away is still written. -/
def shutdown (c : Clients) : Received := (c.step .drop).drainAll.1

end Clients

end NotebookKernel
