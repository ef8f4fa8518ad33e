import NotebookKernel.Transport.Hub

namespace NotebookKernel

structure Transport where
  hub : Hub
  /-- Sockets that hold a permit and no number; those for heartbeats never get one. -/
  admitted : List Channel
  /-- What the broadcast under way has still to queue. -/
  pending : List (Nat × LineText)
  /-- Whether the sink is gone. -/
  dropped : Bool

namespace Transport

def initial : Transport := ⟨.empty, [], [], false⟩

/-- The permits of a channel that are in use. -/
def held (t : Transport) (channel : Channel) : Nat :=
  t.admitted.count channel +
    t.hub.connections.countP fun c => c.channel == channel && c.phase != .finished

inductive Step where
  /-- A socket arrives; without a permit it is refused. -/
  | arrive (channel : Channel)
  | register (channel : Channel)
  /-- A heartbeat ends. -/
  | release (channel : Channel)
  /-- A connection's task reads a line. -/
  | line (id : Nat) (text : LineText)
  /-- A connection's task stops reading. -/
  | leave (id : Nat)
  /-- A connection's task ends and gives back its permit. -/
  | finish (id : Nat)
  | takeLine (id : Nat)
  | put (id : Nat) (n : Nat)
  | endWriter (id : Nat)
  | failWriter (id : Nat)
  | broadcast (message : Message)
  /-- The broadcast under way queues its line for one of the subscribers that are left. -/
  | pushTo (id : Nat)
  | ask (message : Message)
  | reply (request : Request) (message : Message)
  /-- The sink is dropped: nothing more is queued, but what is queued may still be written. -/
  | drop

def modify (t : Transport) (id : Nat) (f : Connection → Connection) : Transport :=
  { t with hub := t.hub.modify id f }

def connection? (t : Transport) (id : Nat) : Option Connection := t.hub.connections.find? (·.id == id)

def arrive (s : Service) (channel : Channel) (t : Transport) : Transport :=
  if t.held channel < s.limits.connections then { t with admitted := channel :: t.admitted } else t

def register (channel : Channel) (t : Transport) : Transport :=
  if t.admitted.contains channel && channel != .heartbeat then
    { t with admitted := t.admitted.erase channel, hub := (t.hub.register channel).2 }
  else t

def release (channel : Channel) (t : Transport) : Transport :=
  if channel = .heartbeat then { t with admitted := t.admitted.erase channel } else t

def line (s : Service) (id : Nat) (text : LineText) (t : Transport) : Transport :=
  match t.connection? id with
  | some c => if c.phase = .reading then { t with hub := s.deliver c.channel id text t.hub } else t
  | none => t

def leave (id : Nat) (t : Transport) : Transport :=
  match t.connection? id with
  | some c =>
    if c.phase = .reading then
      { t with hub := (t.hub.unregister id).modify id fun c =>
          { c with phase := .left, cancelled := true } }
    else t
  | none => t

def finish (id : Nat) (t : Transport) : Transport :=
  t.modify id fun c => if c.phase = .left then { c with phase := .finished } else c

/-- The subscribers are those of the moment at which the broadcast begins. -/
def broadcast (s : Service) (m : Message) (t : Transport) : Transport :=
  if t.dropped || !t.pending.isEmpty then t
  else { t with pending := (t.hub.peers .iopub).map (·, Wire.encode s.signer m) }

/-- The subscribers are served in any order, each of them once. -/
def pushTo (s : Service) (id : Nat) (t : Transport) : Transport :=
  match t.pending.lookup id with
  | none => t
  | some line =>
    { t with hub := (s.push id line t.hub).2, pending := t.pending.filter (·.1 != id) }

def drop (t : Transport) : Transport :=
  { t with
    hub.connections := t.hub.connections.map fun c => { c with registered := false }
    pending := []
    dropped := true }

/-- What cannot happen in a state leaves it as it is. -/
def step (s : Service) : Step → Transport → Transport
  | .arrive channel, t => arrive s channel t
  | .register channel, t => register channel t
  | .release channel, t => release channel t
  | .line id text, t => line s id text t
  | .leave id, t => leave id t
  | .finish id, t => finish id t
  | .takeLine id, t => t.modify id .takeLine
  | .put id n, t => t.modify id (·.put n)
  | .endWriter id, t => t.modify id .endWriter
  | .failWriter id, t => t.modify id .failWriter
  | .broadcast m, t => broadcast s m t
  | .pushTo id, t => pushTo s id t
  | .ask m, t => if t.dropped then t else { t with hub := (s.send .stdin m t.hub).2 }
  | .reply request m, t =>
    if t.dropped then t else { t with hub := (s.replyTo request.origin m t.hub).2 }
  | .drop, t => t.drop

def run (s : Service) (steps : List Step) (t : Transport) : Transport :=
  steps.foldl (fun t a => step s a t) t

end Transport

end NotebookKernel
