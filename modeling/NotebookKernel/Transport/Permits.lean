import NotebookKernel.Transport.Run

namespace NotebookKernel

/-- How many permits of each channel nobody holds. -/
abbrev Permits := Channel → Nat

namespace Permits

def full (limits : Limits) : Permits := fun _ => limits.connections

/-- Nobody waits for a permit. -/
def take? (p : Permits) (channel : Channel) : Option Permits :=
  if p channel = 0 then none else some fun c => if c = channel then p c - 1 else p c

theorem take?_eq_none {p : Permits} {channel : Channel} (hnone : p channel = 0) :
    p.take? channel = none := if_pos hnone

theorem take?_eq_some {p : Permits} {channel : Channel} (hsome : p channel ≠ 0) :
    p.take? channel = some fun c => if c = channel then p c - 1 else p c := if_neg hsome

def giveBack (p : Permits) (channel : Channel) : Permits :=
  fun c => if c = channel then p c + 1 else p c

end Permits

namespace Transport

/-- A permit that is given back, and the number of the connection that held it; heartbeats have none. -/
structure Return where
  channel : Channel
  id : Option Nat
  deriving DecidableEq, Repr

/-- What the task that ends at a step gives back. -/
def return? (t : Transport) : Step → Option Return
  | .release channel =>
    if channel = .heartbeat ∧ channel ∈ t.admitted then some ⟨channel, none⟩ else none
  | .finish id => match t.connection? id with
    | some c => if c.phase = .left then some ⟨c.channel, some id⟩ else none
    | none => none
  | _ => none

end Transport

/-- A transport, and the permits that its accept loops have to give. -/
structure Gate where
  permits : Permits
  transport : Transport

namespace Gate

def initial (s : Service) : Gate := ⟨.full s.limits, .initial⟩

/-- A socket for which there is no permit is closed, and nothing else comes of it. -/
def arrive (channel : Channel) (g : Gate) : Gate :=
  match g.permits.take? channel with
  | none => g
  | some permits => ⟨permits, { g.transport with admitted := channel :: g.transport.admitted }⟩

/-- What there is to give after a step that lets nobody in. -/
def restored (a : Transport.Step) (g : Gate) : Permits :=
  match g.transport.return? a with
  | some r => g.permits.giveBack r.channel
  | none => g.permits

def step (s : Service) : Transport.Step → Gate → Gate
  | .arrive channel, g => g.arrive channel
  | a, g => ⟨g.restored a, Transport.step s a g.transport⟩

def run (s : Service) (steps : List Transport.Step) (g : Gate) : Gate :=
  steps.foldl (fun g a => step s a g) g

end Gate

end NotebookKernel
