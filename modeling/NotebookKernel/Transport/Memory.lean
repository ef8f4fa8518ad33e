import NotebookKernel.Endpoint

namespace NotebookKernel

structure Delivery where
  channel : Channel
  message : Message

/-- What the frontend has been sent, in order, while it is there. -/
structure Memory where
  sent : List Delivery
  connected : Bool

namespace Memory

def initial : Memory := ⟨[], true⟩

def gone : Failure := .disconnected "frontend dropped"

def deliver (channel : Channel) (m : Message) (t : Memory) : Except Failure Unit × Memory :=
  if t.connected then (.ok (), { t with sent := t.sent ++ [⟨channel, m⟩] })
  else (.error gone, t)

def sink : Sink Memory where
  send := deliver
  reply request := deliver request.channel

end Memory

end NotebookKernel
