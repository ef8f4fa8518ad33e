import NotebookKernel.Failure
import NotebookKernel.Message

namespace NotebookKernel

/-- A request, and the number of the connection that it came from. -/
structure Request where
  channel : Channel
  origin : Nat
  message : Message

inductive StdinEvent where
  | reply (message : Message)
  | closed

/-- The outgoing side of a transport with states of type `σ`. -/
structure Sink (σ : Type) where
  /-- To all subscribers, or to the frontend that serves input. -/
  send : Channel → Message → σ → Except Failure Unit × σ
  /-- To where the request came from. -/
  reply : Request → Message → σ → Except Failure Unit × σ

namespace Sink

/-- What a message is sent as. -/
inductive Route where
  | reply
  | on (channel : Channel)
  deriving DecidableEq, Repr

/-- Refuses messages of some types on some routes, and passes on the others. -/
def refusing {σ : Type} (refused : List (Route × String)) (reason : Failure) (sink : Sink σ) :
    Sink σ where
  send channel m s :=
    if refused.contains (.on channel, m.msgType) then (.error reason, s)
    else sink.send channel m s
  reply request m s :=
    if refused.contains (.reply, m.msgType) then (.error reason, s)
    else sink.reply request m s

end Sink

end NotebookKernel
