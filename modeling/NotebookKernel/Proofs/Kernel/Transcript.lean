import Mathlib
import NotebookKernel.Proofs.Kernel.Dealings
import NotebookKernel.Script

namespace NotebookKernel

open Json

namespace Outlet

variable {σ : Type} (o : Outlet σ)

/-- How something that is said reaches a single frontend: with the header of what it is about. -/
def delivery (u : Utterance) (n : Nat) : Delivery where
  channel := match u.route with
    | .reply => u.about.channel
    | .on channel => channel
  message := o.written u.about.message.header u.msgType u.content n

end Outlet

namespace Kernel

variable {S D σ ε : Type}

variable {k : Kernel S D σ} {g : Sink.Ledger σ ε} {s t : State S D σ} {r : Request}

end Kernel

end NotebookKernel
