import NotebookKernel.Address
import NotebookKernel.Config

namespace NotebookKernel

open Json

inductive BindFault where
  | name (fault : NameFault)
  | addressInUse
  | notLocal
  | scopeMissing
  deriving DecidableEq, Repr

def BindFault.message : BindFault → String
  | name fault => fault.message
  | addressInUse => "Address already in use (os error 98)"
  | notLocal => "Cannot assign requested address (os error 99)"
  | scopeMissing => "Invalid argument (os error 22)"

/-- Who listens where on a machine that is cut off from every network. -/
structure Machine where
  listening : List (Address × UInt16)
  deriving DecidableEq

namespace Machine

def isTaken (m : Machine) (address : Address) (port : UInt16) : Bool :=
  m.listening.any fun l => l.2 == port && l.1.overlaps address

/-- The ports that are given out to those who ask for any. -/
def freePorts : List UInt16 := (List.range 28232).map fun n => .ofNat (32768 + n)

/-- Without a network, any IPv4 address passes for one of the machine, and no other address does. -/
def allow (address : Address) : Except BindFault Unit :=
  if address.isV4 || address == .any then .ok ()
  else .error (if address.isScoped then .scopeMissing else .notLocal)

/-- Port 0 stands for any port that is free. -/
def claim (m : Machine) (host : String) (port : UInt16) : Except BindFault (UInt16 × Machine) := do
  let address ← (Address.ofName host).mapError .name
  allow address
  let port? := if port = 0 then freePorts.find? fun p => !m.isTaken address p
    else if m.isTaken address port then none else some port
  match port? with
  | none => throw .addressInUse
  | some p => return (p, ⟨(address, p) :: m.listening⟩)

end Machine

namespace Config

def cannotBind (ip : String) (port : UInt16) (fault : BindFault) : Failure :=
  .config ("cannot bind " ++ ip ++ ":" ++ String.ofList (digitChars port.toNat) ++ ": "
    ++ fault.message)

/-- The configuration with the ports that were claimed for it. -/
def bind (c : Config) (m : Machine) : Except Failure (Config × Machine) := do
  let claim (m : Machine) (port : UInt16) : Except Failure (UInt16 × Machine) :=
    (m.claim c.ip port).mapError (cannotBind c.ip port)
  let (control, m) ← claim m c.ports.control
  let (shell, m) ← claim m c.ports.shell
  let (stdin, m) ← claim m c.ports.stdin
  let (iopub, m) ← claim m c.ports.iopub
  let (heartbeat, m) ← claim m c.ports.heartbeat
  return ({ c with ports := ⟨control, shell, stdin, iopub, heartbeat⟩ }, m)

/-- Any five free ports, and a key that nobody knows yet. -/
def bindFresh (ip key : String) (m : Machine) : Except Failure (Config × Machine) :=
  (create ip ⟨0, 0, 0, 0, 0⟩ key).bind m

end Config

end NotebookKernel
