import NotebookKernel.Failure
import NotebookKernel.Json.Printer
import NotebookKernel.Json.Record
import NotebookKernel.Wire

namespace NotebookKernel

open Json

def defaultTransport : String := "tcp"

/-- A port for each channel, in the order in which they are bound. -/
structure Ports where
  control : UInt16
  shell : UInt16
  stdin : UInt16
  iopub : UInt16
  heartbeat : UInt16
  deriving DecidableEq, Repr

structure Config where
  ip : String
  transport : String
  ports : Ports
  key : String
  scheme : String
  deriving DecidableEq

namespace Config

structure Draft where
  ip : Option String := none
  transport : Option String := none
  control : Option UInt16 := none
  shell : Option UInt16 := none
  stdin : Option UInt16 := none
  iopub : Option UInt16 := none
  heartbeat : Option UInt16 := none
  key : Option String := none
  scheme : Option String := none

def Draft.finish (d : Draft) : Option Config := do
  return ⟨← d.ip, ← d.transport,
    ⟨← d.control, ← d.shell, ← d.stdin, ← d.iopub, ← d.heartbeat⟩, ← d.key, ← d.scheme⟩

def record : Record Draft Config where
  fields := [
    .of "ip" .text Draft.ip (fun s d => { d with ip := some s }) none,
    .of "transport" .text Draft.transport (fun s d => { d with transport := some s })
      (some defaultTransport),
    .of "control_port" .word16 Draft.control (fun p d => { d with control := some p }) none,
    .of "shell_port" .word16 Draft.shell (fun p d => { d with shell := some p }) none,
    .of "stdin_port" .word16 Draft.stdin (fun p d => { d with stdin := some p }) none,
    .of "iopub_port" .word16 Draft.iopub (fun p d => { d with iopub := some p }) none,
    .of "hb_port" .word16 Draft.heartbeat (fun p d => { d with heartbeat := some p }) none,
    .of "key" .text Draft.key (fun s d => { d with key := some s }) (some ""),
    .of "signature_scheme" .text Draft.scheme (fun s d => { d with scheme := some s })
      (some signatureScheme)]
  blank := {}
  finish := Draft.finish

def parse (text : List Char) : Except Fault Config := record.parse text

def chars (c : Config) : List Char :=
  let text (s : String) := quote s.toList
  let port (p : UInt16) := digitChars p.toNat
  recordChars [("ip", text c.ip), ("transport", text c.transport),
    ("control_port", port c.ports.control), ("shell_port", port c.ports.shell),
    ("stdin_port", port c.ports.stdin), ("iopub_port", port c.ports.iopub),
    ("hb_port", port c.ports.heartbeat), ("key", text c.key),
    ("signature_scheme", text c.scheme)]

/-- A configuration for this address, with the default transport and scheme. -/
def create (ip : String) (ports : Ports) (key : String) : Config :=
  ⟨ip, defaultTransport, ports, key, signatureScheme⟩

def validate (c : Config) : Except Failure Config :=
  if c.transport = defaultTransport then .ok c else .error (.unsupportedTransport c.transport)

def signer (c : Config) : Except Failure Signer := Signer.make c.scheme c.key

def address (c : Config) (port : UInt16) : String :=
  c.ip ++ ":" ++ String.ofList (digitChars port.toNat)

end Config

/-- Where a kernel is and how its messages are signed, in the order in which this is told. -/
structure Directives where
  ip : String
  transport : String
  controlPort : UInt16
  shellPort : UInt16
  stdinPort : UInt16
  iopubPort : UInt16
  heartbeatPort : UInt16
  key : String
  scheme : String

namespace Directives

def ofConfig (c : Config) : Directives where
  ip := c.ip
  transport := c.transport
  controlPort := c.ports.control
  shellPort := c.ports.shell
  stdinPort := c.ports.stdin
  iopubPort := c.ports.iopub
  heartbeatPort := c.ports.heartbeat
  key := c.key
  scheme := c.scheme

def chars (d : Directives) : List Char :=
  let text (s : String) := quote s.toList
  let port (p : UInt16) := digitChars p.toNat
  recordChars [("ip", text d.ip), ("transport", text d.transport),
    ("control_port", port d.controlPort), ("shell_port", port d.shellPort),
    ("stdin_port", port d.stdinPort), ("iopub_port", port d.iopubPort),
    ("hb_port", port d.heartbeatPort), ("key", text d.key), ("signature_scheme", text d.scheme)]

end Directives

/-- The line by which a launching frontend learns where the kernel is. -/
def Config.directives (c : Config) : List Char := (Directives.ofConfig c).chars ++ ['\n']

end NotebookKernel
