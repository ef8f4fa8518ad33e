import NotebookKernel.Json.Reader

namespace NotebookKernel

inductive Failure where
  | disconnected (reason : String)
  | stdinNotAllowed
  | alreadyRedirected
  | invalidSignature
  | protocol (reason : String)
  | config (reason : String)
  | unreadable (fault : Json.Fault)
  | io (reason : String)
  deriving DecidableEq, Repr

namespace Failure

def faultText : Json.Fault → String
  | .endOfInput => "unexpected end of input"
  | .malformed => "malformed JSON"
  | .mismatch => "value of the wrong type"

/-- The name of the cause. -/
def kind : Failure → String
  | disconnected _ => "Disconnected"
  | stdinNotAllowed => "StdinNotAllowed"
  | alreadyRedirected => "AlreadyRedirected"
  | invalidSignature => "InvalidSignature"
  | protocol _ => "Protocol"
  | config _ => "Config"
  | unreadable _ => "Serialization"
  | io _ => "Io"

def message : Failure → String
  | disconnected reason => "frontend disconnected: " ++ reason
  | stdinNotAllowed => "This frontend does not support input requests"
  | alreadyRedirected => "input redirection already active"
  | invalidSignature => "message signature does not match"
  | protocol reason => "protocol error: " ++ reason
  | config reason => "config error: " ++ reason
  | unreadable fault => "serialization error: " ++ faultText fault
  | io reason => "io error: " ++ reason

def unsupportedScheme (scheme : String) : Failure :=
  .config ("unsupported signature scheme '" ++ scheme ++ "'")

def unsupportedTransport (transport : String) : Failure :=
  .config ("unsupported transport '" ++ transport ++ "'")

end Failure

/-- A faulty text or value, as a failure. -/
def readable {α : Type} : Except Json.Fault α → Except Failure α :=
  Except.mapError .unreadable

end NotebookKernel
