import NotebookKernel.Digest.Running
import NotebookKernel.Failure
import NotebookKernel.Message
import NotebookKernel.Text.Hex
import NotebookKernel.Text.Utf8

namespace NotebookKernel

open Json

def signatureScheme : String := "hmac-sha256"

/-- Signs with a key; the empty key turns signing off. -/
structure Signer where
  key : String
  deriving DecidableEq

/-- The texts of the parts of a message. -/
structure Parts where
  header : List Char
  parentHeader : List Char
  metadata : List Char
  content : List Char
  deriving DecidableEq

namespace Parts

def chars (p : Parts) : List Char :=
  p.header ++ p.parentHeader ++ p.metadata ++ p.content

def ofMessage (m : Message) : Parts :=
  ⟨m.header.chars, m.parentHeader.chars, m.metadata.chars, m.content.chars⟩

/-- The parts are read in the order in which they are signed. -/
def read (p : Parts) : Except Fault Message := do
  let header ← Header.record.parse p.header
  let parentHeader ← Value.parse p.parentHeader
  let metadata ← Value.parse p.metadata
  return ⟨header, parentHeader, metadata, ← Value.parse p.content⟩

end Parts

namespace Signer

/-- The scheme matters only when there is a key. -/
def make (scheme key : String) : Except Failure Signer :=
  if key = "" ∨ scheme = signatureScheme then .ok ⟨key⟩
  else .error (.unsupportedScheme scheme)

def enabled (s : Signer) : Bool := s.key != ""

/-- The parts go in one after the other, exactly as they stand on the line. -/
def digest (s : Signer) (p : Parts) : Sha256.Digest :=
  let pieces := [p.header, p.parentHeader, p.metadata, p.content].map Utf8.encode
  (pieces.foldl Hmac.Running.update (.keyed (Utf8.encode s.key.toList))).finish

/-- The digits of the digest, or nothing when signing is off. -/
def sign (s : Signer) (p : Parts) : List Char :=
  if s.enabled then Hex.encode (s.digest p).toList else []

def verify (s : Signer) (p : Parts) (signature : List Char) : Bool :=
  !s.enabled || Hex.decode? signature == some (s.digest p).toList

end Signer

/-- A line taken apart. -/
structure Line where
  signature : String
  parts : Parts

namespace Line

structure Draft where
  signature : Option String := none
  header : Option (List Char) := none
  parentHeader : Option (List Char) := none
  metadata : Option (List Char) := none
  content : Option (List Char) := none

def Draft.finish (d : Draft) : Option Line := do
  return ⟨← d.signature, ← d.header, ← d.parentHeader, ← d.metadata, ← d.content⟩

def record : Record Draft Line where
  fields := [
    .of "signature" .text Draft.signature (fun s d => { d with signature := some s }) (some ""),
    .of "header" .verbatim Draft.header (fun t d => { d with header := some t }) none,
    .of "parent_header" .verbatim Draft.parentHeader
      (fun t d => { d with parentHeader := some t }) none,
    .of "metadata" .verbatim Draft.metadata (fun t d => { d with metadata := some t }) none,
    .of "content" .verbatim Draft.content (fun t d => { d with content := some t }) none]
  blank := {}
  finish := Draft.finish

def parse (text : List Char) : Except Fault Line := record.parse text

def chars (l : Line) : List Char :=
  recordChars [("signature", quote l.signature.toList), ("header", l.parts.header),
    ("parent_header", l.parts.parentHeader), ("metadata", l.parts.metadata),
    ("content", l.parts.content)]

def sealed (s : Signer) (p : Parts) : Line := ⟨String.ofList (s.sign p), p⟩

end Line

namespace Wire

/-- The line of a message, without a newline. -/
def encode (s : Signer) (m : Message) : List Char :=
  (Line.sealed s (.ofMessage m)).chars

/-- The signature is checked before any part is read. -/
def decode (s : Signer) (text : List Char) : Except Failure Message := do
  let line ← readable (Line.parse text)
  if s.verify line.parts line.signature.toList then readable line.parts.read
  else throw .invalidSignature

end Wire

end NotebookKernel
