import NotebookKernel.Json.Printer
import NotebookKernel.Json.Record

namespace NotebookKernel

open Json

def protocolVersion : String := "5.3"

inductive Channel where
  | shell
  | control
  | stdin
  | iopub
  | heartbeat
  deriving DecidableEq, Repr

def Channel.name : Channel → String
  | shell => "shell"
  | control => "control"
  | stdin => "stdin"
  | iopub => "iopub"
  | heartbeat => "hb"

structure Header where
  id : String
  session : String
  username : String
  date : String
  msgType : String
  version : String
  deriving DecidableEq, Inhabited

/-- The parts of a message besides its header are values of any kind, usually objects. -/
structure Message where
  header : Header
  parentHeader : Value
  metadata : Value
  content : Value
  deriving Inhabited

namespace Header

structure Draft where
  id : Option String := none
  session : Option String := none
  username : Option String := none
  date : Option String := none
  msgType : Option String := none
  version : Option String := none

def Draft.finish (d : Draft) : Option Header := do
  return ⟨← d.id, ← d.session, ← d.username, ← d.date, ← d.msgType, ← d.version⟩

def record : Record Draft Header where
  fields := [
    .of "msg_id" .text Draft.id (fun s d => { d with id := some s }) none,
    .of "session" .text Draft.session (fun s d => { d with session := some s }) none,
    .of "username" .text Draft.username (fun s d => { d with username := some s }) (some ""),
    .of "date" .text Draft.date (fun s d => { d with date := some s }) (some ""),
    .of "msg_type" .text Draft.msgType (fun s d => { d with msgType := some s }) none,
    .of "version" .text Draft.version (fun s d => { d with version := some s })
      (some protocolVersion)]
  blank := {}
  finish := Draft.finish

/-- The fields in the order in which they are written. -/
def fields (h : Header) : List (String × String) :=
  [("msg_id", h.id), ("session", h.session), ("username", h.username), ("date", h.date),
    ("msg_type", h.msgType), ("version", h.version)]

def chars (h : Header) : List Char :=
  recordChars (h.fields.map fun (name, s) => (name, quote s.toList))

def toValue (h : Header) : Value :=
  .ofFields (h.fields.map fun (name, s) => (name, .string s))

end Header

namespace Message

structure Draft where
  header : Option Header := none
  parentHeader : Option Value := none
  metadata : Option Value := none
  content : Option Value := none

def Draft.finish (d : Draft) : Option Message := do
  return ⟨← d.header, ← d.parentHeader, ← d.metadata, ← d.content⟩

def record : Record Draft Message where
  fields := [
    .of "header" Header.record.form Draft.header (fun h d => { d with header := some h }) none,
    .of "parent_header" .any Draft.parentHeader (fun v d => { d with parentHeader := some v })
      (some .emptyObject),
    .of "metadata" .any Draft.metadata (fun v d => { d with metadata := some v })
      (some .emptyObject),
    .of "content" .any Draft.content (fun v d => { d with content := some v })
      (some .emptyObject)]
  blank := {}
  finish := Draft.finish

def chars (m : Message) : List Char :=
  recordChars [("header", m.header.chars), ("parent_header", m.parentHeader.chars),
    ("metadata", m.metadata.chars), ("content", m.content.chars)]

def parse (text : List Char) : Except Fault Message := record.parse text

def ofValue (v : Value) : Except Fault Message := record.ofValue v

def msgType (m : Message) : String := m.header.msgType

/-- A message has the header of the one that caused it as its parent. -/
def inReplyTo (parent : Header) (header : Header) (content : Value) : Message :=
  ⟨header, parent.toValue, .emptyObject, content⟩

/-- A text in the content, empty when there is none. -/
def contentText (m : Message) (key : String) : String :=
  ((m.content.get? key).bind Value.asString?).getD ""

def contentBool (m : Message) (key : String) (default : Bool) : Bool :=
  ((m.content.get? key).bind Value.asBool?).getD default

end Message

def requestSuffix : List Char := "_request".toList

/-- What is left of the type of a request without the ending that marks it as one. -/
def requestStem (msgType : List Char) : List Char :=
  if requestSuffix.isSuffixOf msgType then msgType.take (msgType.length - requestSuffix.length)
  else msgType

def replyType (msgType : String) : String :=
  String.ofList (requestStem msgType.toList) ++ "_reply"

end NotebookKernel
