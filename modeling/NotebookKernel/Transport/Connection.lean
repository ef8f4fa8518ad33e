import NotebookKernel.Message
import NotebookKernel.Text.Utf8

namespace NotebookKernel

/-- A line without its newline. -/
abbrev LineText := List Char

/-- How far the task that reads from a connection has come. It holds a permit until it is finished. -/
inductive Phase where
  | reading
  | left
  | finished
  deriving DecidableEq, Repr

structure Connection where
  id : Nat
  channel : Channel
  phase : Phase
  /-- Whether messages may be queued and the connection may be routed to. -/
  registered : Bool
  /-- Whether the tasks of the connection were told to end. -/
  cancelled : Bool
  /-- All lines that ever were queued, the latest last. -/
  queued : List LineText
  /-- How many of them the writer has taken. -/
  taken : Nat
  /-- What the writer has taken and not put on the socket yet. -/
  atHand : List UInt8
  socket : List UInt8
  writerEnded : Bool
  deriving DecidableEq

namespace Connection

def fresh (id : Nat) (channel : Channel) : Connection where
  id
  channel
  phase := .reading
  registered := true
  cancelled := false
  queued := []
  taken := 0
  atHand := []
  socket := []
  writerEnded := false

def lineBytes (line : LineText) : List UInt8 := Utf8.encode (line ++ ['\n'])

/-- The lines that wait for the writer. -/
def queue (c : Connection) : List LineText := c.queued.drop c.taken

def enqueue (c : Connection) (line : LineText) : Connection :=
  { c with queued := c.queued ++ [line] }

/-- The writer never takes more than was queued. -/
theorem queue_enqueue (c : Connection) (h : c.taken ≤ c.queued.length) (line : LineText) :
    (c.enqueue line).queue = c.queue ++ [line] :=
  List.drop_append_of_le_length h

/-- The next line is taken when the one before is on the socket. -/
def takeLine (c : Connection) : Connection :=
  if c.writerEnded || !c.atHand.isEmpty then c
  else match c.queued[c.taken]? with
    | none => c
    | some line => { c with taken := c.taken + 1, atHand := lineBytes line }

/-- The socket takes some of the bytes at hand. -/
def put (c : Connection) (n : Nat) : Connection :=
  { c with socket := c.socket ++ c.atHand.take n, atHand := c.atHand.drop n }

/-- Between two lines a writer ends when it is told to, or when nothing more can be queued. -/
def endWriter (c : Connection) : Connection :=
  if c.atHand.isEmpty && (c.cancelled || (!c.registered && c.queue.isEmpty)) then
    { c with writerEnded := true, cancelled := true }
  else c

/-- A writer that fails or takes too long gives up what it has at hand. -/
def failWriter (c : Connection) : Connection :=
  if c.atHand.isEmpty then c else { c with writerEnded := true, cancelled := true, atHand := [] }

/-- Nothing more is queued; the tasks end. -/
def unregister (c : Connection) : Connection :=
  if c.registered then { c with registered := false, cancelled := true } else c

end Connection

end NotebookKernel
