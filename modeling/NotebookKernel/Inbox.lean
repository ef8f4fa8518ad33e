import NotebookKernel.Endpoint

namespace NotebookKernel

open Json

/-- Only what arrives after a question was put can answer it, and no answer is used twice. -/
structure Inbox where
  waiting : List StdinEvent
  /-- What arrives after each question that goes out, in the order of the questions. -/
  arrivals : List (List StdinEvent)

namespace Inbox

def empty : Inbox := ⟨[], []⟩

def lost : Failure := .disconnected "stdin closed while waiting for input"

/-- The answer that an event gives, if it is one. -/
def answer? : StdinEvent → Option (Except Failure String)
  | .closed => some (.error lost)
  | .reply m => if m.msgType = "input_reply" then some (.ok (m.contentText "value")) else none

/-- The first answer among the events, and the events after it. -/
def decide : List StdinEvent → Except Failure String × List StdinEvent
  | [] => (.error lost, [])
  | e :: rest => match answer? e with
    | some answer => (answer, rest)
    | none => decide rest

def discard (inbox : Inbox) : Inbox := { inbox with waiting := [] }

def arrive (inbox : Inbox) (events : List StdinEvent) : Inbox :=
  { inbox with waiting := inbox.waiting ++ events }

/-- The answer to a question that has gone out. -/
def await (inbox : Inbox) : Except Failure String × Inbox :=
  let events := inbox.waiting ++ inbox.arrivals.head?.getD []
  let (answer, waiting) := decide events
  (answer, ⟨waiting, inbox.arrivals.tail⟩)

theorem answer?_reply {m : Message} {answer : Except Failure String}
    (h : answer? (.reply m) = some answer) :
    m.msgType = "input_reply" ∧ answer = .ok (m.contentText "value") := by
  by_cases htype : m.msgType = "input_reply"
  · rw [answer?, if_pos htype] at h
    exact ⟨htype, (Option.some.inj h).symm⟩
  · rw [answer?, if_neg htype] at h
    exact nomatch h

theorem decide_of_answer {e : StdinEvent} {answer : Except Failure String}
    (h : answer? e = some answer) (rest : List StdinEvent) :
    decide (e :: rest) = (answer, rest) := by
  simp only [decide, h]

theorem decide_of_not_answer {e : StdinEvent} (h : answer? e = none) (rest : List StdinEvent) :
    decide (e :: rest) = decide rest := by
  simp only [decide, h]

end Inbox

end NotebookKernel
