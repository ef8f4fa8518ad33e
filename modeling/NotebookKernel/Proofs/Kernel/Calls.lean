import NotebookKernel.Proofs.Kernel.Views

namespace NotebookKernel

open Json

variable {S D σ : Type}

namespace Sink

def noting (sink : Sink σ) : Sink (σ × List Call) where
  send channel m t :=
    let (sent, transport) := sink.send channel m t.1
    (sent, transport, t.2 ++ [.send channel m])
  reply request m t :=
    let (sent, transport) := sink.reply request m t.1
    (sent, transport, t.2 ++ [.reply request m])

def notes (σ : Type) : Ledger (σ × List Call) Call where
  entries t := t.2
  entry call := call
  serving _ := True

theorem noting_keeps (sink : Sink σ) : sink.noting.Keeps (notes σ) where
  send _ _ _ := ⟨trivial, rfl⟩
  reply _ _ _ := ⟨trivial, rfl⟩

end Sink

/-- The message of a question. -/
def Sink.Call.question? : Sink.Call → Option Message
  | .send .stdin m => some m
  | _ => none

def Link.noting (l : Link σ) : Link (σ × List Sink.Call) :=
  { l with transport := (l.transport, []) }

def Link.forget (l : Link (σ × List Sink.Call)) : Link σ := { l with transport := l.transport.1 }

namespace Outlet

def noting (o : Outlet σ) : Outlet (σ × List Sink.Call) := { o with sink := o.sink.noting }

theorem calls_noting (o : Outlet σ) (n : Nat) (us : List Utterance) :
    o.noting.calls n us = o.calls n us := by
  induction us generalizing n with
  | nil => rfl
  | cons u us ih =>
    rw [calls, calls, ih]
    rfl

/-- Asking is one call, whatever becomes of it. -/
theorem notes_ask (o : Outlet σ) (parent : Header) (prompt : String) (password : Bool)
    (l : Link (σ × List Sink.Call)) :
    (o.noting.ask parent prompt password l).2.transport.2 = l.transport.2 ++
      [.send .stdin (o.written parent "input_request" (question prompt password) l.stamped)] := by
  rcases hsent : o.noting.send .stdin parent "input_request" (question prompt password)
    { l with inbox := l.inbox.discard } with ⟨sent, l'⟩
  have hnotes : l'.transport.2 = l.transport.2 ++
      [.send .stdin (o.written parent "input_request" (question prompt password) l.stamped)] := by
    rw [send_eq] at hsent
    exact congrArg (fun t => t.2.transport.2) hsent.symm
  cases sent with
  | error f =>
    rw [ask_of_unsent hsent]
    exact hnotes
  | ok =>
    rw [ask_of_sent hsent]
    exact hnotes

end Outlet

namespace Kernel

def State.noting (s : State S D σ) : State S D (σ × List Sink.Call) :=
  { s with link := s.link.noting }

def State.forget (s : State S D (σ × List Sink.Call)) : State S D σ :=
  { s with link := s.link.forget }

def noting (k : Kernel S D σ) : Kernel S D (σ × List Sink.Call) :=
  { k with outlet := k.outlet.noting }

/-- A kernel without its notes. -/
def unnoted (S D σ : Type) : View S D (σ × List Sink.Call) S D σ := ⟨id, id, Prod.fst⟩

theorem unnoted_shows (k : Kernel S D σ) : (unnoted S D σ).Shows k.noting k where
  message := rfl
  send _ _ _ := rfl
  reply _ _ _ := rfl
  configure s := congrFun Except.map_id (k.interpreter.configure s)
  execute _ _ _ := Execution.map_id _
  isComplete _ _ := rfl
  info _ := rfl
  debug := by
    have hdebugger : k.noting.debugger = k.debugger := rfl
    rw [hdebugger]
    cases k.debugger with
    | none => exact .none
    | some b => exact .some fun _ _ => rfl

theorem dispatch_forget (k : Kernel S D σ) (s : State S D (σ × List Sink.Call)) (r : Request) :
    (k.noting.dispatch r s).map id State.forget = k.dispatch r s.forget :=
  k.unnoted_shows.dispatch s r

theorem Deals.forget {k : Kernel S D σ} {s t : State S D (σ × List Sink.Call)} {r : Request}
    {us : List Utterance} (h : k.noting.Deals r s us t) : k.Deals r s.forget us t.forget :=
  k.unnoted_shows.deals h

/-- The calls on the sink by which a kernel deals with a request. -/
def calls (k : Kernel S D σ) (r : Request) (s : State S D σ) : List Sink.Call :=
  (k.noting.dispatch r s.noting).2.link.transport.2

theorem calls_eq (k : Kernel S D σ) (r : Request) (s : State S D σ) :
    ∃ us, k.Deals r s us (k.dispatch r s).2 ∧
      k.calls r s = k.outlet.calls s.link.stamped
        (status r "busy" :: us ++ idle r (k.dispatch r s).1) := by
  obtain ⟨us, hdeals, hspoken, _⟩ :=
    dispatch_spoken (k := k.noting) (s := s.noting) k.outlet.sink.noting_keeps trivial r
  have hforget : k.dispatch r s = (k.noting.dispatch r s.noting).map id State.forget :=
    (k.dispatch_forget s.noting r).symm
  have hentries : k.calls r s = k.noting.outlet.calls s.link.stamped
      (status r "busy" :: us ++ idle r (k.noting.dispatch r s.noting).1) :=
    hspoken.entries.trans (List.map_id _)
  rw [hforget, hentries]
  exact ⟨us, hdeals.forget, k.outlet.calls_noting _ _⟩

end Kernel

/-- Something that an interpreter is told to do. Its account of itself shows in the replies. -/
inductive Interpreter.Call where
  | configure
  | execute (e : ExecuteRequest) (count : Nat)
  | isComplete (code : String)

def Interpreter.noting (i : Interpreter S) : Interpreter (S × List Call) where
  configure s := (i.configure s.1).map fun t => (t, s.2 ++ [.configure])
  execute e n s := (i.execute e n s.1).map fun t => (t.1, t.2, s.2 ++ [.execute e n])
  isComplete code s :=
    let (status, t) := i.isComplete code s.1
    (status, t, s.2 ++ [.isComplete code])
  info s := i.info s.1

def Debugger.noting (b : Debugger D) : Debugger (D × List Value) where
  respond content s :=
    let (answer, t) := b.respond content s.1
    (answer, t, s.2 ++ [content])

namespace Kernel

/-- The same kernel, of which every call of its interpreter and its debugger is noted. -/
def watched (k : Kernel S D σ) : Kernel (S × List Interpreter.Call) (D × List Value) σ :=
  ⟨k.outlet, k.interpreter.noting, k.debugger.map .noting⟩

def State.watched (s : State S D σ) : State (S × List Interpreter.Call) (D × List Value) σ :=
  { s with interpreter := (s.interpreter, []), debugger := (s.debugger, []) }

def unwatched (S D σ : Type) : View (S × List Interpreter.Call) (D × List Value) σ S D σ :=
  ⟨Prod.fst, Prod.fst, id⟩

theorem unwatched_shows (k : Kernel S D σ) : (unwatched S D σ).Shows k.watched k where
  message := rfl
  send _ _ _ := rfl
  reply _ _ _ := rfl
  configure s := by
    have hconfigure : (k.watched.interpreter.configure s).map Prod.fst =
        k.interpreter.configure s.1 := by
      change ((k.interpreter.configure s.1).map _).map _ = _
      cases k.interpreter.configure s.1 with
      | error reason => rfl
      | ok t => rfl
    exact hconfigure
  execute _ _ _ := (Execution.map_map _ _ _).trans (Execution.map_id _)
  isComplete _ _ := rfl
  info _ := rfl
  debug := by
    have hdebugger : k.watched.debugger = k.debugger.map .noting := rfl
    rw [hdebugger]
    cases k.debugger with
    | none => exact .none
    | some b => exact .some fun _ _ => rfl

end Kernel

end NotebookKernel
