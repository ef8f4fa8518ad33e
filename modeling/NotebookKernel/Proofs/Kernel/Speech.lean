import NotebookKernel.Outlet
import NotebookKernel.Transport.Memory

namespace NotebookKernel

open Json

/-- Something that is said about a request. -/
structure Utterance where
  about : Request
  route : Sink.Route
  msgType : String
  content : Value

/-- A message handed to a sink. -/
inductive Sink.Call where
  | send (channel : Channel) (message : Message)
  | reply (request : Request) (message : Message)

/-- What the states of a sink tell of the calls that led to them, while it is in service. -/
structure Sink.Ledger (σ ε : Type) where
  entries : σ → List ε
  entry : Call → ε
  serving : σ → Prop

structure Sink.Keeps {σ ε : Type} (sink : Sink σ) (g : Ledger σ ε) : Prop where
  send : ∀ {t}, g.serving t → ∀ channel m, g.serving (sink.send channel m t).2 ∧
    g.entries (sink.send channel m t).2 = g.entries t ++ [g.entry (.send channel m)]
  reply : ∀ {t}, g.serving t → ∀ request m, g.serving (sink.reply request m t).2 ∧
    g.entries (sink.reply request m t).2 = g.entries t ++ [g.entry (.reply request m)]

/-- Replies are never refused. -/
def Sink.Delivers {σ ε : Type} (sink : Sink σ) (g : Ledger σ ε) : Prop :=
  ∀ {t}, g.serving t → ∀ request m, (sink.reply request m t).1 = .ok ()

namespace Memory

def ledger : Sink.Ledger Memory Delivery where
  entries t := t.sent
  entry
    | .send channel m => ⟨channel, m⟩
    | .reply request m => ⟨request.channel, m⟩
  serving t := t.connected = true

theorem deliver_connected {t : Memory} (h : t.connected = true) (channel : Channel) (m : Message) :
    deliver channel m t = (.ok (), { t with sent := t.sent ++ [⟨channel, m⟩] }) :=
  if_pos h

theorem sink_keeps : sink.Keeps ledger where
  send {t} h channel m := by
    have hsent : sink.send channel m t = _ := deliver_connected h channel m
    rw [hsent]
    exact ⟨h, rfl⟩
  reply {t} h request m := by
    have hsent : sink.reply request m t = _ := deliver_connected h request.channel m
    rw [hsent]
    exact ⟨h, rfl⟩

theorem sink_delivers : sink.Delivers ledger := by
  intro t h request m
  exact congrArg Prod.fst (deliver_connected h request.channel m)

end Memory

def question (prompt : String) (password : Bool) : Value :=
  .object [("password", .bool password), ("prompt", .string prompt)]

theorem ofFields_question (prompt : String) (password : Bool) :
    .ofFields [("prompt", .string prompt), ("password", .bool password)] = question prompt password := by
  simp (disch := decide) only [question, Value.ofFields, insertFields_cons, insertFields_nil, insertField_nil,
    insertField_of_lt]

/-- The header of a request as the messages about it show it. -/
def Header.shown (parent : Header) : Value :=
  .object [("date", .string parent.date), ("msg_id", .string parent.id), ("msg_type", .string parent.msgType),
    ("session", .string parent.session), ("username", .string parent.username),
    ("version", .string parent.version)]

theorem Header.toValue_eq_shown (parent : Header) : parent.toValue = parent.shown := by
  simp (disch := decide) only [shown, toValue, fields, List.map_cons, List.map_nil, Value.ofFields,
    insertFields_cons, insertFields_nil, insertField_nil, insertField_of_lt, insertField_of_gt]

/-- A run on behalf of a request can say this and come to this result, with some answers to what it
asks; where asking is not allowed it is told so, and says nothing. -/
inductive Execution.Says {α : Type} (r : Request) (mayAsk : Bool) :
    Execution α → List Utterance → α → Prop where
  | done (a : α) : Says r mayAsk (.done a) [] a
  | publish {msgType : String} {content : Value} {next : Execution α} {us : List Utterance} {a : α}
      (more : Says r mayAsk next us a) :
      Says r mayAsk (.publish msgType content next) (⟨r, .on .iopub, msgType, content⟩ :: us) a
  | ask {prompt : String} {password : Bool} {next : Except Failure String → Execution α}
      {us : List Utterance} {a : α} (allowed : mayAsk = true) (answer : Except Failure String)
      (more : Says r mayAsk (next answer) us a) :
      Says r mayAsk (.ask prompt password next)
        (⟨r, .on .stdin, "input_request", question prompt password⟩ :: us) a
  | refused {prompt : String} {password : Bool} {next : Except Failure String → Execution α}
      {us : List Utterance} {a : α} (forbidden : mayAsk = false)
      (more : Says r mayAsk (next (.error .stdinNotAllowed)) us a) :
      Says r mayAsk (.ask prompt password next) us a

namespace Outlet

variable {σ ε α : Type} (o : Outlet σ)

/-- The n-th message, with all its parts. -/
def written (parent : Header) (msgType : String) (content : Value) (n : Nat) : Message where
  header :=
    { id := (o.stamp n).id
      session := o.identity.session
      username := o.identity.username
      date := (o.stamp n).date
      msgType
      version := "5.3" }
  parentHeader := parent.shown
  metadata := .object []
  content

theorem message_eq_written (parent : Header) (msgType : String) (content : Value) (n : Nat) :
    o.message parent msgType content n = o.written parent msgType content n := by
  rw [message, Message.inReplyTo, Header.toValue_eq_shown]
  rfl

theorem send_eq (channel : Channel) (parent : Header) (msgType : String) (content : Value) (l : Link σ) :
    o.send channel parent msgType content l =
      let sent := o.sink.send channel (o.written parent msgType content l.stamped) l.transport
      (sent.1, { l with transport := sent.2, stamped := l.stamped + 1 }) := by
  rw [send, message_eq_written]

theorem reply_eq (r : Request) (content : Value) (l : Link σ) :
    o.reply r content l =
      let m := o.written r.message.header (replyType r.message.msgType) content l.stamped
      let sent := o.sink.reply r m l.transport
      (sent.1, { l with transport := sent.2, stamped := l.stamped + 1 }) := by
  rw [reply, message_eq_written]

def call (u : Utterance) (n : Nat) : Sink.Call :=
  let m := o.written u.about.message.header u.msgType u.content n
  match u.route with
  | .reply => .reply u.about m
  | .on channel => .send channel m

/-- What is said from the n-th message on. -/
def calls (n : Nat) : List Utterance → List Sink.Call
  | [] => []
  | u :: us => o.call u n :: calls (n + 1) us

theorem calls_append (n : Nat) (us vs : List Utterance) :
    o.calls n (us ++ vs) = o.calls n us ++ o.calls (n + us.length) vs := by
  induction us generalizing n with
  | nil => rfl
  | cons u us ih =>
    rw [List.cons_append, calls, ih, List.length_cons, Nat.add_comm us.length, ← Nat.add_assoc]
    rfl

section Asking

variable {o} {parent : Header} {prompt : String} {password : Bool} {l l' : Link σ}

theorem ask_of_sent (h : o.send .stdin parent "input_request" (question prompt password)
      { l with inbox := l.inbox.discard } = (.ok (), l')) :
    o.ask parent prompt password l =
      (l'.inbox.await.1, { l' with inbox := l'.inbox.await.2 }) := by
  simp only [ask, ofFields_question, h]

theorem ask_of_unsent {f : Failure} (h : o.send .stdin parent "input_request"
      (question prompt password) { l with inbox := l.inbox.discard } = (.error f, l')) :
    o.ask parent prompt password l = (.error f, l') := by
  simp only [ask, ofFields_question, h]

end Asking

/-- Between two states of its dealings the kernel said just this. -/
structure Spoken (g : Sink.Ledger σ ε) (us : List Utterance) (l l' : Link σ) : Prop where
  serving : g.serving l'.transport
  entries : g.entries l'.transport =
    g.entries l.transport ++ (o.calls l.stamped us).map g.entry
  stamped : l'.stamped = l.stamped + us.length

variable {o} {g : Sink.Ledger σ ε} {l l' l'' : Link σ} {us vs : List Utterance} {r : Request}

theorem Spoken.refl (h : g.serving l.transport) : o.Spoken g [] l l :=
  ⟨h, (List.append_nil _).symm, rfl⟩

theorem Spoken.trans (h : o.Spoken g us l l') (h' : o.Spoken g vs l' l'') :
    o.Spoken g (us ++ vs) l l'' := by
  refine ⟨h'.serving, ?_, ?_⟩
  · rw [h'.entries, h.entries, h.stamped, calls_append, List.map_append, List.append_assoc]
  · rw [h'.stamped, h.stamped, List.length_append, Nat.add_assoc]

theorem Spoken.send (hk : o.sink.Keeps g) (h : g.serving l.transport) (r : Request)
    (channel : Channel) (msgType : String) (content : Value) :
    o.Spoken g [⟨r, .on channel, msgType, content⟩] l
      (o.send channel r.message.header msgType content l).2 := by
  obtain ⟨hserving, hentries⟩ :=
    hk.send h channel (o.written r.message.header msgType content l.stamped)
  rw [send_eq]
  exact ⟨hserving, hentries, rfl⟩

theorem Spoken.reply (hk : o.sink.Keeps g) (h : g.serving l.transport) (r : Request)
    (content : Value) :
    o.Spoken g [⟨r, .reply, replyType r.message.msgType, content⟩] l (o.reply r content l).2 := by
  obtain ⟨hserving, hentries⟩ := hk.reply h r
    (o.written r.message.header (replyType r.message.msgType) content l.stamped)
  rw [reply_eq]
  exact ⟨hserving, hentries, rfl⟩

theorem Spoken.ask (hk : o.sink.Keeps g) (h : g.serving l.transport) (r : Request)
    (prompt : String) (password : Bool) :
    o.Spoken g [⟨r, .on .stdin, "input_request", question prompt password⟩] l
      (o.ask r.message.header prompt password l).2 := by
  rcases hsent : o.send .stdin r.message.header "input_request" (question prompt password)
    { l with inbox := l.inbox.discard } with ⟨sent, l'⟩
  have hsend := Spoken.send (l := { l with inbox := l.inbox.discard }) hk h r .stdin "input_request"
    (question prompt password)
  rw [hsent] at hsend
  obtain ⟨hserving, hentries, hstamped⟩ := hsend
  cases sent with
  | error f =>
    rw [ask_of_unsent hsent]
    exact ⟨hserving, hentries, hstamped⟩
  | ok =>
    rw [ask_of_sent hsent]
    exact ⟨hserving, hentries, hstamped⟩

theorem Spoken.perform (hk : o.sink.Keeps g) (h : g.serving l.transport) (r : Request)
    (mayAsk : Bool) (run : Execution α) :
    ∃ us, run.Says r mayAsk us (o.perform r.message.header mayAsk run l).1 ∧
      o.Spoken g us l (o.perform r.message.header mayAsk run l).2 := by
  induction run generalizing l with
  | done a => exact ⟨[], .done a, .refl h⟩
  | publish msgType content next ih =>
    have hfirst := Spoken.send hk h r .iopub msgType content
    obtain ⟨us, hsays, hspoken⟩ := ih hfirst.serving
    exact ⟨_, .publish hsays, hfirst.trans hspoken⟩
  | ask prompt password next ih =>
    rw [Outlet.perform]
    split
    next allowed =>
      have hfirst := Spoken.ask hk h r prompt password
      obtain ⟨us, hsays, hspoken⟩ := ih _ hfirst.serving
      exact ⟨_, .ask allowed _ hsays, hfirst.trans hspoken⟩
    next forbidden =>
      obtain ⟨us, hsays, hspoken⟩ := ih (.error .stdinNotAllowed) h
      exact ⟨us, .refused (Bool.eq_false_iff.2 forbidden) hsays, hspoken⟩

end Outlet

end NotebookKernel
