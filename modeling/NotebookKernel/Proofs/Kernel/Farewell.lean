import NotebookKernel.Proofs.Kernel.Links
import NotebookKernel.Proofs.Kernel.Undelivered
import NotebookKernel.Proofs.Transport.Live

namespace NotebookKernel

open Json

namespace Transport

namespace Live

variable {s : Service} {o : Outlet Live} {link : Link Live}

theorem transport_publish (ho : o.sink = sink s) (parent : Header) (msgType : String)
    (content : Value) (link : Link Live) :
    (o.publish parent msgType content link).transport =
      link.transport.call s (.broadcast (o.written parent msgType content link.stamped)) := by
  simp only [Outlet.publish, Outlet.send_eq, ho]
  rfl

theorem reply_eq (ho : o.sink = sink s) (r : Request) (content : Value) (link : Link Live) :
    let m := o.written r.message.header (replyType r.message.msgType) content link.stamped
    o.reply r content link = ((s.sink.reply r m link.transport.transport.hub).1,
      { link with transport := link.transport.call s (.reply r m), stamped := link.stamped + 1 }) := by
  simp only [Outlet.reply_eq, ho]
  rfl

theorem transport_ask (ho : o.sink = sink s) (parent : Header) (prompt : String) (password : Bool)
    (link : Link Live) :
    (o.ask parent prompt password link).2.transport = link.transport.call s
      (.ask (o.written parent "input_request" (question prompt password) link.stamped)) := by
  rcases hsent : o.send .stdin parent "input_request" (question prompt password)
    { link with inbox := link.inbox.discard } with ⟨sent, link'⟩
  have htransport : link'.transport = link.transport.call s
      (.ask (o.written parent "input_request" (question prompt password) link.stamped)) := by
    refine (congrArg (fun sending => sending.2.transport) hsent).symm.trans ?_
    simp only [Outlet.send_eq, ho]
    rfl
  cases sent with
  | error f =>
    rw [Outlet.ask_of_unsent hsent]
    exact htransport
  | ok =>
    rw [Outlet.ask_of_sent hsent]
    exact htransport

theorem reached_preserved (ho : o.sink = sink s) :
    o.Preserves (fun link => Reached s link.transport) true where
  publish {link} parent msgType content h := by
    rw [transport_publish ho]
    exact h.call nofun
  reply {link} r content h := by
    rw [reply_eq ho]
    exact h.call nofun
  ask _ {link} parent prompt password h := by
    rw [transport_ask ho]
    exact h.call nofun

end Live

end Transport

namespace Kernel

open Transport

variable {S D : Type} {k : Kernel S D Live} {s : Service} {r : Request} {st : State S D Live}

def shutdownReply (k : Kernel S D Live) (r : Request) (n : Nat) : Message :=
  k.outlet.written r.message.header "shutdown_reply"
    (.object [("restart", .bool (r.message.contentBool "restart" false)), ("status", .string "ok")]) n

def idleStatus (k : Kernel S D Live) (r : Request) (n : Nat) : Message :=
  k.outlet.written r.message.header "status" (.object [("execution_state", .string "idle")]) n

theorem ofFields_shutdown (restart : Bool) :
    .ofFields [("status", .string "ok"), ("restart", .bool restart)] =
      Value.object [("restart", .bool restart), ("status", .string "ok")] := by
  simp (disch := decide) only [Value.ofFields, insertFields_cons, insertFields_nil, insertField_nil,
    insertField_of_lt]

/-- The state in which a kernel has replied to a request, and has not said yet that it is idle. -/
def replied (k : Kernel S D Live) (r : Request) (st : State S D Live) : State S D Live :=
  (k.answer r (k.publishState r.message "busy" st)).2

/-- A shutdown is replied to at once. -/
theorem answer_shutdown (hk : k.outlet.sink = Live.sink s)
    (hlast : r.message.msgType = Demand.msgType .shutdown) (busy : State S D Live) :
    let m := k.shutdownReply r busy.link.stamped
    k.answer r busy = ((s.sink.reply r m busy.link.transport.transport.hub).1,
      { busy with link := { busy.link with
          transport := busy.link.transport.call s (.reply r m)
          stamped := busy.link.stamped + 1 } }) := by
  have hreply : replyType r.message.msgType = "shutdown_reply" := by
    rw [hlast]
    decide
  have hanswer := answer_known hlast (k := k) (s := busy) rfl
  rw [Live.reply_eq hk, hreply, ofFields_shutdown] at hanswer
  exact hanswer

theorem replied_shutdown (hk : k.outlet.sink = Live.sink s)
    (hreached : st.link.transport.Reached s) (hends : (k.dispatch r st).1 = .ok .shutdown) :
    (k.replied r st).link.transport.Reached s ∧
      (k.replied r st).link.stamped = st.link.stamped + 2 ∧
      (k.dispatch r st).2 = k.publishState r.message "idle" (k.replied r st) ∧
      ∃ c ∈ (k.replied r st).link.transport.transport.hub.connections, c.id = r.origin ∧
        Wire.encode s.signer (k.shutdownReply r (st.link.stamped + 1)) ∈ c.queued := by
  obtain ⟨hlast, hdelivered⟩ := dispatch_eq_shutdown.1 hends
  have hbusy : (k.publishState r.message "busy" st).link.transport.Reached s :=
    (Live.reached_preserved hk).publish _ _ _ hreached
  have hanswer := answer_shutdown hk hlast (k.publishState r.message "busy" st)
  have hsent := answer_eq_ok.2 hdelivered
  have hdispatch := dispatch_of_delivered (Prod.ext hsent rfl : k.answer r _ = (.ok (), k.replied r st))
  rw [hanswer] at hsent
  have hreplied : k.replied r st = _ := congrArg Prod.snd hanswer
  refine ⟨?_, ?_, congrArg Prod.snd hdispatch, ?_⟩
  · rw [hreplied]
    exact hbusy.call nofun
  · rw [hreplied]
    rfl
  · rw [hreplied]
    exact hbusy.call_reply hsent

/-- What is queued when a kernel has stopped: the reply for whom it goes to, and the status for those who
subscribe when it is sent. -/
theorem farewell_queued (hk : k.outlet.sink = Live.sink s) (hreached : st.link.transport.Reached s)
    (hends : (k.dispatch r st).1 = .ok .shutdown) (more : List Step) {c : Connection}
    (hc : c ∈ (run s more (k.dispatch r st).2.link.transport.transport).hub.connections)
    (hr : c.registered = true) :
    (c.id = r.origin →
      Wire.encode s.signer (k.shutdownReply r (st.link.stamped + 1)) ∈ c.queued) ∧
    (c.id ∈ (k.replied r st).link.transport.transport.hub.peers .iopub →
      Wire.encode s.signer (k.idleStatus r (st.link.stamped + 2)) ∈ c.queued) := by
  obtain ⟨hreplied, hstamped, hdispatch, d, hd, hdid, hline⟩ := replied_shutdown hk hreached hends
  have hidle : (k.publishState r.message "idle" (k.replied r st)).link.transport =
      (k.replied r st).link.transport.call s (.broadcast (k.idleStatus r (st.link.stamped + 2))) := by
    rw [← hstamped]
    exact Live.transport_publish hk r.message.header "status" _ _
  rw [hdispatch, hidle] at hc
  constructor
  · intro horigin
    obtain ⟨between, -, hcall⟩ := Live.call_run s
      (.broadcast (k.idleStatus r (st.link.stamped + 2))) (k.replied r st).link.transport
    rw [hcall, ← run_append] at hc
    change c ∈ (run s (_ :: (between ++ more)) _).hub.connections at hc
    exact mem_queued_run hreplied.sound.numbered hd hline hc (horigin.trans hdid.symm)
  · intro hsubscriber
    have hended := hreplied.call (a := .broadcast (k.idleStatus r (st.link.stamped + 2))) nofun
    obtain ⟨e, he, heid, hqueued⟩ := hreplied.call_broadcast _ hsubscriber
    obtain ⟨c', hc', hid, hgrown, hr'⟩ := queued_run hended.sound.numbered he s more
    obtain rfl := (numbered_run hended.sound.numbered s more).eq_of_id hc' hc (hid.trans heid)
    exact hgrown.subset (hqueued (hr' hr))

theorem serve_reached (hk : k.outlet.sink = Live.sink s) (hreached : st.link.transport.Reached s)
    (requests : List Request) : (k.serve requests st).2.link.transport.Reached s :=
  serve_preserves (Live.reached_preserved hk) hreached requests

/-- Over any run of a transport: what a writer has put on its socket is a prefix of the lines that were
queued, each with one newline, and a line is there in part only while it is at hand or when its write
failed. Of a connection that survives the drop of the sink all lines are on the socket when its writer
ends, and its writer alone can bring that about. After a shutdown, the reply to it and the last status
are among them. -/
theorem queued_lines_are_written (s : Service) :
    (∀ steps, ∀ c ∈ (run s steps initial).hub.connections, ∃ whole part,
      Wrote c.socket c.queued whole part ∧
      (part ≠ [] → c.atHand ≠ [] ∨ .failWriter c.id ∈ steps)) ∧
    (∀ before after c c', Survives s before after c c' →
      c'.queued = c.queued ∧ (c'.writerEnded = true → Wrote c'.socket c.queued c.queued []) ∧
      ∃ more, (∀ a ∈ more, a.writer? = some c.id) ∧
        ∃ d, Survives s before (after ++ more) c d ∧ d.writerEnded = true) ∧
    ∀ {S D : Type} (k : Kernel S D Live) (st : State S D Live) (requests : List Request) (r : Request),
      k.outlet.sink = Live.sink s → st.link.transport.Reached s →
      let t := (k.serve requests st).2
      let ended := (k.dispatch r t).2.link.transport
      (k.dispatch r t).1 = .ok .shutdown →
      ended.Reached s ∧
      ∀ steps more after c c', run s steps initial = ended.transport →
        Survives s (steps ++ more) after c c' → c'.writerEnded = true →
        (c.id = r.origin → Utf8.encode (Wire.encode s.signer (k.shutdownReply r (t.link.stamped + 1))) ∈
          c'.socket.splitOn Framing.newline) ∧
        (c.id ∈ (k.replied r t).link.transport.transport.hub.peers .iopub →
          Utf8.encode (Wire.encode s.signer (k.idleStatus r (t.link.stamped + 2))) ∈
            c'.socket.splitOn Framing.newline) := by
  have hdrained (before after : List Step) (c c' : Connection) (h : Survives s before after c c')
      (hended : c'.writerEnded = true) : Wrote c'.socket c.queued c.queued [] := by
    refine .of_whole (spelled_no_controls h.present) (List.prefix_refl _) ?_ (.inl rfl)
    rw [h.draining.socket_eq hended, List.append_nil]
  refine ⟨fun steps c hc => exists_wrote hc, ?_, ?_⟩
  · intro before after c c' h
    exact ⟨h.draining.queued, hdrained before after c c' h, h.exists_ended⟩
  · intro S D k st requests r hk hreached t ended hends
    have ht : t.link.transport.Reached s := serve_reached hk hreached requests
    obtain ⟨hreplied, -, hdispatch, -⟩ := replied_shutdown hk ht hends
    have hended : ended = (k.publishState r.message "idle" (k.replied r t)).link.transport :=
      congrArg (·.link.transport) hdispatch
    refine ⟨hended ▸ (Live.reached_preserved hk).publish _ _ _ hreplied, ?_⟩
    intro steps more after c c' hsteps h hc'
    have hpresent := h.present
    rw [run_append, hsteps] at hpresent
    obtain ⟨hreply, hidle⟩ := farewell_queued hk ht hends more hpresent h.registered
    have hlines {line : LineText} (hline : line ∈ c.queued) :
        Utf8.encode line ∈ c'.socket.splitOn Framing.newline := by
      rw [(hdrained _ after c c' h hc').split]
      exact List.mem_append_left _ (List.mem_map_of_mem hline)
    exact ⟨fun horigin => hlines (hreply horigin), fun hsubscriber => hlines (hidle hsubscriber)⟩

def unsigned : Service := ⟨⟨""⟩, {}⟩

def silent : Kernel Unit Nat Live :=
  ⟨{ (refusing []).outlet with sink := Live.sink unsigned }, (refusing []).interpreter, none⟩

def joining : List Step := [.arrive .control, .register .control, .arrive .iopub, .register .iopub]

def listening : State Unit Nat Live := ⟨⟨⟨run unsigned joining initial, []⟩, .empty, 0⟩, (), 0, 0, .empty⟩

def stopping : Request := { bareRequest "shutdown_request" with origin := 1 }

def busyStatus : Message :=
  silent.outlet.written stopping.message.header "status" (.object [("execution_state", .string "busy")]) 0

/-- What happens to the transport until the kernel has stopped. -/
def stopped : List Step :=
  joining ++ [.broadcast busyStatus, .pushTo 2, .reply stopping (silent.shutdownReply stopping 1),
    .broadcast (silent.idleStatus stopping 2), .pushTo 2]

/-- What the writers do then. -/
def draining : List Step :=
  [.takeLine 2, .put 2 1000, .takeLine 1, .put 1 1000, .endWriter 1, .takeLine 2, .put 2 1000, .endWriter 2]

theorem survives_draining {id : Nat} (hid : id = 1 ∨ id = 2) :
    ∃ c c', Survives unsigned stopped draining c c' ∧ c.id = id ∧ c'.writerEnded = true := by
  have hpresent : ∃ c ∈ (run unsigned stopped initial).hub.connections, c.id = id ∧ c.registered = true := by
    obtain rfl | rfl := hid <;> decide +kernel
  have hlater : ∃ c ∈ (run unsigned (stopped ++ .drop :: draining) initial).hub.connections,
      c.id = id ∧ c.writerEnded = true := by
    obtain rfl | rfl := hid <;> decide +kernel
  obtain ⟨c, hc, rfl, hr⟩ := hpresent
  obtain ⟨c', hc', hsame, hended⟩ := hlater
  refine ⟨c, c', ⟨hc, hr, ?_, ?_, hc', hsame⟩, rfl, hended⟩
  · simp [draining]
  · simp [stopped, joining, draining]

theorem queued_lines_are_written_shutdown :
    let ended := silent.dispatch stopping listening
    ended.1 = .ok .shutdown ∧ run unsigned stopped initial = ended.2.link.transport.transport ∧
    ∀ id, id = 1 ∨ id = 2 → ∃ c c', Survives unsigned stopped draining c c' ∧ c.id = id ∧
      Wrote c'.socket c.queued c.queued [] ∧
      (id = 1 → Utf8.encode (Wire.encode unsigned.signer (silent.shutdownReply stopping 1)) ∈
        c'.socket.splitOn Framing.newline) ∧
      (id = 2 → Utf8.encode (Wire.encode unsigned.signer (silent.idleStatus stopping 2)) ∈
        c'.socket.splitOn Framing.newline) := by
  intro ended
  obtain ⟨-, hdrop, hfarewell⟩ := queued_lines_are_written unsigned
  have hreached : listening.link.transport.Reached unsigned := ⟨⟨joining, rfl⟩, rfl, rfl⟩
  have hends : ended.1 = .ok .shutdown := by rfl
  have hstopped : run unsigned stopped initial = ended.2.link.transport.transport := by rfl
  refine ⟨hends, hstopped, fun id hid => ?_⟩
  obtain ⟨c, c', hsurvives, rfl, hended⟩ := survives_draining hid
  obtain ⟨-, hwritten⟩ := hfarewell silent listening [] stopping rfl hreached hends
  obtain ⟨hreply, hidle⟩ := hwritten stopped [] draining c c' hstopped
    (by rwa [List.append_nil]) hended
  refine ⟨c, c', hsurvives, rfl, (hdrop stopped draining c c' hsurvives).2.1 hended, ?_, ?_⟩
  · intro hcontrol
    exact hreply hcontrol
  · intro hiopub
    refine hidle ?_
    rw [hiopub]
    decide +kernel

end Kernel

end NotebookKernel
