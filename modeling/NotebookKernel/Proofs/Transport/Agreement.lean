import NotebookKernel.Proofs.Kernel.Routine
import NotebookKernel.Proofs.Transport.Subscribers

namespace NotebookKernel

namespace Sink

variable {σ : Type}

def perform (sink : Sink σ) : Call → σ → Except Failure Unit × σ
  | .send channel m => sink.send channel m
  | .reply request m => sink.reply request m

def performAll (sink : Sink σ) : List Call → σ → List (Except Failure Unit) × σ
  | [], t => ([], t)
  | call :: rest, t =>
    let (sent, t) := sink.perform call t
    let (more, t) := performAll sink rest t
    (sent :: more, t)

/-- The channel and the message of a call; a reply goes on the channel of the request. -/
def Call.delivery (call : Call) : Delivery := Memory.ledger.entry call

end Sink

namespace Memory

theorem performAll_connected {t : Memory} (h : t.connected = true) (calls : List Sink.Call) :
    sink.performAll calls t = (calls.map fun _ => .ok (),
      { t with sent := t.sent ++ calls.map Sink.Call.delivery }) := by
  induction calls generalizing t with
  | nil => rw [Sink.performAll, List.map_nil, List.map_nil, List.append_nil]
  | cons call rest ih =>
    have hcall : sink.perform call t = (.ok (), { t with sent := t.sent ++ [call.delivery] }) := by
      cases call with
      | send channel m => exact deliver_connected h channel m
      | reply request m => exact deliver_connected h request.channel m
    have hrest := ih (t := { t with sent := t.sent ++ [call.delivery] }) h
    simp only [Sink.performAll, hcall, hrest, List.map_cons, List.append_assoc, List.singleton_append]

end Memory

/-- All channels but that of heartbeats. -/
def Channel.spoken : List Channel := [.shell, .control, .stdin, .iopub]

namespace Hub

variable {h : Hub} {c : Connection} {id : Nat} {s : Service} {frontend : Channel → Nat}

/-- All lines that were ever queued for the connection of a number. -/
def queuedOn (h : Hub) (id : Nat) : List LineText :=
  h.connections.flatMap fun c => if c.id = id then c.queued else []

theorem flatMap_of_not_mem {connections : List Connection}
    (hid : id ∉ connections.map Connection.id) :
    (connections.flatMap fun c => if c.id = id then c.queued else []) = [] := by
  refine List.flatMap_eq_nil_iff.2 fun c hc => if_neg ?_
  rintro rfl
  exact hid (List.mem_map_of_mem hc)

theorem Numbered.queuedOn_id (hn : h.Numbered) (hc : c ∈ h.connections) :
    h.queuedOn c.id = c.queued := by
  obtain ⟨before, after, hsplit⟩ := List.append_of_mem hc
  have hnodup := hn.nodup
  rw [hsplit, List.map_append, List.map_cons, List.nodup_middle, List.nodup_cons, List.mem_append,
    not_or] at hnodup
  obtain ⟨⟨hbefore, hafter⟩, _⟩ := hnodup
  rw [queuedOn, hsplit, List.flatMap_append, List.flatMap_cons, if_pos rfl,
    flatMap_of_not_mem hbefore, flatMap_of_not_mem hafter]
  exact List.append_nil _

theorem Numbered.enqueued (hn : h.Numbered) (id : Nat) (line : LineText) :
    (h.modify id (·.enqueue line)).Numbered := by
  refine numbered_map (fun c => ?_) hn
  split <;> rfl

theorem queuedOn_enqueue_self (hn : h.Numbered) (hc : c ∈ h.connections) (line : LineText) :
    (h.modify c.id (·.enqueue line)).queuedOn c.id = h.queuedOn c.id ++ [line] := by
  have hmem : c.enqueue line ∈ (h.modify c.id (·.enqueue line)).connections :=
    List.mem_map.2 ⟨c, hc, if_pos rfl⟩
  rw [hn.queuedOn_id hc]
  exact (hn.enqueued c.id line).queuedOn_id hmem

theorem queuedOn_enqueue_of_ne {id' : Nat} (hne : id' ≠ id) (line : LineText) :
    (h.modify id (·.enqueue line)).queuedOn id' = h.queuedOn id' := by
  unfold queuedOn modify
  rw [List.flatMap_map]
  refine List.flatMap_congr fun c _ => ?_
  split
  next hid =>
    have hother : c.id ≠ id' := fun hid' => hne (hid'.symm.trans hid)
    rw [if_neg hother]
    exact if_neg hother
  next => rfl

/-- A frontend has exactly one connection on every channel; its writer works and its queue has room. -/
structure Attended (s : Service) (frontend : Channel → Nat) (h : Hub) : Prop where
  alone : ∀ channel ∈ Channel.spoken, h.peers channel = [frontend channel]
  writing : ∀ c ∈ h.connections, c.registered = true → c.writerEnded = false
  room : ∀ c ∈ h.connections, c.registered = true → c.queue.length < s.limits.queueLength

instance (s : Service) (frontend : Channel → Nat) (h : Hub) : Decidable (h.Attended s frontend) :=
  decidable_of_iff
    ((∀ channel ∈ Channel.spoken, h.peers channel = [frontend channel]) ∧
      (∀ c ∈ h.connections, c.registered = true → c.writerEnded = false) ∧
      ∀ c ∈ h.connections, c.registered = true → c.queue.length < s.limits.queueLength)
    ⟨fun ⟨alone, writing, room⟩ => ⟨alone, writing, room⟩,
      fun ha => ⟨ha.alone, ha.writing, ha.room⟩⟩

theorem Attended.exists_taking (ha : h.Attended s frontend) {channel : Channel}
    (hchannel : channel ∈ Channel.spoken) :
    ∃ c ∈ h.connections, c.id = frontend channel ∧ c.channel = channel ∧ s.Takes c := by
  have hpeer : frontend channel ∈ h.peers channel := by
    rw [ha.alone channel hchannel]
    exact List.mem_singleton_self _
  obtain ⟨c, hc, hid, hsame, hr⟩ := exists_of_mem_peers hpeer
  exact ⟨c, hc, hid, hsame, hr, ha.writing c hc hr, ha.room c hc hr⟩

theorem Attended.push (ha : h.Attended s frontend) (hn : h.Numbered) {channel : Channel}
    (hchannel : channel ∈ Channel.spoken) (line : LineText) :
    s.push (frontend channel) line h =
      (.ok (), h.modify (frontend channel) (·.enqueue line)) := by
  obtain ⟨c, hc, hid, _, htakes⟩ := ha.exists_taking hchannel
  rw [← hid]
  exact push_of_takes hn hc htakes line

theorem Attended.broadcast (ha : h.Attended s frontend) (hn : h.Numbered) (line : LineText) :
    s.broadcast line h = h.modify (frontend .iopub) (·.enqueue line) := by
  have hspoken : Channel.iopub ∈ Channel.spoken := by decide
  obtain ⟨c, hc, hid, hchannel, htakes⟩ := ha.exists_taking hspoken
  have halone := ha.alone .iopub hspoken
  rw [broadcast_eq hn, modify, ← hid]
  rw [← hid] at halone
  congr 1
  refine List.map_congr_left fun d hd => ?_
  by_cases hdid : d.id = c.id
  · obtain rfl := hn.eq_of_id hd hc hdid
    rw [if_pos hchannel, if_pos rfl, Service.offer_of_takes htakes]
  · rw [if_neg hdid]
    split
    next hiopub =>
      -- Nobody else subscribes any more.
      have hnot : d.id ∉ h.peers .iopub := by
        rw [halone]
        exact fun hmem => hdid (List.mem_singleton.1 hmem)
      rw [hn.mem_peers_id hd, and_iff_left hiopub, Bool.not_eq_true] at hnot
      exact Service.offer_of_not_registered hnot line
    next => rfl

theorem Attended.route (ha : h.Attended s frontend) : h.route? = some (frontend .stdin) := by
  rw [route?, ha.alone .stdin (by decide)]
  rfl

/-- A request of a frontend comes on one of its connections for requests. -/
def CameFrom (frontend : Channel → Nat) (r : Request) : Prop :=
  (r.channel = .shell ∨ r.channel = .control) ∧ r.origin = frontend r.channel

theorem delivery_spoken {call : Sink.Call} (hcall : call.Routine (CameFrom frontend)) :
    call.delivery.channel ∈ Channel.spoken := by
  cases call with
  | send channel m =>
    change channel ∈ _
    obtain rfl | rfl := hcall
    · decide
    · decide
  | reply request m =>
    obtain ⟨hchannel, _⟩ := hcall
    change request.channel ∈ _
    obtain hshell | hcontrol := hchannel
    · rw [hshell]
      decide
    · rw [hcontrol]
      decide

theorem Attended.perform (ha : h.Attended s frontend) (hn : h.Numbered) {call : Sink.Call}
    (hcall : call.Routine (CameFrom frontend)) :
    s.sink.perform call h = (.ok (), h.modify (frontend call.delivery.channel)
      (·.enqueue (Wire.encode s.signer call.delivery.message))) := by
  have hspoken := delivery_spoken hcall
  cases call with
  | send channel m =>
    obtain rfl | rfl := hcall
    · exact congrArg (Prod.mk _) (ha.broadcast hn _)
    · change s.send .stdin m h = _
      simp only [Service.send, ha.route]
      exact ha.push hn hspoken _
  | reply request m =>
    obtain ⟨_, horigin⟩ := hcall
    change s.push request.origin _ h = _
    rw [horigin]
    exact ha.push hn hspoken _

theorem Attended.injective (ha : h.Attended s frontend) (hn : h.Numbered) {channel channel' : Channel}
    (hspoken : channel ∈ Channel.spoken) (hspoken' : channel' ∈ Channel.spoken)
    (hsame : frontend channel = frontend channel') : channel = channel' := by
  obtain ⟨c, hc, hid, rfl, _⟩ := ha.exists_taking hspoken
  obtain ⟨d, hd, hid', rfl, _⟩ := ha.exists_taking hspoken'
  rw [hn.eq_of_id hc hd (hid.trans (hsame.trans hid'.symm))]

end Hub

namespace Transport

variable {s : Service} {t : Transport} {a : Step} {c : Connection} {frontend : Channel → Nat}

/-- A step of the tasks that serve the sockets. -/
def Step.isTask : Step → Bool
  | .broadcast _ | .pushTo _ | .ask _ | .reply _ _ | .drop => false
  | _ => true

theorem Offers.not_task {line : LineText} (ho : Offers s t c line a) : a.isTask = false := by
  cases a with
  | pushTo | ask | reply | broadcast | drop => rfl
  | arrive | register | release | line | leave | finish | takeLine | put | endWriter | failWriter =>
    exact ho.elim

theorem queuedOn_task (hn : t.hub.Numbered) (ha : a.isTask = true) (id : Nat) :
    (step s a t).hub.queuedOn id = t.hub.queuedOn id := by
  obtain ⟨f, hf, hconnections⟩ := step_changes hn s a
  have hkept (c : Connection) (hc : c ∈ t.hub.connections) :
      (if (f c).id = id then (f c).queued else []) = if c.id = id then c.queued else [] := by
    have hchange := hf c hc
    rw [hchange.id_eq]
    generalize f c = c' at hchange
    cases hchange with
    | worked _ work => rw [work.queued]
    | removed _ removal => rw [removal.queued]
    | offered ho => exact nomatch ha.symm.trans ho.not_task
  have hjoined : ((t.joined? a).toList.flatMap fun c => if c.id = id then c.queued else []) = [] := by
    rw [List.flatMap_eq_nil_iff]
    intro c hc
    obtain ⟨channel, _, rfl⟩ := joined?_eq_some (Option.mem_toList.1 hc)
    split <;> rfl
  rw [Hub.queuedOn, hconnections, List.flatMap_append, hjoined, List.append_nil, List.flatMap_map]
  exact List.flatMap_congr hkept

/-- The sink is called, or a task goes on in between. -/
inductive Move where
  | call (call : Sink.Call)
  | task (a : Step)

def Move.call? : Move → Option Sink.Call
  | call c => some c
  | task _ => none

def perform (s : Service) : List Move → Transport → List (Except Failure Unit) × Transport
  | [], t => ([], t)
  | .task a :: rest, t => perform s rest (step s a t)
  | .call c :: rest, t =>
    let (sent, hub) := s.sink.perform c t.hub
    let (more, t) := perform s rest { t with hub }
    (sent :: more, t)

theorem perform_call (call : Sink.Call) (rest : List Move) (t : Transport) :
    perform s (.call call :: rest) t =
      ((s.sink.perform call t.hub).1 ::
        (perform s rest { t with hub := (s.sink.perform call t.hub).2 }).1,
      (perform s rest { t with hub := (s.sink.perform call t.hub).2 }).2) := rfl

/-- Whenever the sink is called the frontend has its connections; the calls are those that a kernel
makes, about requests of the frontend, with messages that can be read again. -/
def Attending (s : Service) (frontend : Channel → Nat) : List Move → Transport → Prop
  | [], _ => True
  | .task a :: rest, t => a.isTask = true ∧ Attending s frontend rest (step s a t)
  | .call c :: rest, t =>
    t.hub.Attended s frontend ∧ c.Routine (Hub.CameFrom frontend) ∧
      Wire.decode s.signer (Wire.encode s.signer c.delivery.message) = .ok c.delivery.message ∧
      Attending s frontend rest { t with hub := (s.sink.perform c t.hub).2 }

/-- The messages that calls put on a channel. -/
def messagesOn (channel : Channel) (calls : List Sink.Call) : List Message :=
  ((calls.map Sink.Call.delivery).filter (·.channel = channel)).map Delivery.message

theorem messagesOn_cons (channel : Channel) (call : Sink.Call) (calls : List Sink.Call) :
    messagesOn channel (call :: calls) =
      (if call.delivery.channel = channel then [call.delivery.message] else []) ++
        messagesOn channel calls := by
  unfold messagesOn
  rw [List.map_cons, List.filter_cons]
  simp only [decide_eq_true_eq]
  split <;> rfl

/-- A call queues its line on the frontend's connection for its channel, and on no other. -/
theorem queuedOn_call (hn : t.hub.Numbered) (ha : t.hub.Attended s frontend) {call : Sink.Call}
    (hcall : call.Routine (Hub.CameFrom frontend)) {channel : Channel}
    (hchannel : channel ∈ Channel.spoken) :
    (s.sink.perform call t.hub).2.queuedOn (frontend channel) =
      t.hub.queuedOn (frontend channel) ++
        if call.delivery.channel = channel then [Wire.encode s.signer call.delivery.message]
        else [] := by
  have hspoken := Hub.delivery_spoken hcall
  rw [ha.perform hn hcall]
  split
  next hsame =>
    obtain ⟨c, hc, hid, _⟩ := ha.exists_taking hchannel
    rw [hsame, ← hid]
    exact Hub.queuedOn_enqueue_self hn hc _
  next hother =>
    have hne : frontend channel ≠ frontend call.delivery.channel := fun hsame =>
      hother (ha.injective hn hspoken hchannel hsame.symm)
    rw [List.append_nil]
    exact Hub.queuedOn_enqueue_of_ne hne _

theorem perform_attending {moves : List Move} (hn : t.hub.Numbered)
    (hattending : Attending s frontend moves t) :
    (perform s moves t).1 = (moves.filterMap Move.call?).map (fun _ => .ok ()) ∧
    ∀ channel ∈ Channel.spoken, ∃ lines,
      (perform s moves t).2.hub.queuedOn (frontend channel) =
        t.hub.queuedOn (frontend channel) ++ lines ∧
      lines.map (Wire.decode s.signer) =
        (messagesOn channel (moves.filterMap Move.call?)).map .ok := by
  induction moves generalizing t with
  | nil => exact ⟨rfl, fun channel _ => ⟨[], (List.append_nil _).symm, rfl⟩⟩
  | cons move rest ih =>
    cases move with
    | task a =>
      obtain ⟨htask, hrest⟩ := hattending
      obtain ⟨hsent, hlines⟩ := ih ((step_changes hn s a).numbered hn) hrest
      refine ⟨hsent, fun channel hchannel => ?_⟩
      obtain ⟨lines, hqueued, hdecoded⟩ := hlines channel hchannel
      rw [queuedOn_task hn htask] at hqueued
      exact ⟨lines, hqueued, hdecoded⟩
    | call call =>
      obtain ⟨hattended, hcall, hsurvives, hrest⟩ := hattending
      have hperform := hattended.perform hn hcall
      have hn' : (s.sink.perform call t.hub).2.Numbered := by
        rw [hperform]
        exact hn.enqueued _ _
      obtain ⟨hsent, hlines⟩ := ih hn' hrest
      constructor
      · rw [perform_call, hsent, hperform]
        rfl
      · intro channel hchannel
        obtain ⟨lines, hqueued, hdecoded⟩ := hlines channel hchannel
        rw [queuedOn_call hn hattended hcall hchannel, List.append_assoc] at hqueued
        refine ⟨_, hqueued, ?_⟩
        have hcalls : (Move.call call :: rest).filterMap Move.call? =
            call :: rest.filterMap Move.call? := rfl
        rw [hcalls, List.map_append, hdecoded, messagesOn_cons, List.map_append]
        congr 1
        split
        · exact congrArg (fun decoded => [decoded]) hsurvives
        · rfl

/-- For a frontend with one connection on every channel, whose queues have room, every call of the
kinds that a kernel makes succeeds, and what is queued on each connection reads as just those messages
that the sink in memory puts on its channel. A kernel makes no calls of other kinds, and the requests
that it gets to reply to come on shell and control. -/
theorem transports_agree (s : Service) :
    (∀ frontend before moves, Attending s frontend moves (run s before initial) →
      let t := run s before initial
      let ended := perform s moves t
      let memory := Memory.sink.performAll (moves.filterMap Move.call?) .initial
      ended.1 = memory.1 ∧ (∀ sent ∈ ended.1, sent = .ok ()) ∧
      ∀ channel ∈ Channel.spoken, ∃ lines,
        ended.2.hub.queuedOn (frontend channel) = t.hub.queuedOn (frontend channel) ++ lines ∧
        lines.map (Wire.decode s.signer) =
          (memory.2.sent.filter (·.channel = channel)).map (.ok ·.message)) ∧
    (∀ {S D σ : Type} (k : Kernel S D σ) (requests : List Request) (state : Kernel.State S D σ),
      ∀ call ∈ k.startCalls requests state, call.Routine (· ∈ requests)) ∧
    ∀ steps, ∀ r ∈ (run s steps initial).hub.requests, r.channel = .shell ∨ r.channel = .control := by
  refine ⟨?_, fun k requests state => k.startCalls_routine requests state,
    fun steps r hr => ((run_sound s steps).requests r hr).1⟩
  intro frontend before moves hattending t ended memory
  have hmemory : memory = _ := Memory.performAll_connected rfl _
  obtain ⟨hsent, hlines⟩ := perform_attending (run_sound s before).numbered hattending
  refine ⟨?_, ?_, fun channel hchannel => ?_⟩
  · rw [hmemory]
    exact hsent
  · change ∀ sent ∈ (perform s moves t).1, _
    rw [hsent]
    intro sent hmem
    obtain ⟨_, _, rfl⟩ := List.mem_map.1 hmem
    rfl
  · obtain ⟨lines, hqueued, hdecoded⟩ := hlines channel hchannel
    refine ⟨lines, hqueued, ?_⟩
    rw [hdecoded, hmemory, messagesOn, List.map_map]
    rfl

def oneEach : Channel → Nat
  | .shell => 1
  | .control => 2
  | .stdin => 3
  | .iopub => 4
  | .heartbeat => 0

/-- The queues have room for one line, and the writer takes the first status before the second. -/
theorem transports_agree_small_queues :
    let s : Service := ⟨⟨""⟩, { queueLength := 1 }⟩
    let m : Message := ⟨⟨"1", "s", "u", "", "status", "5.3"⟩, .null, .null, .object []⟩
    let before : List Step := [.shell, .control, .stdin, .iopub].flatMap fun channel =>
      [.arrive channel, .register channel]
    let moves : List Move := [.call (.send .iopub m), .task (.takeLine 4),
      .call (.reply ⟨.control, 2, m⟩ m), .task (.takeLine 2), .call (.send .iopub m)]
    (perform s moves (run s before initial)).1 = [.ok (), .ok (), .ok ()] ∧
      ((perform s moves (run s before initial)).2.hub.queuedOn 4).map (Wire.decode s.signer) =
        [.ok m, .ok m] := by
  intro s m before moves
  have hm : m.Plain := ⟨.null, .null, .object .nil (List.forall_mem_nil _) (List.forall_mem_nil _)⟩
  have hsurvives := Wire.decode_encoded s.signer hm
  have hattending : Attending s oneEach moves (run s before initial) :=
    ⟨by decide +kernel, .inl rfl, hsurvives, rfl, by decide +kernel, ⟨.inr rfl, rfl⟩, hsurvives,
      rfl, by decide +kernel, .inl rfl, hsurvives, trivial⟩
  obtain ⟨hsent, _, hlines⟩ := (transports_agree s).1 oneEach before moves hattending
  obtain ⟨lines, hqueued, hdecoded⟩ := hlines .iopub (by decide)
  have hnone : (run s before initial).hub.queuedOn 4 = [] := by decide +kernel
  have hid : oneEach .iopub = 4 := rfl
  rw [hid, hnone, List.nil_append] at hqueued
  rw [hqueued]
  exact ⟨hsent.trans rfl, hdecoded.trans rfl⟩

end Transport

end NotebookKernel
