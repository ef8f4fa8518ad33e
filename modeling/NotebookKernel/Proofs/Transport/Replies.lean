import NotebookKernel.Proofs.Transport.Subscribers

namespace NotebookKernel

namespace Transport

variable {s : Service} {steps : List Step} {a : Step} {t : Transport} {c c' : Connection} {id : Nat}

/-- The line of a reply to a connection that takes it. -/
def replied? (s : Service) (id : Nat) (t : Transport) : Step → Option LineText
  | .reply request m =>
    if t.dropped = false ∧ request.origin = id ∧ ∃ c ∈ t.hub.connections, c.id = id ∧ s.Takes c then
      some (Wire.encode s.signer m)
    else none
  | _ => none

/-- The lines of the replies that a connection takes in a run, in the order in which they are made. -/
def repliesTo (s : Service) (id : Nat) (steps : List Step) (t : Transport) : List LineText :=
  noted s (replied? s id) steps t

theorem repliesTo_concat (s : Service) (id : Nat) (steps : List Step) (a : Step) (t : Transport) :
    repliesTo s id (steps ++ [a]) t = repliesTo s id steps t ++ (replied? s id (run s steps t) a).toList :=
  noted_concat _ steps a t

theorem replied?_eq_some {line : LineText} (hreplied : replied? s id t a = some line) :
    ∃ c ∈ t.hub.connections, c.id = id ∧ s.Takes c ∧ Offers s t c line a := by
  unfold replied? at hreplied
  split at hreplied
  next request m =>
    split at hreplied
    next htaken =>
      obtain ⟨hserving, horigin, c, hc, hid, htakes⟩ := htaken
      obtain rfl := Option.some.inj hreplied
      exact ⟨c, hc, hid, htakes, hserving, horigin.trans hid.symm, rfl⟩
    next => exact nomatch hreplied
  next => exact nomatch hreplied

/-- Connections for requests are offered nothing but replies. -/
theorem Offers.of_requester {line : LineText} (hs : t.Sound) (hc : c ∈ t.hub.connections)
    (hchannel : c.channel = .shell ∨ c.channel = .control) (ho : Offers s t c line a) :
    ∃ request m, a = .reply request m ∧ t.dropped = false ∧ request.origin = c.id ∧
      line = Wire.encode s.signer m := by
  obtain ⟨_, _, hiopub⟩ | ⟨_, _, hstdin⟩ | hreply := ho.cases hs hc
  · rw [hiopub] at hchannel
    exact absurd hchannel (by decide)
  · rw [hstdin] at hchannel
    exact absurd hchannel (by decide)
  · exact hreply

theorem Change.replies (hs : t.Sound) (hc : c ∈ t.hub.connections)
    (hchannel : c.channel = .shell ∨ c.channel = .control) (hchange : Change s t a c c') :
    c'.queued = c.queued ++ (replied? s c.id t a).toList := by
  obtain ⟨hsame, hrefused⟩ | ⟨line, hoffer, htakes, rfl⟩ := hchange.queued_cases
  · have hnone : replied? s c.id t a = none := by
      rw [Option.eq_none_iff_forall_ne_some]
      intro line hreplied
      obtain ⟨d, hd, hid, htakes, ho⟩ := replied?_eq_some hreplied
      obtain rfl := hs.numbered.eq_of_id hd hc hid
      exact (hrefused line ho).1 htakes
    rw [hnone, hsame]
    exact (List.append_nil _).symm
  · obtain ⟨request, m, rfl, hserving, horigin, rfl⟩ := hoffer.of_requester hs hc hchannel
    rw [replied?, if_pos ⟨hserving, horigin, c, hc, rfl, htakes⟩]
    rfl

/-- Nobody replies to a connection before it has joined. -/
theorem repliesTo_new (hid : (run s steps initial).hub.connections.length < id) :
    repliesTo s id steps initial = [] := by
  induction steps using List.reverseRecOn with
  | nil => rfl
  | append_singleton steps a ih =>
    have hs := run_sound s steps
    rw [run_concat] at hid
    have hbefore : (run s steps initial).hub.connections.length < id :=
      Nat.lt_of_le_of_lt (step_changes hs.numbered s a).length_le hid
    rw [repliesTo_concat, ih hbefore]
    cases hreplied : replied? s id (run s steps initial) a with
    | none => rfl
    | some line =>
      obtain ⟨c, hc, rfl, _⟩ := replied?_eq_some hreplied
      have := (hs.numbered.id_le hc).2
      omega

theorem queued_of_requester (hc : c ∈ (run s steps initial).hub.connections)
    (hchannel : c.channel = .shell ∨ c.channel = .control) :
    c.queued = repliesTo s c.id steps initial := by
  induction steps using List.reverseRecOn generalizing c with
  | nil => exact nomatch hc
  | append_singleton steps a ih =>
    have hs := run_sound s steps
    rw [run_concat] at hc
    rw [repliesTo_concat]
    obtain ⟨d, hd, hchange⟩ | hjoined := (step_changes hs.numbered s a).mem hc
    · rw [hchange.channel_eq] at hchannel
      rw [hchange.replies hs hd hchannel, ih hd hchannel, hchange.id_eq]
    · obtain ⟨channel, rfl, rfl⟩ := joined?_eq_some hjoined
      exact (List.append_eq_nil_iff.2 ⟨repliesTo_new (Nat.lt_succ_self _), rfl⟩).symm

/-- Who is lost stays lost, and the number is not given again. -/
theorem peer?_run_of_lost (hs : t.Sound) (hc : c ∈ t.hub.connections) (hr : c.registered = false)
    (s : Service) (more : List Step) : (run s more t).hub.peer? c.id = none := by
  suffices hlost : (run s more t).Sound ∧
      ∃ d ∈ (run s more t).hub.connections, d.id = c.id ∧ d.registered = false by
    obtain ⟨hs', d, hd, hid, hr'⟩ := hlost
    rw [Hub.peer?_eq_none]
    intro e he heid
    rw [hs'.numbered.eq_of_id he hd (heid.trans hid.symm)]
    exact hr'
  induction more using List.reverseRecOn with
  | nil => exact ⟨hs, c, hc, rfl, hr⟩
  | append_singleton more a ih =>
    obtain ⟨hs', d, hd, hid, hr'⟩ := ih
    rw [run_concat]
    obtain ⟨e, he, hchange⟩ := (step_changes hs'.numbered s a).exists_change hd
    exact ⟨hs'.step s a, e, he, hchange.id_eq.trans hid, (hchange.of_not_registered hr').1⟩

theorem connectionText_eq (id : Nat) (fate : String) : Hub.connectionText id fate =
    .disconnected ("connection " ++ toString id ++ (" " ++ fate)) :=
  congrArg Failure.disconnected String.append_assoc

theorem gone_eq (id : Nat) : Hub.gone id = .disconnected ("connection " ++ toString id ++ " is gone") :=
  connectionText_eq id "is gone"

theorem refusal_eq (c : Connection) : Hub.refusal c = .disconnected ("connection " ++ toString c.id ++
    if c.writerEnded then " closed" else " stopped reading") := by
  unfold Hub.refusal
  split
  · exact connectionText_eq c.id "closed"
  · exact connectionText_eq c.id "stopped reading"

/-- A reply to a connection that cannot take it gives up that connection, and nothing else changes. -/
theorem reply_refused (hs : t.Sound) {request : Request} (hrequest : request ∈ t.hub.requests)
    (hc : c ∈ t.hub.connections) (horigin : c.id = request.origin) (hr : c.registered = true)
    (hnot : ¬ s.Takes c) (m : Message) :
    s.sink.reply request m t.hub = (.error (Hub.refusal c),
      { t.hub with connections := t.hub.connections.map fun d =>
          if d.id = c.id then d.unregister else d }) := by
  have hid : c.id ∉ t.hub.peers .stdin := by
    obtain ⟨hchannel, d, hd, hdid, hsame⟩ := hs.requests request hrequest
    obtain rfl := hs.numbered.eq_of_id hd hc (hdid.trans horigin.symm)
    refine hs.numbered.not_mem_peers_of_channel hc ?_
    rw [hsame]
    rintro hstdin
    rw [hstdin] at hchannel
    exact absurd hchannel (by decide)
  have hresult : (s.push c.id (Wire.encode s.signer m) t.hub).1 = .error (Hub.refusal c) := by
    rw [Hub.push_of_refused hs.numbered hc hr hnot]
  change s.push request.origin _ t.hub = _
  rw [← horigin]
  refine Prod.ext hresult ((Hub.push_eq hs.numbered hid s _).trans ?_)
  congr 1
  refine List.map_congr_left fun d hd => ?_
  split
  next hdid =>
    obtain rfl := hs.numbered.eq_of_id hd hc hdid
    exact Service.offer_of_not_takes hnot _
  next => rfl

/-- Over any run in which replies are given to requests that came in: a connection for requests is
queued exactly the replies to its own requests that it took; a reply to a lost connection fails and
changes nothing, whatever happened since; and one to a connection that cannot take it loses that
connection alone. -/
theorem replies_return (s : Service) (steps : List Step) (hanswering : Answering s steps) :
    let t := run s steps initial
    (∀ c ∈ t.hub.connections, c.channel = .shell ∨ c.channel = .control →
      c.queued = repliesTo s c.id steps initial) ∧
    (∀ before request m, before ++ [.reply request m] <+: steps →
      ∃ x ∈ arrivals s before initial, x.origin = request.origin ∧ x.channel = request.channel ∧
        Wire.decode s.signer x.text = .ok request.message) ∧
    (∀ c ∈ t.hub.connections, c.registered = false → ∀ more request m, request.origin = c.id →
      let h := (run s more t).hub
      s.sink.reply request m h =
        (.error (.disconnected ("connection " ++ toString c.id ++ " is gone")), h)) ∧
    ∀ request ∈ t.hub.requests, ∀ c ∈ t.hub.connections, c.id = request.origin →
      c.registered = true → ¬ s.Takes c → ∀ m,
      s.sink.reply request m t.hub =
        (.error (.disconnected ("connection " ++ toString c.id ++
            if c.writerEnded then " closed" else " stopped reading")),
          { t.hub with connections := t.hub.connections.map fun d =>
              if d.id = c.id then d.unregister else d }) := by
  intro t
  have hs : t.Sound := run_sound s steps
  refine ⟨fun c hc hchannel => queued_of_requester hc hchannel,
    fun before request m hreply => hanswering.exists_arrival hreply, ?gone, ?refused⟩
  case gone =>
    intro c hc hr more request m horigin h
    change s.push request.origin _ h = _
    rw [horigin, ← gone_eq]
    exact Hub.push_of_gone (peer?_run_of_lost hs hc hr s more) _
  case refused =>
    intro request hrequest c hc horigin hr hnot m
    rw [← refusal_eq]
    exact reply_refused hs hrequest hc horigin hr hnot m

/-- The second reply comes when its connection has left and another has joined. -/
theorem replies_return_departed :
    let s : Service := ⟨⟨""⟩, {}⟩
    let m : Message := ⟨⟨"1", "s", "u", "", "execute_request", "5.3"⟩, .null, .null, .object []⟩
    let request : Request := ⟨.shell, 1, m⟩
    let steps : List Step := [.arrive .shell, .register .shell, .line 1 (Wire.encode s.signer m),
      .reply request m, .leave 1]
    let h := (run s [.arrive .shell, .register .shell] (run s steps initial)).hub
    (∃ c ∈ (run s steps initial).hub.connections, c.queued = [Wire.encode s.signer m]) ∧
      h.peers .shell = [2] ∧ s.sink.reply request m h =
        (.error (.disconnected "connection 1 is gone"), h) := by
  intro s m request steps h
  have hm : m.Plain := ⟨.null, .null, .object .nil (List.forall_mem_nil _) (List.forall_mem_nil _)⟩
  have hanswering : Answering s steps := by
    have hquiet : Answering s [.arrive .shell, .register .shell, .line 1 (Wire.encode s.signer m)] :=
      .of_no_reply fun request m => by simp
    refine (hquiet.concat (a := .reply request m) ?_).concat (a := .leave 1) fun _ _ => nofun
    intro request' m' hreply
    obtain ⟨rfl, _⟩ := Step.reply.inj hreply
    rw [(run_queues s _ initial).1]
    refine List.mem_append_right _ (List.mem_filterMap.2 ⟨_, ?_, request?_encode hm 1⟩)
    exact List.mem_singleton_self _
  obtain ⟨hreplies, _, hgone, _⟩ := replies_return s steps hanswering
  have hleft : ∃ c ∈ (run s steps initial).hub.connections,
      c.id = 1 ∧ c.channel = .shell ∧ c.registered = false := by
    decide +kernel
  obtain ⟨c, hc, hid, hchannel, hr⟩ := hleft
  refine ⟨⟨c, hc, ?_⟩, by decide +kernel, ?_⟩
  · rw [hreplies c hc (.inl hchannel), hid]
    decide +kernel
  · have hfailed := hgone c hc hr [.arrive .shell, .register .shell] request m hid.symm
    rw [hid] at hfailed
    exact hfailed

end Transport

end NotebookKernel
