import NotebookKernel.Proofs.Transport.Runs

namespace NotebookKernel

namespace Hub

variable {h : Hub} {id : Nat} {c : Connection} {s : Service} {line : LineText}

/-- A connection that was made for subscribing has the number. -/
def IsSubscriber (h : Hub) (id : Nat) : Prop :=
  ∃ c ∈ h.connections, c.id = id ∧ c.channel = .iopub

theorem Numbered.not_mem_peers_of_channel (hn : h.Numbered) (hc : c ∈ h.connections)
    {channel : Channel} (hchannel : c.channel ≠ channel) : c.id ∉ h.peers channel :=
  fun hmem => hchannel ((hn.mem_peers_id hc).1 hmem).2

/-- What becomes of a line for a connection that questions do not go to concerns nobody else. -/
theorem push_eq (hn : h.Numbered) (hid : id ∉ h.peers .stdin) (s : Service) (line : LineText) :
    (s.push id line h).2 =
      { h with connections := h.connections.map fun c => if c.id = id then s.offer line c else c } := by
  have hrequests : (s.push id line h).2.requests = h.requests := (push_quiet s id line h).requests
  have hevents : (s.push id line h).2.events = h.events := by
    obtain ⟨_, hevents⟩ | hpushed := push_cases s id line h
    · exact hevents
    · have hroute : h.route? ≠ some id := fun hroute => hid (route?_eq_some.1 hroute).1
      rw [hpushed, events_unregister, if_neg hroute]
      exact List.append_nil _
  calc (s.push id line h).2
      = ⟨(s.push id line h).2.connections, (s.push id line h).2.requests,
          (s.push id line h).2.events⟩ := rfl
    _ = _ := by rw [push_connections hn, hrequests, hevents]

theorem IsSubscriber.not_mem_peers_stdin (hsubscriber : h.IsSubscriber id) (hn : h.Numbered) :
    id ∉ h.peers .stdin := by
  obtain ⟨c, hc, rfl, hchannel⟩ := hsubscriber
  refine hn.not_mem_peers_of_channel hc ?_
  rw [hchannel]
  decide

theorem numbered_map {f : Connection → Connection} (hf : ∀ c, (f c).id = c.id) (hn : h.Numbered) :
    Numbered { h with connections := h.connections.map f } := by
  unfold Numbered at hn ⊢
  dsimp only
  rw [List.map_map, List.length_map, ← hn]
  exact List.map_congr_left fun c _ => hf c

theorem id_offered (s : Service) (line : LineText) (id : Nat) (c : Connection) :
    (if c.id = id then s.offer line c else c).id = c.id := by
  split
  · exact s.id_offer line c
  · rfl

theorem channel_offered (s : Service) (line : LineText) (id : Nat) (c : Connection) :
    (if c.id = id then s.offer line c else c).channel = c.channel := by
  split
  · exact s.channel_offer line c
  · rfl

/-- The order in which subscribers are served does not matter. -/
theorem pushAll_eq {ids : List Nat} (hn : h.Numbered) (hids : ∀ id ∈ ids, h.IsSubscriber id)
    (hnodup : ids.Nodup) (s : Service) (line : LineText) :
    s.pushAll ids line h =
      { h with connections := h.connections.map fun c => if c.id ∈ ids then s.offer line c else c } := by
  induction ids generalizing h with
  | nil =>
    simp only [List.not_mem_nil, ↓reduceIte, List.map_id']
    rfl
  | cons id ids ih =>
    obtain ⟨hid, hrest⟩ := List.forall_mem_cons.1 hids
    obtain ⟨hnew, hnodup⟩ := List.nodup_cons.1 hnodup
    change s.pushAll ids line (s.push id line h).2 = _
    rw [push_eq hn (hid.not_mem_peers_stdin hn), ih (numbered_map (id_offered s line id) hn) ?_ hnodup]
    · simp only [List.map_map]
      congr 1
      refine List.map_congr_left fun c _ => ?_
      rw [Function.comp_apply, id_offered]
      by_cases hc : c.id = id
      · rw [if_neg (hc ▸ hnew), if_pos hc, if_pos (List.mem_cons.2 (.inl hc))]
      · simp only [hc, ↓reduceIte, List.mem_cons, false_or]
    · intro id' hid'
      obtain ⟨c, hc, rfl, hchannel⟩ := hrest id' hid'
      exact ⟨_, List.mem_map_of_mem hc, id_offered s line id c,
        (channel_offered s line id c).trans hchannel⟩

theorem Numbered.nodup_peers (hn : h.Numbered) (channel : Channel) : (h.peers channel).Nodup :=
  hn.nodup.sublist (List.filter_sublist.map Connection.id)

theorem broadcast_eq (hn : h.Numbered) (s : Service) (line : LineText) :
    s.broadcast line h =
      { h with connections := h.connections.map fun c =>
          if c.channel = .iopub then s.offer line c else c } := by
  have hids : ∀ id ∈ h.peers .iopub, h.IsSubscriber id := by
    intro id hid
    obtain ⟨c, hc, hid, hchannel, _⟩ := exists_of_mem_peers hid
    exact ⟨c, hc, hid, hchannel⟩
  rw [Service.broadcast, pushAll_eq hn hids (hn.nodup_peers .iopub)]
  congr 1
  refine List.map_congr_left fun c hc => ?_
  by_cases hchannel : c.channel = .iopub
  · rw [if_pos hchannel]
    split
    next => rfl
    next hmem =>
      rw [hn.mem_peers_id hc, and_iff_left hchannel, Bool.not_eq_true] at hmem
      exact (Service.offer_of_not_registered hmem line).symm
  · rw [if_neg hchannel, if_neg (hn.not_mem_peers_of_channel hc hchannel)]

end Hub

namespace Transport

variable {s : Service} {steps before during after : List Step} {a : Step} {t : Transport}
  {c c' : Connection} {id : Nat} {line : LineText}

/-- The state in which a connection has just joined. -/
def entered (s : Service) (channel : Channel) (before : List Step) : Transport :=
  step s (.register channel) (run s before initial)

/-- A connection joins between `before` and `during`, and is lost at the first step of `after`. -/
structure Stay (s : Service) (steps : List Step) (c : Connection)
    (before during after : List Step) : Prop where
  split : steps = before ++ .register c.channel :: (during ++ after)
  joined : c.id = (run s before initial).hub.connections.length + 1
  present : ∀ part, part <+: during →
    c.id ∈ (run s part (entered s c.channel before)).hub.peers c.channel
  lost : ∀ a ∈ after.head?,
    c.id ∉ (run s (during ++ [a]) (entered s c.channel before)).hub.peers c.channel
  current : c.registered = true ↔ after = []

theorem Stay.run_eq (h : Stay s steps c before during []) :
    run s steps initial = run s during (entered s c.channel before) := by
  rw [h.split, List.append_nil, run_append]
  rfl

theorem mem_peers_run_concat (hc' : c' ∈ (run s (steps ++ [a]) initial).hub.connections)
    {channel : Channel} (hchannel : c'.channel = channel) :
    c'.id ∈ (run s (steps ++ [a]) initial).hub.peers channel ↔ c'.registered = true := by
  rw [(run_sound s (steps ++ [a])).numbered.mem_peers_id hc', hchannel]
  exact and_iff_left rfl

theorem Stay.begins (hjoined : (run s steps initial).joined? a = some c)
    (hc : c ∈ (run s (steps ++ [a]) initial).hub.connections) :
    Stay s (steps ++ [a]) c steps [] [] := by
  obtain ⟨channel, rfl, rfl⟩ := joined?_eq_some hjoined
  refine ⟨rfl, rfl, fun part hpart => ?_, nofun, iff_of_true rfl rfl⟩
  obtain rfl := List.prefix_nil.1 hpart
  have hpresent := (mem_peers_run_concat hc rfl).2 rfl
  rw [run_concat] at hpresent
  exact hpresent

theorem Stay.continues (h : Stay s steps c before during [])
    (hchange : Change s (run s steps initial) a c c')
    (hc' : c' ∈ (run s (steps ++ [a]) initial).hub.connections) (hr : c'.registered = true) :
    Stay s (steps ++ [a]) c' before (during ++ [a]) [] := by
  have hchannel := hchange.channel_eq
  have hid := hchange.id_eq
  refine ⟨?_, hid.trans h.joined, fun part hpart => ?_, nofun, iff_of_true hr rfl⟩
  · rw [h.split, hchannel, List.append_nil, List.append_nil, List.append_assoc, List.cons_append]
  · rw [hchannel]
    obtain rfl | hpart := List.prefix_concat_iff.1 hpart
    · rw [run_concat, ← h.run_eq, ← run_concat]
      exact (mem_peers_run_concat hc' hchannel).2 hr
    · rw [hid]
      exact h.present part hpart

theorem Stay.ends (h : Stay s steps c before during [])
    (hchange : Change s (run s steps initial) a c c')
    (hc' : c' ∈ (run s (steps ++ [a]) initial).hub.connections) (hr : c'.registered = false) :
    Stay s (steps ++ [a]) c' before during [a] := by
  have hchannel := hchange.channel_eq
  have hid := hchange.id_eq
  refine ⟨?_, hid.trans h.joined, fun part hpart => ?_, fun b hb => ?_, iff_of_false ?_ nofun⟩
  · rw [h.split, hchannel, List.append_nil, List.append_assoc, List.cons_append]
  · rw [hchannel, hid]
    exact h.present part hpart
  · obtain rfl := Option.some.inj hb
    rw [hchannel, run_concat, ← h.run_eq, ← run_concat, mem_peers_run_concat hc' hchannel, hr]
    exact Bool.false_ne_true
  · rw [hr]
    exact Bool.false_ne_true

theorem Stay.past (h : Stay s steps c before during after) (hafter : after ≠ [])
    (hchange : Change s (run s steps initial) a c c') (hr : c'.registered = false) :
    Stay s (steps ++ [a]) c' before during (after ++ [a]) := by
  have hchannel := hchange.channel_eq
  have hid := hchange.id_eq
  refine ⟨?_, hid.trans h.joined, fun part hpart => ?_, fun b hb => ?_, iff_of_false ?_ (by simp)⟩
  · rw [h.split, hchannel, List.append_assoc, List.cons_append, List.append_assoc]
  · rw [hchannel, hid]
    exact h.present part hpart
  · rw [List.head?_append_of_ne_nil _ hafter] at hb
    rw [hchannel, hid]
    exact h.lost b hb
  · rw [hr]
    exact Bool.false_ne_true

/-- What the broadcast under way has still to queue for a connection. -/
def owed (t : Transport) (id : Nat) : List LineText := (t.pending.lookup id).toList

/-- Subscribers are offered nothing but what they are owed. -/
theorem Offers.of_subscriber (hs : t.Sound) (hc : c ∈ t.hub.connections)
    (hchannel : c.channel = .iopub)
    (hanswers : ∀ request m, a = .reply request m → request ∈ t.hub.requests)
    (ho : Offers s t c line a) : a = .pushTo c.id ∧ t.pending.lookup c.id = some line := by
  obtain ⟨hpush, hlookup, _⟩ | ⟨_, _, hstdin⟩ | ⟨request, m, hreply, _, horigin, _⟩ :=
    ho.cases hs hc
  · exact ⟨hpush, hlookup⟩
  · exact nomatch hchannel.symm.trans hstdin
  · obtain ⟨hrequest, d, hd, hid, hsame⟩ := hs.requests request (hanswers request m hreply)
    obtain rfl := hs.numbered.eq_of_id hd hc (hid.trans horigin)
    rw [← hsame, hchannel] at hrequest
    exact absurd hrequest (by decide)

theorem owed_step (hsubscriber : id ∈ t.hub.peers .iopub) (hdrop : a ≠ .drop)
    (hunoffered : a = .pushTo id → t.pending.lookup id = none) :
    (step s a t).owed id = t.owed id ++ (begun? s t a).toList := by
  have hprogress := step_progress s a t
  unfold owed
  generalize (step s a t).pending = pending at hprogress ⊢
  cases hprogress with
  | begun begins idle =>
    rw [lookup_map_const, if_pos hsubscriber, begins, idle]
    rfl
  | served id' =>
    refine Eq.trans ?_ (List.append_nil _).symm
    by_cases hid : id = id'
    · rw [← hid, lookup_pushTo_self, hunoffered (congrArg Step.pushTo hid.symm)]
    · rw [lookup_pushTo_of_ne hid]
  | dropped => exact absurd rfl hdrop
  | unchanged quiet =>
    rw [quiet]
    exact (List.append_nil _).symm

theorem not_registered_drop (hc : c ∈ (step s .drop t).hub.connections) : c.registered = false := by
  obtain ⟨d, _, rfl⟩ := List.mem_map.1 hc
  rfl

/-- While a subscriber stays, what was queued for it and what it is owed grow by what is broadcast. -/
theorem Change.lines (hs : t.Sound) (hc : c ∈ t.hub.connections) (hchannel : c.channel = .iopub)
    (hanswers : ∀ request m, a = .reply request m → request ∈ t.hub.requests)
    (hchange : Change s t a c c') (hc' : c' ∈ (step s a t).hub.connections)
    (hr : c.registered = true) (hr' : c'.registered = true) :
    c'.queued ++ (step s a t).owed c.id = (c.queued ++ t.owed c.id) ++ (begun? s t a).toList := by
  have hdrop : a ≠ .drop := by
    rintro rfl
    exact nomatch hr'.symm.trans (not_registered_drop hc')
  have hsubscriber : c.id ∈ t.hub.peers .iopub := (hs.numbered.mem_peers_id hc).2 ⟨hr, hchannel⟩
  obtain ⟨hsame, hrefused⟩ | ⟨line, hoffer, -, rfl⟩ := hchange.queued_cases
  · have hnone (hpush : a = .pushTo c.id) : t.pending.lookup c.id = none := by
      subst hpush
      rw [Option.eq_none_iff_forall_ne_some]
      intro line hlookup
      exact nomatch hr'.symm.trans (hrefused line ⟨rfl, hlookup⟩).2
    rw [hsame, owed_step hsubscriber hdrop hnone, List.append_assoc]
  · obtain ⟨rfl, hlookup⟩ := hoffer.of_subscriber hs hc hchannel hanswers
    rw [owed, step, lookup_pushTo_self, owed, hlookup]
    exact (List.append_nil _).trans (List.append_nil _).symm

/-- The step at which a connection is lost queues nothing for it. -/
theorem Change.queued_of_lost (hchange : Change s t a c c') (hr' : c'.registered = false) :
    c'.queued = c.queued := by
  obtain ⟨hsame, -⟩ | ⟨line, -, htakes, rfl⟩ := hchange.queued_cases
  · exact hsame
  · exact nomatch htakes.registered.symm.trans hr'

/-- Who has just joined is owed nothing. -/
theorem owed_of_new (hs : t.Sound) (hid : t.hub.connections.length < id) : t.owed id = [] := by
  unfold owed
  cases hlookup : t.pending.lookup id with
  | none => rfl
  | some line =>
    obtain ⟨c, hc, rfl, _⟩ := hs.owed id line hlookup
    have := (hs.numbered.id_le hc).2
    omega

theorem owed_register (s : Service) (channel : Channel) (t : Transport) (id : Nat) :
    (step s (.register channel) t).owed id = t.owed id := by
  simp only [step, register]
  split <;> rfl

/-- All that was ever queued for a subscriber is what was broadcast during its stay, but for the line
that it is owed at the end of it. -/
theorem stay_of_subscriber (hanswering : Answering s steps)
    (hc : c ∈ (run s steps initial).hub.connections) (hchannel : c.channel = .iopub) :
    ∃ before during after, Stay s steps c before during after ∧
      c.queued ++ (run s during (entered s .iopub before)).owed c.id =
        broadcasts s during (entered s .iopub before) := by
  induction steps using List.reverseRecOn generalizing c with
  | nil => exact nomatch hc
  | append_singleton steps a ih =>
    have hs := run_sound s steps
    have hanswers (request : Request) (m : Message) (ha : a = .reply request m) :
        request ∈ (run s steps initial).hub.requests := by
      subst ha
      exact hanswering steps request m (List.prefix_refl _)
    have hc' := hc
    rw [run_concat] at hc'
    obtain ⟨d, hd, hchange⟩ | hjoined := (step_changes hs.numbered s a).mem hc'
    · have hsame : d.channel = .iopub := hchange.channel_eq.symm.trans hchannel
      obtain ⟨before, during, after, hstay, hlines⟩ :=
        ih (hanswering.of_prefix (List.prefix_append steps [a])) hd hsame
      cases hr : d.registered with
      | false =>
        obtain ⟨hr', hqueued⟩ := hchange.of_not_registered hr
        have hafter : after ≠ [] := fun hnil => nomatch hr.symm.trans (hstay.current.2 hnil)
        refine ⟨before, during, after ++ [a], hstay.past hafter hchange hr', ?_⟩
        rw [hqueued, hchange.id_eq]
        exact hlines
      | true =>
        obtain rfl := hstay.current.1 hr
        have hrun := hstay.run_eq
        rw [hsame] at hrun
        cases hr' : c.registered with
        | false =>
          refine ⟨before, during, [a], hstay.ends hchange hc hr', ?_⟩
          rw [hchange.queued_of_lost hr', hchange.id_eq]
          exact hlines
        | true =>
          refine ⟨before, during ++ [a], [], hstay.continues hchange hc hr', ?_⟩
          have hgrown := hchange.lines hs hd hsame hanswers hc' hr hr'
          rw [hrun] at hgrown
          rw [run_concat, broadcasts_concat, ← hlines, hchange.id_eq]
          exact hgrown
    · refine ⟨steps, [], [], .begins hjoined hc, ?_⟩
      obtain ⟨channel, _, rfl⟩ := joined?_eq_some hjoined
      exact (owed_register s .iopub _ _).trans (owed_of_new hs (Nat.lt_succ_self _))

theorem pushTo_eq (hs : t.Sound) (hlookup : t.pending.lookup id = some line) (s : Service) :
    (step s (.pushTo id) t).hub =
      { t.hub with connections := t.hub.connections.map fun c =>
          if c.id = id then s.offer line c else c } := by
  have hid := Hub.IsSubscriber.not_mem_peers_stdin (hs.owed id line hlookup) hs.numbered
  simp only [step, pushTo, hlookup]
  exact Hub.push_eq hs.numbered hid s line

/-- Over any run in which replies are given to requests that came in: a subscriber is queued exactly
the lines that are broadcast during its stay; a broadcast, at once or one subscriber after the other,
gives up the subscribers that cannot take the line and changes nothing else; and no queue grows too
long. -/
theorem subscribers_miss_nothing (s : Service) (steps : List Step) (hanswering : Answering s steps) :
    let t := run s steps initial
    (∀ c ∈ t.hub.connections, c.channel = .iopub →
      ∃ before during after, Stay s steps c before during after ∧
        c.queued ++ (run s during (entered s .iopub before)).owed c.id =
          broadcasts s during (entered s .iopub before) ∧
        broadcasts s steps initial = broadcasts s before initial ++
          broadcasts s during (entered s .iopub before) ++
          broadcasts s after (run s during (entered s .iopub before))) ∧
    (∀ m, s.send .iopub m t.hub = (.ok (),
      { t.hub with connections := t.hub.connections.map fun c =>
          if c.channel = .iopub then s.offer (Wire.encode s.signer m) c else c })) ∧
    (∀ id line, t.pending.lookup id = some line →
      (step s (.pushTo id) t).hub =
        { t.hub with connections := t.hub.connections.map fun c =>
            if c.id = id then s.offer line c else c } ∧
      ∃ c ∈ t.hub.connections, c.id = id ∧ c.channel = .iopub) ∧
    ∀ c ∈ t.hub.connections, c.queue.length ≤ s.limits.queueLength := by
  intro t
  have hs : t.Sound := run_sound s steps
  refine ⟨fun c hc hchannel => ?_, fun m => ?_, fun id line hlookup => ?_, fun c hc => ?_⟩
  · obtain ⟨before, during, after, hstay, hlines⟩ := stay_of_subscriber hanswering hc hchannel
    refine ⟨before, during, after, hstay, hlines, ?_⟩
    have hsplit := hstay.split
    rw [hchannel] at hsplit
    rw [hsplit, broadcasts_append, List.append_assoc]
    congr 1
    exact broadcasts_append s during after _
  · exact congrArg (Prod.mk _) (Hub.broadcast_eq hs.numbered s _)
  · exact ⟨pushTo_eq hs hlookup s, hs.owed id line hlookup⟩
  · exact (run_within s steps c hc).2

/-- The second line finds the queue full. -/
theorem subscribers_miss_nothing_overflowing :
    let s : Service := ⟨⟨""⟩, { queueLength := 1 }⟩
    let m : Message := ⟨⟨"1", "s", "u", "", "status", "5.3"⟩, .null, .null, .object []⟩
    let steps : List Step :=
      [.arrive .iopub, .register .iopub, .broadcast m, .pushTo 1, .broadcast m, .pushTo 1]
    ∃ c ∈ (run s steps initial).hub.connections, c.queued.length = 1 ∧
      ∃ before during after, Stay s steps c before during after ∧ after ≠ [] ∧
        c.queued ++ (run s during (entered s .iopub before)).owed c.id =
          broadcasts s during (entered s .iopub before) := by
  intro s m steps
  have hanswering : Answering s steps := .of_no_reply fun request m => by simp [steps]
  obtain ⟨hblock, _⟩ := subscribers_miss_nothing s steps hanswering
  have hsome : ∃ c ∈ (run s steps initial).hub.connections,
      c.channel = .iopub ∧ c.registered = false ∧ c.queued.length = 1 := by
    decide +kernel
  obtain ⟨c, hc, hchannel, hlost, hqueued⟩ := hsome
  obtain ⟨before, during, after, hstay, hlines, _⟩ := hblock c hc hchannel
  refine ⟨c, hc, hqueued, before, during, after, hstay, fun hafter => ?_, hlines⟩
  exact nomatch hlost.symm.trans (hstay.current.2 hafter)

end Transport

end NotebookKernel
