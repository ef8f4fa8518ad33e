import NotebookKernel.Proofs.Transport.Connections

namespace NotebookKernel

namespace Transport

variable {β : Type} {s : Service} {t : Transport} {a : Step} {c c' : Connection} {h : Hub} {id : Nat}
  {line : LineText}

theorem run_append (s : Service) (steps more : List Step) (t : Transport) :
    run s (steps ++ more) t = run s more (run s steps t) := List.foldl_append

theorem run_concat (s : Service) (steps : List Step) (a : Step) (t : Transport) :
    run s (steps ++ [a]) t = step s a (run s steps t) := run_append s steps [a] t

/-- What is noted of the steps of a run, in their order. -/
def noted (s : Service) (note? : Transport → Step → Option β) : List Step → Transport → List β
  | [], _ => []
  | a :: rest, t => (note? t a).toList ++ noted s note? rest (step s a t)

theorem noted_append (note? : Transport → Step → Option β) (steps more : List Step)
    (t : Transport) :
    noted s note? (steps ++ more) t = noted s note? steps t ++ noted s note? more (run s steps t) := by
  induction steps generalizing t with
  | nil => rfl
  | cons a rest ih =>
    rw [List.cons_append, noted, noted, ih, List.append_assoc]
    rfl

theorem noted_concat (note? : Transport → Step → Option β) (steps : List Step) (a : Step)
    (t : Transport) :
    noted s note? (steps ++ [a]) t = noted s note? steps t ++ (note? (run s steps t) a).toList := by
  rw [noted_append, noted, noted, List.append_nil]

theorem Change.id_eq (hc : Change s t a c c') : c'.id = c.id := by
  cases hc with
  | worked _ work => exact congrArg Seat.id work.seat
  | removed _ removal => exact congrArg Seat.id removal.seat
  | offered => exact s.id_offer _ c

theorem Change.channel_eq (hc : Change s t a c c') : c'.channel = c.channel := by
  cases hc with
  | worked _ work => exact congrArg Seat.channel work.seat
  | removed _ removal => exact congrArg Seat.channel removal.seat
  | offered => exact s.channel_offer _ c

/-- Nothing happens any more to a connection that is not registered. -/
theorem Change.of_not_registered (hc : Change s t a c c') (hr : c.registered = false) :
    c'.registered = false ∧ c'.queued = c.queued := by
  cases hc with
  | worked _ work => exact ⟨(congrArg Seat.registered work.seat).trans hr, work.queued⟩
  | removed _ removal => exact ⟨congrArg Seat.registered removal.seat, removal.queued⟩
  | offered =>
    rw [Service.offer_of_not_registered hr]
    exact ⟨hr, rfl⟩

theorem Change.was_registered (hc : Change s t a c c') (hr' : c'.registered = true) :
    c.registered = true := by
  by_contra hlost
  exact nomatch hr'.symm.trans (hc.of_not_registered (Bool.eq_false_iff.2 hlost)).1

/-- A step queues the line that it offers, or nothing. -/
theorem Change.queued_cases (hc : Change s t a c c') :
    (c'.queued = c.queued ∧ ∀ line, Offers s t c line a → ¬ s.Takes c ∧ c'.registered = false) ∨
    ∃ line, Offers s t c line a ∧ s.Takes c ∧ c' = c.enqueue line := by
  cases hc with
  | worked unoffered work => exact .inl ⟨work.queued, fun line ho => absurd ho (unoffered line)⟩
  | removed unoffered removal =>
    exact .inl ⟨removal.queued, fun line ho => absurd ho (unoffered line)⟩
  | @offered line offer =>
    by_cases htakes : s.Takes c
    · exact .inr ⟨line, offer, htakes, Service.offer_of_takes htakes line⟩
    · rw [Service.offer_of_not_takes htakes]
      have hremoved := c.unregister_removed
      exact .inl ⟨hremoved.queued, fun _ _ => ⟨htakes, congrArg Seat.registered hremoved.seat⟩⟩

theorem Change.queued_grows (hc : Change s t a c c') : c.queued <+: c'.queued := by
  obtain ⟨hsame, -⟩ | ⟨line, -, -, rfl⟩ := hc.queued_cases
  · exact ⟨[], (List.append_nil _).trans hsame.symm⟩
  · exact List.prefix_append _ _

theorem Change.within (hc : Change s t a c c') (hw : c.Within s.limits.queueLength) :
    c'.Within s.limits.queueLength := by
  cases hc with
  | worked _ work => exact hw.worked work
  | removed _ removal => exact hw.removed removal
  | offered => exact Service.offer_within hw _

section Evolution

variable {R : Connection → Connection → Prop}

theorem Evolves.mem (he : Evolves R t a h) (hc' : c' ∈ h.connections) :
    (∃ c ∈ t.hub.connections, R c c') ∨ t.joined? a = some c' := by
  obtain ⟨f, hf, hconnections⟩ := he
  rw [hconnections, List.mem_append, List.mem_map, Option.mem_toList] at hc'
  obtain ⟨c, hc, rfl⟩ | hjoined := hc'
  · exact .inl ⟨c, hc, hf c hc⟩
  · exact .inr hjoined

theorem Evolves.exists_change (he : Evolves R t a h) (hc : c ∈ t.hub.connections) :
    ∃ c' ∈ h.connections, R c c' := by
  obtain ⟨f, hf, hconnections⟩ := he
  refine ⟨f c, ?_, hf c hc⟩
  rw [hconnections]
  exact List.mem_append_left _ (List.mem_map_of_mem hc)

theorem Evolves.length_le (he : Evolves R t a h) :
    t.hub.connections.length ≤ h.connections.length := by
  obtain ⟨f, _, hconnections⟩ := he
  rw [hconnections, List.length_append, List.length_map]
  exact Nat.le_add_right _ _

end Evolution

theorem joined?_eq_some (hjoined : t.joined? a = some c) :
    ∃ channel, a = .register channel ∧ c = .fresh (t.hub.connections.length + 1) channel := by
  unfold joined? at hjoined
  split at hjoined
  next channel =>
    split at hjoined
    · exact ⟨channel, rfl, (Option.some.inj hjoined).symm⟩
    · exact nomatch hjoined
  next => exact nomatch hjoined

theorem Changes.numbered (hch : Changes s t a h) (hn : t.hub.Numbered) : h.Numbered := by
  obtain ⟨f, hf, hconnections⟩ := hch
  have hids : (t.hub.connections.map f).map Connection.id = List.range' 1 t.hub.connections.length := by
    rw [← hn, List.map_map]
    exact List.map_congr_left fun c hc => (hf c hc).id_eq
  unfold Hub.Numbered
  rw [hconnections, List.map_append, hids, List.length_append, List.length_map]
  cases hjoined : t.joined? a with
  | none => exact List.append_nil _
  | some c =>
    obtain ⟨channel, _, rfl⟩ := joined?_eq_some hjoined
    rw [Option.toList_some, List.length_singleton, List.range'_concat, Nat.mul_comm, Nat.mul_one,
      Nat.add_comm 1]
    rfl

theorem lookup_map_const (ids : List Nat) (line : LineText) (id : Nat) :
    (ids.map (·, line)).lookup id = if id ∈ ids then some line else none := by
  induction ids with
  | nil => rfl
  | cons first ids ih =>
    rw [List.map_cons, List.lookup_cons, ih]
    by_cases hid : id = first
    · rw [beq_iff_eq.2 hid, if_pos (List.mem_cons.2 (.inl hid))]
    · rw [beq_eq_false_iff_ne.2 hid]
      simp only [List.mem_cons, hid, false_or]

theorem lookup_filter_self (pending : List (Nat × LineText)) (id : Nat) :
    (pending.filter (·.1 != id)).lookup id = none := by
  rw [List.lookup_eq_none_iff]
  intro x hx
  have hne := (List.mem_filter.1 hx).2
  rw [bne_iff_ne] at hne
  exact bne_iff_ne.2 hne.symm

theorem lookup_filter_of_ne {id' : Nat} (hne : id ≠ id') (pending : List (Nat × LineText)) :
    (pending.filter (·.1 != id')).lookup id = pending.lookup id := by
  induction pending with
  | nil => rfl
  | cons x pending ih =>
    obtain ⟨first, line⟩ := x
    by_cases hfirst : first = id'
    · have hbeq : (id == first) = false := beq_eq_false_iff_ne.2 (hfirst ▸ hne)
      rw [List.filter_cons_of_neg (by simp [hfirst]), List.lookup_cons, hbeq, ih]
    · rw [List.filter_cons_of_pos (by simp [hfirst]), List.lookup_cons, List.lookup_cons, ih]

/-- The line of the broadcast that a step begins. -/
def begun? (s : Service) (t : Transport) : Step → Option LineText
  | .broadcast m => if t.dropped || !t.pending.isEmpty then none else some (Wire.encode s.signer m)
  | _ => none

/-- The lines that were broadcast in a run, in their order. -/
def broadcasts (s : Service) (steps : List Step) (t : Transport) : List LineText :=
  noted s (begun? s) steps t

theorem broadcasts_append (s : Service) (steps more : List Step) (t : Transport) :
    broadcasts s (steps ++ more) t = broadcasts s steps t ++ broadcasts s more (run s steps t) :=
  noted_append _ steps more t

theorem broadcasts_concat (s : Service) (steps : List Step) (a : Step) (t : Transport) :
    broadcasts s (steps ++ [a]) t = broadcasts s steps t ++ (begun? s (run s steps t) a).toList :=
  noted_concat _ steps a t

theorem lookup_pushTo_self (s : Service) (id : Nat) (t : Transport) :
    (pushTo s id t).pending.lookup id = none := by
  unfold pushTo
  split
  next hpending => exact hpending
  next => exact lookup_filter_self t.pending id

theorem lookup_pushTo_of_ne {id' : Nat} (hne : id ≠ id') (s : Service) (t : Transport) :
    (pushTo s id' t).pending.lookup id = t.pending.lookup id := by
  unfold pushTo
  split
  · rfl
  · exact lookup_filter_of_ne hne t.pending

/-- What a step does to the broadcast under way. -/
inductive Progress (s : Service) (t : Transport) : Step → List (Nat × LineText) → Prop where
  | begun {a : Step} {line : LineText} (begins : begun? s t a = some line) (idle : t.pending = []) :
      Progress s t a ((t.hub.peers .iopub).map (·, line))
  | served (id : Nat) : Progress s t (.pushTo id) (pushTo s id t).pending
  | dropped : Progress s t .drop []
  | unchanged {a : Step} (quiet : begun? s t a = none) : Progress s t a t.pending

theorem broadcast_progress (s : Service) (m : Message) (t : Transport) :
    Progress s t (.broadcast m) (broadcast s m t).pending := by
  unfold broadcast
  split
  next hbusy => exact .unchanged (if_pos hbusy)
  next hbusy =>
    refine .begun (if_neg hbusy) ?_
    rw [Bool.or_eq_true, not_or] at hbusy
    simpa using hbusy.2

theorem step_progress (s : Service) (a : Step) (t : Transport) :
    Progress s t a (step s a t).pending := by
  have hunchanged {t' : Transport} (hpending : t'.pending = t.pending)
      (hquiet : begun? s t a = none) : Progress s t a t'.pending := by
    rw [hpending]
    exact .unchanged hquiet
  cases a with
  | broadcast m => exact broadcast_progress s m t
  | pushTo id => exact .served id
  | drop => exact .dropped
  | arrive channel =>
    refine hunchanged ?_ rfl
    simp only [step, arrive]
    split <;> rfl
  | register channel =>
    refine hunchanged ?_ rfl
    simp only [step, register]
    split <;> rfl
  | release channel =>
    refine hunchanged ?_ rfl
    simp only [step, release]
    split <;> rfl
  | line id text =>
    refine hunchanged ?_ rfl
    simp only [step, Transport.line]
    split
    · split <;> rfl
    · rfl
  | leave id =>
    refine hunchanged ?_ rfl
    simp only [step, leave]
    split
    · split <;> rfl
    · rfl
  | ask m =>
    refine hunchanged ?_ rfl
    simp only [step]
    split <;> rfl
  | reply request m =>
    refine hunchanged ?_ rfl
    simp only [step]
    split <;> rfl
  | finish | takeLine | put | endWriter | failWriter => exact .unchanged rfl

/-- What is owed was owed before, or is the line of a broadcast that begins and goes to a subscriber. -/
theorem Progress.lookup_cases {pending : List (Nat × LineText)} (hp : Progress s t a pending)
    (hlookup : pending.lookup id = some line) :
    t.pending.lookup id = some line ∨ id ∈ t.hub.peers .iopub ∧ begun? s t a = some line := by
  cases hp with
  | begun begins idle =>
    rw [lookup_map_const] at hlookup
    split at hlookup
    next hsubscriber =>
      obtain rfl := Option.some.inj hlookup
      exact .inr ⟨hsubscriber, begins⟩
    next => exact nomatch hlookup
  | served id' =>
    by_cases hid : id = id'
    · rw [← hid, lookup_pushTo_self] at hlookup
      exact nomatch hlookup
    · rw [lookup_pushTo_of_ne hid] at hlookup
      exact .inl hlookup
  | dropped => exact nomatch hlookup
  | unchanged quiet => exact .inl hlookup

namespace Arrival

variable {signer : Signer} {x : Arrival} {r : Request}

theorem request?_eq_some (hrequest : x.request? signer = some r) :
    (r.channel = .shell ∨ r.channel = .control) ∧ r.channel = x.channel ∧ r.origin = x.origin ∧
      Wire.decode signer x.text = .ok r.message := by
  unfold request? at hrequest
  cases hdecoded : Wire.decode signer x.text with
  | error f =>
    rw [hdecoded] at hrequest
    cases hchannel : x.channel <;> rw [hchannel] at hrequest <;> exact nomatch hrequest
  | ok m =>
    rw [hdecoded] at hrequest
    cases hchannel : x.channel <;> rw [hchannel] at hrequest
    case shell =>
      obtain rfl := Option.some.inj hrequest
      exact ⟨.inl rfl, rfl, rfl, rfl⟩
    case control =>
      obtain rfl := Option.some.inj hrequest
      exact ⟨.inr rfl, rfl, rfl, rfl⟩
    all_goals exact nomatch hrequest

end Arrival

theorem arrival?_eq_some {x : Arrival} (harrival : t.arrival? a = some x) :
    a = .line x.origin x.text ∧
      ∃ c ∈ t.hub.connections, c.id = x.origin ∧ c.channel = x.channel := by
  unfold arrival? at harrival
  split at harrival
  next id text =>
    split at harrival
    next c hconnection =>
      split at harrival
      next =>
        obtain rfl := Option.some.inj harrival
        have hid := List.find?_some hconnection
        exact ⟨rfl, c, List.mem_of_find?_eq_some hconnection, beq_iff_eq.1 hid, rfl⟩
      next => exact nomatch harrival
    next => exact nomatch harrival
  next => exact nomatch harrival

/-- What holds of every state that is reached. -/
structure Sound (t : Transport) : Prop where
  numbered : t.hub.Numbered
  /-- Only subscribers are owed a line. -/
  owed : ∀ id line, t.pending.lookup id = some line →
    ∃ c ∈ t.hub.connections, c.id = id ∧ c.channel = .iopub
  /-- Requests come on connections for requests. -/
  requests : ∀ r ∈ t.hub.requests, (r.channel = .shell ∨ r.channel = .control) ∧
    ∃ c ∈ t.hub.connections, c.id = r.origin ∧ c.channel = r.channel

/-- Broadcasts go to subscribers, questions to connections for input, and replies to anybody. -/
theorem Offers.cases (hs : t.Sound) (hc : c ∈ t.hub.connections) (ho : Offers s t c line a) :
    (a = .pushTo c.id ∧ t.pending.lookup c.id = some line ∧ c.channel = .iopub) ∨
    (∃ m, a = .ask m ∧ c.channel = .stdin) ∨
    ∃ request m, a = .reply request m ∧ t.dropped = false ∧ request.origin = c.id ∧
      line = Wire.encode s.signer m := by
  cases a with
  | pushTo id =>
    obtain ⟨rfl, hlookup⟩ := ho
    obtain ⟨d, hd, hid, hiopub⟩ := hs.owed c.id line hlookup
    obtain rfl := hs.numbered.eq_of_id hd hc hid
    exact .inl ⟨rfl, hlookup, hiopub⟩
  | ask m =>
    obtain ⟨_, hroute, _⟩ := ho
    have hstdin := (hs.numbered.mem_peers_id hc).1 (Hub.route?_eq_some.1 hroute).1
    exact .inr (.inl ⟨m, rfl, hstdin.2⟩)
  | reply request m => exact .inr (.inr ⟨request, m, rfl, ho⟩)
  | arrive | register | release | line | leave | finish | takeLine | put | endWriter | failWriter
  | broadcast | drop => exact ho.elim

/-- Connections keep their numbers and channels. -/
theorem Changes.persists (hch : Changes s t a h) {channel : Channel}
    (hc : ∃ c ∈ t.hub.connections, c.id = id ∧ c.channel = channel) :
    ∃ c ∈ h.connections, c.id = id ∧ c.channel = channel := by
  obtain ⟨c, hc, rfl, rfl⟩ := hc
  obtain ⟨c', hc', hchange⟩ := hch.exists_change hc
  exact ⟨c', hc', hchange.id_eq, hchange.channel_eq⟩

theorem Sound.step (hs : t.Sound) (s : Service) (a : Step) : (step s a t).Sound := by
  have hch := step_changes hs.numbered s a
  refine ⟨hch.numbered hs.numbered, ?_, ?_⟩
  · intro id line hlookup
    apply hch.persists
    obtain hbefore | ⟨hsubscriber, _⟩ := (step_progress s a t).lookup_cases hlookup
    · exact hs.owed id line hbefore
    · obtain ⟨c, hc, hid, hchannel, _⟩ := Hub.exists_of_mem_peers hsubscriber
      exact ⟨c, hc, hid, hchannel⟩
  · intro r hr
    rw [(step_queues s a t).1, List.mem_append, List.mem_filterMap] at hr
    obtain hbefore | ⟨x, harrival, hrequest⟩ := hr
    · obtain ⟨hchannel, hc⟩ := hs.requests r hbefore
      exact ⟨hchannel, hch.persists hc⟩
    · obtain ⟨hchannel, hsame, horigin, _⟩ := Arrival.request?_eq_some hrequest
      obtain ⟨_, hc⟩ := arrival?_eq_some (Option.mem_toList.1 harrival)
      refine ⟨hchannel, ?_⟩
      rw [horigin, hsame]
      exact hch.persists hc

theorem run_sound (s : Service) (steps : List Step) : (run s steps initial).Sound := by
  induction steps using List.reverseRecOn with
  | nil => exact ⟨rfl, fun _ _ => nofun, fun _ => nofun⟩
  | append_singleton steps a ih =>
    rw [run_concat]
    exact ih.step s a

theorem run_within (s : Service) (steps : List Step) :
    ∀ c ∈ (run s steps initial).hub.connections, c.Within s.limits.queueLength := by
  induction steps using List.reverseRecOn with
  | nil => exact fun _ => nofun
  | append_singleton steps a ih =>
    intro c' hc'
    rw [run_concat] at hc'
    obtain ⟨c, hc, hchange⟩ | hjoined :=
      (step_changes (run_sound s steps).numbered s a).mem hc'
    · exact hchange.within (ih c hc)
    · obtain ⟨channel, _, rfl⟩ := joined?_eq_some hjoined
      exact ⟨Nat.le_refl 0, Nat.zero_le _⟩

/-- Replies are given to requests that came in. -/
def Answering (s : Service) (steps : List Step) : Prop :=
  ∀ before request m, before ++ [.reply request m] <+: steps →
    request ∈ (run s before initial).hub.requests

theorem Answering.of_prefix {steps more : List Step} (h : Answering s more)
    (hshort : steps <+: more) : Answering s steps :=
  fun before request m hreply => h before request m (hreply.trans hshort)

theorem Answering.of_no_reply {steps : List Step} (h : ∀ request m, .reply request m ∉ steps) :
    Answering s steps := by
  intro before request m hshort
  exact absurd (hshort.subset (List.mem_append_right before (List.mem_singleton_self _))) (h request m)

theorem Answering.concat {steps : List Step} (h : Answering s steps)
    (ha : ∀ request m, a = .reply request m → request ∈ (run s steps initial).hub.requests) :
    Answering s (steps ++ [a]) := by
  intro before request m hshort
  obtain hlast | hearlier := List.prefix_concat_iff.1 hshort
  · obtain ⟨rfl, hreply⟩ := List.append_inj' hlast rfl
    exact ha request m (List.singleton_inj.1 hreply).symm
  · exact h before request m hearlier

/-- A connection's requests are the lines that came on it. -/
theorem Answering.exists_arrival {steps before : List Step} {request : Request} {m : Message}
    (h : Answering s steps) (hreply : before ++ [.reply request m] <+: steps) :
    ∃ x ∈ arrivals s before initial, x.origin = request.origin ∧ x.channel = request.channel ∧
      Wire.decode s.signer x.text = .ok request.message := by
  have hrequest := h before request m hreply
  rw [(run_queues s before initial).1, List.mem_append, List.mem_filterMap] at hrequest
  obtain hnone | ⟨x, hx, hrequest⟩ := hrequest
  · exact absurd hnone List.not_mem_nil
  · obtain ⟨_, hchannel, horigin, hdecoded⟩ := Arrival.request?_eq_some hrequest
    exact ⟨x, hx, horigin.symm, hchannel.symm, hdecoded⟩

end Transport

end NotebookKernel
