import NotebookKernel.Proofs.Transport.Agreement
import NotebookKernel.Proofs.Transport.Writers

namespace NotebookKernel

namespace Transport

variable {s : Service} {t : Transport} {a : Step} {c c' : Connection} {id : Nat} {line : LineText}
  {steps : List Step}

theorem dropped_step (ha : a ≠ .drop) (s : Service) (t : Transport) :
    (step s a t).dropped = t.dropped := by
  cases a with
  | drop => exact absurd rfl ha
  | arrive channel =>
    simp only [step, arrive]
    split <;> rfl
  | register channel =>
    simp only [step, register]
    split <;> rfl
  | release channel =>
    simp only [step, release]
    split <;> rfl
  | line id text =>
    simp only [step, Transport.line]
    split
    · split <;> rfl
    · rfl
  | leave id =>
    simp only [step, leave]
    split
    · split <;> rfl
    · rfl
  | broadcast m =>
    simp only [step, broadcast]
    split <;> rfl
  | pushTo id =>
    simp only [step, pushTo]
    split <;> rfl
  | ask m =>
    simp only [step]
    split <;> rfl
  | reply request m =>
    simp only [step]
    split <;> rfl
  | finish | takeLine | put | endWriter | failWriter => rfl

theorem dropped_run (hsteps : .drop ∉ steps) (s : Service) (t : Transport) :
    (run s steps t).dropped = t.dropped := by
  induction steps generalizing t with
  | nil => rfl
  | cons a steps ih =>
    rw [List.mem_cons, not_or] at hsteps
    exact (ih hsteps.2 (step s a t)).trans (dropped_step (Ne.symm hsteps.1) s t)

theorem pending_pushTo (s : Service) (id : Nat) (t : Transport) :
    (pushTo s id t).pending = t.pending.filter (·.1 != id) := by
  unfold pushTo
  split
  next hnone =>
    refine (List.filter_eq_self.2 fun p hp => ?_).symm
    have hne := List.lookup_eq_none_iff.1 hnone p hp
    rw [bne_iff_ne] at hne ⊢
    exact hne.symm
  next => rfl

theorem pending_served (s : Service) (ids : List Nat) (t : Transport) :
    (run s (ids.map .pushTo) t).pending = t.pending.filter (·.1 ∉ ids) := by
  induction ids generalizing t with
  | nil =>
    refine (List.filter_eq_self.2 fun p _ => ?_).symm
    exact decide_eq_true List.not_mem_nil
  | cons id ids ih =>
    refine (ih (pushTo s id t)).trans ?_
    rw [pending_pushTo, List.filter_filter]
    refine List.filter_congr fun p _ => ?_
    rw [Bool.eq_iff_iff, Bool.and_eq_true, decide_eq_true_eq, decide_eq_true_eq, bne_iff_ne,
      List.mem_cons, not_or, and_comm]

theorem numbered_run (hn : t.hub.Numbered) (s : Service) (steps : List Step) :
    (run s steps t).hub.Numbered := by
  induction steps generalizing t with
  | nil => exact hn
  | cons a steps ih => exact ih ((step_changes hn s a).numbered hn)

/-- What is queued stays queued, and who is registered was registered before. -/
theorem queued_run (hn : t.hub.Numbered) (hc : c ∈ t.hub.connections) (s : Service)
    (steps : List Step) :
    ∃ c' ∈ (run s steps t).hub.connections, c'.id = c.id ∧ c.queued <+: c'.queued ∧
      (c'.registered = true → c.registered = true) := by
  induction steps generalizing t c with
  | nil => exact ⟨c, hc, rfl, List.prefix_refl _, id⟩
  | cons a steps ih =>
    have hchanges := step_changes hn s a
    obtain ⟨d, hd, hchange⟩ := hchanges.exists_change hc
    obtain ⟨c', hc', hid, hqueued, hr⟩ := ih (hchanges.numbered hn) hd
    exact ⟨c', hc', hid.trans hchange.id_eq, hchange.queued_grows.trans hqueued,
      fun hr' => hchange.was_registered (hr hr')⟩

theorem mem_queued_run (hn : t.hub.Numbered) (hc : c ∈ t.hub.connections) (hline : line ∈ c.queued)
    (hc' : c' ∈ (run s steps t).hub.connections) (hid : c'.id = c.id) : line ∈ c'.queued := by
  obtain ⟨d, hd, hid', hqueued, -⟩ := queued_run hn hc s steps
  obtain rfl := (numbered_run hn s steps).eq_of_id hd hc' (hid'.trans hid.symm)
  exact hqueued.subset hline

/-- A connection has been lost, has been queued the line, or is owed it. -/
def Awaits (t : Transport) (id : Nat) (line : LineText) : Prop :=
  ∃ c ∈ t.hub.connections, c.id = id ∧
    (c.registered = true → line ∈ c.queued ∨ t.pending.lookup id = some line)

theorem Awaits.step (hn : t.hub.Numbered) (h : t.Awaits id line) (s : Service) (a : Step) :
    (step s a t).Awaits id line := by
  obtain ⟨c, hc, rfl, hline⟩ := h
  obtain ⟨c', hc', hchange⟩ := (step_changes hn s a).exists_change hc
  refine ⟨c', hc', hchange.id_eq, fun hr' => ?_⟩
  obtain hqueued | howed := hline (hchange.was_registered hr')
  · exact .inl (hchange.queued_grows.subset hqueued)
  · have hprogress := step_progress s a t
    generalize (step s a t).pending = pending at hprogress ⊢
    cases hprogress with
    | begun begins idle =>
      rw [idle] at howed
      exact nomatch howed
    | served id' =>
      by_cases hid : c.id = id'
      · obtain ⟨-, hrefused⟩ | ⟨line', hoffer, -, rfl⟩ := hchange.queued_cases
        · exact nomatch hr'.symm.trans (hrefused line ⟨hid.symm, howed⟩).2
        · obtain rfl : line' = line := Option.some.inj (hoffer.2.symm.trans howed)
          exact .inl (List.mem_append_right _ (List.mem_singleton_self _))
      · right
        rwa [lookup_pushTo_of_ne hid]
    | dropped => exact nomatch (not_registered_drop hc').symm.trans hr'
    | unchanged => exact .inr howed

theorem Awaits.run (hn : t.hub.Numbered) (h : t.Awaits id line) (s : Service) (steps : List Step) :
    (run s steps t).Awaits id line := by
  induction steps generalizing t with
  | nil => exact h
  | cons a steps ih => exact ih ((step_changes hn s a).numbered hn) (h.step hn s a)

/-- A broadcast is under way to all that subscribe when it begins. -/
theorem awaits_broadcast (hserving : t.dropped = false) (hidle : t.pending = []) (s : Service)
    (m : Message) (hid : id ∈ t.hub.peers .iopub) :
    (step s (.broadcast m) t).Awaits id (Wire.encode s.signer m) := by
  obtain ⟨c, hc, rfl, -, -⟩ := Hub.exists_of_mem_peers hid
  have hbroadcast : step s (.broadcast m) t =
      { t with pending := (t.hub.peers .iopub).map (·, Wire.encode s.signer m) } := by
    simp only [Transport.step, broadcast, hserving, hidle, List.isEmpty_nil, Bool.not_true,
      Bool.or_false, Bool.false_eq_true, ↓reduceIte]
  rw [hbroadcast]
  refine ⟨c, hc, rfl, fun _ => .inr ?_⟩
  exact (lookup_map_const _ _ _).trans (if_pos hid)

/-- The reply that was taken is queued. -/
theorem queued_reply (hn : t.hub.Numbered) (hserving : t.dropped = false) {request : Request}
    {m : Message} (hsent : (s.sink.reply request m t.hub).1 = .ok ()) :
    ∃ c ∈ (step s (.reply request m) t).hub.connections, c.id = request.origin ∧
      Wire.encode s.signer m ∈ c.queued := by
  have hstep : (step s (.reply request m) t).hub = (s.push request.origin (Wire.encode s.signer m) t.hub).2 := by
    simp only [Transport.step, hserving, Bool.false_eq_true, ↓reduceIte]
    rfl
  have hsent' : (s.push request.origin (Wire.encode s.signer m) t.hub).1 = .ok () := hsent
  cases hpeer : t.hub.peer? request.origin with
  | none =>
    rw [Hub.push_of_gone hpeer] at hsent'
    cases hsent'
  | some c =>
    obtain ⟨hc, hid, hr⟩ := Hub.peer?_eq_some hpeer
    rw [← hid] at hsent' hstep
    by_cases htakes : s.Takes c
    · rw [hstep, Hub.push_of_takes hn hc htakes]
      refine ⟨c.enqueue (Wire.encode s.signer m), List.mem_map.2 ⟨c, hc, if_pos rfl⟩, hid, ?_⟩
      exact List.mem_append_right _ (List.mem_singleton_self _)
    · rw [Hub.push_of_refused hn hc hr htakes] at hsent'
      cases hsent'

/-- A step that can come between the calls of the sink, or while a broadcast is under way. -/
def Step.isBetween : Step → Bool
  | .pushTo _ => true
  | a => a.isTask

/-- A transport, and what its tasks will do while the sink carries out each of its next calls, and from
then on until it is called again. -/
structure Live where
  transport : Transport
  ahead : List (List { a : Step // a.isBetween = true })

namespace Live

/-- A broadcast is over when every subscriber is served. -/
def call (s : Service) (a : Step) (l : Live) : Live :=
  let t := run s ((l.ahead.headD []).map Subtype.val) (step s a l.transport)
  ⟨run s ((t.pending.map Prod.fst).map .pushTo) t, l.ahead.tail⟩

def sink (s : Service) : Sink Live where
  send channel m l :=
    ((s.sink.send channel m l.transport.hub).1, match channel with
      | .iopub => l.call s (.broadcast m)
      | .stdin => l.call s (.ask m)
      | .shell | .control | .heartbeat => l)
  reply request m l := ((s.sink.reply request m l.transport.hub).1, l.call s (.reply request m))

/-- A state between two calls. -/
structure Reached (s : Service) (l : Live) : Prop where
  run : ∃ steps, l.transport = run s steps initial
  serving : l.transport.dropped = false
  idle : l.transport.pending = []

variable {l : Live}

theorem Reached.sound (h : Reached s l) : l.transport.Sound := by
  obtain ⟨steps, hsteps⟩ := h.run
  rw [hsteps]
  exact run_sound s steps

theorem call_run (s : Service) (a : Step) (l : Live) :
    ∃ more, .drop ∉ more ∧ (l.call s a).transport = Transport.run s more (step s a l.transport) := by
  refine ⟨(l.ahead.headD []).map Subtype.val ++ _, ?_, (run_append s _ _ _).symm⟩
  rw [List.mem_append, not_or]
  constructor
  · intro hdrop
    obtain ⟨⟨a, hbetween⟩, -, rfl⟩ := List.mem_map.1 hdrop
    exact nomatch hbetween
  · intro hdrop
    obtain ⟨id, -, hid⟩ := List.mem_map.1 hdrop
    exact nomatch hid

theorem pending_call (s : Service) (a : Step) (l : Live) : (l.call s a).transport.pending = [] := by
  refine (pending_served s _ _).trans (List.filter_eq_nil_iff.2 fun p hp => ?_)
  rw [decide_eq_true_eq, not_not]
  exact List.mem_map_of_mem hp

theorem Reached.call (h : Reached s l) (ha : a ≠ .drop) : Reached s (l.call s a) := by
  obtain ⟨more, hmore, hcall⟩ := call_run s a l
  obtain ⟨steps, hsteps⟩ := h.run
  refine ⟨⟨steps ++ a :: more, ?_⟩, ?_, pending_call s a l⟩
  · rw [hcall, run_append, ← hsteps]
    rfl
  · rw [hcall, dropped_run hmore, dropped_step ha]
    exact h.serving

/-- A reply that is taken is queued when the call is over. -/
theorem Reached.call_reply (h : Reached s l) {request : Request} {m : Message}
    (hsent : (s.sink.reply request m l.transport.hub).1 = .ok ()) :
    ∃ c ∈ (l.call s (.reply request m)).transport.hub.connections, c.id = request.origin ∧
      Wire.encode s.signer m ∈ c.queued := by
  have hn := h.sound.numbered
  obtain ⟨c, hc, hid, hline⟩ := queued_reply hn h.serving hsent
  obtain ⟨more, -, hcall⟩ := call_run s (.reply request m) l
  obtain ⟨c', hc', hid', hqueued, -⟩ := queued_run ((step_changes hn s _).numbered hn) hc s more
  rw [← hcall] at hc'
  exact ⟨c', hc', hid'.trans hid, hqueued.subset hline⟩

/-- When a broadcast is over its line is queued for all that have subscribed and are not lost. -/
theorem Reached.call_broadcast (h : Reached s l) (m : Message)
    (hid : id ∈ l.transport.hub.peers .iopub) :
    ∃ c ∈ (l.call s (.broadcast m)).transport.hub.connections, c.id = id ∧
      (c.registered = true → Wire.encode s.signer m ∈ c.queued) := by
  have hn := h.sound.numbered
  have hbegun := awaits_broadcast h.serving h.idle s m hid
  obtain ⟨more, -, hcall⟩ := call_run s (.broadcast m) l
  obtain ⟨c, hc, hcid, hline⟩ := hbegun.run ((step_changes hn s _).numbered hn) s more
  rw [← hcall] at hc hline
  refine ⟨c, hc, hcid, fun hr => (hline hr).resolve_right ?_⟩
  rw [pending_call]
  exact nofun

end Live

end Transport

end NotebookKernel
