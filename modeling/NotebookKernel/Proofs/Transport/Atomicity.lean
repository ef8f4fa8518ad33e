import NotebookKernel.Proofs.Transport.Pending
import NotebookKernel.Proofs.Transport.Questions
import NotebookKernel.Proofs.Transport.Runs

namespace NotebookKernel

namespace Hub

variable {h : Hub} {id : Nat} {s : Service} {line : LineText}

/-- A connection that has joined was given a number and then entered. -/
theorem Numbered.enter_allocate (hn : h.Numbered) (channel : Channel) :
    (h.allocate channel).2.enter (h.connections.length + 1) = (h.register channel).2 := by
  have hold : h.connections.map (fun c => if c.id = h.connections.length + 1 then
      { c with registered := true } else c) = h.connections := by
    refine (List.map_congr_left fun c hc => ?_).trans (List.map_id _)
    rw [if_neg (Nat.ne_of_lt (Nat.lt_succ_of_le (hn.id_le hc).2))]
    rfl
  simp only [allocate, enter, register, modify, List.map_append, hold, List.map_cons, List.map_nil,
    Connection.fresh, ↓reduceIte]

theorem unregister_eq (h : Hub) (id : Nat) : h.unregister id =
    if (h.remove id).1 then (h.remove id).2.announce else (h.remove id).2 := by
  unfold unregister remove
  by_cases hroute : h.route? = some id
  · simp only [hroute, decide_true, ↓reduceIte, announce]
    rfl
  · simp only [hroute, decide_false, Bool.false_eq_true, ↓reduceIte]
    rfl

theorem route?_congr {h' : Hub} (hseats : h'.seats = h.seats) : h'.route? = h.route? := by
  refine Option.ext fun c => ?_
  rw [route?_eq_some, route?_eq_some]
  refine and_congr (mem_peers_congr hseats) (forall_congr' fun d => ?_)
  rw [mem_peers_congr hseats]

/-- It does not matter to the others that a task stops reading before it takes its connection out. -/
theorem unregister_stopped (h : Hub) (id : Nat) :
    ((h.modify id .stopReading).unregister id).modify id .cancel =
      (h.unregister id).modify id fun c => { c with phase := .left, cancelled := true } := by
  have hroute : (h.modify id .stopReading).route? = h.route? :=
    route?_congr (seats_modify (f := .stopReading) (fun _ => rfl) h id)
  have hid (c : Connection) : c.unregister.id = c.id := congrArg Seat.id c.unregister_removed.seat
  have hsame (c : Connection) :
      c.stopReading.unregister.cancel = { c.unregister with phase := .left, cancelled := true } := by
    unfold Connection.unregister Connection.cancel Connection.stopReading
    dsimp only
    split <;> rfl
  unfold unregister
  rw [hroute]
  simp only [modify, List.map_map]
  congr 1
  refine List.map_congr_left fun c _ => ?_
  by_cases hc : c.id = id
  · have hstopped : c.stopReading.id = id := hc
    have hremoved : c.stopReading.unregister.id = id := (hid _).trans hc
    simp only [Function.comp_apply, if_pos hc, if_pos hstopped, if_pos hremoved, if_pos ((hid c).trans hc),
      hsame]
  · simp only [Function.comp_apply, if_neg hc]

theorem push_attempt (s : Service) (id : Nat) (line : LineText) (h : Hub) : s.push id line h =
    let a := s.attempt id line h
    (a.outcome, if a.givesUp then a.hub.unregister id else a.hub) := by
  unfold Service.push Service.attempt
  cases h.peer? id with
  | none => rfl
  | some c =>
    dsimp only
    split
    · rfl
    split
    · rfl
    · rfl

end Hub

namespace Tasks

variable {s : Service} {t : Transport} {m : Message} {h : Hub} {n c : Nat} {k : Asker}

/-- No task is between two moves, but for the one who asks. -/
def settled (h : Hub) (received : Nat) (asker : Asker) : Tasks := ⟨h, [], [], [], received, asker⟩

/-- A connection is taken out of the table and made known by moves that follow on one another. -/
theorem exists_removing (s : Service) (id : Nat) (h : Hub) (n : Nat) (k : Asker) :
    ∃ moves, run s moves { settled h n k with leaving := [id] } = settled (h.unregister id) n k := by
  rw [Hub.unregister_eq]
  by_cases hroute : h.route? = some id
  · refine ⟨[.remove id, .announce id], ?_⟩
    simp only [run, List.foldl_cons, List.foldl_nil, step, remove, announce, settled, Hub.remove, hroute,
      List.mem_singleton, decide_true, ↓reduceIte, List.erase_cons_head]
  · refine ⟨[.remove id], ?_⟩
    simp only [run, List.foldl_cons, List.foldl_nil, step, remove, settled, Hub.remove, hroute,
      List.mem_singleton, decide_false, Bool.false_eq_true, ↓reduceIte, List.erase_cons_head]

theorem exists_push (s : Service) (id : Nat) (line : LineText) (h : Hub) (n : Nat) (k : Asker) :
    ∃ moves, run s moves (settled h n k) = settled (s.push id line h).2 n k := by
  have hoffer : run s [.offer id line] (settled h n k) = (settled h n k).attempted id (s.attempt id line h) :=
    rfl
  rw [Hub.push_attempt]
  cases hgivesUp : (s.attempt id line h).givesUp with
  | false =>
    refine ⟨[.offer id line], hoffer.trans ?_⟩
    simp only [attempted, settled, hgivesUp, Bool.false_eq_true, ↓reduceIte]
  | true =>
    obtain ⟨moves, hmoves⟩ := exists_removing s id (s.attempt id line h).hub n k
    refine ⟨.offer id line :: moves, (congrArg (run s moves) hoffer).trans ?_⟩
    simp only [attempted, hgivesUp, ↓reduceIte]
    exact hmoves

theorem exists_leaving (s : Service) (id : Nat) (t : Transport) (n : Nat) (k : Asker) :
    ∃ moves, run s moves (settled t.hub n k) = settled (t.leave id).hub n k := by
  have hsame : ∃ moves, run s moves (settled t.hub n k) = settled t.hub n k := ⟨[], rfl⟩
  unfold Transport.leave
  split
  next c hfound =>
    split
    next hreading =>
      have hreader : (settled t.hub n k).connection? id = some c := hfound
      have hnone : id ∉ (settled t.hub n k).joining := List.not_mem_nil
      have hstop : step s (.stop id) (settled t.hub n k) =
          { settled (t.hub.modify id .stopReading) n k with leaving := [id] } := by
        simp only [step, stop, hreader, if_pos (And.intro hreading hnone)]
        rfl
      obtain ⟨moves, hmoves⟩ := exists_removing s id (t.hub.modify id .stopReading) n k
      refine ⟨.stop id :: moves ++ [.cancel id], ?_⟩
      rw [run_concat]
      refine (congrArg (step s (.cancel id)) ((congrArg (run s moves) hstop).trans hmoves)).trans ?_
      dsimp only
      rw [← Hub.unregister_stopped]
      rfl
    next => exact hsame
  next => exact hsame

theorem hear_settled (s : Service) (id : Nat) (text : LineText) (t : Transport) (n : Nat) (k : Asker) :
    (settled t.hub n k).hear s id text = settled (t.line s id text).hub n k := by
  have hnone : id ∉ (settled t.hub n k).joining := List.not_mem_nil
  cases hfound : t.connection? id with
  | none =>
    have hreader : (settled t.hub n k).connection? id = none := hfound
    simp only [hear, Transport.line, hreader, hfound]
  | some c =>
    have hreader : (settled t.hub n k).connection? id = some c := hfound
    by_cases hreading : c.phase = .reading
    · simp only [hear, Transport.line, hreader, hfound, if_pos (And.intro hreading hnone), if_pos hreading]
      rfl
    · simp only [hear, Transport.line, hreader, hfound, if_neg hreading, if_neg (not_and.2 (absurd · hreading))]

/-- What a transport does in one step its tasks can do in moves that nobody comes between. -/
theorem exists_step (hn : t.hub.Numbered) {a : Transport.Step} (ha : a ≠ .drop) (n : Nat) (k : Asker) :
    ∃ moves, run s moves (settled t.hub n k) = settled (Transport.step s a t).hub n k := by
  have hsame : ∃ moves, run s moves (settled t.hub n k) = settled t.hub n k := ⟨[], rfl⟩
  cases a with
  | drop => exact absurd rfl ha
  | arrive channel =>
    simp only [Transport.step, Transport.arrive]
    split <;> exact hsame
  | release channel =>
    simp only [Transport.step, Transport.release]
    split <;> exact hsame
  | broadcast m =>
    simp only [Transport.step, Transport.broadcast]
    split <;> exact hsame
  | register channel =>
    simp only [Transport.step, Transport.register]
    split
    next hadmitted =>
      rw [Bool.and_eq_true, bne_iff_ne] at hadmitted
      refine ⟨[.allocate channel, .enter (t.hub.connections.length + 1)], ?_⟩
      rw [← hn.enter_allocate]
      simp only [run, List.foldl_cons, List.foldl_nil, step, allocate, enter, settled, Hub.allocate,
        if_neg hadmitted.2, List.mem_singleton, ↓reduceIte, List.erase_cons_head]
    next => exact hsame
  | line id text => exact ⟨[.hear id text], hear_settled s id text t n k⟩
  | leave id => exact exists_leaving s id t n k
  | pushTo id =>
    simp only [Transport.step, Transport.pushTo]
    split
    next => exact hsame
    next line _ => exact exists_push s id line t.hub n k
  | ask m =>
    simp only [Transport.step, Service.send]
    split
    next => exact hsame
    next =>
      split
      next id _ => exact exists_push s id _ t.hub n k
      next => exact hsame
  | reply request m =>
    simp only [Transport.step]
    split
    next => exact hsame
    next => exact exists_push s request.origin _ t.hub n k
  | finish id => exact ⟨[.finish id], rfl⟩
  | takeLine id => exact ⟨[.takeLine id], rfl⟩
  | put id count => exact ⟨[.put id count], rfl⟩
  | endWriter id => exact ⟨[.endWriter id], rfl⟩
  | failWriter id => exact ⟨[.failWriter id], rfl⟩

theorem exists_steps (hn : t.hub.Numbered) {steps : List Transport.Step} (hsteps : .drop ∉ steps) (n : Nat)
    (k : Asker) : ∃ moves, run s moves (settled t.hub n k) = settled (Transport.run s steps t).hub n k := by
  induction steps generalizing t with
  | nil => exact ⟨[], rfl⟩
  | cons a rest ih =>
    have ha : a ≠ .drop := fun h => hsteps (h ▸ List.mem_cons_self)
    have hrest : .drop ∉ rest := fun h => hsteps (List.mem_cons_of_mem _ h)
    obtain ⟨moves, hmoves⟩ := exists_step (s := s) hn ha n k
    obtain ⟨more, hmore⟩ := ih ((Transport.step_changes hn s a).numbered hn) hrest
    refine ⟨moves ++ more, ?_⟩
    rw [run_append, hmoves]
    exact hmore

/-- What a transport comes to in steps, its tasks can come to in moves. -/
theorem exists_run (s : Service) {steps : List Transport.Step} (hsteps : .drop ∉ steps) :
    ∃ moves, run s moves initial = settled (Transport.run s steps .initial).hub 0 .idle :=
  exists_steps (t := .initial) rfl hsteps 0 .idle

/-- A question that is put in one step is one that is put in moves, and it is open as long. -/
theorem exists_run_asked {before after : List Transport.Step} (hbefore : .drop ∉ before)
    (hafter : .drop ∉ after) (hasked : Transport.Asked s (Transport.run s before .initial) m c) :
    let t := Transport.run s before .initial
    ∃ moves, run s moves initial =
      settled (Transport.run s (.ask m :: after) t).hub t.hub.events.length (.waiting m c) := by
  intro t
  have hn : t.hub.Numbered := (Transport.run_sound s before).numbered
  have hroute : t.hub.route? = some c := hasked.route
  have hsend : s.send .stdin m t.hub = s.push c (Wire.encode s.signer m) t.hub := by
    simp only [Service.send, hroute]
  have htaken : (s.attempt c (Wire.encode s.signer m) t.hub).outcome = .ok () := by
    have hqueued := hasked.queued
    rw [hsend, Hub.push_attempt] at hqueued
    exact hqueued
  have hstep : (Transport.step s (.ask m) t).hub = t.hub.modify c (·.enqueue (Wire.encode s.signer m)) := by
    have hserving : t.dropped = false := hasked.serving
    simp only [Transport.step, hserving, Bool.false_eq_true, ↓reduceIte, hsend, Hub.push_attempt,
      Hub.attempt_of_ok htaken]
  obtain ⟨moves, hmoves⟩ := exists_run s hbefore
  have hput : run s (asking t.hub.events.length m) (settled t.hub 0 .idle) =
      settled (t.hub.modify c (·.enqueue (Wire.encode s.signer m))) t.hub.events.length (.waiting m c) :=
    run_asking (t := settled t.hub 0 .idle) (.inl rfl) (Nat.zero_le _) hroute htaken
  obtain ⟨more, hmore⟩ := exists_steps (s := s) ((Transport.step_changes hn s (.ask m)).numbered hn) hafter
    t.hub.events.length (.waiting m c)
  rw [hstep] at hmore
  refine ⟨moves ++ (asking t.hub.events.length m ++ more), ?_⟩
  rw [run_append, hmoves, run_append, hput]
  exact hmore

end Tasks

end NotebookKernel
