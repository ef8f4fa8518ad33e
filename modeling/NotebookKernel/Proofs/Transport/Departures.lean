import NotebookKernel.Proofs.Transport.Runs

namespace NotebookKernel

def StdinEvent.isClosed : StdinEvent → Bool
  | .reply _ => false
  | .closed => true

namespace Hub

variable {h h' : Hub} {c : Connection} {d id : Nat}

/-- The numbers of all registered connections. -/
def table (h : Hub) : List Nat := (h.connections.filter (·.registered)).map Connection.id

/-- How often the loss of a connection was made known. -/
def closings (h : Hub) : Nat := h.events.countP StdinEvent.isClosed

theorem table_eq_seats (h : Hub) : h.table = (h.seats.filter Seat.registered).map Seat.id := by
  rw [seats, List.filter_map, List.map_map]
  rfl

theorem table_congr (hseats : h'.seats = h.seats) : h'.table = h.table := by
  rw [table_eq_seats, table_eq_seats, hseats]

theorem table_filter (h : Hub) (p : Nat → Bool) :
    h.table.filter p = (h.connections.filter fun c => p c.id && c.registered).map Connection.id := by
  rw [table, List.filter_map, List.filter_filter]
  rfl

theorem mem_table : d ∈ h.table ↔ ∃ c ∈ h.connections, c.id = d ∧ c.registered = true := by
  unfold table
  rw [List.mem_map]
  constructor
  · rintro ⟨c, hc, hid⟩
    obtain ⟨hc, hr⟩ := List.mem_filter.1 hc
    exact ⟨c, hc, hid, hr⟩
  · rintro ⟨c, hc, hid, hr⟩
    exact ⟨c, List.mem_filter.2 ⟨hc, hr⟩, hid⟩

theorem mem_table_of_mem_peers {channel : Channel} (hd : d ∈ h.peers channel) : d ∈ h.table := by
  obtain ⟨c, hc, hid, _, hr⟩ := exists_of_mem_peers hd
  exact mem_table.2 ⟨c, hc, hid, hr⟩

theorem Numbered.id_mem_table (hn : h.Numbered) (hc : c ∈ h.connections) :
    c.id ∈ h.table ↔ c.registered = true := by
  constructor
  · intro hid
    obtain ⟨d, hd, heq, hr⟩ := mem_table.1 hid
    rw [← hn.eq_of_id hd hc heq]
    exact hr
  · intro hr
    exact mem_table.2 ⟨c, hc, rfl, hr⟩

theorem Numbered.nodup_table (hn : h.Numbered) : h.table.Nodup :=
  hn.nodup.sublist (List.filter_sublist.map _)

/-- What is left of a table when a number is taken out. -/
theorem registered_vacated (id : Nat) (xs : List Seat) :
    ((xs.map (Seat.vacate id)).filter Seat.registered).map Seat.id =
      ((xs.filter Seat.registered).map Seat.id).filter (· ≠ id) := by
  induction xs with
  | nil => rfl
  | cons x xs ih =>
    obtain ⟨number, channel, registered⟩ := x
    rw [List.map_cons]
    by_cases hid : number = id
    · rw [Seat.vacate, if_pos hid, List.filter_cons_of_neg Bool.false_ne_true, ih]
      cases registered with
      | false => rfl
      | true => exact (List.filter_cons_of_neg (by simpa using hid)).symm
    · rw [Seat.vacate, if_neg hid]
      cases registered with
      | false => exact ih
      | true =>
        rw [List.filter_cons_of_pos rfl, List.map_cons, ih, List.filter_cons_of_pos rfl]
        exact (List.filter_cons_of_pos (by simpa using hid)).symm

theorem table_unregister (h : Hub) (id : Nat) :
    (h.unregister id).table = h.table.filter (· ≠ id) := by
  rw [table_eq_seats, seats_unregister, table_eq_seats]
  exact registered_vacated id h.seats

theorem closings_unregister (h : Hub) (id : Nat) :
    (h.unregister id).closings = h.closings + if h.route? = some id then 1 else 0 := by
  unfold closings
  rw [events_unregister, List.countP_append]
  split <;> rfl

theorem route?_mem_table (hroute : h.route? = some id) : id ∈ h.table :=
  mem_table_of_mem_peers (route?_eq_some.1 hroute).1

/-- A connection that is not in the table cannot be taken out of it. -/
theorem unregister_of_not_mem (hid : id ∉ h.table) : h.unregister id = h := by
  have hroute : h.route? ≠ some id := fun hroute => hid (route?_mem_table hroute)
  have hconnections : (h.unregister id).connections = h.connections := by
    refine (List.map_congr_left fun c hc => ?_).trans (List.map_id _)
    split
    next heq =>
      apply Connection.unregister_of_not_registered
      rw [← Bool.not_eq_true]
      intro hr
      exact hid (mem_table.2 ⟨c, hc, heq, hr⟩)
    next => rfl
  calc h.unregister id
      = ⟨(h.unregister id).connections, h.requests, (h.unregister id).events⟩ := rfl
    _ = h := by rw [hconnections, events_unregister, if_neg hroute, List.append_nil]

/-- Questions go to the last of the connections for them, which stand in the order of their numbers. -/
theorem Numbered.route?_eq_getLast? (hn : h.Numbered) : h.route? = (h.peers .stdin).getLast? := by
  have hsorted : (h.peers .stdin).Pairwise (· < ·) := by
    have hall : (h.connections.map Connection.id).Pairwise (· < ·) := by
      rw [hn]
      exact List.pairwise_lt_range'
    exact hall.sublist (List.filter_sublist.map _)
  cases hlast : (h.peers .stdin).getLast? with
  | none =>
    rw [route?, List.getLast?_eq_none_iff.1 hlast]
    rfl
  | some c =>
    obtain ⟨older, hpeers⟩ := List.getLast?_eq_some_iff.1 hlast
    rw [hpeers, List.pairwise_append] at hsorted
    rw [route?_eq_some, hpeers]
    constructor
    · exact List.mem_append_right _ (List.mem_singleton_self c)
    · intro d hd
      obtain hd | hd := List.mem_append.1 hd
      · exact Nat.le_of_lt (hsorted.2.2 d hd c (List.mem_singleton_self c))
      · exact Nat.le_of_eq (List.mem_singleton.1 hd)

end Hub

namespace Transport

variable {s : Service} {t : Transport} {a : Step} {h : Hub} {steps : List Step}

/-- The connections that join in a run, as they are when they join. -/
def joins (s : Service) (steps : List Step) (t : Transport) : List Connection :=
  noted s joined? steps t

theorem joins_concat (s : Service) (steps : List Step) (a : Step) (t : Transport) :
    joins s (steps ++ [a]) t = joins s steps t ++ ((run s steps t).joined? a).toList :=
  noted_concat _ steps a t

/-- Connections keep their numbers and channels, and none is forgotten. -/
theorem joins_places (s : Service) (steps : List Step) :
    (joins s steps initial).map (fun c => (c.id, c.channel)) =
      (run s steps initial).hub.connections.map fun c => (c.id, c.channel) := by
  induction steps using List.reverseRecOn with
  | nil => rfl
  | append_singleton steps a ih =>
    obtain ⟨f, hf, hconnections⟩ := step_changes (run_sound s steps).numbered s a
    rw [joins_concat, run_concat, hconnections, List.map_append, List.map_append, ih, List.map_map]
    congr 1
    apply List.map_congr_left
    intro c hc
    exact Prod.ext (hf c hc).id_eq.symm (hf c hc).channel_eq.symm

theorem joins_ids (s : Service) (steps : List Step) :
    (joins s steps initial).map Connection.id =
      List.range' 1 (run s steps initial).hub.connections.length := by
  rw [← (run_sound s steps).numbered]
  have hplaces := congrArg (List.map Prod.fst) (joins_places s steps)
  rw [List.map_map, List.map_map] at hplaces
  exact hplaces

/-- Questions go to the connection that joined last of those for them that are in the table. -/
theorem route?_eq_last_join (s : Service) (steps : List Step) :
    (run s steps initial).hub.route? =
      ((joins s steps initial).filter fun c =>
        c.channel = .stdin ∧ c.id ∈ (run s steps initial).hub.table).getLast?.map Connection.id := by
  have hn := (run_sound s steps).numbered
  generalize hh : (run s steps initial).hub = h at hn
  have hplaces := joins_places s steps
  rw [hh] at hplaces
  let serves (x : Nat × Channel) : Bool := decide (x.2 = .stdin ∧ x.1 ∈ h.table)
  have hserving : (((joins s steps initial).map fun c => (c.id, c.channel)).filter serves).map
      Prod.fst = ((h.connections.map fun c => (c.id, c.channel)).filter serves).map Prod.fst := by
    rw [hplaces]
  rw [List.filter_map, List.filter_map, List.map_map, List.map_map] at hserving
  rw [hn.route?_eq_getLast?, ← List.getLast?_map]
  congr 1
  refine Eq.trans ?_ hserving.symm
  refine congrArg (List.map Connection.id) (List.filter_congr fun c hc => ?_)
  rw [Function.comp_apply, Bool.eq_iff_iff]
  simp only [serves, Bool.and_eq_true, beq_iff_eq, decide_eq_true_eq, hn.id_mem_table hc]
  exact And.comm

/-- A connection left the table. -/
structure Departure where
  id : Nat
  /-- Whether questions went to it until then. -/
  route : Bool
  deriving DecidableEq, Repr

/-- What a step takes out of the table. -/
def leaving (s : Service) (t : Transport) (a : Step) : List Departure :=
  (t.hub.table.filter (· ∉ (step s a t).hub.table)).map fun id => ⟨id, t.hub.route? = some id⟩

/-- The departures of a run, in their order. -/
def departures (s : Service) (steps : List Step) (t : Transport) : List Departure :=
  (noted s (fun t a => some (leaving s t a)) steps t).flatten

theorem departures_concat (s : Service) (steps : List Step) (a : Step) (t : Transport) :
    departures s (steps ++ [a]) t = departures s steps t ++ leaving s (run s steps t) a := by
  unfold departures
  rw [noted_concat, List.flatten_append]
  exact congrArg (_ ++ ·) (List.append_nil _)

theorem leaving_ids (s : Service) (t : Transport) (a : Step) :
    (leaving s t a).map Departure.id = t.hub.table.filter (· ∉ (step s a t).hub.table) := by
  unfold leaving
  rw [List.map_map]
  exact List.map_id _

/-- Nobody comes back to the table; only who joins is new there. -/
theorem table_step (hn : t.hub.Numbered) (s : Service) (a : Step) :
    (step s a t).hub.table = t.hub.table.filter (· ∈ (step s a t).hub.table) ++
      (t.joined? a).toList.map Connection.id := by
  have hch := step_changes hn s a
  have hn' := hch.numbered hn
  obtain ⟨f, hf, hconnections⟩ := hch
  generalize (step s a t).hub = h at hn' hconnections
  have hnew : (t.joined? a).toList.filter (·.registered) = (t.joined? a).toList := by
    rw [List.filter_eq_self]
    intro c hc
    obtain ⟨channel, _, rfl⟩ := joined?_eq_some (Option.mem_toList.1 hc)
    rfl
  have hstays (c : Connection) (hc : c ∈ t.hub.connections) :
      (f c).registered = (decide (c.id ∈ h.table) && c.registered) := by
    have hmem : f c ∈ h.connections := by
      rw [hconnections]
      exact List.mem_append_left _ (List.mem_map_of_mem hc)
    rw [← (hf c hc).id_eq, Bool.eq_iff_iff, Bool.and_eq_true, decide_eq_true_eq,
      hn'.id_mem_table hmem]
    exact (and_iff_left_of_imp (hf c hc).was_registered).symm
  have hold : ((t.hub.connections.map f).filter (·.registered)).map Connection.id =
      t.hub.table.filter (· ∈ h.table) := by
    rw [Hub.table_filter, ← List.filter_congr hstays, List.filter_map, List.map_map]
    apply List.map_congr_left
    intro c hc
    exact (hf c (List.mem_of_mem_filter hc)).id_eq
  calc h.table
      = ((t.hub.connections.map f).filter (·.registered)).map Connection.id ++
          ((t.joined? a).toList.filter (·.registered)).map Connection.id := by
        rw [Hub.table, hconnections, List.filter_append, List.map_append]
    _ = _ := by rw [hold, hnew]

/-- Who has joined has left or is in the table. -/
theorem departures_perm (s : Service) (steps : List Step) :
    ((departures s steps initial).map Departure.id ++ (run s steps initial).hub.table).Perm
      ((joins s steps initial).map Connection.id) := by
  induction steps using List.reverseRecOn with
  | nil => exact List.Perm.refl []
  | append_singleton steps a ih =>
    have hstep := table_step (run_sound s steps).numbered s a
    rw [departures_concat, joins_concat, run_concat, List.map_append, List.map_append, leaving_ids]
    generalize (step s a (run s steps initial)).hub.table = after at hstep ⊢
    generalize (run s steps initial).hub.table = before at hstep ih
    have hsplit : (before.filter (· ∉ after) ++ before.filter (· ∈ after)).Perm before := by
      apply List.perm_append_comm.trans
      simpa only [decide_not] using List.filter_append_perm (· ∈ after) before
    have hmoved : (before.filter (· ∉ after) ++ after).Perm
        (before ++ ((run s steps initial).joined? a).toList.map Connection.id) := by
      have happend := hsplit.append_right (((run s steps initial).joined? a).toList.map Connection.id)
      rw [List.append_assoc, ← hstep] at happend
      exact happend
    rw [List.append_assoc]
    apply (hmoved.append_left _).trans
    rw [← List.append_assoc]
    exact ih.append_right _

theorem joins_nodup (s : Service) (steps : List Step) :
    ((joins s steps initial).map Connection.id).Nodup := by
  rw [joins_ids]
  exact List.nodup_range'

theorem not_mem_table_of_departed {x : Departure} (hx : x ∈ departures s steps initial) :
    x.id ∉ (run s steps initial).hub.table := by
  have hnodup := (departures_perm s steps).nodup_iff.2 (joins_nodup s steps)
  rw [List.nodup_append] at hnodup
  intro hmem
  exact hnodup.2.2 x.id (List.mem_map_of_mem hx) x.id hmem rfl

theorem leaving_of_table (htable : ∀ d ∈ t.hub.table, d ∈ (step s a t).hub.table) :
    leaving s t a = [] := by
  unfold leaving
  rw [List.map_eq_nil_iff, List.filter_eq_nil_iff]
  intro d hd
  simpa using htable d hd

theorem leaving_of_unregister (hn : t.hub.Numbered) {id : Nat}
    (htable : (step s a t).hub.table = (t.hub.unregister id).table) :
    leaving s t a =
      if id ∈ t.hub.table then [⟨id, t.hub.route? = some id⟩] else [] := by
  have hgone : t.hub.table.filter (· ∉ (step s a t).hub.table) = t.hub.table.filter (· = id) := by
    apply List.filter_congr
    intro d hd
    rw [decide_eq_decide, htable, Hub.table_unregister, List.mem_filter, and_iff_right hd,
      decide_eq_true_eq, not_not]
  unfold leaving
  rw [hgone, List.filter_eq]
  split
  next hid =>
    rw [List.count_eq_one_of_mem hn.nodup_table hid]
    rfl
  next hid =>
    rw [List.count_eq_zero_of_not_mem hid]
    rfl

/-- While the sink is there a step takes out one connection at most, and makes it known exactly if
questions went to it. -/
theorem step_closings (hn : t.hub.Numbered) (s : Service) (ha : a ≠ .drop) :
    (leaving s t a).length ≤ 1 ∧
      (step s a t).hub.closings = t.hub.closings + (leaving s t a).countP Departure.route := by
  have he := step_effect s a t
  generalize hh : (step s a t).hub = h at he
  have hquiet (htable : ∀ d ∈ t.hub.table, d ∈ h.table) (hclosings : h.closings = t.hub.closings) :
      (leaving s t a).length ≤ 1 ∧
        h.closings = t.hub.closings + (leaving s t a).countP Departure.route := by
    rw [← hh] at htable
    rw [leaving_of_table htable]
    exact ⟨Nat.zero_le 1, hclosings⟩
  cases he with
  | kept seats events =>
    apply hquiet
    · rw [Hub.table_congr seats]
      exact fun d hd => hd
    · exact congrArg (List.countP _) events
  | heard _ _ _ seats events =>
    apply hquiet
    · rw [Hub.table_congr seats]
      exact fun d hd => hd
    · rw [Hub.closings, events, List.countP_append]
      rfl
  | joined channel seats events =>
    apply hquiet
    · intro d hd
      rw [Hub.table_eq_seats, seats, List.filter_append, List.map_append, ← Hub.table_eq_seats]
      exact List.mem_append_left _ hd
    · exact congrArg (List.countP _) events
  | left id seats events =>
    have hclosings : h.closings = (t.hub.unregister id).closings := congrArg (List.countP _) events
    have htable : (step s a t).hub.table = (t.hub.unregister id).table := by
      rw [hh]
      exact Hub.table_congr seats
    rw [leaving_of_unregister hn htable, hclosings, Hub.closings_unregister]
    by_cases hroute : t.hub.route? = some id
    · rw [if_pos hroute, if_pos (Hub.route?_mem_table hroute)]
      simp [hroute]
    · rw [if_neg hroute]
      split
      next => simp [hroute]
      next => exact ⟨Nat.zero_le 1, rfl⟩
  | emptied => exact absurd rfl ha

theorem run_closings (hsteps : .drop ∉ steps) :
    (run s steps initial).hub.closings = (departures s steps initial).countP Departure.route := by
  induction steps using List.reverseRecOn with
  | nil => rfl
  | append_singleton steps a ih =>
    rw [List.mem_append, not_or, List.mem_singleton] at hsteps
    obtain ⟨hbefore, ha⟩ := hsteps
    have hn := (run_sound s steps).numbered
    rw [run_concat, departures_concat, (step_closings hn s fun h => ha h.symm).2, ih hbefore,
      List.countP_append]

/-- The task of a connection that is not in the table any more leaves it as it is. -/
theorem leave_of_not_mem {id : Nat} (hid : id ∉ t.hub.table) (s : Service) :
    (step s (.leave id) t).hub.seats = t.hub.seats ∧
      (step s (.leave id) t).hub.events = t.hub.events := by
  simp only [step, leave]
  split
  · split
    · rw [Hub.unregister_of_not_mem hid]
      constructor
      · apply Hub.seats_modify
        intro c
        rfl
      · rfl
    · exact ⟨rfl, rfl⟩
  · exact ⟨rfl, rfl⟩

/-- Over any run every number is given once, and its connection leaves the table once at most. Questions
go to the connection that joined last of those for them that are left. While the sink is there, the
departures of such connections are what is made known, each of them once; taking out a connection that
has left does nothing. -/
theorem departures_known_once (s : Service) (steps : List Step) :
    let t := run s steps initial
    let joined := joins s steps initial
    let left := departures s steps initial
    joined.map Connection.id = List.range' 1 t.hub.connections.length ∧
    (left.map Departure.id ++ t.hub.table).Perm (joined.map Connection.id) ∧
    (left.map Departure.id).Nodup ∧
    t.hub.route? = (joined.filter fun c =>
      c.channel = .stdin ∧ c.id ∈ t.hub.table).getLast?.map Connection.id ∧
    (.drop ∉ steps → t.hub.closings = left.countP Departure.route) ∧
    (∀ a, a ≠ .drop → (leaving s t a).length ≤ 1 ∧
      (step s a t).hub.closings = t.hub.closings + (leaving s t a).countP Departure.route) ∧
    ∀ x ∈ left, t.hub.unregister x.id = t.hub ∧
      (step s (.leave x.id) t).hub.seats = t.hub.seats ∧
      (step s (.leave x.id) t).hub.events = t.hub.events := by
  intro t joined left
  have hn : t.hub.Numbered := (run_sound s steps).numbered
  have hperm : (left.map Departure.id ++ t.hub.table).Perm (joined.map Connection.id) :=
    departures_perm s steps
  have hnodup := hperm.nodup_iff.2 (joins_nodup s steps)
  refine ⟨joins_ids s steps, hperm, (List.nodup_append.1 hnodup).1, route?_eq_last_join s steps,
    run_closings, fun a ha => step_closings hn s ha, ?_⟩
  intro x hx
  have hgone : x.id ∉ t.hub.table := not_mem_table_of_departed hx
  exact ⟨Hub.unregister_of_not_mem hgone, leave_of_not_mem hgone s⟩

/-- No queue takes a second line. The subscriber and the newer of two connections for questions are given up,
and then their tasks end; the older one leaves by itself. -/
theorem departures_known_once_given_up :
    let s : Service := ⟨⟨""⟩, { queueLength := 1 }⟩
    let m : Message := ⟨⟨"1", "s", "u", "", "status", "5.3"⟩, .null, .null, .object []⟩
    let steps : List Step := [.arrive .stdin, .register .stdin, .arrive .stdin, .register .stdin,
      .arrive .iopub, .register .iopub, .broadcast m, .pushTo 3, .broadcast m, .pushTo 3, .ask m, .ask m,
      .leave 2, .leave 3, .leave 1]
    departures s steps initial = [⟨3, false⟩, ⟨2, true⟩, ⟨1, true⟩] ∧
      (run s steps initial).hub.closings = 2 := by
  intro s m steps
  have hleft : departures s steps initial = [⟨3, false⟩, ⟨2, true⟩, ⟨1, true⟩] := by decide +kernel
  have hsteps : .drop ∉ steps := by simp [steps]
  obtain ⟨_, _, _, _, hclosings, _⟩ := departures_known_once s steps
  constructor
  · exact hleft
  · rw [hclosings hsteps, hleft]
    rfl

end Transport

end NotebookKernel
