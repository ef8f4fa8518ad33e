import NotebookKernel.Proofs.Transport.Authentication

namespace NotebookKernel

/-- A connection's place in the table. -/
structure Seat where
  id : Nat
  channel : Channel
  registered : Bool

def Seat.vacate (id : Nat) (x : Seat) : Seat := if x.id = id then { x with registered := false } else x

namespace Connection

def seat (c : Connection) : Seat := ⟨c.id, c.channel, c.registered⟩

theorem seat_unregister (c : Connection) :
    c.unregister.seat = { c.seat with registered := false } := by
  unfold unregister
  split
  · rfl
  next hregistered => exact congrArg (Seat.mk c.id c.channel) (Bool.eq_false_iff.2 hregistered)

theorem seat_takeLine (c : Connection) : c.takeLine.seat = c.seat := by
  unfold takeLine
  split
  · rfl
  · split <;> rfl

theorem seat_endWriter (c : Connection) : c.endWriter.seat = c.seat := by
  unfold endWriter
  split <;> rfl

theorem seat_failWriter (c : Connection) : c.failWriter.seat = c.seat := by
  unfold failWriter
  split <;> rfl

end Connection

namespace Hub

variable {h h' : Hub} {id d c : Nat} {channel : Channel}

def seats (h : Hub) : List Seat := h.connections.map Connection.seat

theorem length_seats (h : Hub) : h.seats.length = h.connections.length := List.length_map _

theorem mem_peers : d ∈ h.peers channel ↔ ⟨d, channel, true⟩ ∈ h.seats := by
  unfold peers seats
  simp only [List.mem_map, List.mem_filter, Bool.and_eq_true, beq_iff_eq]
  constructor
  · rintro ⟨x, ⟨hx, hregistered, rfl⟩, rfl⟩
    exact ⟨x, hx, congrArg (Seat.mk x.id x.channel) hregistered⟩
  · rintro ⟨x, hx, hseat⟩
    obtain ⟨hid, hchannel, hregistered⟩ := Seat.mk.inj hseat
    exact ⟨x, ⟨hx, hregistered, hchannel⟩, hid⟩

theorem mem_peers_congr (hseats : h'.seats = h.seats) :
    d ∈ h'.peers channel ↔ d ∈ h.peers channel := by
  rw [mem_peers, mem_peers, hseats]

/-- Questions go to the newest connection. -/
theorem route?_eq_some : h.route? = some c ↔ c ∈ h.peers .stdin ∧ ∀ d ∈ h.peers .stdin, d ≤ c :=
  List.max?_eq_some_iff

theorem seats_modify {f : Connection → Connection} (hf : ∀ c, (f c).seat = c.seat) (h : Hub)
    (id : Nat) : (h.modify id f).seats = h.seats := by
  unfold modify seats
  rw [List.map_map]
  apply List.map_congr_left
  intro c _
  rw [Function.comp_apply]
  split
  · exact hf c
  · rfl

theorem seats_unregister (h : Hub) (id : Nat) :
    (h.unregister id).seats = h.seats.map (Seat.vacate id) := by
  unfold unregister modify seats
  rw [List.map_map, List.map_map]
  apply List.map_congr_left
  intro c _
  rw [Function.comp_apply, Function.comp_apply, Seat.vacate]
  by_cases hid : c.id = id
  · rw [if_pos hid, if_pos (show c.seat.id = id from hid), Connection.seat_unregister]
  · rw [if_neg hid, if_neg (show c.seat.id ≠ id from hid)]

theorem vacate_eq {x : Seat} : x.vacate id = ⟨d, channel, true⟩ ↔ x = ⟨d, channel, true⟩ ∧ d ≠ id := by
  unfold Seat.vacate
  split
  next hid =>
    constructor
    · intro hx
      exact nomatch (Seat.mk.inj hx).2.2
    · rintro ⟨rfl, hne⟩
      exact absurd hid hne
  next hid =>
    refine (and_iff_left_of_imp ?_).symm
    rintro rfl
    exact hid

theorem mem_peers_unregister :
    d ∈ (h.unregister id).peers channel ↔ d ∈ h.peers channel ∧ d ≠ id := by
  rw [mem_peers, mem_peers, seats_unregister, List.mem_map]
  constructor
  · rintro ⟨x, hx, hseat⟩
    obtain ⟨rfl, hne⟩ := vacate_eq.1 hseat
    exact ⟨hx, hne⟩
  · rintro ⟨hx, hne⟩
    exact ⟨_, hx, vacate_eq.2 ⟨rfl, hne⟩⟩

theorem events_unregister (h : Hub) (id : Nat) :
    (h.unregister id).events = h.events ++ if h.route? = some id then [.closed] else [] := by
  unfold unregister
  dsimp only
  split
  · rfl
  · exact (List.append_nil _).symm

/-- A line is queued, or refused, or the connection is given up. -/
theorem push_cases (s : Service) (id : Nat) (line : LineText) (h : Hub) :
    ((s.push id line h).2.seats = h.seats ∧ (s.push id line h).2.events = h.events) ∨
      (s.push id line h).2 = h.unregister id := by
  unfold Service.push
  split
  · exact .inl ⟨rfl, rfl⟩
  split
  · exact .inr rfl
  split
  · exact .inr rfl
  · exact .inl ⟨seats_modify (f := (·.enqueue line)) (fun _ => rfl) h id, rfl⟩

end Hub

namespace Transport

variable {s : Service} {t : Transport} {a : Step} {d : Nat} {channel : Channel}

/-- What a step can do to the table and to the events. -/
inductive Effect (s : Service) (t : Transport) : Step → Hub → Prop where
  | kept {a : Step} {h : Hub} (seats : h.seats = t.hub.seats) (events : h.events = t.hub.events) :
      Effect s t a h
  | joined {h : Hub} (channel : Channel)
      (seats : h.seats = t.hub.seats ++ [⟨t.hub.connections.length + 1, channel, true⟩])
      (events : h.events = t.hub.events) : Effect s t (.register channel) h
  | left {a : Step} {h : Hub} (id : Nat) (seats : h.seats = (t.hub.unregister id).seats)
      (events : h.events = (t.hub.unregister id).events) : Effect s t a h
  | heard {a : Step} {h : Hub} {x : Arrival} {m : Message} (arrival : t.arrival? a = some x)
      (stdin : x.channel = .stdin) (decoded : Wire.decode s.signer x.text = .ok m)
      (seats : h.seats = t.hub.seats) (events : h.events = t.hub.events ++ [.reply m]) :
      Effect s t a h
  | emptied {h : Hub} (size : h.connections.length = t.hub.connections.length)
      (peers : ∀ channel, h.peers channel = [])
      (events : h.events = t.hub.events) : Effect s t .drop h

theorem Effect.refl (s : Service) (a : Step) (t : Transport) : Effect s t a t.hub := .kept rfl rfl

theorem Effect.push (s : Service) (a : Step) (t : Transport) (id : Nat) (line : LineText) :
    Effect s t a (s.push id line t.hub).2 := by
  obtain ⟨hseats, hevents⟩ | hpushed := Hub.push_cases s id line t.hub
  · exact .kept hseats hevents
  · rw [hpushed]
    exact .left id rfl rfl

theorem Effect.modify {f : Connection → Connection} (hf : ∀ c, (f c).seat = c.seat) (s : Service)
    (a : Step) (t : Transport) (id : Nat) : Effect s t a (t.hub.modify id f) :=
  .kept (Hub.seats_modify hf t.hub id) rfl

theorem line_effect (s : Service) (id : Nat) (text : LineText) (t : Transport) :
    Effect s t (.line id text) (line s id text t).hub := by
  cases harrival : t.arrival? (.line id text) with
  | none =>
    rw [line_of_no_arrival harrival]
    exact .refl s _ t
  | some x =>
    rw [line_of_arrival harrival]
    unfold Service.deliver
    dsimp only
    split
    next => exact .refl s _ t
    next m hm =>
      split
      next => exact .kept rfl rfl
      next => exact .kept rfl rfl
      next hstdin => exact .heard harrival hstdin hm rfl rfl
      next => exact .refl s _ t
      next => exact .refl s _ t

theorem leave_effect (s : Service) (id : Nat) (t : Transport) :
    Effect s t (.leave id) (leave id t).hub := by
  unfold leave
  split
  · split
    · refine .left id (Hub.seats_modify ?_ (t.hub.unregister id) id) rfl
      exact fun _ => rfl
    · exact .refl s _ t
  · exact .refl s _ t

theorem drop_effect (s : Service) (t : Transport) : Effect s t .drop t.drop.hub := by
  refine .emptied (List.length_map _) ?_ rfl
  intro channel
  rw [List.eq_nil_iff_forall_not_mem]
  intro d hd
  obtain ⟨x, hx, hseat⟩ := List.mem_map.1 (Hub.mem_peers.1 hd)
  obtain ⟨c, _, rfl⟩ := List.mem_map.1 hx
  exact nomatch (Seat.mk.inj hseat).2.2

theorem step_effect (s : Service) (a : Step) (t : Transport) : Effect s t a (step s a t).hub := by
  cases a with
  | line id text => exact line_effect s id text t
  | leave id => exact leave_effect s id t
  | drop => exact drop_effect s t
  | arrive channel =>
    simp only [step, arrive]
    split <;> exact .refl s _ t
  | register channel =>
    simp only [step, register]
    split
    · exact .joined channel List.map_append rfl
    · exact .refl s _ t
  | release channel =>
    simp only [step, release]
    split <;> exact .refl s _ t
  | broadcast m =>
    simp only [step, broadcast]
    split <;> exact .refl s _ t
  | pushTo id =>
    simp only [step, pushTo]
    split
    · exact .refl s _ t
    · exact .push s _ t _ _
  | ask m =>
    simp only [step, Service.send]
    split
    · exact .refl s _ t
    · split
      · exact .push s _ t _ _
      · exact .refl s _ t
  | reply request m =>
    simp only [step]
    split
    · exact .refl s _ t
    · exact .push s _ t _ _
  | finish id =>
    refine .modify ?_ s _ t id
    intro c
    split <;> rfl
  | takeLine id => exact .modify Connection.seat_takeLine s _ t id
  | put id n => exact .modify (f := (·.put n)) (fun _ => rfl) s _ t id
  | endWriter id => exact .modify Connection.seat_endWriter s _ t id
  | failWriter id => exact .modify Connection.seat_failWriter s _ t id

variable {h : Hub}

theorem Effect.size_le (he : Effect s t a h) : t.hub.connections.length ≤ h.connections.length := by
  rw [← Hub.length_seats, ← Hub.length_seats h]
  cases he with
  | kept seats | heard _ _ _ seats => exact Nat.le_of_eq (congrArg List.length seats).symm
  | joined channel seats =>
    rw [seats, List.length_append]
    exact Nat.le_add_right _ _
  | left id seats =>
    rw [seats, Hub.seats_unregister]
    exact Nat.le_of_eq (List.length_map _).symm
  | emptied size =>
    rw [Hub.length_seats, Hub.length_seats]
    exact Nat.le_of_eq size.symm

/-- Whoever is registered after a step was registered before or has a new number. -/
theorem Effect.mem_peers (he : Effect s t a h) (hd : d ∈ h.peers channel) :
    d ∈ t.hub.peers channel ∨
      t.hub.connections.length < d ∧ d ≤ h.connections.length := by
  cases he with
  | kept seats | heard _ _ _ seats => exact .inl ((Hub.mem_peers_congr seats).1 hd)
  | joined channel' seats =>
    rw [Hub.mem_peers, seats, List.mem_append, List.mem_singleton] at hd
    obtain hold | hnew := hd
    · exact .inl (Hub.mem_peers.2 hold)
    · obtain ⟨rfl, _, _⟩ := Seat.mk.inj hnew
      rw [← Hub.length_seats h, seats, List.length_append, Hub.length_seats]
      exact .inr ⟨Nat.lt_succ_self _, Nat.le_refl _⟩
  | left id seats =>
    rw [Hub.mem_peers_congr seats, Hub.mem_peers_unregister] at hd
    exact .inl hd.1
  | emptied size peers =>
    rw [peers] at hd
    exact absurd hd List.not_mem_nil

theorem Effect.events_le (he : Effect s t a h) : t.hub.events <+: h.events := by
  cases he with
  | kept seats events | joined channel seats events | emptied size peers events =>
    exact ⟨[], (List.append_nil _).trans events.symm⟩
  | left id seats events => exact ⟨_, (events.trans (Hub.events_unregister t.hub id)).symm⟩
  | heard arrival stdin decoded seats events => exact ⟨_, events.symm⟩

theorem size_le_run (s : Service) (steps : List Step) (t : Transport) :
    t.hub.connections.length ≤ (run s steps t).hub.connections.length := by
  induction steps generalizing t with
  | nil => exact Nat.le_refl _
  | cons a rest ih => exact Nat.le_trans (step_effect s a t).size_le (ih (step s a t))

theorem mem_peers_run {steps : List Step} (hd : d ∈ (run s steps t).hub.peers channel) :
    d ∈ t.hub.peers channel ∨
      t.hub.connections.length < d ∧ d ≤ (run s steps t).hub.connections.length := by
  induction steps generalizing t with
  | nil => exact .inl hd
  | cons a rest ih =>
    have he := step_effect s a t
    obtain hstep | ⟨hnew, hle⟩ := ih hd
    · obtain hold | ⟨hnew, hle⟩ := he.mem_peers hstep
      · exact .inl hold
      · exact .inr ⟨hnew, Nat.le_trans hle (size_le_run s rest (step s a t))⟩
    · exact .inr ⟨Nat.lt_of_le_of_lt he.size_le hnew, hle⟩

/-- Nobody has a number that was not given out. -/
theorem le_size_of_mem_peers {steps : List Step}
    (hd : d ∈ (run s steps initial).hub.peers channel) :
    d ≤ (run s steps initial).hub.connections.length := by
  obtain hold | ⟨_, hle⟩ := mem_peers_run hd
  · exact absurd hold List.not_mem_nil
  · exact hle

theorem events_le_run (s : Service) (steps : List Step) (t : Transport) :
    t.hub.events <+: (run s steps t).hub.events := by
  induction steps generalizing t with
  | nil => exact List.prefix_refl _
  | cons a rest ih => exact (step_effect s a t).events_le.trans (ih (step s a t))

end Transport

end NotebookKernel
