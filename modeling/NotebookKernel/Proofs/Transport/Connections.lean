import Mathlib.Data.List.Induction
import Mathlib.Data.List.Nodup
import NotebookKernel.Proofs.Transport.Table

namespace NotebookKernel

namespace Connection

/-- The tasks of a connection went on; its writer may have taken the next line. -/
structure Worked (c c' : Connection) : Prop where
  seat : c'.seat = c.seat
  queued : c'.queued = c.queued
  taken : c'.taken = c.taken ∨ c'.taken = c.taken + 1 ∧ c.taken < c.queued.length

structure Removed (c c' : Connection) : Prop where
  seat : c'.seat = { c.seat with registered := false }
  queued : c'.queued = c.queued
  taken : c'.taken = c.taken

variable {c : Connection}

theorem Worked.refl (c : Connection) : c.Worked c := ⟨rfl, rfl, .inl rfl⟩

theorem takeLine_cases (c : Connection) :
    c.takeLine = c ∨ ∃ line, c.writerEnded = false ∧ c.atHand = [] ∧
      c.queued[c.taken]? = some line ∧
      c.takeLine = { c with taken := c.taken + 1, atHand := lineBytes line } := by
  unfold takeLine
  split
  next => exact .inl rfl
  next hready =>
    rw [Bool.or_eq_true, not_or, Bool.not_eq_true, Bool.not_eq_true, Bool.not_eq_false',
      List.isEmpty_iff] at hready
    split
    next => exact .inl rfl
    next line hline => exact .inr ⟨line, hready.1, hready.2, hline, rfl⟩

theorem endWriter_cases (c : Connection) :
    c.endWriter = c ∨ c.atHand = [] ∧
      (c.cancelled = true ∨ c.registered = false ∧ c.queue = []) ∧
      c.endWriter = { c with writerEnded := true, cancelled := true } := by
  unfold endWriter
  split
  next hends =>
    rw [Bool.and_eq_true, Bool.or_eq_true, Bool.and_eq_true, Bool.not_eq_true', List.isEmpty_iff,
      List.isEmpty_iff] at hends
    exact .inr ⟨hends.1, hends.2, rfl⟩
  next => exact .inl rfl

theorem failWriter_cases (c : Connection) :
    c.failWriter = c ∨ c.atHand ≠ [] ∧
      c.failWriter = { c with writerEnded := true, cancelled := true, atHand := [] } := by
  unfold failWriter
  split
  next => exact .inl rfl
  next hbusy => exact .inr ⟨fun hidle => hbusy (List.isEmpty_iff.2 hidle), rfl⟩

theorem takeLine_worked (c : Connection) : c.Worked c.takeLine := by
  obtain hsame | ⟨line, -, -, hline, htaken⟩ := c.takeLine_cases
  · rw [hsame]
    exact .refl c
  · rw [htaken]
    exact ⟨rfl, rfl, .inr ⟨rfl, (List.getElem?_eq_some_iff.1 hline).1⟩⟩

theorem endWriter_worked (c : Connection) : c.Worked c.endWriter := by
  obtain hsame | ⟨-, -, hended⟩ := c.endWriter_cases
  · rw [hsame]
    exact .refl c
  · rw [hended]
    exact ⟨rfl, rfl, .inl rfl⟩

theorem failWriter_worked (c : Connection) : c.Worked c.failWriter := by
  obtain hsame | ⟨-, hfailed⟩ := c.failWriter_cases
  · rw [hsame]
    exact .refl c
  · rw [hfailed]
    exact ⟨rfl, rfl, .inl rfl⟩

theorem finish_worked (c : Connection) :
    c.Worked (if c.phase = .left then { c with phase := .finished } else c) := by
  split
  · exact ⟨rfl, rfl, .inl rfl⟩
  · exact .refl c

theorem unregister_of_not_registered (h : c.registered = false) : c.unregister = c := by
  rw [unregister, h]
  rfl

theorem unregister_removed (c : Connection) : c.Removed c.unregister := by
  refine ⟨seat_unregister c, ?_, ?_⟩
  · unfold unregister
    split <;> rfl
  · unfold unregister
    split <;> rfl

/-- The writer has taken no more than was queued, and at most `limit` lines wait for it. -/
def Within (limit : Nat) (c : Connection) : Prop :=
  c.taken ≤ c.queued.length ∧ c.queue.length ≤ limit

theorem length_queue (c : Connection) : c.queue.length = c.queued.length - c.taken := List.length_drop

theorem Within.worked {limit : Nat} {c' : Connection} (h : c.Within limit) (hw : c.Worked c') :
    c'.Within limit := by
  obtain ⟨htaken, hqueue⟩ := h
  have hprogress := hw.taken
  unfold Within
  rw [length_queue] at hqueue ⊢
  rw [hw.queued]
  omega

theorem Within.removed {limit : Nat} {c' : Connection} (h : c.Within limit) (hr : c.Removed c') :
    c'.Within limit := by
  unfold Within queue at h ⊢
  rw [hr.queued, hr.taken]
  exact h

end Connection

namespace Service

/-- A connection that is registered, has a writer, and has room for a line. -/
structure Takes (s : Service) (c : Connection) : Prop where
  registered : c.registered = true
  writing : c.writerEnded = false
  room : c.queue.length < s.limits.queueLength

instance (s : Service) (c : Connection) : Decidable (s.Takes c) :=
  decidable_of_iff
    (c.registered = true ∧ c.writerEnded = false ∧ c.queue.length < s.limits.queueLength)
    ⟨fun ⟨registered, writing, room⟩ => ⟨registered, writing, room⟩,
      fun h => ⟨h.registered, h.writing, h.room⟩⟩

/-- A connection gets the line that it is offered, or it is given up. -/
def offer (s : Service) (line : LineText) (c : Connection) : Connection :=
  if s.Takes c then c.enqueue line else c.unregister

variable {s : Service} {c : Connection}

theorem offer_of_takes (h : s.Takes c) (line : LineText) : s.offer line c = c.enqueue line :=
  if_pos h

theorem offer_of_not_takes (h : ¬ s.Takes c) (line : LineText) : s.offer line c = c.unregister :=
  if_neg h

theorem offer_of_not_registered (h : c.registered = false) (line : LineText) :
    s.offer line c = c := by
  have hnot : ¬ s.Takes c := fun htakes => nomatch h.symm.trans htakes.registered
  rw [offer_of_not_takes hnot, Connection.unregister_of_not_registered h]

theorem id_offer (s : Service) (line : LineText) (c : Connection) : (s.offer line c).id = c.id := by
  unfold offer
  split
  · rfl
  · exact congrArg Seat.id c.unregister_removed.seat

theorem channel_offer (s : Service) (line : LineText) (c : Connection) :
    (s.offer line c).channel = c.channel := by
  unfold offer
  split
  · rfl
  · exact congrArg Seat.channel c.unregister_removed.seat

theorem offer_within (h : c.Within s.limits.queueLength) (line : LineText) :
    (s.offer line c).Within s.limits.queueLength := by
  unfold offer
  split
  next htakes =>
    constructor
    · exact Nat.le_trans h.1 (List.prefix_append _ _).length_le
    · rw [Connection.queue_enqueue c h.1, List.length_append]
      exact htakes.room
  next => exact h.removed c.unregister_removed

end Service

namespace Hub

/-- The connections have the numbers from 1 on, in the order in which they joined. -/
def Numbered (h : Hub) : Prop :=
  h.connections.map Connection.id = List.range' 1 h.connections.length

variable {h : Hub} {c d : Connection} {id : Nat} {s : Service}

theorem Numbered.nodup (hn : h.Numbered) : (h.connections.map Connection.id).Nodup := by
  rw [hn]
  exact List.nodup_range'

theorem Numbered.eq_of_id (hn : h.Numbered) (hc : c ∈ h.connections) (hd : d ∈ h.connections)
    (hid : c.id = d.id) : c = d :=
  List.inj_on_of_nodup_map hn.nodup hc hd hid

theorem Numbered.id_le (hn : h.Numbered) (hc : c ∈ h.connections) :
    1 ≤ c.id ∧ c.id ≤ h.connections.length := by
  have hmem : c.id ∈ h.connections.map Connection.id := List.mem_map_of_mem hc
  rw [hn, List.mem_range'_1] at hmem
  omega

theorem peer?_eq_some (hpeer : h.peer? id = some c) :
    c ∈ h.connections ∧ c.id = id ∧ c.registered = true := by
  have hfound := List.find?_some hpeer
  rw [Bool.and_eq_true, beq_iff_eq] at hfound
  exact ⟨List.mem_of_find?_eq_some hpeer, hfound⟩

theorem peer?_eq_none :
    h.peer? id = none ↔ ∀ c ∈ h.connections, c.id = id → c.registered = false := by
  unfold peer?
  rw [List.find?_eq_none]
  refine forall₂_congr fun c _ => ?_
  rw [Bool.and_eq_true, beq_iff_eq, not_and, Bool.not_eq_true]

theorem Numbered.peer?_id (hn : h.Numbered) (hc : c ∈ h.connections) (hr : c.registered = true) :
    h.peer? c.id = some c := by
  cases hpeer : h.peer? c.id with
  | none => exact nomatch hr.symm.trans (peer?_eq_none.1 hpeer c hc rfl)
  | some d =>
    obtain ⟨hd, hid, _⟩ := peer?_eq_some hpeer
    rw [hn.eq_of_id hd hc hid]

theorem exists_of_mem_peers {channel : Channel} (hid : id ∈ h.peers channel) :
    ∃ c ∈ h.connections, c.id = id ∧ c.channel = channel ∧ c.registered = true := by
  obtain ⟨c, hc, hseat⟩ := List.mem_map.1 (mem_peers.1 hid)
  exact ⟨c, hc, Seat.mk.inj hseat⟩

theorem Numbered.mem_peers_id (hn : h.Numbered) (hc : c ∈ h.connections) {channel : Channel} :
    c.id ∈ h.peers channel ↔ c.registered = true ∧ c.channel = channel := by
  constructor
  · intro hmem
    obtain ⟨d, hd, hid, hchannel, hregistered⟩ := exists_of_mem_peers hmem
    obtain rfl := hn.eq_of_id hd hc hid
    exact ⟨hregistered, hchannel⟩
  · rintro ⟨hregistered, rfl⟩
    rw [mem_peers]
    have hseat : c.seat = ⟨c.id, c.channel, true⟩ := congrArg (Seat.mk c.id c.channel) hregistered
    rw [← hseat]
    exact List.mem_map_of_mem hc

theorem push_of_takes (hn : h.Numbered) (hc : c ∈ h.connections) (htakes : s.Takes c)
    (line : LineText) : s.push c.id line h = (.ok (), h.modify c.id (·.enqueue line)) := by
  simp only [Service.push, hn.peer?_id hc htakes.registered, htakes.writing,
    Nat.not_le_of_lt htakes.room, Bool.false_eq_true, ↓reduceIte]

/-- Why a connection that is registered does not take a line. -/
def refusal (c : Connection) : Failure :=
  if c.writerEnded then closed c.id else stoppedReading c.id

theorem push_of_refused (hn : h.Numbered) (hc : c ∈ h.connections) (hr : c.registered = true)
    (hnot : ¬ s.Takes c) (line : LineText) :
    s.push c.id line h = (.error (refusal c), h.unregister c.id) := by
  simp only [Service.push, hn.peer?_id hc hr, refusal]
  by_cases hended : c.writerEnded = true
  · simp only [hended, ↓reduceIte]
  · have hfull : s.limits.queueLength ≤ c.queue.length :=
      Nat.le_of_not_lt fun hroom => hnot ⟨hr, Bool.eq_false_iff.2 hended, hroom⟩
    simp only [hended, hfull, Bool.false_eq_true, ↓reduceIte]

theorem push_of_gone (hpeer : h.peer? id = none) (line : LineText) :
    s.push id line h = (.error (gone id), h) := by
  simp only [Service.push, hpeer]

theorem push_connections (hn : h.Numbered) (s : Service) (id : Nat) (line : LineText) :
    (s.push id line h).2.connections =
      h.connections.map fun c => if c.id = id then s.offer line c else c := by
  cases hpeer : h.peer? id with
  | none =>
    rw [push_of_gone hpeer]
    refine (List.map_id _).symm.trans (List.map_congr_left fun c hc => ?_)
    split
    next hid => exact (Service.offer_of_not_registered (peer?_eq_none.1 hpeer c hc hid) line).symm
    next => rfl
  | some c =>
    obtain ⟨hc, rfl, hr⟩ := peer?_eq_some hpeer
    by_cases htakes : s.Takes c
    · rw [push_of_takes hn hc htakes]
      refine List.map_congr_left fun d hd => ?_
      split
      next hid =>
        obtain rfl := hn.eq_of_id hd hc hid
        exact (Service.offer_of_takes htakes line).symm
      next => rfl
    · rw [push_of_refused hn hc hr htakes]
      refine List.map_congr_left fun d hd => ?_
      split
      next hid =>
        obtain rfl := hn.eq_of_id hd hc hid
        exact (Service.offer_of_not_takes htakes line).symm
      next => rfl

end Hub

namespace Transport

variable {s : Service} {t : Transport} {a : Step} {c c' : Connection} {id : Nat} {line : LineText}

/-- A step offers a line to a connection. -/
def Offers (s : Service) (t : Transport) (c : Connection) (line : LineText) : Step → Prop
  | .pushTo id => id = c.id ∧ t.pending.lookup c.id = some line
  | .ask m => t.dropped = false ∧ t.hub.route? = some c.id ∧ line = Wire.encode s.signer m
  | .reply request m =>
    t.dropped = false ∧ request.origin = c.id ∧ line = Wire.encode s.signer m
  | _ => False

/-- All that a step can do to a connection. -/
inductive Turn (s : Service) (t : Transport) : Step → Connection → Connection → Prop where
  | untouched {a : Step} {c : Connection} (unoffered : ∀ line, ¬ Offers s t c line a) : Turn s t a c c
  | offered {a : Step} {c : Connection} {line : LineText} (offer : Offers s t c line a) :
      Turn s t a c (s.offer line c)
  | takeLine (c : Connection) : Turn s t (.takeLine c.id) c c.takeLine
  | put (c : Connection) (n : Nat) : Turn s t (.put c.id n) c (c.put n)
  | endWriter (c : Connection) : Turn s t (.endWriter c.id) c c.endWriter
  | failWriter (c : Connection) : Turn s t (.failWriter c.id) c c.failWriter
  | leave (c : Connection) :
      Turn s t (.leave c.id) c { c.unregister with phase := .left, cancelled := true }
  | finish (c : Connection) :
      Turn s t (.finish c.id) c (if c.phase = .left then { c with phase := .finished } else c)
  | drop (c : Connection) : Turn s t .drop c { c with registered := false }

/-- What a step can do to a connection as far as others can tell. -/
inductive Change (s : Service) (t : Transport) (a : Step) (c : Connection) : Connection → Prop where
  | worked {c' : Connection} (unoffered : ∀ line, ¬ Offers s t c line a) (work : c.Worked c') :
      Change s t a c c'
  | removed {c' : Connection} (unoffered : ∀ line, ¬ Offers s t c line a) (removal : c.Removed c') :
      Change s t a c c'
  | offered {line : LineText} (offer : Offers s t c line a) : Change s t a c (s.offer line c)

theorem Turn.change (hturn : Turn s t a c c') : Change s t a c c' := by
  cases hturn with
  | untouched unoffered => exact .worked unoffered (.refl c)
  | offered offer => exact .offered offer
  | takeLine => exact .worked (fun _ => not_false) c.takeLine_worked
  | put => exact .worked (fun _ => not_false) ⟨rfl, rfl, .inl rfl⟩
  | endWriter => exact .worked (fun _ => not_false) c.endWriter_worked
  | failWriter => exact .worked (fun _ => not_false) c.failWriter_worked
  | leave =>
    obtain ⟨hseat, hqueued, htaken⟩ := c.unregister_removed
    exact .removed (fun _ => not_false) ⟨hseat, hqueued, htaken⟩
  | finish => exact .worked (fun _ => not_false) c.finish_worked
  | drop => exact .removed (fun _ => not_false) ⟨rfl, rfl, rfl⟩

/-- The connection that joins at a step. -/
def joined? (t : Transport) : Step → Option Connection
  | .register channel =>
    if t.admitted.contains channel && channel != .heartbeat then
      some (.fresh (t.hub.connections.length + 1) channel)
    else none
  | _ => none

/-- Every connection stays in its place and changes as `R` says; at most one joins. -/
def Evolves (R : Connection → Connection → Prop) (t : Transport) (a : Step) (h : Hub) : Prop :=
  ∃ f : Connection → Connection, (∀ c ∈ t.hub.connections, R c (f c)) ∧
    h.connections = t.hub.connections.map f ++ (t.joined? a).toList

def Turns (s : Service) (t : Transport) (a : Step) (h : Hub) : Prop := Evolves (Turn s t a) t a h

def Changes (s : Service) (t : Transport) (a : Step) (h : Hub) : Prop := Evolves (Change s t a) t a h

theorem Turns.changes {h : Hub} (hturns : Turns s t a h) : Changes s t a h := by
  obtain ⟨f, hf, hconnections⟩ := hturns
  exact ⟨f, fun c hc => (hf c hc).change, hconnections⟩

theorem Turns.kept {h : Hub} (hconnections : h.connections = t.hub.connections)
    (hjoined : t.joined? a = none) (hunoffered : ∀ c line, ¬ Offers s t c line a) :
    Turns s t a h := by
  refine ⟨fun c => c, fun c _ => .untouched (hunoffered c), ?_⟩
  rw [hconnections, hjoined, List.map_id']
  exact (List.append_nil _).symm

theorem Turns.modify {f : Connection → Connection} {id : Nat}
    (hf : ∀ c : Connection, c.id = id → Turn s t a c (f c)) (hjoined : t.joined? a = none)
    (hunoffered : ∀ c line, ¬ Offers s t c line a) : Turns s t a (t.hub.modify id f) := by
  refine ⟨fun c => if c.id = id then f c else c, fun c _ => ?_, ?_⟩
  · dsimp only
    split
    next hid => exact hf c hid
    next => exact .untouched (hunoffered c)
  · rw [hjoined]
    exact (List.append_nil _).symm

/-- A line is offered to the connection of a number, and to no other. -/
theorem Turns.push (hn : t.hub.Numbered) (id : Nat) (line : LineText)
    (hjoined : t.joined? a = none)
    (hoffers : ∀ c line', Offers s t c line' a ↔ c.id = id ∧ line' = line) :
    Turns s t a (s.push id line t.hub).2 := by
  refine ⟨fun c => if c.id = id then s.offer line c else c, fun c _ => ?_, ?_⟩
  · dsimp only
    split
    next hid => exact .offered ((hoffers c line).2 ⟨hid, rfl⟩)
    next hid => exact .untouched fun line' ho => hid ((hoffers c line').1 ho).1
  · rw [Hub.push_connections hn, hjoined]
    exact (List.append_nil _).symm

theorem line_turns (s : Service) (id : Nat) (text : LineText) (t : Transport) :
    Turns s t (.line id text) (Transport.line s id text t).hub :=
  .kept (line_connections s id text t) rfl fun _ _ => not_false

theorem leave_turns (s : Service) (id : Nat) (t : Transport) :
    Turns s t (.leave id) (leave id t).hub := by
  have hkept : Turns s t (.leave id) t.hub := .kept rfl rfl fun _ _ => not_false
  unfold leave
  split
  · split
    · refine ⟨fun c => if c.id = id then { c.unregister with phase := .left, cancelled := true }
        else c, fun c _ => ?_, ?_⟩
      · dsimp only
        split
        next hid =>
          subst hid
          exact .leave c
        next => exact .untouched fun _ => not_false
      · refine Eq.trans ?_ (List.append_nil _).symm
        refine (List.map_map ..).trans (List.map_congr_left fun c _ => ?_)
        by_cases hid : c.id = id
        · have hid' : c.unregister.id = id :=
            (congrArg Seat.id c.unregister_removed.seat).trans hid
          simp only [Function.comp_apply, hid, hid', ↓reduceIte]
        · simp only [Function.comp_apply, hid, ↓reduceIte]
    · exact hkept
  · exact hkept

theorem drop_turns (s : Service) (t : Transport) : Turns s t .drop t.drop.hub :=
  ⟨fun c => { c with registered := false }, fun c _ => .drop c, (List.append_nil _).symm⟩

theorem register_turns (s : Service) (channel : Channel) (t : Transport) :
    Turns s t (.register channel) (register channel t).hub := by
  have hunoffered (c : Connection) (line : LineText) : ¬ Offers s t c line (.register channel) := not_false
  by_cases hadmitted : (t.admitted.contains channel && channel != .heartbeat) = true
  · refine ⟨fun c => c, fun c _ => .untouched (hunoffered c), ?_⟩
    simp only [register, joined?, hadmitted, ↓reduceIte, List.map_id', Option.toList_some]
    rfl
  · refine .kept ?_ ?_ hunoffered
    · simp only [register, hadmitted, Bool.false_eq_true, ↓reduceIte]
    · simp only [joined?, hadmitted, Bool.false_eq_true, ↓reduceIte]

theorem pushTo_turns (hn : t.hub.Numbered) (s : Service) (id : Nat) :
    Turns s t (.pushTo id) (pushTo s id t).hub := by
  unfold pushTo
  split
  next hpending =>
    refine .kept rfl rfl ?_
    rintro c line ⟨rfl, hlookup⟩
    exact nomatch hpending.symm.trans hlookup
  next line hpending =>
    refine .push hn id line rfl fun c line' => ⟨?_, ?_⟩
    · rintro ⟨rfl, hlookup⟩
      exact ⟨rfl, Option.some.inj (hlookup.symm.trans hpending)⟩
    · rintro ⟨rfl, rfl⟩
      exact ⟨rfl, hpending⟩

theorem ask_turns (hn : t.hub.Numbered) (s : Service) (m : Message) :
    Turns s t (.ask m) (step s (.ask m) t).hub := by
  simp only [step, Service.send]
  split
  next hdropped =>
    refine .kept rfl rfl ?_
    rintro c line ⟨hserving, _, _⟩
    exact Bool.false_ne_true (hserving.symm.trans hdropped)
  next hserving =>
    split
    next id hroute =>
      refine .push hn id _ rfl fun c line => ⟨?_, ?_⟩
      · rintro ⟨_, hroute', rfl⟩
        exact ⟨Option.some.inj (hroute'.symm.trans hroute), rfl⟩
      · rintro ⟨rfl, rfl⟩
        exact ⟨Bool.eq_false_iff.2 hserving, hroute, rfl⟩
    next hroute =>
      refine .kept rfl rfl ?_
      rintro c line ⟨_, hroute', _⟩
      exact Option.some_ne_none _ (hroute'.symm.trans hroute)

theorem reply_turns (hn : t.hub.Numbered) (s : Service) (request : Request) (m : Message) :
    Turns s t (.reply request m) (step s (.reply request m) t).hub := by
  simp only [step]
  split
  next hdropped =>
    refine .kept rfl rfl ?_
    rintro c line ⟨hserving, _, _⟩
    exact Bool.false_ne_true (hserving.symm.trans hdropped)
  next hserving =>
    refine .push hn request.origin _ rfl fun c line => ⟨?_, ?_⟩
    · rintro ⟨_, horigin, rfl⟩
      exact ⟨horigin.symm, rfl⟩
    · rintro ⟨hid, rfl⟩
      exact ⟨Bool.eq_false_iff.2 hserving, hid.symm, rfl⟩

theorem step_turns (hn : t.hub.Numbered) (s : Service) (a : Step) : Turns s t a (step s a t).hub := by
  cases a with
  | register channel => exact register_turns s channel t
  | line id text => exact line_turns s id text t
  | leave id => exact leave_turns s id t
  | drop => exact drop_turns s t
  | pushTo id => exact pushTo_turns hn s id
  | ask m => exact ask_turns hn s m
  | reply request m => exact reply_turns hn s request m
  | arrive channel =>
    refine .kept ?_ rfl fun _ _ => not_false
    simp only [step, arrive]
    split <;> rfl
  | release channel =>
    refine .kept ?_ rfl fun _ _ => not_false
    simp only [step, release]
    split <;> rfl
  | broadcast m =>
    refine .kept ?_ rfl fun _ _ => not_false
    simp only [step, broadcast]
    split <;> rfl
  | finish id =>
    refine .modify ?_ rfl fun _ _ => not_false
    rintro c rfl
    exact .finish c
  | takeLine id =>
    refine .modify ?_ rfl fun _ _ => not_false
    rintro c rfl
    exact .takeLine c
  | put id n =>
    refine .modify (f := (·.put n)) ?_ rfl fun _ _ => not_false
    rintro c rfl
    exact .put c n
  | endWriter id =>
    refine .modify ?_ rfl fun _ _ => not_false
    rintro c rfl
    exact .endWriter c
  | failWriter id =>
    refine .modify ?_ rfl fun _ _ => not_false
    rintro c rfl
    exact .failWriter c

theorem step_changes (hn : t.hub.Numbered) (s : Service) (a : Step) :
    Changes s t a (step s a t).hub :=
  (step_turns hn s a).changes

end Transport

end NotebookKernel
