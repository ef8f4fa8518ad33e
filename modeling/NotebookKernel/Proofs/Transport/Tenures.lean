import NotebookKernel.Proofs.Transport.Runs
import NotebookKernel.Transport.Permits

namespace NotebookKernel

/-- A connection's hold on its permit, which lasts until its task is finished. -/
structure Tenure where
  id : Nat
  channel : Channel
  phase : Phase

/-- What the end of the task makes of it. -/
def Tenure.finish (k : Tenure) : Tenure := if k.phase = .left then { k with phase := .finished } else k

def Tenure.holds (k : Tenure) : Bool := k.phase != .finished

namespace Connection

def tenure (c : Connection) : Tenure := ⟨c.id, c.channel, c.phase⟩

theorem tenure_unregister (c : Connection) : c.unregister.tenure = c.tenure := by
  unfold unregister
  split <;> rfl

theorem tenure_finish (c : Connection) :
    (if c.phase = .left then { c with phase := .finished } else c).tenure = c.tenure.finish := by
  unfold Tenure.finish
  by_cases hleft : c.phase = .left
  · rw [if_pos hleft, if_pos (show c.tenure.phase = .left from hleft)]
    rfl
  · rw [if_neg hleft, if_neg (show c.tenure.phase ≠ .left from hleft)]

end Connection

namespace Hub

variable {h : Hub} {c : Connection} {f : Connection → Connection}

def tenures (h : Hub) : List Tenure := h.connections.map Connection.tenure

theorem tenures_modify {g : Tenure → Tenure} (hf : ∀ c, (f c).tenure = g c.tenure) (h : Hub) (id : Nat) :
    (h.modify id f).tenures = h.tenures.map fun k => if k.id = id then g k else k := by
  unfold tenures modify
  rw [List.map_map, List.map_map]
  apply List.map_congr_left
  intro c _
  simp only [Function.comp_apply]
  by_cases hid : c.id = id
  · rw [if_pos hid, if_pos (show c.tenure.id = id from hid)]
    exact hf c
  · rw [if_neg hid, if_neg (show c.tenure.id ≠ id from hid)]

theorem tenures_unregister (h : Hub) (id : Nat) : (h.unregister id).tenures = h.tenures := by
  have htenures := tenures_modify (g := fun k => k) Connection.tenure_unregister h id
  simp only [ite_self, List.map_id'] at htenures
  exact htenures

/-- What is done to the tenure of one number is done to no other. -/
theorem Numbered.exists_tenures (hn : h.Numbered) (hc : c ∈ h.connections) :
    ∃ before after, h.tenures = before ++ c.tenure :: after ∧
      ∀ g : Tenure → Tenure, (h.tenures.map fun k => if k.id = c.id then g k else k) =
        before ++ g c.tenure :: after := by
  obtain ⟨before, after, hsplit⟩ := List.append_of_mem hc
  have hnodup := hn.nodup
  rw [hsplit, List.map_append, List.map_cons, List.nodup_middle, List.nodup_cons, List.mem_append,
    not_or] at hnodup
  obtain ⟨⟨hbefore, hafter⟩, _⟩ := hnodup
  have hothers {others : List Connection} (hid : c.id ∉ others.map Connection.id) (g : Tenure → Tenure) :
      ((others.map Connection.tenure).map fun k => if k.id = c.id then g k else k) =
        others.map Connection.tenure := by
    rw [List.map_map]
    apply List.map_congr_left
    intro d hd
    exact if_neg fun heq => hid (List.mem_map.2 ⟨d, hd, heq⟩)
  refine ⟨before.map Connection.tenure, after.map Connection.tenure, ?_, fun g => ?_⟩
  · rw [tenures, hsplit, List.map_append, List.map_cons]
  · rw [tenures, hsplit, List.map_append, List.map_cons, List.map_append, List.map_cons,
      hothers hbefore, hothers hafter]
    exact congrArg (fun k => before.map Connection.tenure ++ k :: after.map Connection.tenure) (if_pos rfl)

end Hub

namespace Transport

variable {s : Service} {t t' : Transport} {a : Step} {c c' : Connection} {id : Nat} {channel : Channel}

theorem connection?_eq_none (hnone : t.connection? id = none) :
    ∀ c ∈ t.hub.connections, c.id ≠ id := by
  intro c hc hid
  exact List.find?_eq_none.1 hnone c hc (beq_iff_eq.2 hid)

theorem connection?_eq_some (hsome : t.connection? id = some c) :
    c ∈ t.hub.connections ∧ c.id = id := by
  have hid := List.find?_some hsome
  exact ⟨List.mem_of_find?_eq_some hsome, beq_iff_eq.1 hid⟩

theorem connection?_id (hn : t.hub.Numbered) (hc : c ∈ t.hub.connections) :
    t.connection? c.id = some c := by
  cases hfound : t.connection? c.id with
  | none => exact absurd rfl (connection?_eq_none hfound c hc)
  | some d =>
    obtain ⟨hd, hid⟩ := connection?_eq_some hfound
    rw [hn.eq_of_id hd hc hid]

theorem return?_finish (hn : t.hub.Numbered) (hc : c ∈ t.hub.connections) (hleft : c.phase = .left) :
    t.return? (.finish c.id) = some ⟨c.channel, some c.id⟩ := by
  simp only [return?, connection?_id hn hc, hleft, ↓reduceIte]

/-- The permit that a step takes. -/
def taken? (s : Service) (t : Transport) : Step → Option Channel
  | .arrive channel => if t.held channel < s.limits.connections then some channel else none
  | _ => none

/-- What a step can do to those who hold permits. -/
inductive Passage (s : Service) (t : Transport) : Step → Transport → Prop where
  | kept {a : Step} {t' : Transport} (untaken : taken? s t a = none) (unreturned : t.return? a = none)
      (admitted : t'.admitted = t.admitted) (tenures : t'.hub.tenures = t.hub.tenures) : Passage s t a t'
  | arrived {t' : Transport} (channel : Channel) (taken : taken? s t (.arrive channel) = some channel)
      (admitted : t'.admitted = channel :: t.admitted) (tenures : t'.hub.tenures = t.hub.tenures) :
      Passage s t (.arrive channel) t'
  | registered {t' : Transport} (channel : Channel) (waiting : channel ∈ t.admitted)
      (admitted : t'.admitted = t.admitted.erase channel)
      (tenures : t'.hub.tenures = t.hub.tenures ++ [⟨t.hub.connections.length + 1, channel, .reading⟩]) :
      Passage s t (.register channel) t'
  | released {t' : Transport} (waiting : .heartbeat ∈ t.admitted)
      (returned : t.return? (.release .heartbeat) = some ⟨.heartbeat, none⟩)
      (admitted : t'.admitted = t.admitted.erase .heartbeat) (tenures : t'.hub.tenures = t.hub.tenures) :
      Passage s t (.release .heartbeat) t'
  | left {t' : Transport} {id : Nat} {channel : Channel} {before after : List Tenure}
      (admitted : t'.admitted = t.admitted)
      (tenures : t.hub.tenures = before ++ ⟨id, channel, .reading⟩ :: after)
      (tenures' : t'.hub.tenures = before ++ ⟨id, channel, .left⟩ :: after) : Passage s t (.leave id) t'
  | finished {t' : Transport} {id : Nat} {channel : Channel} {before after : List Tenure}
      (returned : t.return? (.finish id) = some ⟨channel, some id⟩)
      (admitted : t'.admitted = t.admitted)
      (tenures : t.hub.tenures = before ++ ⟨id, channel, .left⟩ :: after)
      (tenures' : t'.hub.tenures = before ++ ⟨id, channel, .finished⟩ :: after) :
      Passage s t (.finish id) t'

theorem arrive_passage (s : Service) (channel : Channel) (t : Transport) :
    Passage s t (.arrive channel) (arrive s channel t) := by
  unfold arrive
  split
  next hfree => exact .arrived channel (if_pos hfree) rfl rfl
  next hfull => exact .kept (if_neg hfull) rfl rfl rfl

theorem register_passage (s : Service) (channel : Channel) (t : Transport) :
    Passage s t (.register channel) (register channel t) := by
  unfold register
  split
  next hadmitted =>
    rw [Bool.and_eq_true, List.contains_iff_mem] at hadmitted
    exact .registered channel hadmitted.1 rfl List.map_append
  next => exact .kept rfl rfl rfl rfl

theorem release_passage (s : Service) (channel : Channel) (t : Transport) :
    Passage s t (.release channel) (release channel t) := by
  unfold release
  split
  next hchannel =>
    subst hchannel
    by_cases hwaiting : Channel.heartbeat ∈ t.admitted
    · exact .released hwaiting (if_pos ⟨rfl, hwaiting⟩) rfl rfl
    · refine .kept rfl (if_neg fun h => hwaiting h.2) ?_ rfl
      exact List.erase_of_not_mem hwaiting
  next hchannel => exact .kept rfl (if_neg fun h => hchannel h.1) rfl rfl

theorem leave_passage (hn : t.hub.Numbered) (s : Service) (id : Nat) :
    Passage s t (.leave id) (leave id t) := by
  unfold leave
  split
  next c hfound =>
    split
    next hreading =>
      obtain ⟨hc, rfl⟩ := connection?_eq_some hfound
      obtain ⟨before, after, htenures, hmap⟩ := hn.exists_tenures hc
      rw [show c.tenure = ⟨c.id, c.channel, .reading⟩ from congrArg (Tenure.mk c.id c.channel) hreading]
        at htenures
      refine .left rfl htenures ?_
      rw [Hub.tenures_modify (g := fun k => { k with phase := .left }) (fun _ => rfl),
        Hub.tenures_unregister]
      exact hmap fun k => { k with phase := .left }
    next => exact .kept rfl rfl rfl rfl
  next => exact .kept rfl rfl rfl rfl

theorem tenures_finish (t : Transport) (id : Nat) :
    (finish id t).hub.tenures = t.hub.tenures.map fun k => if k.id = id then k.finish else k :=
  Hub.tenures_modify Connection.tenure_finish t.hub id

theorem finish_passage (hn : t.hub.Numbered) (s : Service) (id : Nat) :
    Passage s t (.finish id) (finish id t) := by
  cases hfound : t.connection? id with
  | none =>
    refine .kept rfl ?_ rfl ?_
    · simp only [return?, hfound]
    · rw [tenures_finish]
      refine (List.map_congr_left fun k hk => ?_).trans (List.map_id _)
      obtain ⟨c, hc, rfl⟩ := List.mem_map.1 hk
      exact if_neg (connection?_eq_none hfound c hc)
  | some c =>
    obtain ⟨hc, rfl⟩ := connection?_eq_some hfound
    obtain ⟨before, after, htenures, hmap⟩ := hn.exists_tenures hc
    by_cases hleft : c.phase = .left
    · have htenure : c.tenure = ⟨c.id, c.channel, .left⟩ := congrArg (Tenure.mk c.id c.channel) hleft
      rw [htenure] at htenures hmap
      refine .finished (return?_finish hn hc hleft) rfl htenures ?_
      rw [tenures_finish, hmap]
      rfl
    · refine .kept rfl ?_ rfl ?_
      · simp only [return?, hfound, hleft, ↓reduceIte]
      · rw [tenures_finish, hmap, htenures]
        exact congrArg (fun k => before ++ k :: after) (if_neg hleft)

/-- The tenure of a connection changes only where the connection leaves and where its task ends. -/
theorem Turn.tenure_cases (hturn : Turn s t a c c') :
    c'.tenure = c.tenure ∨ (a = .leave c.id ∧ c'.registered = false) ∨
      (a = .finish c.id ∧ c'.tenure = c.tenure.finish) := by
  cases hturn with
  | untouched => exact .inl rfl
  | offered =>
    refine .inl ?_
    unfold Service.offer
    split
    · rfl
    · exact Connection.tenure_unregister c
  | takeLine =>
    obtain hsame | ⟨_, -, -, -, htaken⟩ := c.takeLine_cases
    · exact .inl (congrArg Connection.tenure hsame)
    · exact .inl ((congrArg Connection.tenure htaken).trans rfl)
  | put => exact .inl rfl
  | endWriter =>
    obtain hsame | ⟨-, -, hended⟩ := c.endWriter_cases
    · exact .inl (congrArg Connection.tenure hsame)
    · exact .inl ((congrArg Connection.tenure hended).trans rfl)
  | failWriter =>
    obtain hsame | ⟨-, hfailed⟩ := c.failWriter_cases
    · exact .inl (congrArg Connection.tenure hsame)
    · exact .inl ((congrArg Connection.tenure hfailed).trans rfl)
  | leave =>
    have hlost : c.unregister.registered = false :=
      congrArg Seat.registered (Connection.seat_unregister c)
    exact .inr (.inl ⟨rfl, hlost⟩)
  | finish => exact .inr (.inr ⟨rfl, Connection.tenure_finish c⟩)
  | drop => exact .inl rfl

/-- Whether nobody comes or goes at a step. -/
def Step.isWork : Step → Bool
  | .arrive _ | .register _ | .release _ | .leave _ | .finish _ => false
  | _ => true

theorem admitted_kept (s : Service) (t : Transport) (h : a.isWork = true) :
    (step s a t).admitted = t.admitted := by
  cases a with
  | line id text =>
    simp only [step, Transport.line]
    split
    · split <;> rfl
    · rfl
  | broadcast m =>
    simp only [step, broadcast]
    split <;> rfl
  | pushTo id =>
    simp only [step, pushTo]
    split <;> rfl
  | ask m =>
    simp only [step]
    split <;> rfl
  | reply request m =>
    simp only [step]
    split <;> rfl
  | takeLine | put | endWriter | failWriter | drop => rfl
  | arrive | register | release | leave | finish => exact Bool.noConfusion h

theorem tenures_kept (hn : t.hub.Numbered) (s : Service) (h : a.isWork = true) :
    (step s a t).hub.tenures = t.hub.tenures := by
  have hjoined : t.joined? a = none := by
    cases a with
    | register => exact Bool.noConfusion h
    | _ => rfl
  obtain ⟨f, hf, hconnections⟩ := step_turns hn s a
  rw [hjoined, Option.toList_none, List.append_nil] at hconnections
  rw [Hub.tenures, hconnections, List.map_map]
  apply List.map_congr_left
  intro c hc
  obtain hsame | ⟨hleft, -⟩ | ⟨hfinished, -⟩ := (hf c hc).tenure_cases
  · exact hsame
  · rw [hleft] at h
    exact Bool.noConfusion h
  · rw [hfinished] at h
    exact Bool.noConfusion h

theorem step_passage (hn : t.hub.Numbered) (s : Service) (a : Step) : Passage s t a (step s a t) := by
  cases a with
  | arrive channel => exact arrive_passage s channel t
  | register channel => exact register_passage s channel t
  | release channel => exact release_passage s channel t
  | leave id => exact leave_passage hn s id
  | finish id => exact finish_passage hn s id
  | line | takeLine | put | endWriter | failWriter | broadcast | pushTo | ask | reply | drop =>
    exact .kept rfl rfl (admitted_kept s t rfl) (tenures_kept hn s rfl)

end Transport

end NotebookKernel
