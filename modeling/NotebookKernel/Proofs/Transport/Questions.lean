import NotebookKernel.Inbox
import NotebookKernel.Proofs.Transport.Table

namespace NotebookKernel

namespace Inbox

/-- The first answer decides; without one there is more to wait for. -/
theorem decide_append (events more : List StdinEvent) :
    (decide (events ++ more)).1 = (events.findSome? answer?).getD (decide more).1 := by
  induction events with
  | nil => rfl
  | cons e rest ih =>
    rw [List.cons_append, List.findSome?_cons]
    cases he : answer? e with
    | some answer =>
      rw [decide_of_answer he]
      rfl
    | none =>
      rw [decide_of_not_answer he]
      exact ih

end Inbox

namespace Hub

variable {h h' : Hub} {n : Nat}

/-- The answer, if there is one by now, to a question that was put when `n` events had come in. -/
def answer? (h : Hub) (n : Nat) : Option (Except Failure String) :=
  (h.events.drop n).findSome? Inbox.answer?

/-- What the one who asked comes to, with `more` still to come in. -/
theorem decide_events (h : Hub) (n : Nat) (more : List StdinEvent) :
    (Inbox.decide (h.events.drop n ++ more)).1 = (h.answer? n).getD (Inbox.decide more).1 :=
  Inbox.decide_append _ more

theorem answer?_append (hn : n ≤ h.events.length) {events : List StdinEvent}
    (hevents : h'.events = h.events ++ events) :
    h'.answer? n = (h.answer? n).or (events.findSome? Inbox.answer?) := by
  unfold answer?
  rw [hevents, List.drop_append_of_le_length hn, List.findSome?_append]

theorem answer?_of_open (hopen : h.answer? n = none) (hn : n ≤ h.events.length)
    {events : List StdinEvent} (hevents : h'.events = h.events ++ events) :
    h'.answer? n = events.findSome? Inbox.answer? := by
  rw [answer?_append hn hevents, hopen, Option.none_or]

end Hub

namespace Transport

variable {s : Service} {t : Transport} {a : Step} {h : Hub} {n c : Nat}

/-- A question was queued for a connection. -/
structure Asked (s : Service) (t : Transport) (m : Message) (c : Nat) : Prop where
  serving : t.dropped = false
  route : t.hub.route? = some c
  queued : (s.send .stdin m t.hub).1 = .ok ()

/-- A connection for questions is lost by itself, unless the sink is dropped. -/
theorem Effect.of_lost (he : Effect s t a h) (hc : c ∈ t.hub.peers .stdin)
    (hlost : c ∉ h.peers .stdin) :
    ((∀ d, d ∈ h.peers .stdin ↔ d ∈ t.hub.peers .stdin ∧ d ≠ c) ∧
      h.events = t.hub.events ++ if t.hub.route? = some c then [.closed] else []) ∨
    (a = .drop ∧ h.peers .stdin = []) := by
  cases he with
  | kept seats | heard _ _ _ seats => exact absurd ((Hub.mem_peers_congr seats).2 hc) hlost
  | joined channel seats =>
    rw [Hub.mem_peers, seats] at hlost
    exact absurd (List.mem_append_left _ (Hub.mem_peers.1 hc)) hlost
  | left id seats events =>
    have hpeers (d : Nat) : d ∈ h.peers .stdin ↔ d ∈ t.hub.peers .stdin ∧ d ≠ id := by
      rw [Hub.mem_peers_congr seats, Hub.mem_peers_unregister]
    have hid : c = id := Decidable.byContradiction fun hne => hlost ((hpeers c).2 ⟨hc, hne⟩)
    rw [hid]
    exact .inl ⟨hpeers, events.trans (Hub.events_unregister t.hub id)⟩
  | emptied _ peers => exact .inr ⟨rfl, peers .stdin⟩

theorem step_loss {a : Step} (hn : n ≤ t.hub.events.length) (hopen : t.hub.answer? n = none)
    (hroute : t.hub.route? = some c) (ha : a ≠ .drop)
    (hlost : c ∉ (step s a t).hub.peers .stdin) :
    (step s a t).hub.events = t.hub.events ++ [.closed] ∧
      (step s a t).hub.answer? n = some (.error Inbox.lost) := by
  have hc : c ∈ t.hub.peers .stdin := (Hub.route?_eq_some.1 hroute).1
  obtain ⟨_, hevents⟩ | ⟨hdrop, _⟩ := (step_effect s a t).of_lost hc hlost
  · rw [if_pos hroute] at hevents
    exact ⟨hevents, Hub.answer?_of_open hopen hn hevents⟩
  · exact absurd hdrop ha

section

variable {before steps : List Step} {m : Message}

theorem Asked.le_size (hasked : Asked s (run s before initial) m c) :
    c ≤ (run s before initial).hub.connections.length :=
  le_size_of_mem_peers (Hub.route?_eq_some.1 hasked.route).1

/-- The connection that was asked is the newest one until another joins. -/
theorem Asked.route_iff (hasked : Asked s (run s before initial) m c)
    (hc : c ∈ (run s steps (run s before initial)).hub.peers .stdin) :
    (run s steps (run s before initial)).hub.route? = some c ↔
      (run s steps (run s before initial)).hub.peers .stdin ⊆
        (run s before initial).hub.peers .stdin := by
  rw [Hub.route?_eq_some, and_iff_right hc]
  constructor
  · intro hnewest d hd
    obtain hold | ⟨hnew, _⟩ := mem_peers_run hd
    · exact hold
    · have := hnewest d hd
      have := hasked.le_size
      omega
  · intro hsubset d hd
    exact (Hub.route?_eq_some.1 hasked.route).2 d (hsubset hd)

end

/-- Losing the connection that was asked ends an open question exactly if no connection that joined
since then is registered; otherwise nothing is made known, and the one who asked waits on. -/
theorem asked_loss_answers_iff (s : Service) (before steps : List Step) (m : Message) (c : Nat)
    (a : Step) :
    let t := run s before initial
    let t' := run s (.ask m :: steps) t
    let n := t.hub.events.length
    Asked s t m c → t'.hub.answer? n = none →
    c ∈ t'.hub.peers .stdin → c ∉ (step s a t').hub.peers .stdin → a ≠ .drop →
    (t'.hub.peers .stdin ⊆ t.hub.peers .stdin →
      (step s a t').hub.events = t'.hub.events ++ [.closed] ∧
      ∀ more, (Inbox.decide ((step s a t').hub.events.drop n ++ more)).1 = .error Inbox.lost) ∧
    (¬ t'.hub.peers .stdin ⊆ t.hub.peers .stdin →
      (step s a t').hub.events = t'.hub.events ∧
      ∀ more, (Inbox.decide ((step s a t').hub.events.drop n ++ more)).1 =
        (Inbox.decide more).1) := by
  intro t t' n hasked hopen hc hlost ha
  have hn : n ≤ t'.hub.events.length := (events_le_run s (.ask m :: steps) t).length_le
  have hroute := hasked.route_iff hc
  constructor
  · intro hsubset
    obtain ⟨hevents, hanswer⟩ := step_loss hn hopen (hroute.2 hsubset) ha hlost
    refine ⟨hevents, fun more => ?_⟩
    rw [Hub.decide_events, hanswer]
    rfl
  · intro hjoined
    obtain ⟨_, hevents⟩ | ⟨hdrop, _⟩ := (step_effect s a t').of_lost hc hlost
    · rw [if_neg (mt hroute.1 hjoined)] at hevents
      have hanswer : (step s a t').hub.answer? n = none := Hub.answer?_of_open hopen hn hevents
      refine ⟨hevents.trans (List.append_nil _), fun more => ?_⟩
      rw [Hub.decide_events, hanswer]
      rfl
    · exact absurd hdrop ha

theorem asked_loss_answers_newest :
    let s : Service := ⟨⟨""⟩, {}⟩
    let m : Message := ⟨⟨"1", "s", "u", "", "input_request", "5.3"⟩, .null, .null, .object []⟩
    let two : List Step := [.arrive .stdin, .register .stdin, .arrive .stdin, .register .stdin]
    let t := run s two initial
    let t' := run s [.ask m, .leave 1] t
    (step s (.leave 2) t').hub.events = t'.hub.events ++ [.closed] ∧
      ∀ more, (Inbox.decide
        ((step s (.leave 2) t').hub.events.drop t.hub.events.length ++ more)).1 =
          .error Inbox.lost := by
  intro s m two
  have hasked : Asked s (run s two initial) m 2 := ⟨rfl, by decide +kernel, rfl⟩
  have hloss := asked_loss_answers_iff s two [.leave 1] m 2 (.leave 2) hasked
    (Option.isNone_iff_eq_none.1 (by decide +kernel)) (by decide +kernel) (by decide +kernel) nofun
  exact hloss.1 (by decide +kernel)

/-- The connection that was asked is lost, another has joined, and the question stays open. -/
theorem asked_loss_hidden :
    let s : Service := ⟨⟨""⟩, {}⟩
    let m : Message := ⟨⟨"1", "s", "u", "", "input_request", "5.3"⟩, .null, .null, .object []⟩
    let one : List Step := [.arrive .stdin, .register .stdin]
    let t := run s one initial
    let t' := run s (.ask m :: one) t
    Asked s t m 1 ∧ t'.hub.answer? t.hub.events.length = none ∧ 1 ∈ t'.hub.peers .stdin ∧
      1 ∉ (step s (.leave 1) t').hub.peers .stdin ∧
      (step s (.leave 1) t').hub.answer? t.hub.events.length = none := by
  intro s m one
  have hasked : Asked s (run s one initial) m 1 := ⟨rfl, by decide +kernel, rfl⟩
  exact ⟨hasked, Option.isNone_iff_eq_none.1 (by decide +kernel), by decide +kernel,
    by decide +kernel, Option.isNone_iff_eq_none.1 (by decide +kernel)⟩

end Transport

end NotebookKernel
