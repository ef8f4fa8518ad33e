import NotebookKernel.Proofs.Kernel.Links
import NotebookKernel.Proofs.Kernel.Undelivered

namespace NotebookKernel

open Json

variable {S D σ : Type}

/-- What was typed in, as a reply to a question has it. -/
def Message.input (m : Message) : String :=
  match m.content.get? "value" with
  | some (.string text) => text
  | _ => ""

theorem Message.contentText_value (m : Message) : m.contentText "value" = m.input := by
  unfold contentText input
  cases m.content.get? "value" with
  | none => rfl
  | some v => cases v <;> rfl

/-- An event that settles a question, and the answer. -/
inductive StdinEvent.Decides : StdinEvent → Except Failure String → Prop where
  | closed : Decides .closed (.error (.disconnected "stdin closed while waiting for input"))
  | reply {m : Message} (h : m.msgType = "input_reply") : Decides (.reply m) (.ok m.input)

/-- A message that does not belong here. -/
def StdinEvent.Stray (e : StdinEvent) : Prop := ∃ m, e = .reply m ∧ m.msgType ≠ "input_reply"

namespace Inbox

variable {e : StdinEvent} {answer : Except Failure String}

theorem decides_of_answer (h : answer? e = some answer) : e.Decides answer := by
  cases e with
  | closed =>
    obtain rfl := Option.some.inj h
    exact .closed
  | reply m =>
    obtain ⟨htype, rfl⟩ := answer?_reply h
    rw [m.contentText_value]
    exact .reply htype

theorem stray_of_not_answer (h : answer? e = none) : e.Stray := by
  cases e with
  | closed => cases h
  | reply m =>
    refine ⟨m, rfl, fun htype => ?_⟩
    rw [answer?, if_pos htype] at h
    cases h

/-- The events that a question uses up, those that are left, and the answer. -/
inductive Takes : List StdinEvent → List StdinEvent → Except Failure String → Prop where
  | decided {skipped : List StdinEvent} {e : StdinEvent} {answer : Except Failure String}
      (strays : ∀ e ∈ skipped, e.Stray) (decides : e.Decides answer) (left : List StdinEvent) :
      Takes (skipped ++ [e]) left answer
  | ended {skipped : List StdinEvent} (strays : ∀ e ∈ skipped, e.Stray) :
      Takes skipped [] (.error (.disconnected "stdin closed while waiting for input"))

theorem Takes.cons {used left : List StdinEvent} (h : Takes used left answer) (he : e.Stray) :
    Takes (e :: used) left answer := by
  cases h with
  | decided strays decides =>
    exact .decided (List.forall_mem_cons.2 ⟨he, strays⟩) decides left
  | ended strays => exact .ended (List.forall_mem_cons.2 ⟨he, strays⟩)

theorem decide_takes (events : List StdinEvent) :
    ∃ used, events = used ++ (decide events).2 ∧ Takes used (decide events).2 (decide events).1 := by
  induction events with
  | nil => exact ⟨[], rfl, .ended nofun⟩
  | cons e rest ih =>
    cases he : answer? e with
    | some answer =>
      have htakes : Takes ([] ++ [e]) rest answer :=
        .decided (List.forall_mem_nil _) (decides_of_answer he) rest
      rw [decide_of_answer he]
      exact ⟨[e], rfl, htakes⟩
    | none =>
      obtain ⟨used, hrest, htakes⟩ := ih
      rw [decide_of_not_answer he]
      exact ⟨e :: used, congrArg (e :: ·) hrest, htakes.cons (stray_of_not_answer he)⟩

end Inbox

/-- A question with its message, what became of it, the answer, and how many events had been queued when
it was put, were used up or discarded when it was over, and had been queued by then. -/
structure Asking where
  message : Message
  sent : Except Failure Unit
  answer : Except Failure String
  began : Nat
  taken : Nat
  ended : Nat

namespace Outlet

/-- What becomes of the message of a question. -/
def questionSent (o : Outlet σ) (parent : Header) (prompt : String) (password : Bool) (l : Link σ) :
    Except Failure Unit :=
  (o.send .stdin parent "input_request" (question prompt password)
    { l with inbox := l.inbox.discard }).1

/-- What is queued while a question is open. -/
def coming (o : Outlet σ) (parent : Header) (prompt : String) (password : Bool) (l : Link σ) :
    List StdinEvent :=
  match o.questionSent parent prompt password l with
  | .ok () => l.inbox.arrivals.head?.getD []
  | .error _ => []

/-- A question that is put when so many events have been queued. -/
def asking (o : Outlet σ) (parent : Header) (prompt : String) (password : Bool) (l : Link σ)
    (queued : Nat) : Asking :=
  let coming := (o.coming parent prompt password l).length
  let after := o.ask parent prompt password l
  { message := o.written parent "input_request" (question prompt password) l.stamped
    sent := o.questionSent parent prompt password l
    answer := after.1
    began := queued
    taken := queued + (coming - after.2.inbox.waiting.length)
    ended := queued + coming }

/-- What came is used up from the front; without a question nothing is. -/
theorem ask_uses {o : Outlet σ} {parent : Header} {prompt : String} {password : Bool}
    {l l' : Link σ} {answer : Except Failure String}
    (h : o.ask parent prompt password l = (answer, l')) :
    ∃ used, o.coming parent prompt password l = used ++ l'.inbox.waiting ∧
      match o.questionSent parent prompt password l with
      | .error f => answer = .error f ∧ used = []
      | .ok () => Inbox.Takes used l'.inbox.waiting answer := by
  rcases hsent : o.send .stdin parent "input_request" (question prompt password)
    { l with inbox := l.inbox.discard } with ⟨sent, t⟩
  have hquestion : o.questionSent parent prompt password l = sent := congrArg Prod.fst hsent
  have hinbox : t.inbox = l.inbox.discard := congrArg (fun t => t.2.inbox) hsent.symm
  rw [coming, hquestion]
  cases sent with
  | error f =>
    obtain ⟨rfl, rfl⟩ := Prod.mk.inj ((ask_of_unsent hsent).symm.trans h)
    rw [hinbox]
    exact ⟨[], rfl, rfl, rfl⟩
  | ok =>
    obtain ⟨rfl, rfl⟩ := Prod.mk.inj ((ask_of_sent hsent).symm.trans h)
    rw [hinbox]
    exact Inbox.decide_takes _

/-- A link, all events that were ever queued on it, and all questions that were put. Events come at any
time, and all but the queue may change between questions. -/
inductive Exchange (o : Outlet σ) : List StdinEvent → List Asking → Link σ → Prop where
  | start (l : Link σ) : Exchange o l.inbox.waiting [] l
  | arrived {queued : List StdinEvent} {askings : List Asking} {l : Link σ}
      (before : Exchange o queued askings l) (events : List StdinEvent) :
      Exchange o (queued ++ events) askings { l with inbox := l.inbox.arrive events }
  | elapsed {queued : List StdinEvent} {askings : List Asking} {l l' : Link σ}
      (before : Exchange o queued askings l) (same : l'.inbox.waiting = l.inbox.waiting) :
      Exchange o queued askings l'
  | asked {queued : List StdinEvent} {askings : List Asking} {l : Link σ}
      (before : Exchange o queued askings l) (parent : Header) (prompt : String) (password : Bool) :
      Exchange o (queued ++ o.coming parent prompt password l)
        (askings ++ [o.asking parent prompt password l queued.length])
        (o.ask parent prompt password l).2

end Outlet

/-- How a question ends, as far as the events show it. -/
def Asking.Settled (queued : List StdinEvent) (a : Asking) : Prop :=
  match a.sent with
  | .error f => a.answer = .error f ∧ a.taken = a.began
  | .ok () => Inbox.Takes ((queued.take a.taken).drop a.began)
      ((queued.take a.ended).drop a.taken) a.answer

/-- How many events are used up. -/
def consumed (askings : List Asking) : Nat := (askings.getLast?.map Asking.taken).getD 0

/-- Every question is settled by events that come after it and after those of the questions before it,
and no more events are used up. -/
structure Fresh (queued : List StdinEvent) (askings : List Asking) (l : Link σ) : Prop where
  settled : ∀ a ∈ askings, a.Settled queued
  bounds : ∀ a ∈ askings, a.began ≤ a.taken ∧ a.taken ≤ a.ended ∧ a.ended ≤ queued.length
  ordered : askings.Pairwise fun a b => a.ended ≤ b.began
  waiting : l.inbox.waiting = queued.drop (consumed askings)

variable {o : Outlet σ} {queued : List StdinEvent} {askings : List Asking} {l l' : Link σ}

theorem Asking.Settled.append {a : Asking} (h : a.Settled queued) (htaken : a.taken ≤ a.ended)
    (hended : a.ended ≤ queued.length) (events : List StdinEvent) : a.Settled (queued ++ events) := by
  unfold Settled at h ⊢
  rw [List.take_append_of_le_length (Nat.le_trans htaken hended), List.take_append_of_le_length hended]
  exact h

theorem consumed_concat (askings : List Asking) (a : Asking) :
    consumed (askings ++ [a]) = a.taken := by
  rw [consumed, List.getLast?_concat]
  rfl

theorem Fresh.consumed_le (h : Fresh queued askings l) : consumed askings ≤ queued.length := by
  unfold consumed
  cases hlast : askings.getLast? with
  | none => exact Nat.zero_le _
  | some a =>
    obtain ⟨_, htaken, hended⟩ := h.bounds a (List.mem_of_getLast? hlast)
    exact Nat.le_trans htaken hended

theorem Fresh.arrived (h : Fresh queued askings l) (events : List StdinEvent) :
    Fresh (queued ++ events) askings { l with inbox := l.inbox.arrive events } where
  settled a ha := by
    obtain ⟨_, htaken, hended⟩ := h.bounds a ha
    exact (h.settled a ha).append htaken hended events
  bounds a ha := by
    obtain ⟨hbegan, htaken, hended⟩ := h.bounds a ha
    rw [List.length_append]
    exact ⟨hbegan, htaken, Nat.le_add_right_of_le hended⟩
  ordered := h.ordered
  waiting := by
    rw [List.drop_append_of_le_length h.consumed_le, ← h.waiting]
    rfl

theorem Fresh.elapsed (h : Fresh queued askings l) (same : l'.inbox.waiting = l.inbox.waiting) :
    Fresh queued askings l' :=
  ⟨h.settled, h.bounds, h.ordered, same.trans h.waiting⟩

theorem Asking.settled_of_uses {a : Asking} {used left : List StdinEvent}
    (hbegan : a.began = queued.length) (htaken : a.taken = (queued ++ used).length)
    (hended : a.ended = (queued ++ (used ++ left)).length)
    (huses : match a.sent with
      | .error f => a.answer = .error f ∧ used = []
      | .ok () => Inbox.Takes used left a.answer) : a.Settled (queued ++ (used ++ left)) := by
  have hused : ((queued ++ (used ++ left)).take a.taken).drop a.began = used := by
    rw [htaken, hbegan, ← List.append_assoc, List.take_left, List.drop_left]
  have hleft : ((queued ++ (used ++ left)).take a.ended).drop a.taken = left := by
    rw [hended, htaken, List.take_length, ← List.append_assoc, List.drop_left]
  unfold Settled
  rw [hused, hleft]
  cases hsent : a.sent with
  | error f =>
    rw [hsent] at huses
    obtain ⟨hanswer, rfl⟩ := huses
    rw [List.append_nil] at htaken
    exact ⟨hanswer, htaken.trans hbegan.symm⟩
  | ok =>
    rw [hsent] at huses
    exact huses

theorem Fresh.asked (h : Fresh queued askings l) (parent : Header) (prompt : String)
    (password : Bool) :
    Fresh (queued ++ o.coming parent prompt password l)
      (askings ++ [o.asking parent prompt password l queued.length])
      (o.ask parent prompt password l).2 := by
  have hold := h.arrived (o.coming parent prompt password l)
  rcases hask : o.ask parent prompt password l with ⟨answer, l'⟩
  obtain ⟨used, hcoming, huses⟩ := Outlet.ask_uses hask
  have hasking : o.asking parent prompt password l queued.length =
      { message := o.written parent "input_request" (question prompt password) l.stamped
        sent := o.questionSent parent prompt password l
        answer
        began := queued.length
        taken := (queued ++ used).length
        ended := (queued ++ (used ++ l'.inbox.waiting)).length } := by
    simp only [Outlet.asking, hask, hcoming, List.length_append, Nat.add_sub_cancel]
  rw [hcoming] at hold ⊢
  rw [hasking]
  constructor
  · exact List.forall_mem_append.2 ⟨hold.settled,
      List.forall_mem_singleton.2 (Asking.settled_of_uses rfl rfl rfl huses)⟩
  · refine List.forall_mem_append.2 ⟨hold.bounds, List.forall_mem_singleton.2 ?_⟩
    simp only [List.length_append]
    omega
  · refine List.pairwise_append.2 ⟨h.ordered, List.pairwise_singleton _ _, ?_⟩
    intro b hb c hc
    obtain rfl := List.mem_singleton.1 hc
    exact (h.bounds b hb).2.2
  · rw [consumed_concat, ← List.append_assoc, List.drop_left]

theorem Outlet.Exchange.fresh (h : o.Exchange queued askings l) : Fresh queued askings l := by
  induction h with
  | start l => exact ⟨nofun, nofun, .nil, rfl⟩
  | arrived _ events ih => exact ih.arrived events
  | elapsed _ same ih => exact ih.elapsed same
  | asked _ parent prompt password ih => exact ih.asked parent prompt password

/-- What a run comes to with these answers to its questions, if they are as many. -/
def Execution.answered {α : Type} : Execution α → List (Except Failure String) → Option α
  | .done result, [] => some result
  | .done _, _ :: _ => none
  | .publish _ _ next, answers => next.answered answers
  | .ask _ _ _, [] => none
  | .ask _ _ next, answer :: answers => (next answer).answered answers

theorem Outlet.Exchange.perform {α : Type} (h : o.Exchange queued askings l) (parent : Header)
    (run : Execution α) :
    ∃ coming new, o.Exchange (queued ++ coming) (askings ++ new) (o.perform parent true run l).2 ∧
      run.answered (new.map Asking.answer) = some (o.perform parent true run l).1 := by
  induction run generalizing queued askings l with
  | done result =>
    refine ⟨[], [], ?_, rfl⟩
    rw [List.append_nil, List.append_nil]
    exact h
  | publish msgType content next ih => exact ih (h.elapsed rfl)
  | ask prompt password next ih =>
    obtain ⟨coming, new, hexchange, hanswered⟩ := ih _ (h.asked parent prompt password)
    rw [List.append_assoc, List.append_assoc] at hexchange
    exact ⟨_, _, hexchange, hanswered⟩

namespace Kernel

/-- Some more was asked, and it was noted. -/
def Asked (k : Kernel S D σ) (queued : List StdinEvent) (askings : List Asking)
    (l : Link (σ × List Sink.Call)) : Prop :=
  ∃ coming new, k.outlet.Exchange (queued ++ coming) (askings ++ new) l.forget ∧
    l.transport.2.filterMap Sink.Call.question? = new.map Asking.message

theorem Asked.other {k : Kernel S D σ} {l l' : Link (σ × List Sink.Call)} {c : Sink.Call}
    (h : k.Asked queued askings l) (hwaiting : l'.inbox.waiting = l.inbox.waiting)
    (hnotes : l'.transport.2 = l.transport.2 ++ [c]) (hc : c.question? = none) :
    k.Asked queued askings l' := by
  obtain ⟨coming, new, hexchange, hcalls⟩ := h
  refine ⟨coming, new, hexchange.elapsed hwaiting, ?_⟩
  rw [hnotes, List.filterMap_append, hcalls, List.filterMap_cons_none hc]
  exact List.append_nil _

theorem asked_preserves (k : Kernel S D σ) (queued : List StdinEvent) (askings : List Asking) :
    k.noting.outlet.Preserves (k.Asked queued askings) true where
  publish _ _ _ h := h.other rfl rfl rfl
  reply _ _ h := h.other rfl rfl rfl
  ask := by
    rintro - l parent prompt password ⟨coming, new, hexchange, hcalls⟩
    have hforget : (k.noting.outlet.ask parent prompt password l).2.forget =
        (k.outlet.ask parent prompt password l.forget).2 :=
      congrArg Prod.snd (k.unnoted_shows.ask l parent prompt password)
    have hnotes : (k.noting.outlet.ask parent prompt password l).2.transport.2 = _ :=
      k.outlet.notes_ask parent prompt password l
    have hasked := hexchange.asked parent prompt password
    rw [List.append_assoc, List.append_assoc, ← hforget] at hasked
    refine ⟨_, _, hasked, ?_⟩
    rw [hnotes, List.filterMap_append, hcalls, List.map_append]
    rfl

/-- The questions of a kernel are among all that were ever put on its link, and each of them is settled by
events that come after it, of which none settles another. -/
theorem answers_fresh (k : Kernel S D σ) {s : State S D σ}
    (h : k.outlet.Exchange queued askings s.link) :
    Fresh queued askings s.link ∧
    (∀ parent prompt password,
      (k.outlet.noting.ask parent prompt password s.link.noting).2.transport.2 =
        [.send .stdin (k.outlet.written parent "input_request" (question prompt password)
          s.link.stamped)]) ∧
    (∀ (α : Type) (run : Execution α) parent, ∃ coming new,
      k.outlet.Exchange (queued ++ coming) (askings ++ new)
          (k.outlet.perform parent true run s.link).2 ∧
        run.answered (new.map Asking.answer) =
          some (k.outlet.perform parent true run s.link).1) ∧
    ∀ requests, ∃ coming new,
      k.outlet.Exchange (queued ++ coming) (askings ++ new) (k.serve requests s).2.link ∧
        (k.runCalls requests s).filterMap Sink.Call.question? = new.map Asking.message := by
  refine ⟨h.fresh, ?_, ?_, ?_⟩
  · intro parent prompt password
    exact k.outlet.notes_ask parent prompt password s.link.noting
  · intro α run parent
    exact h.perform parent run
  · intro requests
    have hbefore : k.outlet.Exchange (queued ++ []) (askings ++ []) s.link := by
      rw [List.append_nil, List.append_nil]
      exact h
    obtain ⟨coming, new, hexchange, hcalls⟩ := serve_preserves (s := s.noting)
      (k.asked_preserves queued askings) ⟨[], [], hbefore, rfl⟩ requests
    have hserve : (k.noting.serve requests s.noting).2.forget = (k.serve requests s).2 :=
      congrArg Prod.snd (k.unnoted_shows.serve s.noting requests)
    rw [← hserve]
    exact ⟨coming, new, hexchange, hcalls⟩

/-- What is left of one question is discarded before the next. -/
theorem answers_fresh_twice :
    let typed (text : String) : StdinEvent := .reply ⟨(bareRequest "input_reply").message.header,
      .null, .null, .object [("value", .string text)]⟩
    let stray : StdinEvent := .reply (bareRequest "comm_msg").message
    let parent := (bareRequest "execute_request").message.header
    let o := (refusing []).outlet
    let l : Link Memory :=
      ⟨.initial, ⟨[typed "stale"], [[stray, typed "one", .closed], [typed "two"]]⟩, 0⟩
    let l₁ := (o.ask parent "name? " false l).2
    let l₂ := (o.ask parent "again? " true l₁).2
    ∃ askings,
      Fresh [typed "stale", stray, typed "one", .closed, typed "two"] askings l₂ ∧
      askings.map (fun a => (a.answer, a.began, a.taken, a.ended)) =
        [(.ok "one", 1, 3, 4), (.ok "two", 4, 5, 5)] := by
  intro typed stray parent o l l₁ l₂
  have hexchange : o.Exchange _ _ l₂ :=
    ((Outlet.Exchange.start l).asked parent "name? " false).asked parent "again? " true
  obtain ⟨hfresh, _⟩ := answers_fresh (refusing []) (s := { fresh with link := l₂ }) hexchange
  exact ⟨_, hfresh, rfl⟩

end Kernel

end NotebookKernel
