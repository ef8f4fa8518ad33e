import NotebookKernel.Proofs.Transport.Moves

namespace NotebookKernel

/-- The question that is being put, once what had come in before is discarded. -/
def Asker.question? : Asker → Option Message
  | .routing m | .queueing m _ | .waiting m _ => some m
  | .idle | .discarding _ | .returned _ => none

namespace Tasks

variable {s : Service} {t t' : Tasks} {a : Move} {moves : List Move} {m : Message} {d c : Nat}

theorem Turn.question (h : Turn s t t') (hm : t'.asker.question? = some m) :
    (t.asker.question? = some m ∧ t.received ≤ t'.received) ∨
      (t.asker = .discarding m ∧ t.hub.events.length ≤ t.received ∧ t'.received = t.received) := by
  cases h with
  | rests => exact .inl ⟨hm, Nat.le_refl _⟩
  | discards | passed => exact .inl ⟨hm, Nat.le_succ _⟩
  | drained asker empty =>
    obtain rfl := Option.some.inj hm
    exact .inr ⟨asker, empty, rfl⟩
  | routed asker | queued asker =>
    rw [asker]
    exact .inl ⟨hm, Nat.le_refl _⟩
  | unrouted | refused | answered => exact nomatch hm

theorem Effect.question (he : Effect s t a t') (hm : t'.asker.question? = some m) :
    (t.asker.question? = some m ∧ t.received ≤ t'.received) ∨
      (a = .proceed ∧ t.asker = .discarding m ∧ t.hub.events.length ≤ t.received ∧
        t'.received = t.received) := by
  cases he with
  | aside same =>
    rw [same.asker] at hm
    exact .inl ⟨hm, Nat.le_of_eq same.received.symm⟩
  | heard | removed | announced => exact .inl ⟨hm, Nat.le_refl _⟩
  | called => exact nomatch hm
  | proceeded turn => exact (turn.question hm).imp_right fun hdrained => ⟨rfl, hdrained⟩

/-- The connection of a question is one for questions, and the question is queued for it. -/
structure Placed (s : Service) (t : Tasks) : Prop where
  queueing : ∀ {m c}, t.asker = .queueing m c → ∃ x ∈ t.hub.connections, x.id = c ∧ x.channel = .stdin
  waiting : ∀ {m c}, t.asker = .waiting m c →
    ∃ x ∈ t.hub.connections, x.id = c ∧ x.channel = .stdin ∧ Wire.encode s.signer m ∈ x.queued

theorem Placed.of_keeps (h : Placed s t) (hkeeps : t.hub.Keeps t'.hub) (hasker : t'.asker = t.asker) :
    Placed s t' where
  queueing hqueueing := by
    rw [hasker] at hqueueing
    obtain ⟨x, hx, hid, hchannel⟩ := h.queueing hqueueing
    obtain ⟨y, hy, hyid, hychannel, -⟩ := hkeeps x hx
    exact ⟨y, hy, hyid.trans hid, hychannel.trans hchannel⟩
  waiting hwaiting := by
    rw [hasker] at hwaiting
    obtain ⟨x, hx, hid, hchannel, hline⟩ := h.waiting hwaiting
    obtain ⟨y, hy, hyid, hychannel, hqueued⟩ := hkeeps x hx
    exact ⟨y, hy, hyid.trans hid, hychannel.trans hchannel, hqueued hline⟩

theorem Placed.turn (h : Placed s t) (hturn : Turn s t t') : Placed s t' := by
  have hsame := h.of_keeps hturn.keeps
  cases hturn with
  | rests | discards | passed => exact hsame rfl
  | drained | unrouted | refused | answered => exact ⟨nofun, nofun⟩
  | routed asker route =>
    refine ⟨fun hqueueing => ?_, nofun⟩
    obtain ⟨rfl, rfl⟩ := Asker.queueing.inj hqueueing
    obtain ⟨x, hx, hid, hchannel, -⟩ := Hub.exists_of_mem_peers (Hub.route?_eq_some.1 route).1
    exact ⟨x, hx, hid, hchannel⟩
  | @queued m c a asker attempt taken =>
    refine ⟨nofun, fun hwaiting => ?_⟩
    obtain ⟨rfl, rfl⟩ := Asker.waiting.inj hwaiting
    obtain ⟨x, hx, rfl, hchannel⟩ := h.queueing asker
    have hhub : a.hub = t.hub.modify x.id (·.enqueue (Wire.encode s.signer m)) := by
      rw [← attempt] at taken ⊢
      rw [Hub.attempt_of_ok taken]
    change ∃ y ∈ a.hub.connections, _
    rw [hhub]
    refine ⟨_, List.mem_map_of_mem hx, ?_⟩
    rw [if_pos rfl]
    exact ⟨rfl, hchannel, List.mem_append_right _ (List.mem_singleton_self _)⟩

theorem Placed.step (h : Placed s t) (a : Move) : Placed s (step s a t) := by
  generalize hstep : Tasks.step s a t = t'
  have he := step_effect s a t
  rw [hstep] at he
  have hsame := h.of_keeps he.keeps
  cases he with
  | aside same => exact hsame same.asker
  | heard | removed | announced => exact hsame rfl
  | called => exact ⟨nofun, nofun⟩
  | proceeded turn => exact h.turn turn

/-- The answer that a question comes to which was queued for `c`, by an event that a move has brought. -/
inductive Answers (s : Service) (early : List Move) (c : Nat) :
    Move → StdinEvent → Except Failure String → Prop where
  /-- Some connection for questions has sent a reply. -/
  | replied {d : Nat} {x : Connection} {text : LineText} {r : Message}
      (reader : (run s early initial).connection? d = some x) (stdin : x.channel = .stdin)
      (decoded : Wire.decode s.signer text = .ok r) (type : r.msgType = "input_reply") :
      Answers s early c (.hear d text) (.reply r) (.ok (r.contentText "value"))
  /-- Some connection for questions was taken out of the table. -/
  | lost {d : Nat} {first rest : List Move} (removed : early = first ++ .remove d :: rest)
      (stdin : d ∈ (run s first initial).hub.peers .stdin)
      (gone : d ∉ (run s (first ++ [.remove d]) initial).hub.peers .stdin)
      (newer : c ∈ (run s first initial).hub.peers .stdin → c ≤ d) :
      Answers s early c (.announce d) .closed
        (.error (.disconnected "stdin closed while waiting for input"))

def question : Message := ⟨⟨"1", "s", "u", "", "input_request", "5.3"⟩, .null, .null, .object []⟩

end Tasks

end NotebookKernel
