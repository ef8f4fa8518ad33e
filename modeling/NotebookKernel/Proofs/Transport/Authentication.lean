import NotebookKernel.Proofs.Digest.Running
import NotebookKernel.Proofs.Json.Inversion
import NotebookKernel.Proofs.Wire.RoundTrip
import NotebookKernel.Transport.Run

namespace NotebookKernel

open Json

/-- A line holds a message and the code of its parts under the key. -/
def Authentic (s : Signer) (text : LineText) (m : Message) : Prop :=
  ∃ line, Line.parse text = .ok line ∧
    Hex.decode? line.signature.toList = some (Hmac.digest (Utf8.encode s.key.toList)
      (Utf8.encode (line.parts.header ++ line.parts.parentHeader ++ line.parts.metadata ++
        line.parts.content))).toList ∧
    Header.record.parse line.parts.header = .ok m.header ∧
    Value.parse line.parts.parentHeader = .ok m.parentHeader ∧
    Value.parse line.parts.metadata = .ok m.metadata ∧
    Value.parse line.parts.content = .ok m.content

theorem readable_eq_ok {α : Type} {x : Except Fault α} {a : α} :
    readable x = .ok a ↔ x = .ok a := by
  cases x with
  | error f => exact ⟨nofun, nofun⟩
  | ok b => exact ⟨fun h => congrArg _ (Except.ok.inj h), fun h => congrArg _ (Except.ok.inj h)⟩

theorem Parts.read_eq_ok {p : Parts} {m : Message} :
    p.read = .ok m ↔ Header.record.parse p.header = .ok m.header ∧
      Value.parse p.parentHeader = .ok m.parentHeader ∧
      Value.parse p.metadata = .ok m.metadata ∧ Value.parse p.content = .ok m.content := by
  unfold Parts.read
  simp only [bind_eq_ok]
  constructor
  · rintro ⟨header, hheader, parent, hparent, metadata, hmetadata, content, hcontent, h⟩
    rw [← Except.ok.inj h]
    exact ⟨hheader, hparent, hmetadata, hcontent⟩
  · rintro ⟨hheader, hparent, hmetadata, hcontent⟩
    exact ⟨_, hheader, _, hparent, _, hmetadata, _, hcontent, rfl⟩

theorem Signer.digest_eq (s : Signer) (p : Parts) :
    s.digest p = Hmac.digest (Utf8.encode s.key.toList) (Utf8.encode p.chars) := by
  have hpieces : ([p.header, p.parentHeader, p.metadata, p.content].map Utf8.encode).flatten =
      Utf8.encode p.chars := by
    simp only [Parts.chars, Utf8.encode_append, List.map_cons, List.map_nil, List.flatten_cons,
      List.flatten_nil, List.append_nil, List.append_assoc]
  rw [← hpieces]
  exact Hmac.Running.finish_foldl_update ..

theorem Signer.verify_eq_true {s : Signer} (hkey : s.key ≠ "") {p : Parts} {signature : List Char} :
    s.verify p signature = true ↔ Hex.decode? signature =
      some (Hmac.digest (Utf8.encode s.key.toList) (Utf8.encode p.chars)).toList := by
  have henabled : s.enabled = true := bne_iff_ne.2 hkey
  rw [verify, henabled, Bool.not_true, Bool.false_or, beq_iff_eq, digest_eq]

namespace Wire

theorem decode_iff {s : Signer} {text : LineText} {m : Message} : decode s text = .ok m ↔
    ∃ l, Line.parse text = .ok l ∧ s.verify l.parts l.signature.toList = true ∧
      l.parts.read = .ok m := by
  unfold decode
  simp only [bind_eq_ok, readable_eq_ok]
  apply exists_congr
  intro l
  apply and_congr_right
  intro _
  split
  next hverify => rw [readable_eq_ok, and_iff_right hverify]
  next hverify => exact ⟨nofun, fun h => absurd h.1 hverify⟩

theorem decode_eq_ok {s : Signer} (hkey : s.key ≠ "") {text : LineText} {m : Message} :
    decode s text = .ok m ↔ Authentic s text m := by
  simp only [decode_iff, Signer.verify_eq_true hkey, Parts.read_eq_ok]
  rfl

end Wire

def StdinEvent.reply? : StdinEvent → Option Message
  | .reply m => some m
  | .closed => none

namespace Hub

/-- The replies to questions that have come in. -/
def replies (h : Hub) : List Message := h.events.filterMap StdinEvent.reply?

/-- Nothing has come in from a frontend. -/
structure Quiet (h h' : Hub) : Prop where
  requests : h'.requests = h.requests
  replies : h'.replies = h.replies

variable {h h' h'' : Hub}

theorem Quiet.refl (h : Hub) : Quiet h h := ⟨rfl, rfl⟩

theorem Quiet.trans (hq : Quiet h h') (hq' : Quiet h' h'') : Quiet h h'' :=
  ⟨hq'.requests.trans hq.requests, hq'.replies.trans hq.replies⟩

theorem modify_quiet (h : Hub) (id : Nat) (f : Connection → Connection) : Quiet h (h.modify id f) :=
  ⟨rfl, rfl⟩

theorem unregister_quiet (h : Hub) (id : Nat) : Quiet h (h.unregister id) := by
  refine ⟨rfl, ?_⟩
  unfold unregister replies
  dsimp only
  split
  · rw [List.filterMap_append]
    exact List.append_nil _
  · rfl

theorem push_quiet (s : Service) (id : Nat) (line : LineText) (h : Hub) :
    Quiet h (s.push id line h).2 := by
  unfold Service.push
  split
  · exact .refl h
  split
  · exact unregister_quiet h id
  split
  · exact unregister_quiet h id
  · exact modify_quiet h id _

end Hub

namespace Transport

/-- A line, and the connection that it came on. -/
structure Arrival where
  channel : Channel
  origin : Nat
  text : LineText

namespace Arrival

def request? (s : Signer) (a : Arrival) : Option Request :=
  match a.channel, (Wire.decode s a.text).toOption with
  | .shell, some m | .control, some m => some ⟨a.channel, a.origin, m⟩
  | _, _ => none

def reply? (s : Signer) (a : Arrival) : Option Message :=
  match a.channel, (Wire.decode s a.text).toOption with
  | .stdin, some m => some m
  | _, _ => none

end Arrival

/-- The line that a step reads. -/
def arrival? (t : Transport) : Step → Option Arrival
  | .line id text =>
    match t.connection? id with
    | some c => if c.phase = .reading then some ⟨c.channel, id, text⟩ else none
    | none => none
  | _ => none

/-- The lines that are read in a run, in order. -/
def arrivals (s : Service) : List Step → Transport → List Arrival
  | [], _ => []
  | a :: rest, t => (t.arrival? a).toList ++ arrivals s rest (step s a t)

variable {s : Service}

theorem deliver_requests (s : Service) (a : Arrival) (h : Hub) :
    (s.deliver a.channel a.origin a.text h).requests =
      h.requests ++ (a.request? s.signer).toList := by
  unfold Service.deliver Arrival.request?
  cases Wire.decode s.signer a.text with
  | error f => cases a.channel <;> exact (List.append_nil _).symm
  | ok m => cases a.channel <;> first | rfl | exact (List.append_nil _).symm

theorem deliver_replies (s : Service) (a : Arrival) (h : Hub) :
    (s.deliver a.channel a.origin a.text h).replies =
      h.replies ++ (a.reply? s.signer).toList := by
  unfold Service.deliver Arrival.reply?
  cases Wire.decode s.signer a.text with
  | error f => cases a.channel <;> exact (List.append_nil _).symm
  | ok m => cases a.channel <;> first | exact List.filterMap_append | exact (List.append_nil _).symm

theorem line_of_arrival {t : Transport} {id : Nat} {text : LineText} {a : Arrival}
    (h : t.arrival? (.line id text) = some a) (s : Service) :
    line s id text t = { t with hub := s.deliver a.channel a.origin a.text t.hub } := by
  cases hc : t.connection? id with
  | none =>
    simp only [arrival?, hc] at h
    exact nomatch h
  | some c =>
    simp only [arrival?, hc] at h
    simp only [line, hc]
    split at h
    next hreading =>
      rw [if_pos hreading, ← Option.some.inj h]
    next => exact nomatch h

theorem line_of_no_arrival {t : Transport} {id : Nat} {text : LineText}
    (h : t.arrival? (.line id text) = none) (s : Service) : line s id text t = t := by
  cases hc : t.connection? id with
  | none => simp only [line, hc]
  | some c =>
    simp only [arrival?, hc] at h
    simp only [line, hc]
    split at h
    next => exact nomatch h
    next hleft => exact if_neg hleft

theorem leave_quiet (id : Nat) (t : Transport) : Hub.Quiet t.hub (leave id t).hub := by
  unfold leave
  split
  · split
    · exact (Hub.unregister_quiet t.hub id).trans (Hub.modify_quiet _ id _)
    · exact .refl _
  · exact .refl _

theorem pushTo_quiet (s : Service) (id : Nat) (t : Transport) :
    Hub.Quiet t.hub (pushTo s id t).hub := by
  unfold pushTo
  split
  · exact .refl _
  · exact Hub.push_quiet s _ _ t.hub

theorem ask_quiet (s : Service) (m : Message) (h : Hub) : Hub.Quiet h (s.send .stdin m h).2 := by
  unfold Service.send
  dsimp only
  split
  · exact Hub.push_quiet s _ _ h
  · exact .refl h

theorem step_quiet {a : Step} {t : Transport} (ha : t.arrival? a = none) (s : Service) :
    Hub.Quiet t.hub (step s a t).hub := by
  cases a with
  | line id text =>
    rw [step, line_of_no_arrival ha]
    exact .refl _
  | arrive channel =>
    simp only [step, arrive]
    split <;> exact .refl _
  | register channel =>
    simp only [step, register]
    split
    · exact ⟨rfl, rfl⟩
    · exact .refl _
  | release channel =>
    simp only [step, release]
    split <;> exact .refl _
  | leave id => exact leave_quiet id t
  | broadcast m =>
    simp only [step, broadcast]
    split <;> exact .refl _
  | pushTo id => exact pushTo_quiet s id t
  | ask m =>
    simp only [step]
    split
    · exact .refl _
    · exact ask_quiet s m t.hub
  | reply request m =>
    simp only [step]
    split
    · exact .refl _
    · exact Hub.push_quiet s _ _ t.hub
  | finish id | takeLine id | put id n | endWriter id | failWriter id =>
    exact Hub.modify_quiet t.hub id _
  | drop => exact ⟨rfl, rfl⟩

theorem step_arrival {a : Step} {t : Transport} {x : Arrival} (ha : t.arrival? a = some x)
    (s : Service) :
    step s a t = { t with hub := s.deliver x.channel x.origin x.text t.hub } := by
  cases a with
  | line id text => exact line_of_arrival ha s
  | arrive | register | release | leave | finish | takeLine | put | endWriter | failWriter
  | broadcast | pushTo | ask | reply | drop => exact nomatch ha

theorem filterMap_singleton {α β : Type} (f : α → Option β) (x : α) :
    [x].filterMap f = (f x).toList := by
  cases h : f x with
  | none => rw [List.filterMap_cons_none h]; rfl
  | some y => rw [List.filterMap_cons_some h]; rfl

theorem step_queues (s : Service) (a : Step) (t : Transport) :
    (step s a t).hub.requests =
      t.hub.requests ++ (t.arrival? a).toList.filterMap (·.request? s.signer) ∧
    (step s a t).hub.replies =
      t.hub.replies ++ (t.arrival? a).toList.filterMap (·.reply? s.signer) := by
  cases ha : t.arrival? a with
  | none =>
    have hquiet := step_quiet ha s
    rw [hquiet.requests, hquiet.replies]
    exact ⟨(List.append_nil _).symm, (List.append_nil _).symm⟩
  | some x =>
    rw [step_arrival ha]
    refine ⟨(deliver_requests s x t.hub).trans ?_, (deliver_replies s x t.hub).trans ?_⟩
    · rw [Option.toList_some, filterMap_singleton]
    · rw [Option.toList_some, filterMap_singleton]

theorem run_queues (s : Service) (steps : List Step) (t : Transport) :
    (run s steps t).hub.requests =
      t.hub.requests ++ (arrivals s steps t).filterMap (·.request? s.signer) ∧
    (run s steps t).hub.replies =
      t.hub.replies ++ (arrivals s steps t).filterMap (·.reply? s.signer) := by
  induction steps generalizing t with
  | nil => exact ⟨(List.append_nil _).symm, (List.append_nil _).symm⟩
  | cons a rest ih =>
    obtain ⟨hrequests, hreplies⟩ := step_queues s a t
    obtain ⟨hrequests', hreplies'⟩ := ih (step s a t)
    rw [arrivals, List.filterMap_append, List.filterMap_append, ← List.append_assoc,
      ← List.append_assoc, ← hrequests, ← hreplies]
    exact ⟨hrequests', hreplies'⟩

/-- A signed line on a channel that frontends speak on. -/
def Arrival.Accepted (s : Signer) (a : Arrival) : Prop :=
  a.channel ∈ [.shell, .control, .stdin] ∧ ∃ m, Authentic s a.text m

theorem deliver_connections (s : Service) (a : Arrival) (h : Hub) :
    (s.deliver a.channel a.origin a.text h).connections = h.connections := by
  unfold Service.deliver
  cases Wire.decode s.signer a.text with
  | error f => rfl
  | ok m => cases a.channel <;> rfl

theorem deliver_of_not_accepted (hkey : s.signer.key ≠ "") {a : Arrival}
    (ha : ¬ a.Accepted s.signer) (h : Hub) : s.deliver a.channel a.origin a.text h = h := by
  unfold Service.deliver
  cases hm : Wire.decode s.signer a.text with
  | error f => rfl
  | ok m =>
    have hauthentic : ∃ m, Authentic s.signer a.text m := ⟨m, (Wire.decode_eq_ok hkey).1 hm⟩
    have hchannel : a.channel ∉ [Channel.shell, .control, .stdin] := fun hc => ha ⟨hc, hauthentic⟩
    cases hc : a.channel with
    | shell | control | stdin =>
      rw [hc] at hchannel
      exact absurd (by decide) hchannel
    | iopub | heartbeat => rfl

theorem line_of_not_accepted (hkey : s.signer.key ≠ "") {t : Transport} {id : Nat}
    {text : LineText}
    (ha : ∀ a, t.arrival? (.line id text) = some a → ¬ a.Accepted s.signer) :
    line s id text t = t := by
  cases harrival : t.arrival? (.line id text) with
  | none => exact line_of_no_arrival harrival s
  | some a => rw [line_of_arrival harrival, deliver_of_not_accepted hkey (ha a harrival)]

theorem line_connections (s : Service) (id : Nat) (text : LineText) (t : Transport) :
    (line s id text t).hub.connections = t.hub.connections := by
  cases harrival : t.arrival? (.line id text) with
  | none => rw [line_of_no_arrival harrival]
  | some a =>
    rw [line_of_arrival harrival]
    exact deliver_connections s a t.hub

theorem request?_encode {signer : Signer} {m : Message} (h : m.Plain) (origin : Nat) :
    Arrival.request? signer ⟨.shell, origin, Wire.encode signer m⟩ =
      some ⟨.shell, origin, m⟩ := by
  simp only [Arrival.request?, Wire.decode_encoded signer h]
  rfl

/-- Over any run the kernel is handed exactly the signed lines, in the order in which they were
read, and every other line leaves the transport as it was. -/
theorem only_authentic_lines (s : Service) (hkey : s.signer.key ≠ "") :
    (∀ text m, (Wire.decode s.signer text).toOption = some m ↔ Authentic s.signer text m) ∧
    (∀ steps t,
      (run s steps t).hub.requests =
        t.hub.requests ++ (arrivals s steps t).filterMap (Arrival.request? s.signer) ∧
      (run s steps t).hub.replies =
        t.hub.replies ++ (arrivals s steps t).filterMap (Arrival.reply? s.signer)) ∧
    ∀ t id text,
      (line s id text t).hub.connections = t.hub.connections ∧
      ((∀ a, t.arrival? (.line id text) = some a → ¬ a.Accepted s.signer) →
        line s id text t = t) := by
  refine ⟨?_, fun steps t => run_queues s steps t, ?_⟩
  · intro text m
    rw [← Wire.decode_eq_ok hkey]
    cases Wire.decode s.signer text with
    | error f => exact ⟨nofun, nofun⟩
    | ok m' =>
      exact ⟨fun h => congrArg _ (Option.some.inj h), fun h => congrArg _ (Except.ok.inj h)⟩
  · intro t id text
    exact ⟨line_connections s id text t, line_of_not_accepted hkey⟩

theorem only_authentic_lines_signed :
    let s : Service := ⟨⟨"key"⟩, {}⟩
    let m : Message := ⟨⟨"1", "s", "u", "", "execute_request", "5.3"⟩, .null, .null, .object []⟩
    (run s [.arrive .shell, .register .shell, .line 1 (Wire.encode s.signer m)]
      initial).hub.requests = [⟨.shell, 1, m⟩] := by
  intro s m
  have hkey : s.signer.key ≠ "" := by decide
  have hm : m.Plain := ⟨.null, .null, .object .nil (List.forall_mem_nil _) (List.forall_mem_nil _)⟩
  obtain ⟨_, hqueues, _⟩ := only_authentic_lines s hkey
  have harrivals : arrivals s [.arrive .shell, .register .shell,
      .line 1 (Wire.encode s.signer m)] initial = [⟨.shell, 1, Wire.encode s.signer m⟩] := rfl
  refine (hqueues _ _).1.trans ?_
  rw [harrivals, filterMap_singleton, request?_encode hm]
  rfl

end Transport

end NotebookKernel
