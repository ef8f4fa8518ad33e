import NotebookKernel.Proofs.Kernel.Calls
import NotebookKernel.Proofs.Kernel.Dealings

namespace NotebookKernel

open Json

/-- The interpreter leaves it to the kernel to say whether it is busy. -/
def Interpreter.Discreet {S : Type} (i : Interpreter S) : Prop :=
  ∀ e n s r mayAsk us a, (i.execute e n s).Says r mayAsk us a → ∀ u ∈ us, u.msgType ≠ "status"

theorem replyType_ne_status (msgType : String) : replyType msgType ≠ "status" := by
  -- They end in different characters.
  intro h
  have hlast := congrArg (fun s => s.toList.getLast?) h
  have hreply : "_reply".toList.getLast? = some 'y' := by decide
  simp only [replyType, String.toList_append, String.toList_ofList, List.getLast?_append, hreply,
    Option.some_or] at hlast
  exact absurd hlast (by decide)

theorem Outlet.length_calls {σ : Type} (o : Outlet σ) (n : Nat) (us : List Utterance) :
    (o.calls n us).length = us.length := by
  induction us generalizing n with
  | nil => rfl
  | cons u us ih => rw [calls, List.length_cons, List.length_cons, ih]

namespace Kernel

variable {S D σ : Type}

/-- The sink takes the reply to a request, if it is one that is answered. -/
def Delivered (k : Kernel S D σ) (r : Request) (s : State S D σ) : Prop :=
  ∀ d content t, r.message.msgType = Demand.msgType d →
    k.respond r.message (k.publishState r.message "busy" s) d = (content, t) →
    (k.outlet.reply r content t.link).1 = .ok ()

def AllDelivered (k : Kernel S D σ) : List Request → State S D σ → Prop
  | [], _ => True
  | r :: rest, s => k.Delivered r s ∧ AllDelivered k rest (k.dispatch r s).2

variable {k : Kernel S D σ} {r : Request} {s t : State S D σ} {requests : List Request}
  {us vs : List Utterance}

theorem answer_eq_ok :
    (k.answer r (k.publishState r.message "busy" s)).1 = .ok () ↔ k.Delivered r s := by
  cases hdemand : Demand.ofMessage? r.message with
  | none =>
    have hunknown := Demand.ofMessage?_eq_none.1 hdemand
    simp only [answer, hdemand, true_iff]
    intro d content t known _
    exact absurd known (hunknown d)
  | some d =>
    have known := Demand.ofMessage?_eq_some.1 hdemand
    rcases hrespond : k.respond r.message (k.publishState r.message "busy" s) d with ⟨content, t⟩
    rw [answer_known known hrespond]
    constructor
    · intro hsent d' content' t' known' hrespond'
      obtain rfl : d = d' := Demand.msgType_injective (known.symm.trans known')
      obtain ⟨rfl, rfl⟩ := Prod.mk.inj (hrespond.symm.trans hrespond')
      exact hsent
    · intro h
      exact h d content t known hrespond

theorem dispatch_delivered (h : k.Delivered r s) :
    (k.dispatch r s).1 = .ok (.after (Demand.ofMessage? r.message)) := by
  have hok := answer_eq_ok.2 h
  rcases hanswer : k.answer r (k.publishState r.message "busy" s) with ⟨sent, t⟩
  rw [hanswer] at hok
  obtain rfl : sent = .ok () := hok
  rw [dispatch_of_delivered hanswer]

theorem dispatch_undelivered (h : ¬ k.Delivered r s) : ∃ f, (k.dispatch r s).1 = .error f := by
  rcases hanswer : k.answer r (k.publishState r.message "busy" s) with ⟨sent, t⟩
  cases sent with
  | error f => exact ⟨f, congrArg Prod.fst (dispatch_of_undelivered hanswer)⟩
  | ok => exact absurd (answer_eq_ok.1 (congrArg Prod.fst hanswer)) h

theorem idle_delivered (h : k.Delivered r s) : idle r (k.dispatch r s).1 = [status r "idle"] := by
  rw [dispatch_delivered h]
  rfl

theorem idle_undelivered (h : ¬ k.Delivered r s) : idle r (k.dispatch r s).1 = [] := by
  obtain ⟨f, hf⟩ := dispatch_undelivered h
  rw [hf]
  rfl

def refusing (replyTypes : List String) : Kernel Unit Nat Memory where
  outlet :=
    { identity := ⟨"user", "session"⟩
      stamp := fun n => ⟨n.repr, ""⟩
      sink := Memory.sink.refusing (replyTypes.map fun msgType => (.reply, msgType))
        (.protocol "refused") }
  interpreter :=
    { configure := .ok
      execute := fun _ _ s => .done (.ok, s)
      isComplete := fun _ s => (.unknown, s)
      info := fun _ => .emptyObject }
  debugger := none

def fresh : State Unit Nat Memory := ⟨⟨.initial, .empty, 0⟩, (), 0, 0, .empty⟩

def bareRequest (msgType : String) : Request :=
  ⟨.control, 0, ⟨⟨"1", "session", "user", "", msgType, protocolVersion⟩, .null, .null, .null⟩⟩

theorem dispatch_eq_shutdown :
    (k.dispatch r s).1 = .ok .shutdown ↔
      r.message.msgType = Demand.msgType .shutdown ∧ k.Delivered r s := by
  by_cases h : k.Delivered r s
  · rw [dispatch_delivered h, Except.ok.injEq, after_eq_shutdown, and_iff_left h]
  · obtain ⟨f, hf⟩ := dispatch_undelivered h
    rw [hf]
    exact ⟨nofun, fun hboth => absurd hboth.2 h⟩

theorem serve_ends (hr : r.message.msgType = Demand.msgType .shutdown) (h : k.Delivered r s)
    (rest : List Request) : k.serve (r :: rest) s = (rest, (k.dispatch r s).2) := by
  have hflow := dispatch_eq_shutdown.2 ⟨hr, h⟩
  exact serve_shutdown (Prod.ext hflow rfl)

theorem serve_goes_on
    (h : ¬ (r.message.msgType = Demand.msgType .shutdown ∧ k.Delivered r s)) (rest : List Request) :
    k.serve (r :: rest) s = k.serve rest (k.dispatch r s).2 :=
  serve_proceed rfl (mt dispatch_eq_shutdown.1 h)

theorem serve_append {before : List Request}
    (hbefore : ∀ r ∈ before, r.message.msgType ≠ Demand.msgType .shutdown) (rest : List Request) :
    k.serve (before ++ rest) s = k.serve rest (k.serve before s).2 := by
  induction before generalizing s with
  | nil => rfl
  | cons r before ih =>
    obtain ⟨hr, hmore⟩ := List.forall_mem_cons.1 hbefore
    rw [List.cons_append, serve_goes_on fun h => hr h.1, serve_goes_on fun h => hr h.1]
    exact ih hmore

theorem serve_suffix (requests : List Request) (s : State S D σ) :
    (k.serve requests s).1 <:+ requests.tail := by
  induction requests generalizing s with
  | nil => exact List.suffix_refl _
  | cons r rest ih =>
    by_cases h : (k.dispatch r s).1 = .ok .shutdown
    · rw [serve_shutdown (Prod.ext h rfl)]
      exact List.suffix_refl _
    · rw [serve_proceed rfl h]
      exact (ih _).trans (List.tail_suffix rest)

/-- The first request to shut down ends the loop exactly if the reply to it is delivered; otherwise the
kernel goes on to the requests after it. The exit status is the same. -/
theorem first_shutdown_ends_iff (k : Kernel S D σ) {s ready : State S D σ}
    (hready : k.configure s = .ok ready) {before : List Request}
    (hbefore : ∀ r ∈ before, r.message.msgType ≠ Demand.msgType .shutdown) {r : Request}
    (hr : r.message.msgType = Demand.msgType .shutdown) :
    let t := (k.serve before ready).2
    (∀ after, k.start (before ++ r :: after) s =
      (0, (k.serve (before ++ r :: after) ready).2)) ∧
    ((∀ after, k.serve (before ++ r :: after) ready = (after, (k.dispatch r t).2)) ↔
      k.Delivered r t) ∧
    (¬ k.Delivered r t →
      ∀ after, k.serve (before ++ r :: after) ready = k.serve after (k.dispatch r t).2) := by
  intro t
  have hserve (after : List Request) :
      k.serve (before ++ r :: after) ready = k.serve (r :: after) t := serve_append hbefore _
  have hmissed (h : ¬ k.Delivered r t) (after : List Request) :
      k.serve (before ++ r :: after) ready = k.serve after (k.dispatch r t).2 :=
    (hserve after).trans (serve_goes_on (fun hboth => h hboth.2) after)
  refine ⟨?_, ⟨?_, ?_⟩, hmissed⟩
  · intro after
    simp only [start, hready]
  · intro hends
    apply Classical.byContradiction
    intro h
    -- Of a single request after it nothing would be left.
    have hleft := serve_suffix (k := k) [r] (k.dispatch r t).2
    rw [← hmissed h [r], hends [r]] at hleft
    exact absurd (List.suffix_nil.1 hleft) (List.cons_ne_nil r [])
  · intro h after
    exact (hserve after).trans (serve_ends hr h after)

theorem first_shutdown_ends_connected :
    let before := [bareRequest "kernel_info_request"]
    let shutdown := bareRequest "shutdown_request"
    let t := ((refusing []).serve before fresh).2
    ∀ after, (refusing []).serve (before ++ shutdown :: after) fresh =
      (after, ((refusing []).dispatch shutdown t).2) := by
  intro before shutdown t
  have hready : (refusing []).configure fresh = .ok fresh := rfl
  have hbefore : ∀ r ∈ before, r.message.msgType ≠ Demand.msgType .shutdown := by decide
  have hr : shutdown.message.msgType = Demand.msgType .shutdown := rfl
  exact (first_shutdown_ends_iff (refusing []) hready hbefore hr).2.1.2 (answer_eq_ok.1 rfl)

/-- A kernel whose reply is refused serves on. -/
theorem shutdown_passed_over :
    let requests := [bareRequest "shutdown_request", bareRequest "kernel_info_request"]
    let k := refusing ["shutdown_reply"]
    (k.serve requests fresh).1 = [] ∧
    (k.start requests fresh).2.link.transport.sent.map (·.message.msgType) =
      ["status", "status", "kernel_info_reply", "status"] := by
  decide +kernel

/-- The calls on the sink by which a kernel serves requests. -/
def runCalls (k : Kernel S D σ) (requests : List Request) (s : State S D σ) : List Sink.Call :=
  (k.noting.serve requests s.noting).2.link.transport.2

/-- What a kernel says over a run. A block whose reply is not delivered has no end. -/
inductive Proceeds (k : Kernel S D σ) :
    List Request → State S D σ → List Utterance → State S D σ → Prop where
  | nil (s : State S D σ) : Proceeds k [] s [] s
  | closed {r : Request} {rest : List Request} {s t : State S D σ} {us vs : List Utterance}
      (delivered : k.Delivered r s) (block : k.Deals r s us (k.dispatch r s).2)
      (more : Proceeds k rest (k.dispatch r s).2 vs t) :
      Proceeds k (r :: rest) s ((status r "busy" :: us ++ [status r "idle"]) ++ vs) t
  | cut {r : Request} {rest : List Request} {s t : State S D σ} {us vs : List Utterance}
      (undelivered : ¬ k.Delivered r s) (block : k.Deals r s us (k.dispatch r s).2)
      (more : Proceeds k rest (k.dispatch r s).2 vs t) :
      Proceeds k (r :: rest) s ((status r "busy" :: us) ++ vs) t

theorem Proceeds.cons (block : k.Deals r s us (k.dispatch r s).2)
    (more : k.Proceeds requests (k.dispatch r s).2 vs t) :
    k.Proceeds (r :: requests) s
      ((status r "busy" :: us ++ idle r (k.dispatch r s).1) ++ vs) t := by
  by_cases h : k.Delivered r s
  · rw [idle_delivered h]
    exact .closed h block more
  · rw [idle_undelivered h, List.append_nil]
    exact .cut h block more

theorem serve_proceeds (k : Kernel S D σ) (requests : List Request)
    (s : State S D (σ × List Sink.Call)) :
    ∃ dealt us, requests = dealt ++ (k.serve requests s.forget).1 ∧
      k.Proceeds dealt s.forget us (k.serve requests s.forget).2 ∧
      k.noting.outlet.Spoken (Sink.notes σ) us s.link (k.noting.serve requests s).2.link := by
  induction requests generalizing s with
  | nil => exact ⟨[], [], rfl, .nil _, .refl trivial⟩
  | cons r rest ih =>
    obtain ⟨us, hdeals, hspoken, _⟩ :=
      dispatch_spoken (k := k.noting) (s := s) k.outlet.sink.noting_keeps trivial r
    have hforget := k.dispatch_forget s r
    rcases hdispatch : k.noting.dispatch r s with ⟨sent, t⟩
    rw [hdispatch] at hdeals hspoken hforget
    have hdispatch' : k.dispatch r s.forget = (sent, t.forget) := hforget.symm
    have hblock : k.Deals r s.forget us (k.dispatch r s.forget).2 := by
      rw [hdispatch']
      exact hdeals.forget
    by_cases hlast : sent = .ok .shutdown
    · have hproceeds := Proceeds.cons hblock (.nil (k.dispatch r s.forget).2)
      rw [hdispatch', List.append_nil] at hproceeds
      subst hlast
      rw [serve_shutdown hdispatch, serve_shutdown hdispatch']
      exact ⟨[r], _, rfl, hproceeds, hspoken⟩
    · obtain ⟨dealt, vs, hdealt, hmore, hspoken'⟩ := ih t
      rw [serve_proceed hdispatch hlast, serve_proceed hdispatch' hlast]
      refine ⟨r :: dealt, _, congrArg (r :: ·) hdealt, ?_, hspoken.trans hspoken'⟩
      have hrest : k.Proceeds dealt (k.dispatch r s.forget).2 vs (k.serve rest t.forget).2 := by
        rw [hdispatch']
        exact hmore
      have hproceeds := Proceeds.cons hblock hrest
      rw [hdispatch'] at hproceeds
      exact hproceeds

def statuses (us : List Utterance) : List Utterance := us.filter (·.msgType = "status")

theorem Deals.not_status (hi : k.interpreter.Discreet) (h : k.Deals r s us t) :
    ∀ u ∈ us, u.msgType ≠ "status" := by
  cases h with
  | passed unknown => exact nofun
  | answered known hd => exact List.forall_mem_singleton.2 (replyType_ne_status _)
  | @executed _ e _ n _ said outcome _ run =>
    have hannounced : ∀ u ∈ announcement r e n, u.msgType ≠ "status" := by
      unfold announcement
      split
      · exact nofun
      · exact List.forall_mem_singleton.2 (show "execute_input" ≠ "status" by decide)
    have hfailed : ∀ u ∈ failure r outcome, u.msgType ≠ "status" := by
      cases outcome with
      | ok => exact nofun
      | error ename evalue traceback =>
        exact List.forall_mem_singleton.2 (show "error" ≠ "status" by decide)
    simp only [List.forall_mem_append]
    exact ⟨⟨⟨hannounced, hi e n _ r _ said _ run⟩, hfailed⟩,
      List.forall_mem_singleton.2 (replyType_ne_status _)⟩

theorem Deals.statuses_eq_nil (hi : k.interpreter.Discreet) (h : k.Deals r s us t) :
    statuses us = [] := by
  rw [statuses, List.filter_eq_nil_iff]
  intro u hu
  rw [decide_eq_true_eq]
  exact h.not_status hi u hu

theorem statuses_closed (h : statuses us = []) :
    statuses ((status r "busy" :: us ++ [status r "idle"]) ++ vs) =
      status r "busy" :: status r "idle" :: statuses vs := by
  unfold statuses at h ⊢
  rw [List.filter_append, List.filter_append, List.filter_cons_of_pos (by rfl), h]
  rfl

theorem statuses_cut (h : statuses us = []) :
    statuses ((status r "busy" :: us) ++ vs) = status r "busy" :: statuses vs := by
  unfold statuses at h ⊢
  rw [List.filter_append, List.filter_cons_of_pos (by rfl), h]
  rfl

theorem Proceeds.length_statuses_le (hi : k.interpreter.Discreet)
    (h : k.Proceeds requests s us t) : (statuses us).length ≤ 2 * requests.length := by
  induction h with
  | nil => exact Nat.le_refl 0
  | closed _ block _ ih =>
    rw [statuses_closed (block.statuses_eq_nil hi)]
    simp only [List.length_cons]
    omega
  | cut _ block _ ih =>
    rw [statuses_cut (block.statuses_eq_nil hi)]
    simp only [List.length_cons]
    omega

/-- The statuses of requests of which each was dealt with to the end. -/
def brackets (requests : List Request) : List Utterance :=
  requests.flatMap fun r => [status r "busy", status r "idle"]

theorem brackets_cons (r : Request) (rest : List Request) :
    brackets (r :: rest) = status r "busy" :: status r "idle" :: brackets rest := rfl

theorem length_brackets (requests : List Request) :
    (brackets requests).length = 2 * requests.length := by
  induction requests with
  | nil => rfl
  | cons r rest ih =>
    rw [brackets_cons, List.length_cons, List.length_cons, ih, List.length_cons]
    omega

theorem Proceeds.statuses_eq_iff (hi : k.interpreter.Discreet)
    (h : k.Proceeds requests s us t) :
    statuses us = brackets requests ↔ k.AllDelivered requests s := by
  induction h with
  | nil => exact ⟨fun _ => trivial, fun _ => rfl⟩
  | closed delivered block _ ih =>
    rw [statuses_closed (block.statuses_eq_nil hi), brackets_cons, List.cons_inj_right,
      List.cons_inj_right, ih, AllDelivered, and_iff_right delivered]
  | @cut r rest _ _ _ vs undelivered block more _ =>
    rw [statuses_cut (block.statuses_eq_nil hi), AllDelivered]
    refine ⟨fun heq => ?_, fun hall => absurd hall.1 undelivered⟩
    -- One idle is missing, and no later block makes up for it.
    have hshort : (statuses vs).length ≤ 2 * rest.length := more.length_statuses_le hi
    have hlength := congrArg List.length heq
    rw [length_brackets, List.length_cons, List.length_cons] at hlength
    omega

/-- A kernel says that it is idle again after a request exactly if its reply, if there is to be one, is
delivered; if not, the kernel says nothing more. So over a run every busy is followed by its idle
exactly if no reply fails, as far as the interpreter leaves the statuses to the kernel. -/
theorem idle_iff_delivered (k : Kernel S D σ) (s : State S D σ) :
    (∀ r, ∃ us, k.Deals r s us (k.dispatch r s).2 ∧
      (k.calls r s =
        k.outlet.calls s.link.stamped (status r "busy" :: us ++ [status r "idle"]) ↔
          k.Delivered r s) ∧
      (¬ k.Delivered r s →
        k.calls r s = k.outlet.calls s.link.stamped (status r "busy" :: us))) ∧
    ∀ requests, ∃ dealt us, requests = dealt ++ (k.serve requests s).1 ∧
      k.runCalls requests s = k.outlet.calls s.link.stamped us ∧
      k.Proceeds dealt s us (k.serve requests s).2 ∧
      (k.interpreter.Discreet → (statuses us = brackets dealt ↔ k.AllDelivered dealt s)) := by
  constructor
  · intro r
    obtain ⟨us, hdeals, hcalls⟩ := k.calls_eq r s
    refine ⟨us, hdeals, ⟨fun hclosed => ?_, fun h => ?_⟩, fun h => ?_⟩
    · apply Classical.byContradiction
      intro h
      rw [hcalls, idle_undelivered h] at hclosed
      have hlength := congrArg List.length hclosed
      simp only [Outlet.length_calls, List.length_append, List.length_cons, List.length_nil]
        at hlength
      omega
    · rw [hcalls, idle_delivered h]
    · rw [hcalls, idle_undelivered h, List.append_nil]
  · intro requests
    obtain ⟨dealt, us, hdealt, hproceeds, hspoken⟩ := k.serve_proceeds requests s.noting
    refine ⟨dealt, us, hdealt, ?_, hproceeds, fun hi => hproceeds.statuses_eq_iff hi⟩
    rw [← k.outlet.calls_noting]
    exact hspoken.entries.trans (List.map_id _)

theorem idle_iff_delivered_connected :
    let requests := [bareRequest "kernel_info_request", bareRequest "other"]
    (refusing []).interpreter.Discreet ∧
    ∃ us, (refusing []).runCalls requests fresh = (refusing []).outlet.calls 0 us ∧
      statuses us = brackets requests := by
  intro requests
  have discreet : (refusing []).interpreter.Discreet := by
    intro e n s r mayAsk us a hsays
    cases hsays
    exact nofun
  obtain ⟨dealt, us, hdealt, hcalls, _, hpairs⟩ :=
    (idle_iff_delivered (refusing []) fresh).2 requests
  have hleft : ((refusing []).serve requests fresh).1 = [] := rfl
  rw [hleft, List.append_nil] at hdealt
  subst hdealt
  have hall : (refusing []).AllDelivered requests fresh :=
    ⟨answer_eq_ok.1 rfl, answer_eq_ok.1 rfl, trivial⟩
  exact ⟨discreet, us, hcalls, (hpairs discreet).2 hall⟩

/-- After a reply that is refused the next thing that subscribers hear is busy once more. -/
theorem busy_after_busy :
    let requests := [bareRequest "kernel_info_request", bareRequest "other"]
    ((refusing ["kernel_info_reply"]).start requests fresh).2.link.transport.sent.map
      (fun d => (d.channel, d.message.msgType, d.message.contentText "execution_state")) =
      [(.iopub, "status", "busy"), (.iopub, "status", "busy"), (.iopub, "status", "idle")] := by
  decide +kernel

end Kernel

end NotebookKernel
