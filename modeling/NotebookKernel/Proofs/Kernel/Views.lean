import NotebookKernel.Proofs.Kernel.Dealings

namespace NotebookKernel

open Json

variable {S S' D D' σ σ' α β γ : Type}

namespace Execution

theorem map_id (run : Execution α) : run.map id = run := by
  induction run with
  | done a => rfl
  | publish msgType content next ih => exact congrArg (publish msgType content) ih
  | ask prompt password next ih => exact congrArg (ask prompt password) (funext ih)

theorem map_map (run : Execution α) (f : α → β) (g : β → γ) :
    (run.map f).map g = run.map (g ∘ f) := by
  induction run with
  | done a => rfl
  | publish msgType content next ih => exact congrArg (publish msgType content) ih
  | ask prompt password next ih => exact congrArg (ask prompt password) (funext ih)

theorem Says.map {run : Execution α} {r : Request} {mayAsk : Bool} {us : List Utterance} {a : α}
    (h : run.Says r mayAsk us a) (f : α → β) : (run.map f).Says r mayAsk us (f a) := by
  induction h with
  | done a => exact .done (f a)
  | publish _ ih => exact .publish ih
  | ask allowed answer _ ih => exact .ask allowed answer ih
  | refused forbidden _ ih => exact .refused forbidden ih

end Execution

namespace Kernel

/-- What is seen of the states of a kernel. -/
structure View (S' D' σ' S D σ : Type) where
  interpreter : S' → S
  debugger : D' → D
  transport : σ' → σ

namespace View

def link (v : View S' D' σ' S D σ) (l : Link σ') : Link σ :=
  { l with transport := v.transport l.transport }

def state (v : View S' D' σ' S D σ) (s : State S' D' σ') : State S D σ :=
  ⟨v.link s.link, v.interpreter s.interpreter, v.debugger s.debugger, s.executionCount, s.history⟩

theorem state_count (v : View S' D' σ' S D σ) (s : State S' D' σ') (e : ExecuteRequest) :
    v.state (count e s) = count e (v.state s) := by
  unfold count
  cases e.storeHistory with
  | false => rfl
  | true => rfl

/-- What is seen of the whole kernel is the other kernel. -/
structure Shows (v : View S' D' σ' S D σ) (whole : Kernel S' D' σ') (k : Kernel S D σ) : Prop where
  message : whole.outlet.message = k.outlet.message
  send : ∀ channel m t, (whole.outlet.sink.send channel m t).map id v.transport =
    k.outlet.sink.send channel m (v.transport t)
  reply : ∀ request m t, (whole.outlet.sink.reply request m t).map id v.transport =
    k.outlet.sink.reply request m (v.transport t)
  configure : ∀ s,
    (whole.interpreter.configure s).map v.interpreter = k.interpreter.configure (v.interpreter s)
  execute : ∀ e n s, (whole.interpreter.execute e n s).map (Prod.map id v.interpreter) =
    k.interpreter.execute e n (v.interpreter s)
  isComplete : ∀ code s, (whole.interpreter.isComplete code s).map id v.interpreter =
    k.interpreter.isComplete code (v.interpreter s)
  info : ∀ s, whole.interpreter.info s = k.interpreter.info (v.interpreter s)
  debug : Option.Rel (fun b' b => ∀ content s, (b'.respond content s).map id v.debugger =
    b.respond content (v.debugger s)) whole.debugger k.debugger

end View

namespace View.Shows

variable {v : View S' D' σ' S D σ} {whole : Kernel S' D' σ'} {k : Kernel S D σ}
  (h : v.Shows whole k) (l : Link σ') (s : State S' D' σ')
include h

theorem outlet_send (channel : Channel) (parent : Header) (msgType : String) (content : Value) :
    (whole.outlet.send channel parent msgType content l).map id v.link =
      k.outlet.send channel parent msgType content (v.link l) := by
  have hsend := h.send channel (whole.outlet.message parent msgType content l.stamped) l.transport
  unfold Outlet.send
  rw [← h.message]
  exact congrArg (fun sent => (sent.1, { v.link l with
    transport := sent.2, stamped := l.stamped + 1 })) hsend

theorem outlet_reply (r : Request) (content : Value) :
    (whole.outlet.reply r content l).map id v.link = k.outlet.reply r content (v.link l) := by
  have hreply := h.reply r (whole.outlet.message r.message.header (replyType r.message.msgType)
    content l.stamped) l.transport
  unfold Outlet.reply
  rw [← h.message]
  exact congrArg (fun sent => (sent.1, { v.link l with
    transport := sent.2, stamped := l.stamped + 1 })) hreply

theorem ask (parent : Header) (prompt : String) (password : Bool) :
    (whole.outlet.ask parent prompt password l).map id v.link =
      k.outlet.ask parent prompt password (v.link l) := by
  have hsend := h.outlet_send { l with inbox := l.inbox.discard } .stdin parent "input_request"
    (question prompt password)
  rcases hsent : whole.outlet.send .stdin parent "input_request" (question prompt password)
    { l with inbox := l.inbox.discard } with ⟨sent, l'⟩
  rw [hsent] at hsend
  cases sent with
  | error f =>
    rw [Outlet.ask_of_unsent hsent, Outlet.ask_of_unsent hsend.symm]
    rfl
  | ok =>
    rw [Outlet.ask_of_sent hsent, Outlet.ask_of_sent hsend.symm]
    rfl

theorem perform (parent : Header) (mayAsk : Bool) (run : Execution α) (f : α → β) :
    (whole.outlet.perform parent mayAsk run l).map f v.link =
      k.outlet.perform parent mayAsk (run.map f) (v.link l) := by
  induction run generalizing l with
  | done a => rfl
  | publish msgType content next ih =>
    have hsend := h.outlet_send l .iopub parent msgType content
    rw [Outlet.perform, Execution.map, Outlet.perform, Outlet.publish, Outlet.publish, ← hsend]
    exact ih _
  | ask prompt password next ih =>
    have hask := h.ask l parent prompt password
    rw [Outlet.perform, Execution.map, Outlet.perform]
    split
    · rw [← hask]
      exact ih _ _
    · exact ih _ _

theorem publish (parent : Header) (msgType : String) (content : Value) :
    v.state (whole.publish parent msgType content s) =
      k.publish parent msgType content (v.state s) := by
  have hsend := h.outlet_send s.link .iopub parent msgType content
  exact congrArg (fun sent => { v.state s with link := sent.2 }) hsend

theorem announced (m : Message) (e : ExecuteRequest) :
    v.state (whole.announced m e s) = k.announced m e (v.state s) := by
  unfold Kernel.announced
  split
  · rfl
  · exact h.publish s _ _ _

theorem reported (m : Message) (outcome : Outcome) :
    v.state (whole.reported m outcome s) = k.reported m outcome (v.state s) := by
  cases outcome with
  | ok => rfl
  | error ename evalue traceback => exact h.publish s _ _ _

theorem kernel_execute (m : Message) :
    (whole.execute m s).map id v.state = k.execute m (v.state s) := by
  generalize he : ExecuteRequest.ofMessage m = e
  generalize hshown : whole.announced m e (Kernel.count e s) = shown
  have hshown' : k.announced m e (Kernel.count e (v.state s)) = v.state shown := by
    rw [← hshown, h.announced, v.state_count]
  rcases hran : whole.outlet.perform m.header e.allowStdin
    (whole.interpreter.execute e shown.executionCount shown.interpreter) shown.link
    with ⟨⟨outcome, interpreter⟩, l⟩
  have hran' : k.outlet.perform m.header e.allowStdin
      (k.interpreter.execute e shown.executionCount (v.interpreter shown.interpreter))
      (v.link shown.link) = ((outcome, v.interpreter interpreter), v.link l) := by
    have hperform := h.perform shown.link m.header e.allowStdin
      (whole.interpreter.execute e shown.executionCount shown.interpreter)
      (Prod.map id v.interpreter)
    rw [hran, h.execute] at hperform
    exact hperform.symm
  rw [execute_eq he.symm hshown hran, execute_eq he.symm hshown' hran']
  exact congrArg (Prod.mk _) (h.reported _ m outcome)

theorem kernel_info : whole.info s = k.info (v.state s) := by
  have hdebugger : whole.debugger.isSome = k.debugger.isSome := by
    have hdebug := h.debug
    generalize whole.debugger = debugger', k.debugger = debugger at hdebug
    cases hdebug with
    | none => rfl
    | some => rfl
  rw [Kernel.info, Kernel.info, hdebugger, h.info]
  rfl

theorem respond (m : Message) (d : Demand) :
    (whole.respond m s d).map id v.state = k.respond m (v.state s) d := by
  cases d with
  | execute => exact h.kernel_execute s m
  | kernelInfo => exact congrArg (·, v.state s) (h.kernel_info s)
  | isComplete =>
    exact congrArg (fun t : Completeness × S => (Value.ofFields [("status", .string t.1.name)],
      { v.state s with interpreter := t.2 })) (h.isComplete (m.contentText "code") s.interpreter)
  | debug =>
    obtain ⟨outlet', interpreter', debugger'⟩ := whole
    obtain ⟨outlet, interpreter, debugger⟩ := k
    have hdebug : Option.Rel _ debugger' debugger := h.debug
    cases hdebug with
    | none => rfl
    | some hresponds =>
      exact congrArg (fun t : Value × D => (t.1, { v.state s with debugger := t.2 }))
        (hresponds m.content s.debugger)
  | history | shutdown => rfl

theorem answer (r : Request) :
    (whole.answer r s).map id v.state = k.answer r (v.state s) := by
  cases hdemand : Demand.ofMessage? r.message with
  | none => simp only [Kernel.answer, hdemand, Prod.map_apply, id_eq]
  | some d =>
    have known := Demand.ofMessage?_eq_some.1 hdemand
    have hrespond' := h.respond s r.message d
    rcases hrespond : whole.respond r.message s d with ⟨content, t⟩
    rw [hrespond] at hrespond'
    rw [answer_known known hrespond, answer_known known hrespond'.symm]
    exact congrArg (fun sent => (sent.1, { v.state t with link := sent.2 }))
      (h.outlet_reply t.link r content)

theorem dispatch (r : Request) :
    (whole.dispatch r s).map id v.state = k.dispatch r (v.state s) := by
  have hbusy : v.state (whole.publishState r.message "busy" s) =
      k.publishState r.message "busy" (v.state s) := h.publish s _ _ _
  have hanswer' := h.answer (whole.publishState r.message "busy" s) r
  rcases hanswer : whole.answer r (whole.publishState r.message "busy" s) with ⟨sent, t⟩
  rw [hanswer, hbusy] at hanswer'
  cases sent with
  | error f =>
    rw [dispatch_of_undelivered hanswer, dispatch_of_undelivered hanswer'.symm]
    rfl
  | ok =>
    rw [dispatch_of_delivered hanswer, dispatch_of_delivered hanswer'.symm]
    exact congrArg (Prod.mk _) (h.publish _ _ _ _)

theorem serve (requests : List Request) :
    (whole.serve requests s).map id v.state = k.serve requests (v.state s) := by
  induction requests generalizing s with
  | nil => rfl
  | cons r rest ih =>
    have hdispatch' := h.dispatch s r
    rcases hdispatch : whole.dispatch r s with ⟨flow, t⟩
    rw [hdispatch] at hdispatch'
    by_cases hlast : flow = .ok .shutdown
    · subst hlast
      rw [serve_shutdown hdispatch, serve_shutdown hdispatch'.symm]
      rfl
    · rw [serve_proceed hdispatch hlast, serve_proceed hdispatch'.symm hlast]
      exact ih t

theorem kernel_configure : (whole.configure s).map v.state = k.configure (v.state s) := by
  have hconfigure : _ = k.interpreter.configure (v.state s).interpreter :=
    h.configure s.interpreter
  unfold Kernel.configure
  rw [← hconfigure]
  cases whole.interpreter.configure s.interpreter with
  | error f => rfl
  | ok interpreter => rfl

theorem start (requests : List Request) :
    (whole.start requests s).map id v.state = k.start requests (v.state s) := by
  have hready := h.kernel_configure s
  cases hwhole : whole.configure s with
  | error f =>
    rw [hwhole] at hready
    simp only [Kernel.start, hwhole, ← hready]
    rfl
  | ok ready =>
    rw [hwhole] at hready
    simp only [Kernel.start, hwhole, ← hready]
    exact congrArg (fun served => (0, served.2)) (h.serve ready requests)

theorem deals {s t : State S' D' σ'} {r : Request} {us : List Utterance}
    (hdeals : whole.Deals r s us t) : k.Deals r (v.state s) us (v.state t) := by
  cases hdeals with
  | passed unknown l => exact .passed unknown (v.link l)
  | @answered d known hd l =>
    obtain ⟨hcontent, hstate⟩ := Prod.ext_iff.1 (h.respond s r.message d)
    have hanswered := Deals.answered (k := k) (s := v.state s) known hd (v.link l)
    rw [← hcontent, ← hstate] at hanswered
    exact hanswered
  | @executed known e he n hn us outcome interpreter run l =>
    have hcount := congrArg State.executionCount (v.state_count s e)
    have hsays := run.map (Prod.map id v.interpreter)
    rw [h.execute] at hsays
    have hexecuted :=
      Deals.executed (k := k) (s := v.state s) known he (hn.trans hcount) hsays (v.link l)
    rw [← View.state_count] at hexecuted
    exact hexecuted

end View.Shows

end Kernel

end NotebookKernel
