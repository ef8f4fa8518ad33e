import NotebookKernel.Proofs.Kernel.Undelivered

namespace NotebookKernel

variable {S D σ : Type} {received : Request → Prop} {us : List Utterance}

/-- A message for subscribers, a question, or the reply to a request that was received. -/
def Sink.Call.Routine (received : Request → Prop) : Sink.Call → Prop
  | .send channel _ => channel = .iopub ∨ channel = .stdin
  | .reply request _ => received request

def Utterance.Routine (received : Request → Prop) (u : Utterance) : Prop :=
  match u.route with
  | .on channel => channel = .iopub ∨ channel = .stdin
  | .reply => received u.about

namespace Outlet

theorem call_routine (o : Outlet σ) {u : Utterance} (h : u.Routine received) (n : Nat) :
    (o.call u n).Routine received := by
  obtain ⟨about, route, msgType, content⟩ := u
  cases route with
  | reply => exact h
  | on channel => exact h

theorem calls_routine (o : Outlet σ) (h : ∀ u ∈ us, u.Routine received) (n : Nat) :
    ∀ c ∈ o.calls n us, c.Routine received := by
  induction us generalizing n with
  | nil => exact nofun
  | cons u us ih =>
    obtain ⟨hu, hus⟩ := List.forall_mem_cons.1 h
    exact List.forall_mem_cons.2 ⟨o.call_routine hu n, ih hus (n + 1)⟩

end Outlet

theorem Execution.Says.routine {α : Type} {r : Request} {mayAsk : Bool} {run : Execution α} {a : α}
    (h : run.Says r mayAsk us a) : ∀ u ∈ us, u.Routine received := by
  induction h with
  | done => exact nofun
  | publish _ ih => exact List.forall_mem_cons.2 ⟨.inl rfl, ih⟩
  | ask _ _ _ ih => exact List.forall_mem_cons.2 ⟨.inr rfl, ih⟩
  | refused _ _ ih => exact ih

namespace Kernel

variable {k : Kernel S D σ} {r : Request} {s t : State S D σ} {requests : List Request}

theorem announcement_routine (r : Request) (e : ExecuteRequest) (n : Nat) :
    ∀ u ∈ announcement r e n, u.Routine received := by
  unfold announcement
  split
  · exact nofun
  · exact List.forall_mem_singleton.2 (.inl rfl)

theorem failure_routine (r : Request) (outcome : Outcome) :
    ∀ u ∈ failure r outcome, u.Routine received := by
  cases outcome with
  | ok => exact nofun
  | error ename evalue traceback => exact List.forall_mem_singleton.2 (.inl rfl)

theorem Deals.routine (hr : received r) (h : k.Deals r s us t) :
    ∀ u ∈ us, u.Routine received := by
  cases h with
  | passed unknown => exact nofun
  | answered known hd => exact List.forall_mem_singleton.2 hr
  | @executed _ e _ n _ said outcome _ run =>
    simp only [List.forall_mem_append]
    exact ⟨⟨⟨announcement_routine r e n, run.routine⟩, failure_routine r outcome⟩,
      List.forall_mem_singleton.2 hr⟩

theorem Proceeds.routine (h : k.Proceeds requests s us t) (hreceived : ∀ r ∈ requests, received r) :
    ∀ u ∈ us, u.Routine received := by
  induction h with
  | nil => exact nofun
  | @closed r _ _ _ said _ _ block _ ih =>
    obtain ⟨hr, hrest⟩ := List.forall_mem_cons.1 hreceived
    have hblock : ∀ u ∈ status r "busy" :: said, u.Routine received :=
      List.forall_mem_cons.2 ⟨.inl rfl, block.routine hr⟩
    simp only [List.forall_mem_append]
    exact ⟨⟨hblock, List.forall_mem_singleton.2 (.inl rfl)⟩, ih hrest⟩
  | cut _ block _ ih =>
    obtain ⟨hr, hrest⟩ := List.forall_mem_cons.1 hreceived
    exact List.forall_mem_append.2
      ⟨List.forall_mem_cons.2 ⟨.inl rfl, block.routine hr⟩, ih hrest⟩

/-- All calls on the sink from the start of a kernel to its end. -/
def startCalls (k : Kernel S D σ) (requests : List Request) (s : State S D σ) : List Sink.Call :=
  (k.noting.start requests s.noting).2.link.transport.2

theorem startCalls_proceeds {ready : State S D σ} (hready : k.configure s = .ok ready)
    (requests : List Request) :
    ∃ dealt us, requests = dealt ++ (k.serve requests ready).1 ∧
      k.Proceeds dealt ready us (k.serve requests ready).2 ∧
      k.startCalls requests s = k.outlet.calls s.link.stamped us := by
  have hnoting := k.unnoted_shows.kernel_configure s.noting
  unfold startCalls start
  cases hready' : k.noting.configure s.noting with
  | error f =>
    rw [hready'] at hnoting
    exact nomatch hnoting.trans hready
  | ok ready' =>
    rw [hready'] at hnoting
    obtain rfl : ready'.forget = ready := Except.ok.inj (hnoting.trans hready)
    have hlink : ready'.link = s.noting.link := link_configure hready'
    obtain ⟨dealt, us, hdealt, hproceeds, hspoken⟩ := k.serve_proceeds requests ready'
    refine ⟨dealt, us, hdealt, hproceeds, ?_⟩
    rw [hlink] at hspoken
    rw [← k.outlet.calls_noting]
    exact hspoken.entries.trans (List.map_id _)

theorem startCalls_of_unready {reason : String} (h : k.configure s = .error reason)
    (requests : List Request) : k.startCalls requests s = [] := by
  have hnoting := k.unnoted_shows.kernel_configure s.noting
  unfold startCalls start
  cases hready' : k.noting.configure s.noting with
  | error f => rfl
  | ok ready' =>
    rw [hready'] at hnoting
    exact nomatch hnoting.trans h

theorem startCalls_routine (k : Kernel S D σ) (requests : List Request) (s : State S D σ) :
    ∀ c ∈ k.startCalls requests s, c.Routine (· ∈ requests) := by
  cases hready : k.configure s with
  | error reason =>
    rw [startCalls_of_unready hready]
    exact nofun
  | ok ready =>
    obtain ⟨dealt, us, hdealt, hproceeds, hcalls⟩ := startCalls_proceeds hready requests
    have hreceived : ∀ u ∈ us, u.Routine (· ∈ requests) := by
      apply hproceeds.routine
      intro r hr
      rw [hdealt]
      exact List.mem_append_left _ hr
    rw [hcalls]
    exact k.outlet.calls_routine hreceived _

end Kernel

end NotebookKernel
