import NotebookKernel.Proofs.Kernel.Dealings

namespace NotebookKernel

open Json

variable {S D σ α : Type}

/-- The three things that a kernel does to its link; it may be that it does not ask. -/
structure Outlet.Preserves (o : Outlet σ) (P : Link σ → Prop) (mayAsk : Bool) : Prop where
  publish : ∀ {l} parent msgType content, P l → P (o.publish parent msgType content l)
  reply : ∀ {l} r content, P l → P (o.reply r content l).2
  ask : mayAsk = true → ∀ {l} parent prompt password, P l → P (o.ask parent prompt password l).2

theorem Outlet.Preserves.perform {o : Outlet σ} {P : Link σ → Prop} {mayAsk : Bool} {l : Link σ}
    (h : o.Preserves P mayAsk) (hl : P l) (parent : Header) (run : Execution α) :
    P (o.perform parent mayAsk run l).2 := by
  induction run generalizing l with
  | done a => exact hl
  | publish msgType content next ih => exact ih (h.publish parent msgType content hl)
  | ask prompt password next ih =>
    rw [Outlet.perform]
    split
    next allowed => exact ih _ (h.ask allowed parent prompt password hl)
    next => exact ih _ hl

namespace Kernel

variable {k : Kernel S D σ} {P : Link σ → Prop} {r : Request} {s : State S D σ}

theorem announced_preserves {mayAsk : Bool} (h : k.outlet.Preserves P mayAsk) (hs : P s.link)
    (m : Message) (e : ExecuteRequest) : P (k.announced m e s).link := by
  unfold announced
  split
  · exact hs
  · exact h.publish _ _ _ hs

theorem reported_preserves {mayAsk : Bool} (h : k.outlet.Preserves P mayAsk) (hs : P s.link)
    (m : Message) (outcome : Outcome) : P (k.reported m outcome s).link := by
  cases outcome with
  | ok => exact hs
  | error ename evalue traceback => exact h.publish _ _ _ hs

theorem execute_preserves {m : Message}
    (h : k.outlet.Preserves P (ExecuteRequest.ofMessage m).allowStdin) (hs : P s.link) :
    P (k.execute m s).2.link := by
  generalize he : ExecuteRequest.ofMessage m = e at h
  have hcounted : P (count e s).link := by
    rw [link_count]
    exact hs
  have hannounced := announced_preserves h hcounted m e
  generalize hshown : k.announced m e (count e s) = shown at hannounced
  have hperformed := h.perform hannounced m.header
    (k.interpreter.execute e shown.executionCount shown.interpreter)
  rcases hran : k.outlet.perform m.header e.allowStdin
    (k.interpreter.execute e shown.executionCount shown.interpreter) shown.link
    with ⟨⟨outcome, interpreter⟩, l⟩
  rw [hran] at hperformed
  rw [execute_eq he.symm hshown hran]
  exact reported_preserves h hperformed m outcome

theorem answer_preserves (h : k.outlet.Preserves P (ExecuteRequest.ofMessage r.message).allowStdin)
    (hs : P s.link) : P (k.answer r s).2.link := by
  cases hdemand : Demand.ofMessage? r.message with
  | none =>
    simp only [answer, hdemand]
    exact hs
  | some d =>
    have known := Demand.ofMessage?_eq_some.1 hdemand
    have hresponded : P (k.respond r.message s d).2.link := by
      by_cases hd : d = .execute
      · subst hd
        exact execute_preserves h hs
      · rw [link_respond hd]
        exact hs
    rw [answer_known known rfl]
    exact h.reply _ _ hresponded

theorem dispatch_preserves
    (h : k.outlet.Preserves P (ExecuteRequest.ofMessage r.message).allowStdin) (hs : P s.link) :
    P (k.dispatch r s).2.link := by
  have hanswered : P (k.answer r (k.publishState r.message "busy" s)).2.link :=
    answer_preserves h (h.publish _ _ _ hs)
  rcases hanswer : k.answer r (k.publishState r.message "busy" s) with ⟨sent, t⟩
  rw [hanswer] at hanswered
  cases sent with
  | error f =>
    rw [dispatch_of_undelivered hanswer]
    exact hanswered
  | ok =>
    rw [dispatch_of_delivered hanswer]
    exact h.publish _ _ _ hanswered

theorem serve_preserves (h : k.outlet.Preserves P true) (hs : P s.link) (requests : List Request) :
    P (k.serve requests s).2.link := by
  have hdispatch {r : Request} {s : State S D σ} (hs : P s.link) : P (k.dispatch r s).2.link :=
    dispatch_preserves ⟨h.publish, h.reply, fun _ => h.ask rfl⟩ hs
  induction requests generalizing s with
  | nil => exact hs
  | cons r rest ih =>
    by_cases hlast : (k.dispatch r s).1 = .ok .shutdown
    · rw [serve_shutdown (Prod.ext hlast rfl)]
      exact hdispatch hs
    · rw [serve_proceed rfl hlast]
      exact ih (hdispatch hs)

end Kernel

end NotebookKernel
