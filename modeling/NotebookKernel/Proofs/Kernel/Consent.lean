import NotebookKernel.Proofs.Kernel.Counting
import NotebookKernel.Proofs.Kernel.Links
import NotebookKernel.Proofs.Kernel.Undelivered
import NotebookKernel.Redirection.Guard
import NotebookKernel.Script

namespace NotebookKernel

open Json Redirection

variable {S D σ : Type}

namespace Hook

/-- Every call raises the same, whatever it is given, and leaves everything as it is. -/
def Refuses (h : Hook) (o : Outlet σ) : Prop :=
  ∃ raised : Raised, raised.kind = "RuntimeError" ∧
    raised.message = Failure.message .stdinNotAllowed ∧
    ∀ args named, h.call args named = .done (.error raised) ∧
      ∀ parent mayAsk l, o.perform parent mayAsk (h.call args named) l = (.error raised, l)

/-- Every call with a prompt that can be shown is one question, and comes to its answer. -/
def AsksOnce (h : Hook) (o : Outlet σ) (password : Bool) : Prop :=
  ∀ args named text, prompt args named = .ok text → ∀ parent l,
    o.perform parent true (h.call args named) l =
      (o.ask parent text password l).map (Except.mapError .runtime) id ∧
    (o.noting.perform parent true (h.call args named) l.noting).2.transport.2 =
      [.send .stdin (o.written parent "input_request" (question text password) l.stamped)]

variable {h : Hook}

theorem refuses_of_disabled (hdisabled : h.enabled = false) (o : Outlet σ) : h.Refuses o := by
  refine ⟨.runtime .stdinNotAllowed, rfl, rfl, ?_⟩
  intro args named
  have hcall : h.call args named = .done (.error (.runtime .stdinNotAllowed)) := by
    rw [call, hdisabled]
    rfl
  rw [hcall]
  exact ⟨rfl, fun _ _ _ => rfl⟩

theorem asks_once_of_enabled (henabled : h.enabled = true) (o : Outlet σ) :
    h.AsksOnce o h.password := by
  intro args named text hprompt parent l
  have hcall : h.call args named =
      .ask text h.password fun answer => .done (answer.mapError .runtime) := by
    rw [call, henabled, hprompt]
    rfl
  rw [hcall]
  exact ⟨rfl, o.notes_ask parent text h.password l.noting⟩

end Hook

theorem Redirection.Bindings.redirectInput_hooks {b b' : Bindings} {g : Guard} {enabled : Bool}
    (h : b.redirectInput enabled = .ok (g, b')) :
    (b'.holds .input).kind = .hook ⟨enabled, false⟩ ∧
      (b'.holds .getpass).kind = .hook ⟨enabled, true⟩ := by
  unfold redirectInput at h
  split at h
  · exact nomatch h
  · obtain ⟨-, rfl⟩ := Prod.mk.inj (Except.ok.inj h)
    exact ⟨rfl, rfl⟩

theorem ExecuteRequest.allowStdin_eq_false {m : Message} :
    (ofMessage m).allowStdin = false ↔ m.content.get? "allow_stdin" = some (.bool false) :=
  Kernel.contentBool_eq_not

namespace Kernel

variable {k : Kernel S D σ} {r : Request} {s : State S D σ}

/-- No question went out, and nothing was taken from what came in. -/
structure Unasked (inbox : Inbox) (l : Link (σ × List Sink.Call)) : Prop where
  inbox : l.inbox = inbox
  calls : ∀ c ∈ l.transport.2, c.question? = none

theorem Unasked.other {inbox : Inbox} {l l' : Link (σ × List Sink.Call)} {c : Sink.Call}
    (h : Unasked inbox l) (hinbox : l'.inbox = l.inbox)
    (hnotes : l'.transport.2 = l.transport.2 ++ [c]) (hc : c.question? = none) :
    Unasked inbox l' := by
  refine ⟨hinbox.trans h.inbox, ?_⟩
  rw [hnotes]
  exact List.forall_mem_append.2 ⟨h.calls, List.forall_mem_singleton.2 hc⟩

theorem unasked_preserves (k : Kernel S D σ) (inbox : Inbox) :
    k.noting.outlet.Preserves (Unasked inbox) false where
  publish _ _ _ h := h.other rfl rfl rfl
  reply _ _ h := h.other rfl rfl rfl
  ask := nofun

theorem dispatch_unasked (k : Kernel S D σ) (s : State S D σ)
    (h : r.message.content.get? "allow_stdin" = some (.bool false)) :
    (∀ m, .send .stdin m ∉ k.calls r s) ∧ (k.dispatch r s).2.link.inbox = s.link.inbox := by
  have hpreserves : k.noting.outlet.Preserves (Unasked s.link.inbox)
      (ExecuteRequest.ofMessage r.message).allowStdin := by
    rw [ExecuteRequest.allowStdin_eq_false.2 h]
    exact k.unasked_preserves s.link.inbox
  have hunasked : Unasked s.link.inbox (k.noting.dispatch r s.noting).2.link :=
    dispatch_preserves hpreserves ⟨rfl, nofun⟩
  have hforget : (k.noting.dispatch r s.noting).2.forget = (k.dispatch r s).2 :=
    congrArg Prod.snd (k.dispatch_forget s.noting r)
  rw [← hforget]
  refine ⟨?_, hunasked.inbox⟩
  intro m hm
  exact nomatch hunasked.calls _ hm

/-- A request that does not allow input leaves the frontends that serve it alone; any other lets the cell
ask. Where input is not allowed the hooks refuse every call, and where it is they ask once for every
prompt. -/
theorem input_by_consent (k : Kernel S D σ) (s : State S D σ) (r : Request) (b b' : Bindings)
    (g : Guard) :
    (r.message.content.get? "allow_stdin" = some (.bool false) →
      (∀ m, .send .stdin m ∉ k.calls r s) ∧ (k.dispatch r s).2.link.inbox = s.link.inbox) ∧
    (r.message.msgType = Demand.msgType .execute →
      r.message.content.get? "allow_stdin" ≠ some (.bool false) →
      let e := ExecuteRequest.ofMessage r.message
      let n := (count e s).executionCount
      e.allowStdin = true ∧ ∃ us outcome interpreter,
        (k.interpreter.execute e n s.interpreter).Says r true us (outcome, interpreter) ∧
        k.calls r s = k.outlet.calls s.link.stamped
          ([status r "busy"] ++ announcement r e n ++ us ++ failure r outcome ++
            [reply r (verdict n outcome)] ++ idle r (k.dispatch r s).1)) ∧
    (b.redirectInput false = .ok (g, b') →
      ∃ input getpass, (b'.holds .input).kind = .hook input ∧
        (b'.holds .getpass).kind = .hook getpass ∧
        input.Refuses k.outlet ∧ getpass.Refuses k.outlet) ∧
    (b.redirectInput true = .ok (g, b') →
      ∃ input getpass, (b'.holds .input).kind = .hook input ∧
        (b'.holds .getpass).kind = .hook getpass ∧
        input.AsksOnce k.outlet false ∧ getpass.AsksOnce k.outlet true) := by
  refine ⟨k.dispatch_unasked s, ?_, ?_, ?_⟩
  · intro known hunless e n
    have hallowed : e.allowStdin = true := by
      rw [← Bool.not_eq_false]
      exact mt ExecuteRequest.allowStdin_eq_false.1 hunless
    obtain ⟨us, outcome, interpreter, hsaid, hcalls⟩ :=
      calls_execute known k s (e := e) rfl (n := n) rfl
    rw [hallowed] at hsaid
    exact ⟨hallowed, us, outcome, interpreter, hsaid, hcalls⟩
  · intro hdisabled
    obtain ⟨hinput, hgetpass⟩ := Bindings.redirectInput_hooks hdisabled
    exact ⟨_, _, hinput, hgetpass, Hook.refuses_of_disabled rfl _, Hook.refuses_of_disabled rfl _⟩
  · intro henabled
    obtain ⟨hinput, hgetpass⟩ := Bindings.redirectInput_hooks henabled
    exact ⟨_, _, hinput, hgetpass, Hook.asks_once_of_enabled rfl _, Hook.asks_once_of_enabled rfl _⟩

/-- A cell that asks, and an old loss that still waits. -/
theorem input_by_consent_scripted :
    let script : Script := ⟨[("", [.input "name? " false])], [], .null, none⟩
    let k : Kernel Unit Nat Memory := { refusing [] with interpreter := script.interpreter }
    let s : State Unit Nat Memory := { fresh with link := ⟨.initial, ⟨[.closed], []⟩, 0⟩ }
    let allowing := bareRequest "execute_request"
    let forbidding := { allowing with
      message.content := .object [("allow_stdin", .bool false)] }
    let disabled := Bindings.initial.redirect
      [(.input, .hook ⟨false, false⟩), (.getpass, .hook ⟨false, true⟩)]
    let enabled := Bindings.initial.redirect
      [(.input, .hook ⟨true, false⟩), (.getpass, .hook ⟨true, true⟩)]
    ((∀ m, .send .stdin m ∉ k.calls forbidding s) ∧
      (k.dispatch forbidding s).2.link.inbox = ⟨[.closed], []⟩) ∧
    ((ExecuteRequest.ofMessage allowing.message).allowStdin = true ∧
      ((k.calls allowing s).filterMap Sink.Call.question?).length = 1) ∧
    (Bindings.initial.redirectInput false = .ok disabled ∧
      ∃ hook, (disabled.2.holds .input).kind = .hook hook ∧ hook.Refuses k.outlet) ∧
    Bindings.initial.redirectInput true = .ok enabled ∧
      ∃ hook, (enabled.2.holds .getpass).kind = .hook hook ∧ hook.AsksOnce k.outlet true := by
  intro script k s allowing forbidding disabled enabled
  obtain ⟨hforbidding, _, hdisabled, _⟩ :=
    input_by_consent k s forbidding .initial disabled.2 disabled.1
  obtain ⟨_, hallowing, _, henabled⟩ :=
    input_by_consent k s allowing .initial enabled.2 enabled.1
  obtain ⟨hallowed, _⟩ := hallowing rfl nofun
  obtain ⟨_, _, hinput, _, hrefuses, _⟩ := hdisabled rfl
  obtain ⟨_, _, _, hgetpass, _, hasks⟩ := henabled rfl
  exact ⟨hforbidding rfl, ⟨hallowed, rfl⟩, ⟨rfl, _, hinput, hrefuses⟩, rfl, _, hgetpass, hasks⟩

end Kernel

end NotebookKernel
