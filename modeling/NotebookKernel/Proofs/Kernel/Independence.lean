import NotebookKernel.Proofs.Kernel.Routine

namespace NotebookKernel

open Json

variable {S D σ σ' α β : Type}

namespace Execution

/-- A run that asks for no input. -/
inductive Unasking : Execution α → Prop where
  | done (a : α) : Unasking (.done a)
  | publish {msgType : String} {content : Value} {next : Execution α} (more : Unasking next) :
      Unasking (.publish msgType content next)

/-- Such a run comes to the same result whatever becomes of what it publishes. -/
theorem Unasking.result_eq {run : Execution α} (h : run.Unasking) {r r' : Request}
    {mayAsk mayAsk' : Bool} {us us' : List Utterance} {a a' : α} (hsaid : run.Says r mayAsk us a)
    (hsaid' : run.Says r' mayAsk' us' a') : a' = a := by
  induction h generalizing us us' with
  | done =>
    cases hsaid
    cases hsaid'
    rfl
  | publish _ ih =>
    cases hsaid with
    | publish more =>
      cases hsaid' with
      | publish more' => exact ih more more'

theorem Unasking.map {run : Execution α} (h : run.Unasking) (f : α → β) : (run.map f).Unasking := by
  induction h with
  | done a => exact .done (f a)
  | publish _ ih => exact .publish ih

end Execution

def Interpreter.Unasking (i : Interpreter S) : Prop := ∀ e n s, (i.execute e n s).Unasking

theorem Interpreter.Unasking.noting {i : Interpreter S} (h : i.Unasking) : i.noting.Unasking := by
  intro e n s
  exact (h e n s.1).map _

/-- The request that is replied to, and the content of the reply. -/
def Sink.Call.reply? : Sink.Call → Option (Request × Value)
  | .send _ _ => none
  | .reply request m => some (request, m.content)

def Utterance.reply? (u : Utterance) : Option (Request × Value) :=
  match u.route with
  | .on _ => none
  | .reply => some (u.about, u.content)

theorem Outlet.replies_calls (o : Outlet σ) (n : Nat) (us : List Utterance) :
    (o.calls n us).filterMap Sink.Call.reply? = us.filterMap Utterance.reply? := by
  induction us generalizing n with
  | nil => rfl
  | cons u us ih =>
    obtain ⟨about, route, msgType, content⟩ := u
    have hrest := ih (n + 1)
    cases route with
    | reply => exact congrArg ((about, content) :: ·) hrest
    | on channel => exact hrest

theorem replies_of_routine {us : List Utterance} (h : ∀ u ∈ us, u.Routine fun _ => False) :
    us.filterMap Utterance.reply? = [] := by
  rw [List.filterMap_eq_nil_iff]
  intro u hu
  have hroutine := h u hu
  obtain ⟨about, route, msgType, content⟩ := u
  cases route with
  | reply => exact hroutine.elim
  | on channel => rfl

namespace Kernel

/-- What a kernel knows, apart from its dealings with frontends. -/
structure Inner (S D : Type) where
  interpreter : S
  debugger : D
  executionCount : Nat
  history : History

def State.inner (s : State S D σ) : Inner S D :=
  ⟨s.interpreter, s.debugger, s.executionCount, s.history⟩

/-- Two kernels that differ in their outlets only. -/
structure Alike (k : Kernel S D σ) (k' : Kernel S D σ') : Prop where
  interpreter : k'.interpreter = k.interpreter
  debugger : k'.debugger = k.debugger

variable {k : Kernel S D σ} {k' : Kernel S D σ'} {s t : State S D σ} {s' t' : State S D σ'}
  {r : Request} {us us' : List Utterance} {requests : List Request}

theorem inner_count (hs : s'.inner = s.inner) (e : ExecuteRequest) :
    (count e s').inner = (count e s).inner := by
  obtain ⟨l, interpreter, debugger, n, history⟩ := s
  obtain ⟨l', interpreter', debugger', n', history'⟩ := s'
  obtain ⟨rfl, rfl, rfl, rfl⟩ := Inner.mk.inj hs
  unfold count
  cases e.storeHistory with
  | false => rfl
  | true => rfl

theorem respond_alike (hk : k.Alike k') (hs : s'.inner = s.inner) {d : Demand} (hd : d ≠ .execute)
    (m : Message) :
    (k'.respond m s' d).1 = (k.respond m s d).1 ∧
      (k'.respond m s' d).2.inner = (k.respond m s d).2.inner := by
  obtain ⟨o, i, b⟩ := k
  obtain ⟨o', i', b'⟩ := k'
  obtain ⟨rfl, rfl⟩ := hk
  obtain ⟨l, interpreter, debugger, n, history⟩ := s
  obtain ⟨l', interpreter', debugger', n', history'⟩ := s'
  obtain ⟨rfl, rfl, rfl, rfl⟩ := Inner.mk.inj hs
  cases d with
  | execute => exact absurd rfl hd
  | debug =>
    cases b' with
    | none => exact ⟨rfl, rfl⟩
    | some b => exact ⟨rfl, rfl⟩
  | kernelInfo | isComplete | history | shutdown => exact ⟨rfl, rfl⟩

theorem replies_executed (r : Request) (e : ExecuteRequest) (n : Nat) {outcome : Outcome}
    {mayAsk : Bool} {run : Execution α} {a : α} (h : run.Says r mayAsk us a) :
    (announcement r e n ++ us ++ failure r outcome ++
      [reply r (verdict n outcome)]).filterMap Utterance.reply? =
        [(r, verdict n outcome)] := by
  rw [List.filterMap_append, replies_of_routine]
  · rfl
  · simp only [List.forall_mem_append]
    exact ⟨⟨announcement_routine r e n, h.routine⟩, failure_routine r outcome⟩

theorem Deals.alike (hk : k.Alike k') (hi : k.interpreter.Unasking) (hs : s'.inner = s.inner)
    (h : k.Deals r s us t) (h' : k'.Deals r s' us' t') :
    t'.inner = t.inner ∧ us'.filterMap Utterance.reply? = us.filterMap Utterance.reply? := by
  cases h with
  | passed unknown l =>
    cases h' with
    | passed _ l' => exact ⟨hs, rfl⟩
    | answered known => exact absurd known (unknown _)
    | executed known => exact absurd known (unknown _)
  | answered known hd l =>
    cases h' with
    | passed unknown => exact absurd known (unknown _)
    | answered known' _ l' =>
      obtain rfl := Demand.msgType_injective (known.symm.trans known')
      obtain ⟨hcontent, hinner⟩ := respond_alike hk hs hd r.message
      exact ⟨hinner, congrArg (fun content => [(r, content)]) hcontent⟩
    | executed known' => exact absurd (Demand.msgType_injective (known.symm.trans known')) hd
  | @executed known e he n hn _ outcome interpreter run l =>
    cases h' with
    | passed unknown => exact absurd known (unknown _)
    | answered known' hd => exact absurd (Demand.msgType_injective (known'.symm.trans known)) hd
    | @executed _ e' he' n' hn' _ outcome' interpreter' run' l' =>
      subst he he'
      have hcounted := inner_count hs (.ofMessage r.message)
      have hcount := congrArg Inner.executionCount hcounted
      obtain rfl : n' = n := hn'.trans (hcount.trans hn.symm)
      have hstate : s'.interpreter = s.interpreter := congrArg Inner.interpreter hs
      rw [hk.interpreter, hstate] at run'
      obtain ⟨rfl, rfl⟩ := Prod.mk.inj ((hi _ _ _).result_eq run run')
      rw [replies_executed _ _ _ run, replies_executed _ _ _ run']
      exact ⟨congrArg (fun inner : Inner S D => { inner with interpreter := interpreter' })
        hcounted, rfl⟩

def answers (r : Request) : Bool := (Demand.ofMessage? r.message).isSome

theorem answers_of_known {d : Demand} (known : r.message.msgType = d.msgType) :
    answers r = true := by
  rw [answers, Demand.ofMessage?_eq_some.2 known]
  rfl

/-- Every request that is answered is replied to once. -/
theorem Deals.replied (h : k.Deals r s us t) :
    (us.filterMap Utterance.reply?).map Prod.fst = [r].filter answers := by
  cases h with
  | passed unknown =>
    have hnone : ¬ answers r = true := by
      rw [answers, Demand.ofMessage?_eq_none.2 unknown]
      exact Bool.false_ne_true
    exact (List.filter_cons_of_neg (l := []) hnone).symm
  | answered known => exact (List.filter_cons_of_pos (l := []) (answers_of_known known)).symm
  | executed known _ _ run =>
    rw [replies_executed _ _ _ run]
    exact (List.filter_cons_of_pos (l := []) (answers_of_known known)).symm

theorem Proceeds.uncons (h : k.Proceeds (r :: requests) s us t) :
    ∃ said vs, k.Deals r s said (k.dispatch r s).2 ∧ k.Proceeds requests (k.dispatch r s).2 vs t ∧
      us.filterMap Utterance.reply? =
        said.filterMap Utterance.reply? ++ vs.filterMap Utterance.reply? := by
  cases h with
  | @closed _ _ _ _ said vs _ block more =>
    refine ⟨said, vs, block, more, ?_⟩
    rw [List.filterMap_append, List.filterMap_append, List.append_assoc]
    rfl
  | @cut _ _ _ _ said vs _ block more =>
    refine ⟨said, vs, block, more, ?_⟩
    rw [List.filterMap_append]
    rfl

theorem Proceeds.alike (hk : k.Alike k') (hi : k.interpreter.Unasking) (hs : s'.inner = s.inner)
    (h : k.Proceeds requests s us t) (h' : k'.Proceeds requests s' us' t') :
    t'.inner = t.inner ∧ us'.filterMap Utterance.reply? = us.filterMap Utterance.reply? := by
  induction requests generalizing s s' us us' with
  | nil =>
    cases h
    cases h'
    exact ⟨hs, rfl⟩
  | cons r rest ih =>
    obtain ⟨said, vs, hdeals, hmore, hus⟩ := h.uncons
    obtain ⟨said', vs', hdeals', hmore', hus'⟩ := h'.uncons
    obtain ⟨hinner, hsaid⟩ := hdeals.alike hk hi hs hdeals'
    obtain ⟨hend, hvs⟩ := ih hinner hmore hmore'
    rw [hus, hus', hsaid, hvs]
    exact ⟨hend, rfl⟩

theorem Proceeds.replied (h : k.Proceeds requests s us t) :
    (us.filterMap Utterance.reply?).map Prod.fst = requests.filter answers := by
  induction requests generalizing s us with
  | nil =>
    cases h
    rfl
  | cons r rest ih =>
    obtain ⟨said, vs, hdeals, hmore, hus⟩ := h.uncons
    rw [hus, List.map_append, hdeals.replied, ih hmore, ← List.filter_append]
    rfl

/-- The kernel with another way out. -/
def through (k : Kernel S D σ) (o : Outlet σ') : Kernel S D σ' := ⟨o, k.interpreter, k.debugger⟩

/-- What a kernel does from its start on, apart from what becomes of its messages. -/
@[ext]
structure Conduct (S D : Type) where
  status : Nat
  inner : Inner S D
  interpreterCalls : List Interpreter.Call
  debuggerCalls : List Value
  replies : List (Request × Value)

def conduct (k : Kernel S D σ) (requests : List Request) (s : State S D σ) : Conduct S D where
  status := (k.start requests s).1
  inner := (k.start requests s).2.inner
  interpreterCalls := (k.watched.start requests s.watched).2.interpreter.2
  debuggerCalls := (k.watched.start requests s.watched).2.debugger.2
  replies := (k.startCalls requests s).filterMap Sink.Call.reply?

theorem configure_alike (hk : k.Alike k') (hs : s'.inner = s.inner) :
    (k'.configure s').map State.inner = (k.configure s).map State.inner := by
  have hinterpreter : s'.interpreter = s.interpreter := congrArg Inner.interpreter hs
  unfold configure
  rw [hk.interpreter, hinterpreter]
  cases k.interpreter.configure s.interpreter with
  | error reason => rfl
  | ok interpreter =>
    exact congrArg (fun inner : Inner S D => Except.ok { inner with interpreter }) hs

section Undisturbed

variable (hrequests : ∀ r ∈ requests, r.message.msgType ≠ Demand.msgType .shutdown)
include hrequests

theorem serve_all (s : State S D σ) : (k.serve requests s).1 = [] := by
  have hserve := serve_append (k := k) (s := s) hrequests []
  rw [List.append_nil] at hserve
  rw [hserve]
  rfl

theorem start_proceeds {ready : State S D σ} (hready : k.configure s = .ok ready) :
    ∃ us, k.start requests s = (0, (k.serve requests ready).2) ∧
      k.Proceeds requests ready us (k.serve requests ready).2 ∧
      (k.startCalls requests s).filterMap Sink.Call.reply? = us.filterMap Utterance.reply? := by
  obtain ⟨dealt, us, hdealt, hproceeds, hcalls⟩ := startCalls_proceeds hready requests
  rw [serve_all hrequests, List.append_nil] at hdealt
  subst hdealt
  refine ⟨us, ?_, hproceeds, ?_⟩
  · simp only [start, hready]
  · rw [hcalls, Outlet.replies_calls]

theorem start_alike (hk : k.Alike k') (hi : k.interpreter.Unasking) (hs : s'.inner = s.inner) :
    (k'.start requests s').map id State.inner = (k.start requests s).map id State.inner ∧
      (k'.startCalls requests s').filterMap Sink.Call.reply? =
        (k.startCalls requests s).filterMap Sink.Call.reply? := by
  have hconfigure := configure_alike hk hs
  cases hready : k.configure s with
  | error reason =>
    cases hready' : k'.configure s' with
    | ok ready' =>
      rw [hready, hready'] at hconfigure
      cases hconfigure
    | error reason' =>
      rw [startCalls_of_unready hready, startCalls_of_unready hready']
      simp only [start, hready, hready']
      exact ⟨congrArg (1, ·) hs, trivial⟩
  | ok ready =>
    cases hready' : k'.configure s' with
    | error reason' =>
      rw [hready, hready'] at hconfigure
      cases hconfigure
    | ok ready' =>
      rw [hready, hready'] at hconfigure
      obtain ⟨us, hstart, hproceeds, hreplies⟩ := start_proceeds hrequests hready
      obtain ⟨us', hstart', hproceeds', hreplies'⟩ := start_proceeds hrequests hready'
      obtain ⟨hend, hus⟩ := hproceeds.alike hk hi (Except.ok.inj hconfigure) hproceeds'
      rw [hstart, hstart', hreplies, hreplies', hus]
      exact ⟨congrArg (0, ·) hend, rfl⟩

theorem conduct_alike (hk : k.Alike k') (hi : k.interpreter.Unasking) (hs : s'.inner = s.inner) :
    k'.conduct requests s' = k.conduct requests s := by
  have hwatched : k.watched.Alike k'.watched :=
    ⟨congrArg Interpreter.noting hk.interpreter, congrArg (Option.map Debugger.noting) hk.debugger⟩
  have hinner : s'.watched.inner = s.watched.inner :=
    congrArg (fun inner => Inner.mk (inner.interpreter, []) (inner.debugger, [])
      inner.executionCount inner.history) hs
  obtain ⟨hstart, hreplies⟩ := start_alike hrequests hk hi hs
  obtain ⟨hstatus, hend⟩ := Prod.ext_iff.1 hstart
  obtain ⟨hnotes, _⟩ := start_alike hrequests hwatched hi.noting hinner
  obtain ⟨_, hnoted⟩ := Prod.ext_iff.1 hnotes
  have hinterpreter := congrArg (fun inner => inner.interpreter.2) hnoted
  have hdebugger := congrArg (fun inner => inner.debugger.2) hnoted
  exact Conduct.ext hstatus hend hinterpreter hdebugger hreplies

end Undisturbed

/-- Until it is shut down a kernel whose interpreter asks for nothing does the same whatever becomes of its
messages, request by request, and deals with every request. -/
theorem conduct_independent (k : Kernel S D σ) (unasking : k.interpreter.Unasking)
    (s : State S D σ) (o : Outlet σ') (l : Link σ') {requests : List Request}
    (hrequests : ∀ r ∈ requests, r.message.msgType ≠ Demand.msgType .shutdown) :
    (∀ before, before <+: requests →
      (k.through o).conduct before { s with link := l } = k.conduct before s) ∧
    (∀ before, (k.watched.start before s.watched).map id (unwatched S D σ).state =
      k.start before s) ∧
    ∀ ready, k.configure s = .ok ready →
      k.start requests s = (0, (k.serve requests ready).2) ∧
      (k.serve requests ready).1 = [] ∧
      (k.conduct requests s).replies.map Prod.fst = requests.filter answers ∧
      ∀ before after, requests = before ++ after →
        k.serve requests ready = k.serve after (k.serve before ready).2 := by
  refine ⟨?_, ?_, ?_⟩
  · intro before hbefore
    have hk : k.Alike (k.through o) := ⟨rfl, rfl⟩
    exact conduct_alike (fun r hr => hrequests r (hbefore.subset hr)) hk unasking rfl
  · intro before
    exact k.unwatched_shows.start s.watched before
  · intro ready hready
    obtain ⟨us, hstart, hproceeds, hreplies⟩ := start_proceeds hrequests hready
    have hreplied : (k.conduct requests s).replies.map Prod.fst = requests.filter answers := by
      rw [conduct, hreplies]
      exact hproceeds.replied
    refine ⟨hstart, serve_all hrequests ready, hreplied, ?_⟩
    rintro before after rfl
    exact serve_append (fun r hr => hrequests r (List.mem_append_left after hr)) after

/-- A frontend that takes so many messages, and then is gone. -/
def departing : Sink Nat where
  send _ _
    | 0 => (.error (.disconnected "gone"), 0)
    | n + 1 => (.ok (), n)
  reply _ _
    | 0 => (.error (.disconnected "gone"), 0)
    | n + 1 => (.ok (), n)

theorem conduct_independent_departing :
    let requests := [bareRequest "execute_request", bareRequest "execute_request",
      bareRequest "history_request"]
    let k := refusing []
    let deserted := k.through { k.outlet with sink := departing }
    let s := { fresh with link := ⟨5, .empty, 0⟩ }
    deserted.conduct requests s = k.conduct requests fresh ∧
    (k.conduct requests fresh).replies.map Prod.fst = requests ∧
    (deserted.dispatch (bareRequest "execute_request") s).1 = .ok .proceed ∧
    (deserted.start requests s).2.executionCount = 2 ∧
    (deserted.start requests s).2.link.transport = 0 := by
  intro requests k deserted s
  have unasking : k.interpreter.Unasking := fun _ _ s => Execution.Unasking.done (Outcome.ok, s)
  have hrequests : ∀ r ∈ requests, r.message.msgType ≠ Demand.msgType .shutdown := by decide
  obtain ⟨hconduct, _, hready⟩ :=
    conduct_independent k unasking fresh { k.outlet with sink := departing } s.link hrequests
  obtain ⟨_, _, hreplied, _⟩ := hready fresh rfl
  exact ⟨hconduct requests (List.prefix_refl requests), hreplied, rfl, rfl, rfl⟩

end Kernel

end NotebookKernel
