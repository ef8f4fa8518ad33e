import NotebookKernel.Kernel.Basic
import NotebookKernel.Proofs.Json.Fields
import NotebookKernel.Proofs.Kernel.Speech

namespace NotebookKernel

open Json

namespace Demand

theorem mem_all (d : Demand) : d ∈ all := by
  cases d <;> decide

theorem msgType_injective {d d' : Demand} (h : d.msgType = d'.msgType) : d = d' := by
  revert h
  cases d <;> cases d' <;> decide

theorem ofMessage?_eq_some {m : Message} {d : Demand} :
    ofMessage? m = some d ↔ m.msgType = d.msgType := by
  constructor
  · intro h
    have hd := List.find?_some h
    exact (beq_iff_eq.1 hd).symm
  · intro h
    cases hfound : ofMessage? m with
    | none =>
      have hne := List.find?_eq_none.1 hfound d (mem_all d)
      exact absurd (beq_iff_eq.2 h.symm) hne
    | some d' =>
      have hd' := List.find?_some hfound
      rw [msgType_injective ((beq_iff_eq.1 hd').trans h)]

theorem ofMessage?_eq_none {m : Message} : ofMessage? m = none ↔ ∀ d, m.msgType ≠ msgType d := by
  rw [Option.eq_none_iff_forall_ne_some]
  exact forall_congr' fun d => not_congr ofMessage?_eq_some

end Demand

namespace Kernel

variable {S D σ ε : Type}

def status (r : Request) (name : String) : Utterance :=
  ⟨r, .on .iopub, "status", .object [("execution_state", .string name)]⟩

def reply (r : Request) (content : Value) : Utterance :=
  ⟨r, .reply, replyType r.message.msgType, content⟩

def announcement (r : Request) (e : ExecuteRequest) (n : Nat) : List Utterance :=
  if e.silent then []
  else [⟨r, .on .iopub, "execute_input", .object [("code", .string e.code), ("execution_count", .ofNat n)]⟩]

/-- How a failed cell is made known. -/
def errorContent (ename evalue : String) (traceback : List String) : Value :=
  .object [("ename", .string ename), ("evalue", .string evalue),
    ("traceback", .array (traceback.map .string))]

def failure (r : Request) : Outcome → List Utterance
  | .ok => []
  | .error ename evalue traceback => [⟨r, .on .iopub, "error", errorContent ename evalue traceback⟩]

/-- How a cell is answered. -/
def verdict (n : Nat) : Outcome → Value
  | .ok => .object [("execution_count", .ofNat n), ("payload", .array []), ("status", .string "ok"),
      ("user_expressions", .object [])]
  | .error ename evalue traceback => .object [("ename", .string ename), ("evalue", .string evalue),
      ("execution_count", .ofNat n), ("status", .string "error"),
      ("traceback", .array (traceback.map .string))]

theorem ofFields_input (code : String) (n : Nat) :
    .ofFields [("code", .string code), ("execution_count", .ofNat n)] =
      Value.object [("code", .string code), ("execution_count", .ofNat n)] := by
  simp (disch := decide) only [Value.ofFields, insertFields_cons, insertFields_nil, insertField_nil,
    insertField_of_gt]

theorem ofFields_errorFields (ename evalue : String) (traceback : List String) :
    .ofFields (Outcome.errorFields ename evalue traceback) = errorContent ename evalue traceback := by
  simp (disch := decide) only [errorContent, Outcome.errorFields, Value.ofFields, insertFields_cons,
    insertFields_nil, insertField_nil, insertField_of_gt]

theorem outcomeContent_eq_verdict (n : Nat) (outcome : Outcome) :
    outcomeContent n outcome = verdict n outcome := by
  cases outcome with
  | ok =>
    simp (disch := decide) only [outcomeContent, verdict, Value.ofFields, insertFields_cons, insertFields_nil,
      insertField_nil, insertField_of_lt, insertField_of_gt, Value.emptyObject]
  | error ename evalue traceback =>
    simp (disch := decide) only [outcomeContent, verdict, Outcome.errorFields, Value.ofFields, List.cons_append,
      List.nil_append, insertFields_cons, insertFields_nil, insertField_nil, insertField_of_lt,
      insertField_of_gt]

/-- What is said between the two statuses. Nothing that is said later depends on the link, which
takes any state. -/
inductive Deals (k : Kernel S D σ) (r : Request) (s : State S D σ) :
    List Utterance → State S D σ → Prop where
  | passed (unknown : ∀ d, r.message.msgType ≠ Demand.msgType d) (l : Link σ) :
      Deals k r s [] { s with link := l }
  | answered {d : Demand} (known : r.message.msgType = d.msgType) (hd : d ≠ .execute)
      (l : Link σ) :
      Deals k r s [reply r (k.respond r.message s d).1]
        { (k.respond r.message s d).2 with link := l }
  | executed (known : r.message.msgType = Demand.msgType .execute) {e : ExecuteRequest}
      (he : e = .ofMessage r.message) {n : Nat} (hn : n = (count e s).executionCount)
      {us : List Utterance} {outcome : Outcome} {interpreter : S}
      (run : (k.interpreter.execute e n s.interpreter).Says r e.allowStdin us
        (outcome, interpreter)) (l : Link σ) :
      Deals k r s
        (announcement r e n ++ us ++ failure r outcome ++ [reply r (verdict n outcome)])
        { count e s with link := l, interpreter }

variable {k : Kernel S D σ} {g : Sink.Ledger σ ε} {s t : State S D σ} {r : Request}

theorem link_count (e : ExecuteRequest) (s : State S D σ) : (count e s).link = s.link := by
  unfold count
  split <;> rfl

theorem interpreter_count (e : ExecuteRequest) (s : State S D σ) :
    (count e s).interpreter = s.interpreter := by
  unfold count
  split <;> rfl

/-- Shows the cell that is about to be run, unless it is to be silent. -/
def announced (k : Kernel S D σ) (m : Message) (e : ExecuteRequest) (s : State S D σ) :
    State S D σ :=
  if e.silent then s
  else k.publish m.header "execute_input"
    (.ofFields [("code", .string e.code), ("execution_count", .ofNat s.executionCount)]) s

/-- Shows an error. -/
def reported (k : Kernel S D σ) (m : Message) (outcome : Outcome) (s : State S D σ) : State S D σ :=
  match outcome with
  | .ok => s
  | .error ename evalue traceback =>
    k.publish m.header "error" (.ofFields (Outcome.errorFields ename evalue traceback)) s

/-- A cell is counted, shown, run and reported. -/
theorem execute_eq {m : Message} {e : ExecuteRequest} (he : e = .ofMessage m) {shown : State S D σ}
    (hshown : k.announced m e (count e s) = shown) {outcome : Outcome} {interpreter : S}
    {l : Link σ} (hran : k.outlet.perform m.header e.allowStdin
      (k.interpreter.execute e shown.executionCount shown.interpreter) shown.link =
        ((outcome, interpreter), l)) :
    k.execute m s = (outcomeContent shown.executionCount outcome,
      k.reported m outcome { shown with link := l, interpreter }) := by
  subst he
  unfold announced at hshown
  simp only [execute, hshown, hran]
  cases outcome with
  | ok => rfl
  | error ename evalue traceback => rfl

theorem announced_spoken (hk : k.outlet.sink.Keeps g) (h : g.serving s.link.transport)
    (r : Request) (e : ExecuteRequest) :
    ∃ l, k.outlet.Spoken g (announcement r e s.executionCount) s.link l ∧
      k.announced r.message e s = { s with link := l } := by
  unfold announcement announced
  split
  · exact ⟨s.link, .refl h, rfl⟩
  · rw [publish, ofFields_input]
    exact ⟨_, .send hk h r .iopub _ _, rfl⟩

theorem reported_spoken (hk : k.outlet.sink.Keeps g) (h : g.serving s.link.transport)
    (r : Request) (outcome : Outcome) :
    ∃ l, k.outlet.Spoken g (failure r outcome) s.link l ∧
      k.reported r.message outcome s = { s with link := l } := by
  cases outcome with
  | ok => exact ⟨s.link, .refl h, rfl⟩
  | error ename evalue traceback =>
    rw [reported, publish, ofFields_errorFields]
    exact ⟨_, .send hk h r .iopub _ _, rfl⟩

theorem execute_spoken (hk : k.outlet.sink.Keeps g) (h : g.serving s.link.transport)
    (r : Request) {e : ExecuteRequest} (he : e = .ofMessage r.message) {n : Nat}
    (hn : n = (count e s).executionCount) :
    ∃ us outcome interpreter l,
      (k.interpreter.execute e n s.interpreter).Says r e.allowStdin us (outcome, interpreter) ∧
      k.execute r.message s =
        (verdict n outcome, { count e s with link := l, interpreter }) ∧
      k.outlet.Spoken g (announcement r e n ++ us ++ failure r outcome) s.link l := by
  subst hn
  rw [← link_count e s] at h ⊢
  rw [← interpreter_count e s]
  -- From here on the count does not change, so that all that is said shows the same one.
  obtain ⟨l₁, hannounced, hshown⟩ := announced_spoken hk h r e
  obtain ⟨us, hsays, hran⟩ := Outlet.Spoken.perform hk hannounced.serving r e.allowStdin
    (k.interpreter.execute e (count e s).executionCount (count e s).interpreter)
  rcases hperform : k.outlet.perform r.message.header e.allowStdin
    (k.interpreter.execute e (count e s).executionCount (count e s).interpreter) l₁
    with ⟨⟨outcome, interpreter⟩, l₂⟩
  rw [hperform] at hsays hran
  obtain ⟨l₃, hreported, hs⟩ := reported_spoken
    (s := { count e s with link := l₂, interpreter }) hk hran.serving r outcome
  refine ⟨us, outcome, interpreter, l₃, hsays, ?_, (hannounced.trans hran).trans hreported⟩
  rw [execute_eq he hshown hperform, hs, outcomeContent_eq_verdict]

theorem count_relinked (e : ExecuteRequest) (s : State S D σ) (l : Link σ) :
    count e { s with link := l } = { count e s with link := l } := by
  unfold count
  split <;> rfl

theorem respond_relinked {d : Demand} (hd : d ≠ .execute) (m : Message) (s : State S D σ)
    (l : Link σ) :
    k.respond m { s with link := l } d =
      ((k.respond m s d).1, { (k.respond m s d).2 with link := l }) := by
  cases d with
  | execute => exact absurd rfl hd
  | debug =>
    simp only [respond]
    split <;> rfl
  | kernelInfo | isComplete | history | shutdown => rfl

theorem link_respond {d : Demand} (hd : d ≠ .execute) (m : Message) (s : State S D σ) :
    (k.respond m s d).2.link = s.link := by
  have h := respond_relinked (k := k) hd m s s.link
  rw [h]

theorem Deals.of_relinked {l : Link σ} {us : List Utterance} {t : State S D σ}
    (h : k.Deals r { s with link := l } us t) : k.Deals r s us t := by
  cases h with
  | passed unknown l' => exact .passed unknown l'
  | answered known hd l' =>
    rw [respond_relinked hd]
    exact .answered known hd l'
  | executed known he hn run l' =>
    rw [count_relinked] at hn ⊢
    exact .executed known he hn run l'

theorem Deals.relinked {us : List Utterance} {t : State S D σ} (h : k.Deals r s us t)
    (l : Link σ) : k.Deals r s us { t with link := l } := by
  cases h with
  | passed unknown => exact .passed unknown l
  | answered known hd => exact .answered known hd l
  | executed known he hn run => exact .executed known he hn run l

theorem answer_known {d : Demand} (known : r.message.msgType = d.msgType) {content : Value}
    {t : State S D σ} (h : k.respond r.message s d = (content, t)) :
    k.answer r s = ((k.outlet.reply r content t.link).1,
      { t with link := (k.outlet.reply r content t.link).2 }) := by
  simp only [answer, Demand.ofMessage?_eq_some.2 known, h]

theorem answer_spoken (hk : k.outlet.sink.Keeps g) (h : g.serving s.link.transport)
    (r : Request) :
    ∃ us, k.Deals r s us (k.answer r s).2 ∧
      k.outlet.Spoken g us s.link (k.answer r s).2.link ∧
      (k.outlet.sink.Delivers g → (k.answer r s).1 = .ok ()) := by
  cases hdemand : Demand.ofMessage? r.message with
  | none =>
    have hanswer : k.answer r s = (.ok (), s) := by simp only [answer, hdemand]
    rw [hanswer]
    exact ⟨[], .passed (Demand.ofMessage?_eq_none.1 hdemand) s.link, .refl h, fun _ => rfl⟩
  | some d =>
    have known := Demand.ofMessage?_eq_some.1 hdemand
    by_cases hd : d = .execute
    · subst hd
      obtain ⟨us, outcome, interpreter, l, hsays, hexecute, hspoken⟩ :=
        execute_spoken hk h r rfl rfl
      rw [answer_known known hexecute]
      exact ⟨_, .executed known rfl rfl hsays _, hspoken.trans (.reply hk hspoken.serving r _),
        fun hsink => hsink hspoken.serving r _⟩
    · have hanswer := answer_known known (Prod.eta (k.respond r.message s d)).symm
      rw [link_respond hd] at hanswer
      rw [hanswer]
      exact ⟨_, .answered known hd _, .reply hk h r _, fun hsink => hsink h r _⟩

theorem dispatch_of_delivered {t : State S D σ}
    (h : k.answer r (k.publishState r.message "busy" s) = (.ok (), t)) :
    k.dispatch r s =
      (.ok (.after (Demand.ofMessage? r.message)), k.publishState r.message "idle" t) := by
  simp only [dispatch, h]

theorem dispatch_of_undelivered {t : State S D σ} {f : Failure}
    (h : k.answer r (k.publishState r.message "busy" s) = (.error f, t)) :
    k.dispatch r s = (.error f, t) := by
  simp only [dispatch, h]

theorem configure_eq {t : State S D σ} (h : k.configure s = .ok t) :
    t = { s with interpreter := t.interpreter } := by
  unfold configure at h
  cases hready : k.interpreter.configure s.interpreter with
  | error reason =>
    rw [hready] at h
    exact nomatch h
  | ok interpreter =>
    rw [hready] at h
    rw [← Except.ok.inj h]

/-- The kernel is idle once more unless its reply was not delivered. -/
def idle (r : Request) : Except Failure Flow → List Utterance
  | .ok _ => [status r "idle"]
  | .error _ => []

theorem dispatch_spoken (hk : k.outlet.sink.Keeps g) (h : g.serving s.link.transport)
    (r : Request) :
    ∃ us, k.Deals r s us (k.dispatch r s).2 ∧
      k.outlet.Spoken g (status r "busy" :: us ++ idle r (k.dispatch r s).1) s.link
        (k.dispatch r s).2.link ∧
      (k.outlet.sink.Delivers g →
        (k.dispatch r s).1 = .ok (.after (Demand.ofMessage? r.message))) := by
  have hbusy : k.outlet.Spoken g [status r "busy"] s.link
      (k.publishState r.message "busy" s).link := .send hk h r .iopub _ _
  obtain ⟨us, hdeals, hanswered, hdelivered⟩ := answer_spoken hk hbusy.serving r
  have hspoken := hbusy.trans hanswered
  rcases hanswer : k.answer r (k.publishState r.message "busy" s) with ⟨sent, t⟩
  rw [hanswer] at hdeals hspoken hdelivered
  refine ⟨us, ?_⟩
  cases sent with
  | error f =>
    rw [dispatch_of_undelivered hanswer]
    exact ⟨hdeals.of_relinked, hspoken.trans (.refl hspoken.serving),
      fun hsink => nomatch hdelivered hsink⟩
  | ok =>
    rw [dispatch_of_delivered hanswer]
    exact ⟨hdeals.of_relinked.relinked _, hspoken.trans (.send hk hspoken.serving r .iopub _ _),
      fun _ => rfl⟩

/-- The requests up to the first that shuts the kernel down, which is one of them. -/
def served : List Request → List Request
  | [] => []
  | r :: rest =>
    if r.message.msgType = Demand.msgType .shutdown then [r] else r :: served rest

theorem after_eq_shutdown {m : Message} :
    Flow.after (Demand.ofMessage? m) = .shutdown ↔ m.msgType = Demand.msgType .shutdown := by
  rw [← Demand.ofMessage?_eq_some]
  cases Demand.ofMessage? m with
  | none => exact ⟨nofun, nofun⟩
  | some d => cases d <;> decide

theorem serve_shutdown {rest : List Request} (h : k.dispatch r s = (.ok .shutdown, t)) :
    k.serve (r :: rest) s = (rest, t) := by
  simp only [serve, h]

theorem serve_proceed {rest : List Request} {sent : Except Failure Flow}
    (h : k.dispatch r s = (sent, t)) (hsent : sent ≠ .ok .shutdown) :
    k.serve (r :: rest) s = k.serve rest t := by
  rw [serve, h]
  split
  next heq =>
    obtain ⟨rfl, rfl⟩ := Prod.mk.inj heq
    exact absurd rfl hsent
  next heq => rw [(Prod.mk.inj heq).2]

theorem link_configure (h : k.configure s = .ok t) : t.link = s.link := by
  rw [configure_eq h]

end Kernel

end NotebookKernel
