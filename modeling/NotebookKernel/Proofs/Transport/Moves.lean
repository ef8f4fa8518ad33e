import NotebookKernel.Proofs.Transport.Connections
import NotebookKernel.Transport.Tasks

namespace NotebookKernel

namespace Hub

/-- Connections stay, and what was queued for them stays queued. -/
def Keeps (h h' : Hub) : Prop :=
  ∀ x ∈ h.connections, ∃ y ∈ h'.connections, y.id = x.id ∧ y.channel = x.channel ∧ x.queued ⊆ y.queued

variable {h h' : Hub}

theorem Keeps.of_connections (hsame : h'.connections = h.connections) : h.Keeps h' := by
  intro x hx
  rw [← hsame] at hx
  exact ⟨x, hx, rfl, rfl, List.Subset.refl _⟩

theorem Keeps.modify {f : Connection → Connection}
    (hf : ∀ x, (f x).id = x.id ∧ (f x).channel = x.channel ∧ x.queued ⊆ (f x).queued) (h : Hub) (id : Nat) :
    h.Keeps (h.modify id f) := by
  intro x hx
  refine ⟨_, List.mem_map_of_mem hx, ?_⟩
  split
  · exact hf x
  · exact ⟨rfl, rfl, List.Subset.refl _⟩

theorem Keeps.worked {f : Connection → Connection} (hf : ∀ x : Connection, x.Worked (f x)) (h : Hub)
    (id : Nat) : h.Keeps (h.modify id f) := by
  refine .modify (fun x => ?_) h id
  rw [(hf x).queued]
  exact ⟨congrArg Seat.id (hf x).seat, congrArg Seat.channel (hf x).seat, List.Subset.refl _⟩

theorem keeps_enter (h : Hub) (id : Nat) : h.Keeps (h.enter id) :=
  .modify (f := fun c => { c with registered := true }) (fun _ => ⟨rfl, rfl, List.Subset.refl _⟩) h id

theorem keeps_remove (h : Hub) (id : Nat) : h.Keeps (h.remove id).2 := by
  refine .modify (fun x => ?_) h id
  have hremoved := x.unregister_removed
  rw [hremoved.queued]
  exact ⟨congrArg Seat.id hremoved.seat, congrArg Seat.channel hremoved.seat, List.Subset.refl _⟩

theorem keeps_allocate (h : Hub) (channel : Channel) : h.Keeps (h.allocate channel).2 :=
  fun x hx => ⟨x, List.mem_append_left _ hx, rfl, rfl, List.Subset.refl _⟩

/-- A line is taken, or nothing happens to the connections. -/
theorem attempt_cases (s : Service) (id : Nat) (line : LineText) (h : Hub) :
    s.attempt id line h = ⟨.ok (), false, h.modify id (·.enqueue line)⟩ ∨
      ∃ f givesUp, s.attempt id line h = ⟨.error f, givesUp, h⟩ := by
  unfold Service.attempt
  split
  · exact .inr ⟨_, _, rfl⟩
  split
  · exact .inr ⟨_, _, rfl⟩
  split
  · exact .inr ⟨_, _, rfl⟩
  · exact .inl rfl

theorem keeps_attempt (s : Service) (id : Nat) (line : LineText) (h : Hub) :
    h.Keeps (s.attempt id line h).hub := by
  obtain htaken | ⟨f, givesUp, hrefused⟩ := attempt_cases s id line h
  · rw [htaken]
    exact .modify (f := (·.enqueue line)) (fun _ => ⟨rfl, rfl, List.subset_append_left _ _⟩) h id
  · rw [hrefused]
    exact .of_connections rfl

theorem events_attempt (s : Service) (id : Nat) (line : LineText) (h : Hub) :
    (s.attempt id line h).hub.events = h.events := by
  obtain htaken | ⟨f, givesUp, hrefused⟩ := attempt_cases s id line h
  · rw [htaken]
    rfl
  · rw [hrefused]

theorem attempt_of_ok {s : Service} {id : Nat} {line : LineText}
    (hok : (s.attempt id line h).outcome = .ok ()) :
    s.attempt id line h = ⟨.ok (), false, h.modify id (·.enqueue line)⟩ := by
  obtain htaken | ⟨f, givesUp, hrefused⟩ := attempt_cases s id line h
  · exact htaken
  · rw [hrefused] at hok
    exact nomatch hok

end Hub

namespace Tasks

variable {s : Service} {t : Tasks} {a : Move} {moves : List Move} {m : Message} {id c d n : Nat}

theorem run_append (s : Service) (moves more : List Move) (t : Tasks) :
    run s (moves ++ more) t = run s more (run s moves t) := List.foldl_append

theorem run_concat (s : Service) (moves : List Move) (a : Move) (t : Tasks) :
    run s (moves ++ [a]) t = step s a (run s moves t) := List.foldl_append

/-- Nothing was made known, nothing is owed that was not, and the one who asks is where they were. -/
structure Aside (t t' : Tasks) : Prop where
  keeps : t.hub.Keeps t'.hub
  events : t'.hub.events = t.hub.events
  owed : t'.owed = t.owed
  received : t'.received = t.received
  asker : t'.asker = t.asker

theorem Aside.refl (t : Tasks) : t.Aside t := ⟨.of_connections rfl, rfl, rfl, rfl, rfl⟩

theorem Aside.worked {f : Connection → Connection} (hf : ∀ x : Connection, x.Worked (f x)) (t : Tasks)
    (id : Nat) : t.Aside (t.modify id f) := ⟨.worked hf t.hub id, rfl, rfl, rfl, rfl⟩

/-- How the one who asks goes on. -/
inductive Turn (s : Service) (t : Tasks) : Tasks → Prop where
  | rests : Turn s t t
  | discards {m : Message} (asker : t.asker = .discarding m) :
      Turn s t { t with received := t.received + 1 }
  | drained {m : Message} (asker : t.asker = .discarding m) (empty : t.hub.events.length ≤ t.received) :
      Turn s t { t with asker := .routing m }
  | routed {m : Message} {c : Nat} (asker : t.asker = .routing m) (route : t.hub.route? = some c) :
      Turn s t { t with asker := .queueing m c }
  | unrouted {m : Message} (asker : t.asker = .routing m) :
      Turn s t { t with asker := .returned (.error Hub.nobodyOnStdin) }
  | queued {m : Message} {c : Nat} {a : Attempt} (asker : t.asker = .queueing m c)
      (attempt : s.attempt c (Wire.encode s.signer m) t.hub = a) (taken : a.outcome = .ok ()) :
      Turn s t { t.attempted c a with asker := .waiting m c }
  | refused {m : Message} {c : Nat} {a : Attempt} (asker : t.asker = .queueing m c)
      (attempt : s.attempt c (Wire.encode s.signer m) t.hub = a) (f : Failure) :
      Turn s t { t.attempted c a with asker := .returned (.error f) }
  | passed {m : Message} {c : Nat} (asker : t.asker = .waiting m c) :
      Turn s t { t with received := t.received + 1 }
  | answered {m : Message} {c : Nat} {e : StdinEvent} {answer : Except Failure String}
      (asker : t.asker = .waiting m c) (event : t.hub.events[t.received]? = some e)
      (answers : Inbox.answer? e = some answer) :
      Turn s t { t with received := t.received + 1, asker := .returned answer }

theorem proceed_turn (s : Service) (t : Tasks) : Turn s t (t.proceed s) := by
  unfold proceed
  split
  next => exact .rests
  next => exact .rests
  next m hasker =>
    split
    next => exact .discards hasker
    next hempty => exact .drained hasker (Nat.le_of_not_lt hempty)
  next m hasker =>
    split
    next c hroute => exact .routed hasker hroute
    next => exact .unrouted hasker
  next m c hasker =>
    dsimp only
    split
    next htaken => exact .queued hasker rfl htaken
    next f hrefused => exact .refused hasker rfl f
  next m c hasker =>
    split
    next e hevent =>
      split
      next answer hanswers => exact .answered hasker hevent hanswers
      next =>
        rw [← hasker]
        exact .passed hasker
    next => exact .rests

variable {t' : Tasks}

theorem Turn.keeps (h : Turn s t t') : t.hub.Keeps t'.hub := by
  cases h with
  | queued _ attempt | refused _ attempt =>
    rw [← attempt]
    exact Hub.keeps_attempt s _ _ t.hub
  | rests | discards | drained | routed | unrouted | passed | answered => exact .of_connections rfl

theorem Turn.events (h : Turn s t t') : t'.hub.events = t.hub.events := by
  cases h with
  | queued _ attempt | refused _ attempt =>
    rw [← attempt]
    exact Hub.events_attempt s _ _ t.hub
  | rests | discards | drained | routed | unrouted | passed | answered => rfl

theorem Turn.owed (h : Turn s t t') : t'.owed = t.owed := by
  cases h <;> rfl

/-- All that a move can do, as far as questions go. -/
inductive Effect (s : Service) (t : Tasks) : Move → Tasks → Prop where
  | aside {a : Move} {t' : Tasks} (same : t.Aside t') : Effect s t a t'
  | heard {d : Nat} {text : LineText} {x : Connection} {r : Message} (reader : t.connection? d = some x)
      (stdin : x.channel = .stdin) (decoded : Wire.decode s.signer text = .ok r) :
      Effect s t (.hear d text) { t with hub.events := t.hub.events ++ [.reply r] }
  | removed {d : Nat} (route : t.hub.route? = some d) :
      Effect s t (.remove d)
        { t with hub := (t.hub.remove d).2, leaving := t.leaving.erase d, owed := d :: t.owed }
  | announced {d : Nat} (owed : d ∈ t.owed) :
      Effect s t (.announce d) { t with hub := t.hub.announce, owed := t.owed.erase d }
  | called (m : Message) (free : ∀ m' c, t.asker ≠ .waiting m' c) :
      Effect s t (.call m) { t with asker := .discarding m }
  | proceeded {t' : Tasks} (turn : Turn s t t') : Effect s t .proceed t'

theorem hear_effect (s : Service) (id : Nat) (text : LineText) (t : Tasks) :
    Effect s t (.hear id text) (t.hear s id text) := by
  have hsame (requests : List Request) : t.Aside { t with hub.requests := requests } :=
    ⟨.of_connections rfl, rfl, rfl, rfl, rfl⟩
  unfold hear
  split
  next x hreader =>
    split
    · unfold Service.deliver
      split
      next => exact .aside (.refl t)
      next r hdecoded =>
        split
        next => exact .aside (hsame _)
        next => exact .aside (hsame _)
        next hstdin => exact .heard hreader hstdin hdecoded
        next => exact .aside (.refl t)
        next => exact .aside (.refl t)
    · exact .aside (.refl t)
  next => exact .aside (.refl t)

theorem remove_effect (s : Service) (id : Nat) (t : Tasks) : Effect s t (.remove id) (t.remove id) := by
  unfold remove
  split
  · by_cases hroute : t.hub.route? = some id
    · have hremoved := Effect.removed (s := s) hroute
      simp only [Hub.remove, hroute, decide_true, ↓reduceIte] at hremoved ⊢
      exact hremoved
    · simp only [Hub.remove, hroute, decide_false, Bool.false_eq_true, ↓reduceIte]
      exact .aside ⟨t.hub.keeps_remove id, rfl, rfl, rfl, rfl⟩
  · exact .aside (.refl t)

theorem step_effect (s : Service) (a : Move) (t : Tasks) : Effect s t a (step s a t) := by
  cases a with
  | hear id text => exact hear_effect s id text t
  | remove id => exact remove_effect s id t
  | proceed => exact .proceeded (proceed_turn s t)
  | announce id =>
    rw [step, announce]
    split
    next howed => exact .announced howed
    next => exact .aside (.refl t)
  | call m =>
    rw [step, call]
    split
    next hfree => exact .called m (by simp [hfree])
    next hfree => exact .called m (by simp [hfree])
    next => exact .aside (.refl t)
  | allocate channel =>
    rw [step, allocate]
    split
    · exact .aside (.refl t)
    · exact .aside ⟨t.hub.keeps_allocate channel, rfl, rfl, rfl, rfl⟩
  | enter id =>
    rw [step, enter]
    split
    · exact .aside ⟨t.hub.keeps_enter id, rfl, rfl, rfl, rfl⟩
    · exact .aside (.refl t)
  | stop id =>
    rw [step, stop]
    split
    · split
      · have hstopped (c : Connection) : c.Worked c.stopReading := ⟨rfl, rfl, .inl rfl⟩
        exact .aside ⟨.worked hstopped t.hub id, rfl, rfl, rfl, rfl⟩
      · exact .aside (.refl t)
    · exact .aside (.refl t)
  | offer id line =>
    exact .aside ⟨Hub.keeps_attempt s id line t.hub, Hub.events_attempt s id line t.hub, rfl, rfl, rfl⟩
  | cancel id =>
    refine .aside (.worked (fun x => ?_) t id)
    unfold Connection.cancel
    split
    · exact ⟨rfl, rfl, .inl rfl⟩
    · exact .refl x
  | finish id => exact .aside (.worked Connection.finish_worked t id)
  | takeLine id => exact .aside (.worked Connection.takeLine_worked t id)
  | put id n => exact .aside (.worked (f := (·.put n)) (fun _ => ⟨rfl, rfl, .inl rfl⟩) t id)
  | endWriter id =>
    rw [step]
    split
    · exact .aside (.refl t)
    · exact .aside (.worked Connection.endWriter_worked t id)
  | failWriter id => exact .aside (.worked Connection.failWriter_worked t id)

/-- The event that a move brings. -/
inductive Brings (s : Service) (t : Tasks) : Move → StdinEvent → Prop where
  | heard {d : Nat} {text : LineText} {x : Connection} {r : Message} (reader : t.connection? d = some x)
      (stdin : x.channel = .stdin) (decoded : Wire.decode s.signer text = .ok r) :
      Brings s t (.hear d text) (.reply r)
  | announced {d : Nat} (owed : d ∈ t.owed) : Brings s t (.announce d) .closed

/-- Events come one at a time, and none is taken back. -/
theorem Effect.events (he : Effect s t a t') : t'.hub.events = t.hub.events ∨
    ∃ e, Brings s t a e ∧ t'.hub.events = t.hub.events ++ [e] := by
  cases he with
  | aside same => exact .inl same.events
  | heard reader stdin decoded => exact .inr ⟨_, .heard reader stdin decoded, rfl⟩
  | removed => exact .inl rfl
  | announced owed => exact .inr ⟨_, .announced owed, rfl⟩
  | called => exact .inl rfl
  | proceeded turn => exact .inl turn.events

theorem Effect.events_le (he : Effect s t a t') : t.hub.events <+: t'.hub.events := by
  obtain hsame | ⟨e, -, hgrown⟩ := he.events
  · exact ⟨[], by rw [List.append_nil, hsame]⟩
  · exact ⟨[e], hgrown.symm⟩

theorem events_le_run (s : Service) (moves : List Move) (t : Tasks) :
    t.hub.events <+: (run s moves t).hub.events := by
  induction moves generalizing t with
  | nil => exact List.prefix_refl _
  | cons a rest ih => exact (step_effect s a t).events_le.trans (ih (step s a t))

theorem Effect.owed (he : Effect s t a t') (hd : d ∈ t'.owed) :
    d ∈ t.owed ∨ a = .remove d ∧ t.hub.route? = some d ∧ t'.hub = (t.hub.remove d).2 := by
  cases he with
  | aside same =>
    rw [same.owed] at hd
    exact .inl hd
  | removed route =>
    obtain rfl | hold := List.mem_cons.1 hd
    · exact .inr ⟨rfl, route, rfl⟩
    · exact .inl hold
  | announced => exact .inl (List.mem_of_mem_erase hd)
  | proceeded turn =>
    rw [turn.owed] at hd
    exact .inl hd
  | heard | called => exact .inl hd

theorem Effect.keeps (he : Effect s t a t') : t.hub.Keeps t'.hub := by
  cases he with
  | aside same => exact same.keeps
  | removed => exact t.hub.keeps_remove _
  | proceeded turn => exact turn.keeps
  | heard | announced | called => exact .of_connections rfl

/-- A question is answered by the next event, and by nothing else. -/
theorem Effect.ends (he : Effect s t a t') (hwaiting : t.asker = .waiting m c)
    (hends : t'.asker ≠ .waiting m c) :
    a = .proceed ∧ ∃ e answer, t.hub.events[t.received]? = some e ∧ Inbox.answer? e = some answer ∧
      t'.asker = .returned answer := by
  cases he with
  | aside same => exact absurd (same.asker.trans hwaiting) hends
  | heard | removed | announced => exact absurd hwaiting hends
  | called _ free => exact absurd hwaiting (free m c)
  | proceeded turn =>
    refine ⟨rfl, ?_⟩
    cases turn with
    | rests | passed => exact absurd hwaiting hends
    | answered _ event answers => exact ⟨_, _, event, answers, rfl⟩
    | discards asker | drained asker | routed asker | unrouted asker | queued asker | refused asker =>
      exact nomatch asker.symm.trans hwaiting

/-- All the moves of one who asks until the question is queued, when there are events to discard. -/
def asking (stale : Nat) (m : Message) : List Move := .call m :: List.replicate (stale + 3) .proceed

theorem run_discarding (s : Service) (hasker : t.asker = .discarding m) {k : Nat}
    (hk : t.received + k = t.hub.events.length) (more : List Move) :
    run s (List.replicate k .proceed ++ more) t = run s more { t with received := t.hub.events.length } := by
  induction k generalizing t with
  | zero => rw [← hk]; rfl
  | succ k ih =>
    have hstep : step s .proceed t = { t with received := t.received + 1 } := by
      have hlt : t.received < t.hub.events.length := by omega
      simp only [step, proceed, hasker, if_pos hlt]
    have hrest : t.received + 1 + k = t.hub.events.length := by omega
    exact (congrArg (run s _) hstep).trans (ih (t := { t with received := t.received + 1 }) hasker hrest)

/-- What the moves of one who asks come to when nobody comes between them. -/
theorem run_asking (hfree : t.asker = .idle ∨ ∃ answer, t.asker = .returned answer)
    (hle : t.received ≤ t.hub.events.length) (hroute : t.hub.route? = some c)
    (htaken : (s.attempt c (Wire.encode s.signer m) t.hub).outcome = .ok ()) :
    run s (asking (t.hub.events.length - t.received) m) t =
      { t with
        hub := t.hub.modify c (·.enqueue (Wire.encode s.signer m))
        received := t.hub.events.length
        asker := .waiting m c } := by
  have hcall : step s (.call m) t = { t with asker := .discarding m } := by
    obtain hidle | ⟨answer, hreturned⟩ := hfree
    · simp only [step, call, hidle]
    · simp only [step, call, hreturned]
  rw [asking, List.replicate_add]
  refine (congrArg (run s _) hcall).trans ?_
  rw [run_discarding (t := { t with asker := .discarding m }) s rfl (Nat.add_sub_cancel' hle)]
  simp only [List.replicate, run, List.foldl_cons, List.foldl_nil, step, proceed, Nat.lt_irrefl, ↓reduceIte,
    hroute, Hub.attempt_of_ok htaken, attempted, Bool.false_eq_true]

end Tasks

end NotebookKernel
