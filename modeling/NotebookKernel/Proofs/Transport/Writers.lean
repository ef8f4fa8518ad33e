import NotebookKernel.Proofs.Transport.Runs
import NotebookKernel.Proofs.Wire.RoundTrip

namespace NotebookKernel

open Json

theorem Wire.no_controls (s : Signer) (m : Message) : NoControls (encode s m) := by
  apply recordChars_no_controls
  simp only [List.forall_mem_cons, List.not_mem_nil, false_implies, implies_true, and_true]
  exact ⟨quote_no_controls _, m.header.written.no_controls, m.parentHeader.no_controls,
    m.metadata.no_controls, m.content.no_controls⟩

namespace Connection

/-- The lines that the writer has taken are on the socket or at hand, but for what was lost when it
failed. -/
structure Accounts (c : Connection) (lost : List UInt8) : Prop where
  bytes : c.socket ++ c.atHand ++ lost = (c.queued.take c.taken).flatMap lineBytes
  taken : c.taken ≤ c.queued.length
  failed : lost ≠ [] → c.writerEnded = true ∧ c.atHand = []

variable {c : Connection} {lost : List UInt8} {lines : List LineText}

theorem accounts_fresh (id : Nat) (channel : Channel) : (fresh id channel).Accounts [] :=
  ⟨rfl, Nat.le_refl 0, fun hne => absurd rfl hne⟩

theorem Accounts.lost_of_writing (h : c.Accounts lost) (hwriting : c.writerEnded = false) : lost = [] := by
  by_contra hne
  exact nomatch hwriting.symm.trans (h.failed hne).1

theorem Accounts.lost_of_busy (h : c.Accounts lost) (hbusy : c.atHand ≠ []) : lost = [] := by
  by_contra hne
  exact hbusy (h.failed hne).2

theorem Accounts.enqueue (h : c.Accounts lost) (line : LineText) : (c.enqueue line).Accounts lost where
  bytes := by
    have htaken : (c.queued ++ [line]).take c.taken = c.queued.take c.taken :=
      List.take_append_of_le_length h.taken
    change c.socket ++ c.atHand ++ lost = ((c.queued ++ [line]).take c.taken).flatMap lineBytes
    rw [htaken]
    exact h.bytes
  taken := Nat.le_trans h.taken (List.prefix_append _ _).length_le
  failed := h.failed

theorem Accounts.unregister (h : c.Accounts lost) : c.unregister.Accounts lost := by
  unfold Connection.unregister
  split
  · exact ⟨h.bytes, h.taken, h.failed⟩
  · exact h

theorem Accounts.takeLine (h : c.Accounts lost) : c.takeLine.Accounts lost := by
  obtain hsame | ⟨line, hwriting, hidle, hline, htaken⟩ := c.takeLine_cases
  · rw [hsame]
    exact h
  · obtain rfl := h.lost_of_writing hwriting
    have hbytes := h.bytes
    rw [hidle, List.append_nil, List.append_nil] at hbytes
    rw [htaken]
    refine ⟨?_, (List.getElem?_eq_some_iff.1 hline).1, fun hne => absurd rfl hne⟩
    change c.socket ++ lineBytes line ++ [] = (c.queued.take (c.taken + 1)).flatMap lineBytes
    rw [List.take_add_one, hline, List.flatMap_append, ← hbytes, List.append_nil]
    exact congrArg _ (List.append_nil _).symm

theorem Accounts.put (h : c.Accounts lost) (n : Nat) : (c.put n).Accounts lost where
  bytes := by
    change c.socket ++ c.atHand.take n ++ c.atHand.drop n ++ lost = _
    rw [List.append_assoc c.socket, List.take_append_drop]
    exact h.bytes
  taken := h.taken
  failed := by
    intro hne
    obtain ⟨hended, hidle⟩ := h.failed hne
    refine ⟨hended, ?_⟩
    change c.atHand.drop n = []
    rw [hidle, List.drop_nil]

theorem Accounts.endWriter (h : c.Accounts lost) : c.endWriter.Accounts lost := by
  obtain hsame | ⟨hidle, -, hended⟩ := c.endWriter_cases
  · rw [hsame]
    exact h
  · rw [hended]
    exact ⟨h.bytes, h.taken, fun _ => ⟨rfl, hidle⟩⟩

theorem Accounts.failWriter (h : c.Accounts lost) : ∃ lost', c.failWriter.Accounts lost' := by
  obtain hsame | ⟨hbusy, hfailed⟩ := c.failWriter_cases
  · rw [hsame]
    exact ⟨lost, h⟩
  · obtain rfl := h.lost_of_busy hbusy
    have hbytes := h.bytes
    rw [List.append_nil] at hbytes
    rw [hfailed]
    refine ⟨c.atHand, ?_, h.taken, fun _ => ⟨rfl, rfl⟩⟩
    change c.socket ++ [] ++ c.atHand = _
    rw [List.append_nil]
    exact hbytes

theorem Accounts.socket_begins (h : c.Accounts lost) : c.socket <+: c.queued.flatMap lineBytes := by
  have htaken : (c.queued.take c.taken).flatMap lineBytes <+: c.queued.flatMap lineBytes := by
    refine ⟨(c.queued.drop c.taken).flatMap lineBytes, ?_⟩
    rw [← List.flatMap_append, List.take_append_drop]
  refine List.IsPrefix.trans ⟨c.atHand ++ lost, ?_⟩ htaken
  rw [← List.append_assoc]
  exact h.bytes

theorem takeLine_eq {line : LineText} (hwriting : c.writerEnded = false) (hidle : c.atHand = [])
    (hline : c.queued[c.taken]? = some line) :
    c.takeLine = { c with taken := c.taken + 1, atHand := lineBytes line } := by
  have hready : (c.writerEnded || !c.atHand.isEmpty) = false := by
    rw [hwriting, hidle]
    rfl
  simp only [Connection.takeLine, hready, hline, Bool.false_eq_true, ↓reduceIte]

theorem endWriter_eq (hidle : c.atHand = []) (hclosed : c.registered = false) (hempty : c.queue = []) :
    c.endWriter = { c with writerEnded := true, cancelled := true } := by
  have hends : (c.atHand.isEmpty && (c.cancelled || (!c.registered && c.queue.isEmpty))) = true := by
    rw [hidle, hclosed, hempty]
    exact Bool.or_true _
  exact if_pos hends

/-- While the connection is registered nobody has told its tasks to end, and its writer goes on. -/
def Working (c : Connection) : Prop :=
  c.registered = true → c.cancelled = false ∧ c.writerEnded = false

theorem Working.of_not_registered (hr : c.registered = false) : c.Working :=
  fun hregistered => nomatch hr.symm.trans hregistered

/-- Nothing is queued after `lines`, and the writer ends only when all of them are written. -/
structure Draining (c : Connection) (lines : List LineText) : Prop where
  queued : c.queued = lines
  closed : c.registered = false
  accounts : c.Accounts []
  ended : c.writerEnded = true → c.taken = c.queued.length ∧ c.atHand = []
  cancelled : c.cancelled = true → c.writerEnded = true

theorem Draining.of_working (hr : c.registered = true) (haccounts : c.Accounts []) (hw : c.Working) :
    Draining { c with registered := false } c.queued where
  queued := rfl
  closed := rfl
  accounts := ⟨haccounts.bytes, haccounts.taken, haccounts.failed⟩
  ended := fun hended => nomatch (hw hr).2.symm.trans hended
  cancelled := fun hcancelled => nomatch (hw hr).1.symm.trans hcancelled

theorem Draining.takeLine (h : c.Draining lines) : c.takeLine.Draining lines := by
  obtain hsame | ⟨line, hwriting, -, -, htaken⟩ := c.takeLine_cases
  · rw [hsame]
    exact h
  · have haccounts := h.accounts.takeLine
    rw [htaken] at haccounts ⊢
    have hended : c.writerEnded ≠ true := fun hended => nomatch hwriting.symm.trans hended
    exact ⟨h.queued, h.closed, haccounts, fun h' => absurd h' hended, h.cancelled⟩

theorem Draining.put (h : c.Draining lines) (n : Nat) : (c.put n).Draining lines where
  queued := h.queued
  closed := h.closed
  accounts := h.accounts.put n
  ended := by
    intro hended
    obtain ⟨htaken, hidle⟩ := h.ended hended
    refine ⟨htaken, ?_⟩
    change c.atHand.drop n = []
    rw [hidle, List.drop_nil]
  cancelled := h.cancelled

theorem Draining.endWriter (h : c.Draining lines) : c.endWriter.Draining lines := by
  obtain hsame | ⟨hidle, hcause, hended⟩ := c.endWriter_cases
  · rw [hsame]
    exact h
  · have htaken : c.taken = c.queued.length := by
      obtain hcancelled | ⟨-, hempty⟩ := hcause
      · exact (h.ended (h.cancelled hcancelled)).1
      · exact Nat.le_antisymm h.accounts.taken (List.drop_eq_nil_iff.1 hempty)
    have haccounts := h.accounts.endWriter
    rw [hended] at haccounts ⊢
    exact ⟨h.queued, h.closed, haccounts, fun _ => ⟨htaken, hidle⟩, fun _ => rfl⟩

theorem Draining.socket_eq (h : c.Draining lines) (hended : c.writerEnded = true) :
    c.socket = lines.flatMap lineBytes := by
  obtain ⟨htaken, hidle⟩ := h.ended hended
  have hbytes := h.accounts.bytes
  rw [hidle, htaken, List.take_length, h.queued, List.append_nil, List.append_nil] at hbytes
  exact hbytes

end Connection

namespace Transport

variable {s : Service} {t : Transport} {a : Step} {c c' : Connection} {lost : List UInt8}
  {lines : List LineText} {steps before after : List Step}

theorem Turn.accounts (hturn : Turn s t a c c') (h : c.Accounts lost) :
    ∃ lost', c'.Accounts lost' ∧ (a ≠ .failWriter c.id → lost' = lost) := by
  cases hturn with
  | untouched => exact ⟨lost, h, fun _ => rfl⟩
  | @offered _ _ line =>
    refine ⟨lost, ?_, fun _ => rfl⟩
    unfold Service.offer
    split
    · exact h.enqueue line
    · exact h.unregister
  | takeLine => exact ⟨lost, h.takeLine, fun _ => rfl⟩
  | put => exact ⟨lost, h.put _, fun _ => rfl⟩
  | endWriter => exact ⟨lost, h.endWriter, fun _ => rfl⟩
  | failWriter =>
    obtain ⟨lost', h'⟩ := h.failWriter
    exact ⟨lost', h', fun hne => absurd rfl hne⟩
  | leave =>
    have h' := h.unregister
    exact ⟨lost, ⟨h'.bytes, h'.taken, h'.failed⟩, fun _ => rfl⟩
  | finish =>
    refine ⟨lost, ?_, fun _ => rfl⟩
    split
    · exact ⟨h.bytes, h.taken, h.failed⟩
    · exact h
  | drop => exact ⟨lost, ⟨h.bytes, h.taken, h.failed⟩, fun _ => rfl⟩

theorem Turn.working (hturn : Turn s t a c c') (hfail : a ≠ .failWriter c.id) (h : c.Working) :
    c'.Working := by
  cases hturn with
  | untouched => exact h
  | @offered _ _ line =>
    unfold Service.offer
    split
    · exact h
    · exact .of_not_registered (congrArg Seat.registered c.unregister_removed.seat)
  | takeLine =>
    obtain hsame | ⟨line, -, -, -, htaken⟩ := c.takeLine_cases
    · rw [hsame]
      exact h
    · rw [htaken]
      exact h
  | put => exact h
  | endWriter =>
    obtain hsame | ⟨-, hcause, hended⟩ := c.endWriter_cases
    · rw [hsame]
      exact h
    · rw [hended]
      intro hr
      obtain hcancelled | ⟨hclosed, -⟩ := hcause
      · exact nomatch (h hr).1.symm.trans hcancelled
      · exact nomatch hclosed.symm.trans hr
  | failWriter => exact absurd rfl hfail
  | leave => exact .of_not_registered (congrArg Seat.registered c.unregister_removed.seat)
  | finish =>
    split
    · exact h
    · exact h
  | drop => exact .of_not_registered rfl

theorem Turn.draining (hturn : Turn s t a c c') (hleave : a ≠ .leave c.id)
    (hfail : a ≠ .failWriter c.id) (h : c.Draining lines) : c'.Draining lines := by
  cases hturn with
  | untouched => exact h
  | @offered _ _ line =>
    rw [Service.offer_of_not_registered h.closed]
    exact h
  | takeLine => exact h.takeLine
  | put => exact h.put _
  | endWriter => exact h.endWriter
  | failWriter => exact absurd rfl hfail
  | leave => exact absurd rfl hleave
  | finish =>
    split
    · obtain ⟨hqueued, hclosed, haccounts, hended, hcancelled⟩ := h
      exact ⟨hqueued, hclosed, ⟨haccounts.bytes, haccounts.taken, haccounts.failed⟩, hended, hcancelled⟩
    · exact h
  | drop =>
    obtain ⟨hqueued, -, haccounts, hended, hcancelled⟩ := h
    exact ⟨hqueued, rfl, ⟨haccounts.bytes, haccounts.taken, haccounts.failed⟩, hended, hcancelled⟩

/-- All lines are messages. -/
structure Spelled (s : Service) (t : Transport) : Prop where
  queued : ∀ c ∈ t.hub.connections, ∀ line ∈ c.queued, ∃ m, line = Wire.encode s.signer m
  pending : ∀ id line, t.pending.lookup id = some line → ∃ m, line = Wire.encode s.signer m

theorem Offers.spelled {line : LineText} (hspelled : Spelled s t) (ho : Offers s t c line a) :
    ∃ m, line = Wire.encode s.signer m := by
  cases a with
  | pushTo id => exact hspelled.pending _ _ ho.2
  | ask m => exact ⟨m, ho.2.2⟩
  | reply request m => exact ⟨m, ho.2.2⟩
  | arrive | register | release | line | leave | finish | takeLine | put | endWriter | failWriter
  | broadcast | drop => exact ho.elim

theorem begun?_spelled {line : LineText} (hbegun : begun? s t a = some line) :
    ∃ m, line = Wire.encode s.signer m := by
  unfold begun? at hbegun
  split at hbegun
  next m =>
    split at hbegun
    · exact nomatch hbegun
    · exact ⟨m, (Option.some.inj hbegun).symm⟩
  next => exact nomatch hbegun

theorem Spelled.step (hspelled : Spelled s t) (hn : t.hub.Numbered) (a : Step) :
    Spelled s (step s a t) := by
  constructor
  · intro c' hc' line hline
    obtain ⟨c, hc, hchange⟩ | hjoined := (step_changes hn s a).mem hc'
    · obtain ⟨hsame, -⟩ | ⟨new, hoffer, -, rfl⟩ := hchange.queued_cases
      · rw [hsame] at hline
        exact hspelled.queued c hc line hline
      · obtain hold | hnew := List.mem_append.1 hline
        · exact hspelled.queued c hc line hold
        · obtain rfl := List.mem_singleton.1 hnew
          exact hoffer.spelled hspelled
    · obtain ⟨channel, _, rfl⟩ := joined?_eq_some hjoined
      exact absurd hline List.not_mem_nil
  · intro id line hlookup
    obtain hbefore | ⟨_, hbegun⟩ := (step_progress s a t).lookup_cases hlookup
    · exact hspelled.pending id line hbefore
    · exact begun?_spelled hbegun

theorem run_spelled (s : Service) (steps : List Step) : Spelled s (run s steps initial) := by
  induction steps using List.reverseRecOn with
  | nil => exact ⟨fun _ => nofun, fun _ _ => nofun⟩
  | append_singleton steps a ih =>
    rw [run_concat]
    exact ih.step (run_sound s steps).numbered a

theorem run_accounts (hc : c ∈ (run s steps initial).hub.connections) :
    ∃ lost, c.Accounts lost ∧ (.failWriter c.id ∉ steps → lost = [] ∧ c.Working) := by
  induction steps using List.reverseRecOn generalizing c with
  | nil => exact nomatch hc
  | append_singleton steps a ih =>
    rw [run_concat] at hc
    obtain ⟨d, hd, hturn⟩ | hjoined := (step_turns (run_sound s steps).numbered s a).mem hc
    · obtain ⟨lost, haccounts, hunfailed⟩ := ih hd
      obtain ⟨lost', haccounts', hkept⟩ := hturn.accounts haccounts
      refine ⟨lost', haccounts', ?_⟩
      rw [hturn.change.id_eq, List.mem_append, not_or, List.mem_singleton]
      rintro ⟨hbefore, hstep⟩
      obtain ⟨rfl, hworking⟩ := hunfailed hbefore
      have hfail : a ≠ .failWriter d.id := fun h => hstep h.symm
      exact ⟨hkept hfail, hturn.working hfail hworking⟩
    · obtain ⟨channel, _, rfl⟩ := joined?_eq_some hjoined
      exact ⟨[], Connection.accounts_fresh _ channel, fun _ => ⟨rfl, fun _ => ⟨rfl, rfl⟩⟩⟩

/-- The bytes are those of the first lines, each with one newline, and of a part of the line behind
them. -/
structure Wrote (bytes : List UInt8) (lines whole : List LineText) (part : List UInt8) : Prop where
  order : whole <+: lines
  content : bytes = whole.flatMap Connection.lineBytes ++ part
  split : bytes.splitOn Framing.newline = whole.map Utf8.encode ++ [part]
  next : part = [] ∨ ∃ line, whole ++ [line] <+: lines ∧ part <+: Utf8.encode line

theorem Wrote.of_whole {bytes : List UInt8} {whole : List LineText} {part : List UInt8}
    (hspelled : ∀ line ∈ lines, NoControls line) (horder : whole <+: lines)
    (hbytes : bytes = whole.flatMap Connection.lineBytes ++ part)
    (hnext : part = [] ∨ ∃ line, whole ++ [line] <+: lines ∧ part <+: Utf8.encode line) :
    Wrote bytes lines whole part := by
  have hpart : Framing.newline ∉ part := by
    obtain rfl | ⟨line, hline, hpart⟩ := hnext
    · exact List.not_mem_nil
    · have hmem : line ∈ lines := hline.subset (List.mem_append_right _ (List.mem_singleton_self _))
      exact fun h => Framing.newline_not_mem_encode (hspelled line hmem) (hpart.subset h)
  refine ⟨horder, hbytes, ?_, hnext⟩
  rw [hbytes]
  exact Framing.splitOn_lineBytes_append (fun line hline => hspelled line (horder.subset hline)) hpart

theorem spelled_no_controls (hc : c ∈ (run s steps initial).hub.connections) :
    ∀ line ∈ c.queued, NoControls line := by
  intro line hline
  obtain ⟨m, rfl⟩ := (run_spelled s steps).queued c hc line hline
  exact Wire.no_controls s.signer m

/-- Only a line that the writer has at hand, or that was lost, is on the socket in part. -/
theorem exists_wrote (hc : c ∈ (run s steps initial).hub.connections) :
    ∃ whole part, Wrote c.socket c.queued whole part ∧
      (part ≠ [] → c.atHand ≠ [] ∨ .failWriter c.id ∈ steps) := by
  have hspelled := spelled_no_controls hc
  obtain ⟨lost, haccounts, hunfailed⟩ := run_accounts hc
  by_cases hbusy : c.atHand ≠ [] ∨ .failWriter c.id ∈ steps
  · obtain ⟨whole, part, horder, hbytes, hnext⟩ := Framing.whole_and_part haccounts.socket_begins
    exact ⟨whole, part, .of_whole hspelled horder hbytes hnext, fun _ => hbusy⟩
  · rw [not_or, not_not] at hbusy
    obtain ⟨hidle, hfail⟩ := hbusy
    obtain ⟨rfl, _⟩ := hunfailed hfail
    have hbytes := haccounts.bytes
    rw [hidle, List.append_nil] at hbytes
    refine ⟨c.queued.take c.taken, [], ?_, fun hne => absurd rfl hne⟩
    refine .of_whole hspelled (List.take_prefix _ _) ?_ (.inl rfl)
    rw [← hbytes, List.append_nil, List.append_nil]

/-- A connection is registered when the sink is dropped after the steps `before`. Its reader does not
end, none of its writes fails, and after the steps `after` it has become `c'`. When the time for
draining is over there are no more steps. -/
structure Survives (s : Service) (before after : List Step) (c c' : Connection) : Prop where
  present : c ∈ (run s before initial).hub.connections
  registered : c.registered = true
  reading : .leave c.id ∉ after
  writing : .failWriter c.id ∉ before ++ .drop :: after
  later : c' ∈ (run s (before ++ .drop :: after) initial).hub.connections
  same : c'.id = c.id

theorem run_drop (s : Service) (before after : List Step) :
    run s (before ++ .drop :: after) initial = run s after (step s .drop (run s before initial)) :=
  run_append s before (.drop :: after) initial

theorem exists_draining (hn : t.hub.Numbered) (hc : c ∈ t.hub.connections) (hd : c.Draining lines)
    (hleave : .leave c.id ∉ after) (hfail : .failWriter c.id ∉ after) :
    ∃ c' ∈ (run s after t).hub.connections, c'.id = c.id ∧ c'.Draining lines := by
  induction after generalizing t c with
  | nil => exact ⟨c, hc, rfl, hd⟩
  | cons a after ih =>
    rw [List.mem_cons, not_or] at hleave hfail
    have hturns := step_turns hn s a
    obtain ⟨c₁, hc₁, hturn⟩ := hturns.exists_change hc
    have hid : c₁.id = c.id := hturn.change.id_eq
    have hd₁ := hturn.draining (Ne.symm hleave.1) (Ne.symm hfail.1) hd
    rw [← hid] at hleave hfail
    obtain ⟨c', hc', hid', hd'⟩ := ih (hturns.changes.numbered hn) hc₁ hd₁ hleave.2 hfail.2
    exact ⟨c', hc', hid'.trans hid, hd'⟩

theorem Survives.draining (h : Survives s before after c c') : c'.Draining c.queued := by
  have hs := run_sound s before
  have hfail := h.writing
  rw [List.mem_append, not_or, List.mem_cons, not_or] at hfail
  obtain ⟨hbefore, -, hafter⟩ := hfail
  obtain ⟨lost, haccounts, hunfailed⟩ := run_accounts h.present
  obtain ⟨rfl, hworking⟩ := hunfailed hbefore
  have hdropped : { c with registered := false } ∈ (run s before initial).drop.hub.connections :=
    List.mem_map_of_mem h.present
  have hn := (step_changes hs.numbered s .drop).numbered hs.numbered
  obtain ⟨d, hd, hid, hdraining⟩ := exists_draining hn hdropped
    (.of_working h.registered haccounts hworking) h.reading hafter
  rw [← run_drop] at hd
  obtain rfl := (run_sound s _).numbered.eq_of_id hd h.later (hid.trans h.same.symm)
  exact hdraining

/-- A step of the writer of a connection that is none of a failure. -/
def Step.writer? : Step → Option Nat
  | .takeLine id | .put id _ | .endWriter id => some id
  | _ => none

theorem mem_modify (hc : c ∈ t.hub.connections) (f : Connection → Connection) :
    f c ∈ (t.modify c.id f).hub.connections :=
  List.mem_map.2 ⟨c, hc, if_pos rfl⟩

/-- By taking and putting line after line a writer comes to its end. -/
theorem exists_ended (hc : c ∈ t.hub.connections) (hclosed : c.registered = false) :
    ∃ more, (∀ a ∈ more, a.writer? = some c.id) ∧
      ∃ c' ∈ (run s more t).hub.connections, c'.id = c.id ∧ c'.writerEnded = true := by
  induction hqueue : c.queue generalizing c t with
  | nil =>
    have hput := mem_modify hc (·.put c.atHand.length)
    have hended := mem_modify hput Connection.endWriter
    rw [Connection.endWriter_eq (c := c.put c.atHand.length) List.drop_length hclosed hqueue] at hended
    refine ⟨[.put c.id c.atHand.length, .endWriter c.id], ?_, _, hended, rfl, rfl⟩
    exact List.forall_mem_cons.2 ⟨rfl, List.forall_mem_singleton.2 rfl⟩
  | cons line rest ih =>
    by_cases hended : c.writerEnded = true
    · exact ⟨[], fun _ => nofun, c, hc, rfl, hended⟩
    · have hput := mem_modify hc (·.put c.atHand.length)
      have htaken := mem_modify hput Connection.takeLine
      have hline : c.queued[c.taken]? = some line := by
        have hhead := congrArg List.head? hqueue
        rwa [Connection.queue, List.head?_drop] at hhead
      have hrest : c.queued.drop (c.taken + 1) = rest := by
        have htail := congrArg List.tail hqueue
        rwa [Connection.queue, List.tail_drop] at htail
      rw [Connection.takeLine_eq (c := c.put c.atHand.length) (Bool.eq_false_iff.2 hended)
        List.drop_length hline] at htaken
      obtain ⟨more, hmore, c', hc', hid, hended'⟩ := ih htaken hclosed hrest
      refine ⟨.put c.id c.atHand.length :: .takeLine c.id :: more, ?_, c', hc', hid, hended'⟩
      exact List.forall_mem_cons.2 ⟨rfl, List.forall_mem_cons.2 ⟨rfl, hmore⟩⟩

theorem not_mem_of_writer {more : List Step} {id' : Nat} (hmore : ∀ a ∈ more, a.writer? = some id')
    (id : Nat) :
    .leave id ∉ more ∧ .failWriter id ∉ more := by
  constructor
  · intro hmem
    exact nomatch hmore _ hmem
  · intro hmem
    exact nomatch hmore _ hmem

/-- Its writer alone can bring a connection to the end of its writer. -/
theorem Survives.exists_ended (h : Survives s before after c c') :
    ∃ more, (∀ a ∈ more, a.writer? = some c.id) ∧
      ∃ d, Survives s before (after ++ more) c d ∧ d.writerEnded = true := by
  obtain ⟨more, hmore, d, hd, hid, hended⟩ := Transport.exists_ended (s := s) h.later h.draining.closed
  rw [h.same] at hmore hid
  obtain ⟨hleave, hfail⟩ := not_mem_of_writer hmore c.id
  refine ⟨more, hmore, d, ⟨h.present, h.registered, ?_, ?_, ?_, hid⟩, hended⟩
  · rw [List.mem_append, not_or]
    exact ⟨h.reading, hleave⟩
  · rw [← List.cons_append, ← List.append_assoc, List.mem_append, not_or]
    exact ⟨h.writing, hfail⟩
  · rw [← List.cons_append, ← List.append_assoc, run_append]
    exact hd

end Transport

end NotebookKernel
