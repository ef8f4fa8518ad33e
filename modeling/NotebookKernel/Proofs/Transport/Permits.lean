import NotebookKernel.Proofs.Transport.Tenures

namespace NotebookKernel

namespace Transport

variable {s : Service} {t t' : Transport} {a : Step} {c c' : Connection} {channel : Channel}

/-- The channels of the sockets that hold a permit. -/
def holders (t : Transport) : List Channel :=
  t.admitted ++ (t.hub.tenures.filter Tenure.holds).map Tenure.channel

/-- What the connections that are finished had to give back. -/
def ended (t : Transport) : List Return :=
  (t.hub.tenures.filter fun k => !k.holds).map fun k => ⟨k.channel, some k.id⟩

theorem held_eq_count (t : Transport) (channel : Channel) : t.held channel = t.holders.count channel := by
  rw [held, holders, List.count_append]
  congr 1
  rw [Hub.tenures, List.filter_map, List.map_map, List.count_eq_countP, List.countP_map, List.countP_filter]
  rfl

/-- The permits that were held or are taken are those that are held after the step or given back. -/
theorem Passage.holders_perm (hp : Passage s t a t') :
    ((taken? s t a).toList ++ t.holders).Perm
      ((t.return? a).toList.map Return.channel ++ t'.holders) := by
  unfold holders
  cases hp with
  | kept untaken unreturned admitted tenures =>
    rw [untaken, unreturned, admitted, tenures]
    exact .refl _
  | arrived channel taken admitted tenures =>
    rw [taken, admitted, tenures]
    exact .refl _
  | registered channel waiting admitted tenures =>
    rw [admitted, tenures, List.filter_append, List.map_append]
    apply ((List.perm_cons_erase waiting).append_right _).trans
    apply (List.perm_append_singleton channel _).symm.trans
    exact .of_eq (List.append_assoc _ _ _)
  | released waiting returned admitted tenures =>
    rw [returned, admitted, tenures]
    exact (List.perm_cons_erase waiting).append_right _
  | left admitted tenures tenures' =>
    rw [admitted, tenures, tenures', List.filter_append, List.filter_append, List.filter_cons_of_pos rfl,
      List.filter_cons_of_pos rfl, List.map_append, List.map_append]
    exact .refl _
  | finished returned admitted tenures tenures' =>
    rw [returned, admitted, tenures, tenures', List.filter_append, List.filter_append,
      List.filter_cons_of_pos rfl, List.filter_cons_of_neg Bool.false_ne_true, List.map_append,
      List.map_append]
    exact (List.perm_middle.append_left t.admitted).trans List.perm_middle

theorem Passage.ended_perm (hp : Passage s t a t') :
    ((t.return? a).toList.filter (·.id.isSome) ++ t.ended).Perm t'.ended := by
  unfold ended
  cases hp with
  | kept untaken unreturned admitted tenures =>
    rw [unreturned, tenures]
    exact .refl _
  | arrived channel taken admitted tenures =>
    rw [tenures]
    exact .refl _
  | registered channel waiting admitted tenures =>
    rw [tenures, List.filter_append, List.map_append]
    exact .of_eq (List.append_nil _).symm
  | released waiting returned admitted tenures =>
    rw [returned, tenures]
    exact .refl _
  | left admitted tenures tenures' =>
    rw [tenures, tenures', List.filter_append, List.filter_append,
      List.filter_cons_of_neg Bool.false_ne_true, List.filter_cons_of_neg Bool.false_ne_true]
    exact .refl _
  | @finished _ id channel _ _ returned admitted tenures tenures' =>
    have hreturn : (t.return? (.finish id)).toList.filter (·.id.isSome) = [⟨channel, some id⟩] := by
      rw [returned]
      rfl
    rw [hreturn, List.singleton_append, tenures, tenures', List.filter_append, List.filter_append,
      List.filter_cons_of_neg Bool.false_ne_true, List.filter_cons_of_pos rfl, List.map_append,
      List.map_append, List.map_cons]
    exact List.perm_middle.symm

/-- The permits that are taken in a run, in their order. -/
def taken (s : Service) (steps : List Step) (t : Transport) : List Channel :=
  noted s (taken? s) steps t

/-- The permits that are given back in a run, in their order. -/
def returned (s : Service) (steps : List Step) (t : Transport) : List Return :=
  noted s return? steps t

theorem taken_concat (s : Service) (steps : List Step) (a : Step) (t : Transport) :
    taken s (steps ++ [a]) t = taken s steps t ++ (taken? s (run s steps t) a).toList :=
  noted_concat _ steps a t

theorem returned_concat (s : Service) (steps : List Step) (a : Step) (t : Transport) :
    returned s (steps ++ [a]) t = returned s steps t ++ ((run s steps t).return? a).toList :=
  noted_concat _ steps a t

theorem run_passage (s : Service) (steps : List Step) (a : Step) :
    Passage s (run s steps initial) a (run s (steps ++ [a]) initial) := by
  rw [run_concat]
  exact step_passage (run_sound s steps).numbered s a

/-- Every permit that was taken has been given back or is held. -/
theorem taken_perm (s : Service) (steps : List Step) :
    (taken s steps initial).Perm
      ((returned s steps initial).map Return.channel ++ (run s steps initial).holders) := by
  induction steps using List.reverseRecOn with
  | nil => exact .refl _
  | append_singleton steps a ih =>
    have hstep := (run_passage s steps a).holders_perm
    rw [taken_concat, returned_concat, List.map_append, List.append_assoc]
    apply (ih.append_right _).trans
    rw [List.append_assoc]
    apply List.Perm.append_left
    exact List.perm_append_comm.trans hstep

/-- A connection gives its permit back as its task ends, and at no other time. -/
theorem returned_perm (s : Service) (steps : List Step) :
    ((returned s steps initial).filter (·.id.isSome)).Perm (run s steps initial).ended := by
  induction steps using List.reverseRecOn with
  | nil => exact .refl _
  | append_singleton steps a ih =>
    have hstep := (run_passage s steps a).ended_perm
    rw [returned_concat, List.filter_append]
    exact (ih.append_right _).trans (List.perm_append_comm.trans hstep)

theorem ended_eq (t : Transport) : t.ended =
    (t.hub.connections.filter (·.phase = .finished)).map fun c => ⟨c.channel, some c.id⟩ := by
  rw [ended, Hub.tenures, List.filter_map, List.map_map]
  refine congrArg (List.map _) (List.filter_congr fun c _ => ?_)
  rw [Function.comp_apply, Tenure.holds, bne, Bool.not_not]
  exact Bool.beq_eq_decide_eq _ _

theorem nodup_ended (hn : t.hub.Numbered) : t.ended.Nodup := by
  have hids : ((t.hub.connections.filter (·.phase = .finished)).map Connection.id).Nodup :=
    hn.nodup.sublist (List.filter_sublist.map _)
  have hsome := hids.map (fun _ _ => Option.some.inj)
  rw [List.map_map] at hsome
  apply List.Nodup.of_map Return.id
  rw [ended_eq, List.map_map]
  exact hsome

theorem Passage.held (hp : Passage s t a t') (channel : Channel) :
    t.held channel + (taken? s t a).toList.count channel =
      t'.held channel + ((t.return? a).toList.map Return.channel).count channel := by
  have hcount := hp.holders_perm.count_eq channel
  rw [List.count_append, List.count_append] at hcount
  rw [held_eq_count, held_eq_count]
  omega

/-- Who is in the table is still read from. -/
theorem Turn.reading (hturn : Turn s t a c c') (h : c.registered = true → c.phase = .reading)
    (hregistered : c'.registered = true) : c'.phase = .reading := by
  have hbefore := h (hturn.change.was_registered hregistered)
  obtain hsame | ⟨-, hlost⟩ | ⟨-, hfinish⟩ := hturn.tenure_cases
  · exact (congrArg Tenure.phase hsame).trans hbefore
  · exact nomatch hregistered.symm.trans hlost
  · have hunleft : c.tenure.phase ≠ .left := fun hleft => nomatch hbefore.symm.trans hleft
    have hkept : c.tenure.finish = c.tenure := if_neg hunleft
    exact (congrArg Tenure.phase (hfinish.trans hkept)).trans hbefore

theorem run_reading (s : Service) (steps : List Step) :
    ∀ c ∈ (run s steps initial).hub.connections, c.registered = true → c.phase = .reading := by
  induction steps using List.reverseRecOn with
  | nil => exact fun _ => nofun
  | append_singleton steps a ih =>
    intro c' hc'
    rw [run_concat] at hc'
    obtain ⟨c, hc, hturn⟩ | hjoined := (step_turns (run_sound s steps).numbered s a).mem hc'
    · exact hturn.reading (ih c hc)
    · obtain ⟨channel, _, rfl⟩ := joined?_eq_some hjoined
      exact fun _ => rfl

/-- The permit of a connection is held longer than the connection is in the table. -/
theorem length_peers_le (s : Service) (steps : List Step) (channel : Channel) :
    ((run s steps initial).hub.peers channel).length ≤ (run s steps initial).held channel := by
  rw [Hub.peers, List.length_map, ← List.countP_eq_length_filter, held]
  refine Nat.le_trans (List.countP_mono_left fun c hc hpeer => ?_) (Nat.le_add_left _ _)
  rw [Bool.and_eq_true] at hpeer ⊢
  refine ⟨hpeer.2, ?_⟩
  rw [run_reading s steps c hc hpeer.1]
  rfl

/-- Whatever became of a connection before, its task can come to its end. -/
theorem exists_left (hn : t.hub.Numbered) (hc : c ∈ t.hub.connections) (hphase : c.phase ≠ .finished)
    (s : Service) :
    ∃ d ∈ (step s (.leave c.id) t).hub.connections, d.tenure = ⟨c.id, c.channel, .left⟩ := by
  cases hfound : c.phase with
  | reading =>
    have hleave : step s (.leave c.id) t = { t with hub := (t.hub.unregister c.id).modify c.id fun c =>
        { c with phase := .left, cancelled := true } } := by
      simp only [step, leave, connection?_id hn hc, hfound, ↓reduceIte]
    have htenure := c.tenure_unregister
    have hgone : c.unregister ∈ (t.hub.unregister c.id).connections := List.mem_map.2 ⟨c, hc, if_pos rfl⟩
    refine ⟨{ c.unregister with phase := .left, cancelled := true }, ?_, ?_⟩
    · rw [hleave]
      exact List.mem_map.2 ⟨_, hgone, if_pos (congrArg Tenure.id htenure)⟩
    · exact congrArg (fun k : Tenure => { k with phase := .left }) htenure
  | left =>
    have hleave : step s (.leave c.id) t = t := by
      simp only [step, leave, connection?_id hn hc, hfound, reduceCtorEq, ↓reduceIte]
    rw [hleave]
    exact ⟨c, hc, congrArg (Tenure.mk c.id c.channel) hfound⟩
  | finished => exact absurd hfound hphase

theorem returned_end (hn : t.hub.Numbered) (hc : c ∈ t.hub.connections) (hphase : c.phase ≠ .finished)
    (s : Service) : returned s [.leave c.id, .finish c.id] t = [⟨c.channel, some c.id⟩] := by
  obtain ⟨d, hd, htenure⟩ := exists_left hn hc hphase s
  obtain ⟨hid, hchannel, hleft⟩ := Tenure.mk.inj htenure
  have hreturn := return?_finish ((step_changes hn s (.leave c.id)).numbered hn) hd hleft
  rw [hid, hchannel] at hreturn
  rw [returned, noted, noted, hreturn]
  rfl

theorem exists_reading (hwaiting : channel ∈ t.admitted) (hchannel : channel ≠ .heartbeat) (s : Service) :
    ∃ c ∈ (step s (.register channel) t).hub.connections, c.channel = channel ∧ c.phase = .reading := by
  have hjoins : (t.admitted.contains channel && channel != .heartbeat) = true := by
    rw [Bool.and_eq_true, List.contains_iff_mem, bne_iff_ne]
    exact ⟨hwaiting, hchannel⟩
  refine ⟨.fresh (t.hub.connections.length + 1) channel, ?_, rfl, rfl⟩
  simp only [step, register, hjoins, ↓reduceIte]
  exact List.mem_append_right _ (List.mem_singleton_self _)

/-- What is held can be given back. A heartbeat ends, and any other socket leaves, once it has joined. -/
theorem exists_returned (hn : t.hub.Numbered) (hheld : 0 < t.held channel) (s : Service) :
    ∃ more, (returned s more t).map Return.channel = [channel] := by
  rw [held_eq_count, List.count_pos_iff, holders, List.mem_append] at hheld
  obtain hwaiting | hholds := hheld
  · by_cases hchannel : channel = .heartbeat
    · subst hchannel
      refine ⟨[.release .heartbeat], ?_⟩
      rw [returned, noted, noted, return?, if_pos ⟨rfl, hwaiting⟩]
      rfl
    · obtain ⟨c, hc, hsame, hreading⟩ := exists_reading hwaiting hchannel s
      have hunfinished : c.phase ≠ .finished := by
        rw [hreading]
        decide
      have hends := returned_end ((step_changes hn s (.register channel)).numbered hn) hc hunfinished s
      rw [returned, hsame] at hends
      refine ⟨[.register channel, .leave c.id, .finish c.id], ?_⟩
      rw [returned, noted, hends]
      rfl
  · obtain ⟨k, hk, rfl⟩ := List.mem_map.1 hholds
    obtain ⟨htenure, hholds⟩ := List.mem_filter.1 hk
    obtain ⟨c, hc, rfl⟩ := List.mem_map.1 htenure
    refine ⟨[.leave c.id, .finish c.id], ?_⟩
    rw [returned_end hn hc (bne_iff_ne.1 hholds) s]
    rfl

end Transport

namespace Gate

open Transport

variable {s : Service} {g : Gate} {a : Step}

/-- What the accept loops have to give is what nobody holds. -/
def Balanced (s : Service) (g : Gate) : Prop :=
  ∀ channel, g.permits channel + g.transport.held channel = s.limits.connections

theorem step_of_refused {channel : Channel} (hnone : g.permits channel = 0) :
    step s (.arrive channel) g = g := by
  rw [step, arrive, Permits.take?_eq_none hnone]

theorem step_of_admitted {channel : Channel} (hsome : g.permits channel ≠ 0) :
    step s (.arrive channel) g = ⟨fun c => if c = channel then g.permits c - 1 else g.permits c,
      { g.transport with admitted := channel :: g.transport.admitted }⟩ := by
  rw [step, arrive, Permits.take?_eq_some hsome]

theorem step_of_ne (ha : ∀ channel, a ≠ .arrive channel) :
    step s a g = ⟨g.restored a, Transport.step s a g.transport⟩ := by
  cases a with
  | arrive channel => exact absurd rfl (ha channel)
  | _ => rfl

theorem taken?_of_ne {t : Transport} (ha : ∀ channel, a ≠ .arrive channel) : taken? s t a = none := by
  cases a with
  | arrive channel => exact absurd rfl (ha channel)
  | _ => rfl

theorem restored_apply (a : Step) (g : Gate) (channel : Channel) : g.restored a channel =
    g.permits channel + ((g.transport.return? a).toList.map Return.channel).count channel := by
  cases hreturn : g.transport.return? a with
  | none =>
    rw [restored, hreturn]
    rfl
  | some r =>
    simp only [restored, hreturn, Option.toList_some, List.map_singleton, List.count_singleton,
      Permits.giveBack, beq_iff_eq]
    by_cases hsame : channel = r.channel
    · rw [if_pos hsame, if_pos hsame.symm]
    · rw [if_neg hsame, if_neg (Ne.symm hsame)]
      rfl

/-- The accept loops let in whom there is room for, and that takes a permit; any other step may give one
back. -/
theorem Balanced.step_eq (hb : g.Balanced s) (a : Step) :
    (step s a g).transport = Transport.step s a g.transport ∧
    ∀ channel, (step s a g).permits channel + (taken? s g.transport a).toList.count channel =
      g.permits channel + ((g.transport.return? a).toList.map Return.channel).count channel := by
  by_cases ha : ∀ channel, a ≠ .arrive channel
  · rw [step_of_ne ha, taken?_of_ne ha]
    exact ⟨rfl, restored_apply a g⟩
  · obtain ⟨asked, ha⟩ := not_forall.1 ha
    obtain rfl := not_not.1 ha
    have hpermits := hb asked
    by_cases hnone : g.permits asked = 0
    · have hfull : ¬ g.transport.held asked < s.limits.connections := by omega
      rw [step_of_refused hnone, taken?, if_neg hfull]
      exact ⟨(if_neg hfull).symm, fun _ => rfl⟩
    · have hfree : g.transport.held asked < s.limits.connections := by omega
      rw [step_of_admitted hnone, taken?, if_pos hfree]
      refine ⟨(if_pos hfree).symm, fun channel => ?_⟩
      simp only [Option.toList_some, List.count_singleton, beq_iff_eq]
      by_cases hsame : channel = asked
      · subst hsame
        rw [if_pos rfl, if_pos rfl]
        exact Nat.sub_add_cancel (Nat.pos_of_ne_zero hnone)
      · rw [if_neg hsame, if_neg (Ne.symm hsame)]
        rfl

theorem Balanced.step (hb : g.Balanced s) (hn : g.transport.hub.Numbered) (a : Step) :
    (step s a g).Balanced s := by
  intro channel
  obtain ⟨htransport, hpermits⟩ := hb.step_eq a
  have hpermits := hpermits channel
  have hheld := (step_passage hn s a).held channel
  have hbefore := hb channel
  rw [htransport]
  omega

theorem run_concat (s : Service) (steps : List Step) (a : Step) (g : Gate) :
    run s (steps ++ [a]) g = Gate.step s a (run s steps g) := List.foldl_append

theorem run_balanced (s : Service) (steps : List Step) :
    (run s steps (initial s)).transport = Transport.run s steps .initial ∧
      (run s steps (initial s)).Balanced s := by
  induction steps using List.reverseRecOn with
  | nil => exact ⟨rfl, fun _ => rfl⟩
  | append_singleton steps a ih =>
    obtain ⟨htransport, hb⟩ := ih
    have hn := (run_sound s steps).numbered
    rw [← htransport] at hn
    rw [run_concat, Transport.run_concat, ← htransport]
    exact ⟨(hb.step_eq a).1, hb.step hn a⟩

theorem run_of_refused {steps : List Step} {channel : Channel}
    (hnone : (run s steps g).permits channel = 0) (more : List Step) :
    run s (steps ++ .arrive channel :: more) g = run s (steps ++ more) g := by
  have hrefused := step_of_refused (s := s) hnone
  unfold run at hrefused ⊢
  rw [List.foldl_append, List.foldl_append, List.foldl_cons, hrefused]

/-- Over any run, a channel has no more registered connections than permits are held for it, and no more of
these than it may. Every permit that was taken has been given back or is held, and what is held can be given
back: a connection does so once, as its task ends, whatever became of the connection before. A socket that
gets no permit leaves no trace. -/
theorem connections_capped (s : Service) (steps : List Step) :
    let g := run s steps (initial s)
    let t := g.transport
    let taken := taken s steps .initial
    let returned := returned s steps .initial
    t = Transport.run s steps .initial ∧
    (∀ channel, (t.hub.peers channel).length ≤ t.held channel ∧
      t.held channel ≤ s.limits.connections ∧
      g.permits channel + t.held channel = s.limits.connections ∧
      taken.count channel = (returned.map Return.channel).count channel + t.held channel ∧
      (0 < t.held channel → ∃ more, (Transport.returned s more t).map Return.channel = [channel])) ∧
    (returned.filter (·.id.isSome)).Nodup ∧
    (returned.filter (·.id.isSome)).Perm
      ((t.hub.connections.filter (·.phase = .finished)).map fun c => ⟨c.channel, some c.id⟩) ∧
    (∀ c ∈ t.hub.connections, c.phase ≠ .finished →
      Transport.returned s [.leave c.id, .finish c.id] t = [⟨c.channel, some c.id⟩]) ∧
    ∀ channel, g.permits channel = 0 → ∀ more,
      run s (steps ++ .arrive channel :: more) (initial s) = run s (steps ++ more) (initial s) := by
  intro g t taken returned
  obtain ⟨htransport, hb⟩ := run_balanced s steps
  have ht : t = Transport.run s steps .initial := htransport
  have hn : t.hub.Numbered := ht ▸ (run_sound s steps).numbered
  have hreturned : (returned.filter (·.id.isSome)).Perm t.ended := ht ▸ returned_perm s steps
  refine ⟨ht, fun channel => ⟨?_, ?_, hb channel, ?_, ?_⟩, ?_, ?_, ?_, ?_⟩
  · rw [ht]
    exact length_peers_le s steps channel
  · have hpermits := hb channel
    change g.permits channel + t.held channel = s.limits.connections at hpermits
    omega
  · have hcount := (taken_perm s steps).count_eq channel
    rw [List.count_append, ← held_eq_count, ← ht] at hcount
    exact hcount
  · exact fun hheld => exists_returned hn hheld s
  · exact hreturned.nodup_iff.2 (nodup_ended hn)
  · rw [← ended_eq]
    exact hreturned
  · exact fun c hc hphase => returned_end hn hc hphase s
  · exact fun channel hnone => run_of_refused hnone

/-- The one connection there may be is given up over a full queue. Its permit is not free before its task has
ended, so the next socket is refused. -/
theorem connections_capped_given_up :
    let s : Service := ⟨⟨""⟩, { queueLength := 1, connections := 1 }⟩
    let m : Message := ⟨⟨"1", "s", "u", "", "status", "5.3"⟩, .null, .null, .object []⟩
    let steps : List Step := [.arrive .shell, .register .shell, .reply ⟨.shell, 1, m⟩ m,
      .reply ⟨.shell, 1, m⟩ m]
    let g := run s steps (initial s)
    g.transport.hub.peers .shell = [] ∧ g.transport.held .shell = 1 ∧ g.permits .shell = 0 ∧
      (∀ more, run s (steps ++ .arrive .shell :: more) (initial s) = run s (steps ++ more) (initial s)) ∧
      Transport.returned s [.leave 1, .finish 1] g.transport = [⟨.shell, some 1⟩] := by
  intro s m steps g
  let c : Connection := { Connection.fresh 1 .shell with
    registered := false, cancelled := true, queued := [Wire.encode s.signer m] }
  have hnone : g.permits .shell = 0 := by decide +kernel
  have hc : c ∈ g.transport.hub.connections := by decide +kernel
  obtain ⟨-, hcapped, -, -, hends, hrefused⟩ := connections_capped s steps
  obtain ⟨-, -, hheld, -⟩ := hcapped .shell
  refine ⟨by decide +kernel, ?_, hnone, hrefused .shell hnone, hends c hc (by decide)⟩
  change g.permits .shell + g.transport.held .shell = 1 at hheld
  omega

end Gate

end NotebookKernel
