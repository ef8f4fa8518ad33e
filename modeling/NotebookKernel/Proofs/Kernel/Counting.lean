import NotebookKernel.Proofs.Kernel.Calls
import NotebookKernel.Script

namespace NotebookKernel

open Json

/-- Cells with their numbers. -/
def numbered (codes : List String) : List Entry :=
  (codes.zipIdx 1).map fun (code, n) => ⟨0, (n : Nat), code⟩

theorem numbered_concat (codes : List String) (code : String) :
    numbered (codes ++ [code]) = numbered codes ++ [⟨0, (codes.length + 1 : Nat), code⟩] := by
  rw [numbered, List.zipIdx_append, List.map_append, Nat.add_comm 1]
  rfl

theorem length_numbered (codes : List String) : (numbered codes).length = codes.length := by
  rw [numbered, List.length_map, List.length_zipIdx]

open Query (asked)

/-- The answer to a query when cells with these codes were counted. -/
structure Lists (codes : List String) (content : Value) (shown : List Entry) : Prop where
  tail : content.get? "hist_access_type" = some (.string "tail") →
    shown <:+ numbered codes ∧ shown.length = min (asked content "n" 10).toNat codes.length
  range : content.get? "hist_access_type" = some (.string "range") →
    asked content "session" 0 = 0 → shown = (numbered codes).filter fun e =>
      asked content "start" 0 ≤ e.line && e.line < asked content "stop" 0x7FFFFFFFFFFFFFFF
  foreign : content.get? "hist_access_type" = some (.string "range") →
    asked content "session" 0 ≠ 0 → shown = []

namespace History

theorem session_numbered {codes : List String} {e : Entry} (h : e ∈ numbered codes) :
    e.session = 0 := by
  obtain ⟨p, _, rfl⟩ := List.mem_map.1 h
  rfl

theorem lists_shown {h : History} {codes : List String} (hentries : h.entries = numbered codes)
    (content : Value) : Lists codes content (h.shown content) where
  tail ht := by
    simp only [shown, Query.ofContent?_tail ht, query, hentries]
    refine ⟨List.drop_suffix _ _, ?_⟩
    rw [List.length_drop, length_numbered]
    omega
  range ht hsession := by
    simp only [shown, Query.ofContent?_range ht, query, hentries]
    apply List.filter_congr
    intro e he
    rw [session_numbered he, hsession, beq_self_eq_true, Bool.true_and]
  foreign ht hsession := by
    simp only [shown, Query.ofContent?_range ht, query, hentries]
    rw [List.filter_eq_nil_iff]
    intro e he
    rw [session_numbered he, beq_false_of_ne hsession.symm]
    exact Bool.false_ne_true

end History

namespace Kernel

variable {S D σ : Type}

/-- The code of a cell that is counted, which is neither silent nor kept from being stored. -/
def countedCode? (r : Request) : Option String :=
  if r.message.msgType = Demand.msgType .execute then
    match r.message.content.get? "silent", r.message.content.get? "store_history" with
    | some (.bool true), _ => none
    | _, some (.bool false) => none
    | _, _ => some (r.message.contentText "code")
  else none

def countedCodes (requests : List Request) : List String := requests.filterMap countedCode?

/-- The states of a kernel that has dealt with requests, having started without a history. Whatever
else happens between them happens in its link. -/
inductive Reached (k : Kernel S D σ) : List Request → State S D σ → Prop where
  | started {s : State S D σ} (count : s.executionCount = 0) (history : s.history = .empty) :
      Reached k [] s
  | relinked {requests : List Request} {s : State S D σ} (h : Reached k requests s) (l : Link σ) :
      Reached k requests { s with link := l }
  | dispatched {requests : List Request} {s : State S D σ} (h : Reached k requests s)
      (r : Request) : Reached k (requests ++ [r]) (k.dispatch r s).2

variable {k : Kernel S D σ} {s t : State S D σ} {r : Request} {requests : List Request}
  {us : List Utterance} {codes : List String}

theorem Reached.serve (h : k.Reached requests s) (more : List Request) :
    ∃ dealt, more = dealt ++ (k.serve more s).1 ∧
      k.Reached (requests ++ dealt) (k.serve more s).2 := by
  induction more generalizing requests s with
  | nil =>
    refine ⟨[], rfl, ?_⟩
    rw [List.append_nil]
    exact h
  | cons r rest ih =>
    have hstep := h.dispatched r
    unfold Kernel.serve
    split
    next heq =>
      rw [heq] at hstep
      exact ⟨[r], rfl, hstep⟩
    next heq =>
      rw [heq] at hstep
      obtain ⟨dealt, hrest, hreached⟩ := ih hstep
      refine ⟨r :: dealt, congrArg (r :: ·) hrest, ?_⟩
      rwa [List.append_assoc] at hreached

theorem reached_start (k : Kernel S D σ) (count : s.executionCount = 0) (history : s.history = .empty)
    (requests : List Request) :
    ∃ dealt rest, requests = dealt ++ rest ∧ k.Reached dealt (k.start requests s).2 := by
  unfold start
  cases hready : k.configure s with
  | error reason => exact ⟨[], requests, rfl, .started count history⟩
  | ok ready =>
    have hstarted : k.Reached [] ready := by
      rw [configure_eq hready]
      exact .started count history
    obtain ⟨dealt, hrequests, hreached⟩ := hstarted.serve requests
    exact ⟨dealt, _, hrequests, hreached⟩

/-- A flag is as it is by default unless it is set otherwise. -/
theorem contentBool_eq_not {m : Message} {key : String} {default : Bool} :
    m.contentBool key default = !default ↔ m.content.get? key = some (.bool !default) := by
  constructor
  · intro h
    unfold Message.contentBool at h
    cases hget : m.content.get? key with
    | none =>
      rw [hget] at h
      exact ((Bool.eq_not_self default).1 h).elim
    | some v =>
      rw [hget, Option.bind_some] at h
      cases v with
      | bool b => exact congrArg (fun b => some (Value.bool b)) h
      | null | number | string | array | object => exact ((Bool.eq_not_self default).1 h).elim
  · intro h
    rw [Message.contentBool, h]
    rfl

theorem countedCode?_execute (known : r.message.msgType = Demand.msgType .execute) :
    countedCode? r = if (ExecuteRequest.ofMessage r.message).storeHistory then
      some (ExecuteRequest.ofMessage r.message).code else none := by
  rw [countedCode?, if_pos known]
  split
  next hsilent =>
    have hflag : r.message.contentBool "silent" false = true := contentBool_eq_not.2 hsilent
    simp only [ExecuteRequest.ofMessage, hflag, Bool.not_true, Bool.false_and, Bool.false_eq_true,
      ↓reduceIte]
  next hstore _ =>
    have hflag : r.message.contentBool "store_history" true = false := contentBool_eq_not.2 hstore
    simp only [ExecuteRequest.ofMessage, hflag, Bool.and_false, Bool.false_eq_true, ↓reduceIte]
  next hsilent hstore =>
    have hflag : r.message.contentBool "silent" false = false := by
      rw [← Bool.not_eq_true]
      exact fun h => hsilent (contentBool_eq_not.1 h)
    have hflag' : r.message.contentBool "store_history" true = true := by
      rw [← Bool.not_eq_false]
      exact fun h => hstore (contentBool_eq_not.1 h)
    simp only [ExecuteRequest.ofMessage, hflag, hflag', Bool.not_false, Bool.and_self, ↓reduceIte]

theorem countedCodes_concat (requests : List Request) (r : Request) :
    countedCodes (requests ++ [r]) = countedCodes requests ++ (countedCode? r).toList := by
  rw [countedCodes, List.filterMap_append]
  cases h : countedCode? r with
  | none => rw [List.filterMap_cons_none h]; rfl
  | some code => rw [List.filterMap_cons_some h]; rfl

/-- The count and the history of a state tell of cells with these codes. -/
structure Tells (s : State S D σ) (codes : List String) : Prop where
  count : s.executionCount = codes.length
  history : s.history.entries = numbered codes

theorem Tells.counted (h : Tells s codes) (known : r.message.msgType = Demand.msgType .execute) :
    Tells (Kernel.count (.ofMessage r.message) s) (codes ++ (countedCode? r).toList) := by
  obtain ⟨hcount, hhistory⟩ := h
  rw [countedCode?_execute known]
  unfold Kernel.count
  split
  · rw [Option.toList_some]
    constructor
    · rw [List.length_append, ← hcount]
      rfl
    · rw [numbered_concat, ← hcount, ← hhistory]
      rfl
  · rw [Option.toList_none, List.append_nil]
    exact ⟨hcount, hhistory⟩

theorem countedCode?_other (h : r.message.msgType ≠ Demand.msgType .execute) :
    countedCode? r = none :=
  if_neg h

theorem Tells.responded {d : Demand} (hd : d ≠ .execute) (h : Tells s codes) (m : Message) :
    Tells (k.respond m s d).2 codes := by
  obtain ⟨hcount, hhistory⟩ := h
  cases d with
  | execute => exact absurd rfl hd
  | debug =>
    unfold respond
    dsimp only
    split <;> exact ⟨hcount, hhistory⟩
  | kernelInfo | isComplete | history | shutdown => exact ⟨hcount, hhistory⟩

theorem Tells.deals (h : Tells s codes) (hd : k.Deals r s us t) :
    Tells t (codes ++ (countedCode? r).toList) := by
  cases hd with
  | passed unknown l =>
    rw [countedCode?_other (unknown .execute), Option.toList_none, List.append_nil]
    exact ⟨h.count, h.history⟩
  | answered known hd l =>
    have hother : r.message.msgType ≠ Demand.msgType .execute :=
      fun heq => hd (Demand.msgType_injective (known.symm.trans heq))
    rw [countedCode?_other hother, Option.toList_none, List.append_nil]
    have hresponded := h.responded (k := k) hd r.message
    exact ⟨hresponded.count, hresponded.history⟩
  | executed known he hn run l =>
    rw [he]
    have hcounted := h.counted known
    exact ⟨hcounted.count, hcounted.history⟩

theorem Reached.tells (h : k.Reached requests s) : Tells s (countedCodes requests) := by
  induction h with
  | started count history => exact ⟨count, congrArg History.entries history⟩
  | relinked _ l ih => exact ⟨ih.count, ih.history⟩
  | dispatched _ r ih =>
    obtain ⟨us, hdeals, _⟩ := k.calls_eq r _
    rw [countedCodes_concat]
    exact ih.deals hdeals

/-- How a query is answered. -/
def listing (shown : List Entry) : Value :=
  .object [("history", .array (shown.map fun e =>
      .array [.number (.int e.session), .number (.int e.line), .string e.input])),
    ("status", .string "ok")]

theorem historyContent_eq_listing (h : History) (content : Value) :
    historyContent h content = listing (h.shown content) := by
  simp (disch := decide) only [historyContent, listing, Value.ofFields, insertFields_cons, insertFields_nil,
    insertField_nil, insertField_of_lt]
  rfl

/-- What a kernel in this state says about a history request. -/
theorem calls_history (known : r.message.msgType = Demand.msgType .history) (k : Kernel S D σ)
    (s : State S D σ) :
    k.calls r s = k.outlet.calls s.link.stamped
      ([status r "busy", reply r (listing (s.history.shown r.message.content))] ++
        idle r (k.dispatch r s).1) := by
  rw [← historyContent_eq_listing]
  obtain ⟨us, hdeals, hcalls⟩ := k.calls_eq r s
  generalize (k.dispatch r s).2 = t at hdeals
  cases hdeals with
  | passed unknown => exact absurd known (unknown .history)
  | @answered d known' hd l =>
    have hd' : d = .history := Demand.msgType_injective (known'.symm.trans known)
    subst hd'
    exact hcalls
  | executed known' => exact nomatch Demand.msgType_injective (known.symm.trans known')

/-- What a kernel in this state says about a cell. -/
theorem calls_execute (known : r.message.msgType = Demand.msgType .execute) (k : Kernel S D σ)
    (s : State S D σ) {e : ExecuteRequest} (he : e = .ofMessage r.message) {n : Nat}
    (hn : n = (count e s).executionCount) :
    ∃ us outcome interpreter,
      (k.interpreter.execute e n s.interpreter).Says r e.allowStdin us (outcome, interpreter) ∧
      k.calls r s = k.outlet.calls s.link.stamped
        ([status r "busy"] ++ announcement r e n ++ us ++ failure r outcome ++
          [reply r (verdict n outcome)] ++ idle r (k.dispatch r s).1) := by
  subst he hn
  obtain ⟨us, hdeals, hcalls⟩ := k.calls_eq r s
  generalize (k.dispatch r s).2 = t at hdeals
  cases hdeals with
  | passed unknown => exact absurd known (unknown .execute)
  | answered known' hd => exact absurd (Demand.msgType_injective (known'.symm.trans known)) hd
  | executed known' he hn run =>
    subst he hn
    refine ⟨_, _, _, run, ?_⟩
    simpa only [List.append_assoc, List.cons_append, List.nil_append] using hcalls

theorem get?_announcement {e : ExecuteRequest} {n : Nat} {u : Utterance}
    (h : u ∈ announcement r e n) : u.content.get? "execution_count" = some (.number (.int n)) := by
  unfold announcement at h
  split at h
  · exact absurd h List.not_mem_nil
  · rw [List.mem_singleton.1 h]
    rfl

theorem get?_verdict_count (n : Nat) (outcome : Outcome) :
    (verdict n outcome).get? "execution_count" = some (.number (.int n)) := by
  cases outcome with
  | ok => rfl
  | error ename evalue traceback => rfl

/-- The count, the history and whatever is shown of them tell of the same cells, and go on to do so. -/
theorem Reached.counts_agree (h : k.Reached requests s) :
    s.executionCount = (countedCodes requests).length ∧
    s.history.entries = numbered (countedCodes requests) ∧
    (∀ r, r.message.msgType = "history_request" → ∃ shown : List Entry,
      k.calls r s = k.outlet.calls s.link.stamped
        ([status r "busy", reply r (.object [("history", .array (shown.map fun e =>
            .array [.number (.int e.session), .number (.int e.line), .string e.input])),
          ("status", .string "ok")])] ++ idle r (k.dispatch r s).1) ∧
      Lists (countedCodes requests) r.message.content shown) ∧
    (∀ r, r.message.msgType = "execute_request" →
      ∃ e n us outcome interpreter, e = .ofMessage r.message ∧
        n = (countedCodes (requests ++ [r])).length ∧
        (k.interpreter.execute e n s.interpreter).Says r e.allowStdin us (outcome, interpreter) ∧
        k.calls r s = k.outlet.calls s.link.stamped
          ([status r "busy"] ++ announcement r e n ++ us ++ failure r outcome ++
            [reply r (verdict n outcome)] ++ idle r (k.dispatch r s).1) ∧
        (∀ u ∈ announcement r e n, u.content.get? "execution_count" = some (.number (.int n))) ∧
        (verdict n outcome).get? "execution_count" = some (.number (.int n))) ∧
    (∀ more, ∃ dealt, more = dealt ++ (k.serve more s).1 ∧
      k.Reached (requests ++ dealt) (k.serve more s).2) ∧
    ∀ fresh more, fresh.executionCount = 0 → fresh.history = .empty →
      ∃ dealt rest, more = dealt ++ rest ∧ k.Reached dealt (k.start more fresh).2 := by
  obtain ⟨hcount, hhistory⟩ := h.tells
  refine ⟨hcount, hhistory, ?_, ?_, h.serve, fun _ more count history => k.reached_start count history more⟩
  · intro r known
    exact ⟨_, calls_history known k s, History.lists_shown hhistory r.message.content⟩
  · intro r known
    have hcounted := h.tells.counted known
    rw [← countedCodes_concat] at hcounted
    obtain ⟨us, outcome, interpreter, hsays, hcalls⟩ := calls_execute known k s rfl rfl
    rw [hcounted.count] at hsays hcalls
    exact ⟨_, _, us, outcome, interpreter, rfl, rfl, hsays, hcalls,
      fun u hu => get?_announcement hu, get?_verdict_count _ _⟩

/-- Three cells are dealt with, of which one is silent and one fails, and the last one that was counted is
listed. -/
theorem counts_agree_failed :
    let k : Kernel Unit Nat Memory :=
      ⟨⟨⟨"user", "session"⟩, fun n => ⟨n.repr, ""⟩, Memory.sink⟩,
        Script.interpreter ⟨[("b", [.fail "E" "" []])], [], .emptyObject, none⟩, none⟩
    let s : State Unit Nat Memory := ⟨⟨.initial, .empty, 0⟩, (), 0, 0, .empty⟩
    let request (msgType : String) (content : List (String × Value)) : Request := ⟨.shell, 0,
      ⟨⟨"1", "s", "u", "", msgType, "5.3"⟩, .null, .null, .object content⟩⟩
    let cell (code : String) (silent : Bool) : Request :=
      request "execute_request" [("code", .string code), ("silent", .bool silent)]
    let query : Request :=
      request "history_request" [("hist_access_type", .string "tail"), ("n", .number (.int 1))]
    let requests := [cell "a" false, cell "a" true, cell "b" false]
    let t := (k.serve requests s).2
    t.executionCount = 2 ∧ t.history.entries = [⟨0, 1, "a"⟩, ⟨0, 2, "b"⟩] ∧
    k.calls query t = k.outlet.calls t.link.stamped [status query "busy",
      reply query (.object [("history", .array [.array [.number (.int 0), .number (.int 2), .string "b"]]),
        ("status", .string "ok")]),
      status query "idle"] := by
  intro k s request cell query requests t
  have hstart : k.Reached [] s := .started rfl rfl
  obtain ⟨dealt, hdealt, ht⟩ := (Reached.counts_agree hstart).2.2.2.2.1 requests
  have hrest : (k.serve requests s).1 = [] := by rfl
  have hconnected : t.link.transport.connected = true := by rfl
  rw [hrest, List.append_nil] at hdealt
  rw [← hdealt, List.nil_append] at ht
  change k.Reached requests t at ht
  clear_value t
  obtain ⟨hcount, hhistory, hlisted, _⟩ := Reached.counts_agree ht
  obtain ⟨shown, hcalls, hlists⟩ := hlisted query rfl
  obtain ⟨hsuffix, hlength⟩ := hlists.tail rfl
  have hshown : shown = [⟨0, 2, "b"⟩] := by
    rw [List.suffix_iff_eq_drop, hlength] at hsuffix
    exact hsuffix
  obtain ⟨_, _, _, hdelivered⟩ := dispatch_spoken (k := k) Memory.sink_keeps hconnected query
  have hdispatch : (k.dispatch query t).1 = .ok .proceed := hdelivered Memory.sink_delivers
  rw [hshown, hdispatch] at hcalls
  exact ⟨hcount, hhistory, hcalls⟩

end Kernel

end NotebookKernel
