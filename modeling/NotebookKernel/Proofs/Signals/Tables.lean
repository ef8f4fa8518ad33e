import NotebookKernel.Proofs.Signals.Diagnostic

namespace NotebookKernel

namespace Disposition

/-- What is put in the place of the handler before, wherever the dispatcher has no part. -/
def handler : Disposition → Handler
  | abort => .diagnostic
  | terminate => .exit
  | ignore => .ignored

/-- What a signal does to a process that asked for this. -/
def ending (s : Signal) : Disposition → Ending
  | abort => ⟨.exited 1, Utf8.encode ("Error: signal ".toList ++ Nat.toDigits 10 s.number ++ ":\n".toList)⟩
  | terminate => ⟨.exited 0, []⟩
  | ignore => ⟨.survived, []⟩

end Disposition

open Disposition

namespace Handling

/-- The last entry decides; without one nothing was asked for. -/
def byLast (s : Signal) (ds : List Disposition) : Ending :=
  match ds.getLast? with
  | none => .byDefault s
  | some d => d.ending s

/-- What a signal does in the end, told from the entries for it. The first `terminate` keeps what stood before
it, which is met again where nothing but further ones come after it. -/
def settled (s : Signal) (ds : List Disposition) : Ending :=
  if s.isUncatchable then .byDefault s
  else if s.isFault then byLast s ds
  else match ds.dropWhile (· ≠ terminate) with
    | [] => byLast s ds
    | _ :: after =>
      match (after.filter (· ≠ terminate)).getLast? with
      | some d => d.ending s
      | none =>
        if (ds.takeWhile (· ≠ terminate)).getLast? = some abort then abort.ending s
        else terminate.ending s

variable {isFault : Bool} {h : Handling} {d : Disposition} {ds : List Disposition} {s : Signal}

theorem apply_replaces (hd : isFault = true ∨ d ≠ terminate) :
    h.apply isFault d = { h with handler := d.handler } := by
  cases d with
  | abort => rfl
  | ignore => rfl
  | terminate =>
    obtain rfl | hne := hd
    · rfl
    · exact absurd rfl hne

/-- The dispatcher is not installed a second time. -/
theorem apply_again {displaced : Handler} (hh : h.displaced = some displaced) :
    h.apply false terminate = h := by
  simp only [apply, hh, Bool.false_eq_true, ↓reduceIte]

theorem foldl_replaces (hds : ∀ d ∈ ds, isFault = true ∨ d ≠ terminate) :
    ds.foldl (apply isFault) h =
      { h with handler := (ds.getLast?.map Disposition.handler).getD h.handler } := by
  induction ds generalizing h with
  | nil => rfl
  | cons d ds ih =>
    obtain ⟨hd, hds⟩ := List.forall_mem_cons.1 hds
    rw [List.foldl_cons, apply_replaces hd, ih hds, List.getLast?_cons]
    cases ds.getLast? <;> rfl

/-- Once the dispatcher is there, only entries of the other kinds count. -/
theorem foldl_displaced {displaced : Handler} (hh : h.displaced = some displaced) :
    ds.foldl (apply false) h = (ds.filter (· ≠ terminate)).foldl (apply false) h := by
  induction ds generalizing h with
  | nil => rfl
  | cons d ds ih =>
    by_cases hd : d = terminate
    · rw [hd, List.foldl_cons, apply_again hh, ih hh, List.filter_cons_of_neg (by simp)]
    · have hafter : (h.apply false d).displaced = some displaced := by
        rw [apply_replaces (.inr hd)]
        exact hh
      rw [List.foldl_cons, ih hafter, List.filter_cons_of_pos (by simpa using hd), List.foldl_cons]

theorem diagnostic_eq_ending (s : Signal) : Ending.diagnostic s = abort.ending s := by
  rw [Ending.diagnostic_eq, ending, Utf8.encode_append, Utf8.encode_append]
  rfl

theorem raise_handler (hh : h.handler = d.handler) : h.raise s = d.ending s := by
  cases d with
  | abort => rw [raise, hh]; exact diagnostic_eq_ending s
  | terminate => rw [raise, hh]; rfl
  | ignore => rw [raise, hh]; rfl

/-- The dispatcher runs what it has displaced, and exits if it is still there. -/
theorem raise_dispatcher (displaced : Handler) : raise ⟨.dispatcher, some displaced⟩ s =
    if displaced = .diagnostic then abort.ending s else terminate.ending s := by
  rw [← diagnostic_eq_ending]
  simp only [raise, Option.some.injEq]
  rfl

theorem raise_replaced (hds : ∀ d ∈ ds, isFault = true ∨ d ≠ terminate) :
    (ds.foldl (apply isFault) initial).raise s = byLast s ds := by
  rw [foldl_replaces hds, byLast]
  cases ds.getLast? with
  | none => rfl
  | some d => exact raise_handler rfl

theorem forall_mem_takeWhile (ds : List Disposition) :
    ∀ d ∈ ds.takeWhile (· ≠ terminate), false = true ∨ d ≠ terminate := by
  intro d hd
  have hall := List.all_takeWhile (p := fun d => decide (d ≠ terminate)) (l := ds)
  exact .inr (of_decide_eq_true (List.all_eq_true.1 hall d hd))

theorem forall_mem_filter : ∀ d ∈ ds.filter (· ≠ terminate), false = true ∨ d ≠ terminate :=
  fun _ hd => .inr (of_decide_eq_true (List.mem_filter.1 hd).2)

/-- The dispatcher is installed over what the entries before it have left. -/
theorem raise_dispatched {before : List Disposition}
    (hbefore : ∀ d ∈ before, false = true ∨ d ≠ terminate) (after : List Disposition) :
    ((before ++ terminate :: after).foldl (apply false) initial).raise s =
      match (after.filter (· ≠ terminate)).getLast? with
      | some d => d.ending s
      | none => if before.getLast? = some abort then abort.ending s else terminate.ending s := by
  have hdispatcher : (before.foldl (apply false) initial).apply false terminate =
      ⟨.dispatcher, some ((before.getLast?.map Disposition.handler).getD .default)⟩ := by
    rw [foldl_replaces hbefore]
    rfl
  rw [List.foldl_append, List.foldl_cons, hdispatcher, foldl_displaced rfl,
    foldl_replaces forall_mem_filter]
  cases (after.filter (· ≠ terminate)).getLast? with
  | some d => exact raise_handler rfl
  | none =>
    refine (raise_dispatcher _).trans ?_
    cases before.getLast? with
    | none => rfl
    | some d => cases d <;> rfl

/-- The entries for a signal settle what it does. -/
theorem raise_settled (hs : s.isUncatchable = false) (ds : List Disposition) :
    (ds.foldl (apply s.isFault) initial).raise s = settled s ds := by
  unfold settled
  rw [hs, if_neg Bool.false_ne_true]
  cases hfault : s.isFault with
  | true =>
    rw [if_pos rfl]
    exact raise_replaced fun _ _ => .inl rfl
  | false =>
    rw [if_neg Bool.false_ne_true]
    have hsplit := List.takeWhile_append_dropWhile (p := (· ≠ terminate)) (l := ds)
    cases hrest : ds.dropWhile (· ≠ terminate) with
    | nil =>
      rw [hrest, List.append_nil] at hsplit
      have hplain := forall_mem_takeWhile ds
      rw [hsplit] at hplain
      exact raise_replaced hplain
    | cons d after =>
      have hd : d = terminate := by
        have hhead := List.head?_dropWhile_not (· ≠ terminate) ds
        rw [hrest] at hhead
        simpa using hhead
      rw [hrest, hd] at hsplit
      have hraise := raise_dispatched (s := s) (forall_mem_takeWhile ds) after
      rw [hsplit] at hraise
      exact hraise

end Handling

namespace Handlings

/-- What a table asks for a signal, in order. -/
def asked (s : Signal) (table : List (Signal × Disposition)) : List Disposition :=
  (table.filter (·.1 = s)).map (·.2)

variable {h : Handlings} {s : Signal}

theorem applyOne_self (hs : s.isUncatchable = false) (d : Disposition) :
    (h.applyOne s d).2 s = (h s).apply s.isFault d := by
  rw [applyOne, hs, if_neg Bool.false_ne_true]
  exact if_pos rfl

theorem applyOne_uncatchable (hs : s.isUncatchable = true) (t : Signal) (d : Disposition) :
    (h.applyOne t d).2 s = h s := by
  by_cases ht : s = t
  · subst ht
    rw [applyOne, if_pos hs]
  · exact applyOne_of_ne h ht d

theorem apply_uncatchable (hs : s.isUncatchable = true) (table : List (Signal × Disposition)) :
    (h.apply table).2 s = h s := by
  induction table generalizing h with
  | nil => rfl
  | cons entry table ih => exact ih.trans (applyOne_uncatchable hs entry.1 entry.2)

/-- Entries for other signals leave a signal as it is. -/
theorem apply_eq_foldl (hs : s.isUncatchable = false) (table : List (Signal × Disposition)) :
    (h.apply table).2 s = (asked s table).foldl (Handling.apply s.isFault) (h s) := by
  induction table generalizing h with
  | nil => rfl
  | cons entry table ih =>
    obtain ⟨t, d⟩ := entry
    refine (ih (h := (h.applyOne t d).2)).trans ?_
    by_cases ht : t = s
    · subst ht
      rw [applyOne_self hs, asked, asked, List.filter_cons_of_pos (by simp), List.map_cons,
        List.foldl_cons]
    · rw [applyOne_of_ne h (Ne.symm ht), asked, asked, List.filter_cons_of_neg (by simpa using ht)]

theorem isUncatchable_iff : s.isUncatchable = true ↔ s = .kill ∨ s = .stop := by
  cases s <;> decide

theorem apply_outcomes (table : List (Signal × Disposition)) :
    (h.apply table).1 = table.map fun entry =>
      (entry.1, if entry.1 = .kill ∨ entry.1 = .stop then .uncatchable else .installed) := by
  induction table generalizing h with
  | nil => rfl
  | cons entry table ih =>
    obtain ⟨s, d⟩ := entry
    have hfirst : (h.applyOne s d).1 = if s = .kill ∨ s = .stop then .uncatchable else .installed := by
      by_cases hs : s.isUncatchable = true
      · rw [applyOne, if_pos hs, if_pos (isUncatchable_iff.1 hs)]
      · rw [applyOne, if_neg hs, if_neg (mt isUncatchable_iff.2 hs)]
    rw [List.map_cons, ← ih (h := (h.applyOne s d).2), ← hfirst]
    rfl

/-- A table has one outcome for each entry, and what a signal does afterwards is settled by the entries for
it, however those for other signals stand between them. -/
theorem tables_compose (table : List (Signal × Disposition)) :
    (initial.apply table).1 = table.map (fun entry =>
      (entry.1, if entry.1 = .kill ∨ entry.1 = .stop then .uncatchable else .installed)) ∧
    ∀ s, (initial.apply table).2.raise s = Handling.settled s (asked s table) := by
  refine ⟨apply_outcomes table, fun s => ?_⟩
  cases hs : s.isUncatchable with
  | true =>
    rw [raise, apply_uncatchable hs, Handling.settled, if_pos hs]
    rfl
  | false =>
    rw [raise, apply_eq_foldl hs]
    exact Handling.raise_settled hs _

/-- A dispatcher that was not displaced runs what it has displaced, and a second one is not installed over
what has displaced the first. -/
theorem tables_compose_dispatched :
    let final := (initial.apply [(.int, .ignore), (.term, .terminate), (.int, .abort), (.term, .ignore),
      (.kill, .abort), (.int, .terminate), (.segv, .terminate), (.term, .terminate), (.int, .terminate)]).2
    final.raise .int = ⟨.exited 1, Utf8.encode "Error: signal 2:\n".toList⟩ ∧
      final.raise .term = ⟨.survived, []⟩ ∧ final.raise .segv = ⟨.exited 0, []⟩ ∧
      final.raise .kill = ⟨.killed 9, []⟩ := by
  intro final
  have hsettled := (tables_compose [(.int, .ignore), (.term, .terminate), (.int, .abort), (.term, .ignore),
    (.kill, .abort), (.int, .terminate), (.segv, .terminate), (.term, .terminate), (.int, .terminate)]).2
  exact ⟨hsettled .int, hsettled .term, hsettled .segv, hsettled .kill⟩

end Handlings

end NotebookKernel
