import Mathlib.Data.List.DropRight
import NotebookKernel.History

namespace NotebookKernel.History

/-- The entries whose input no later entry has. -/
def latest : List Entry → List Entry
  | [] => []
  | e :: later => if later.any (·.input == e.input) then latest later else e :: latest later

/-- The entries that a search without a limit is to find. -/
def selected (wanted : String → Bool) (unique : Bool) (entries : List Entry) : List Entry :=
  (if unique then latest entries else entries).filter (wanted ·.input)

/-- The last entries, no more than the limit. -/
def lastOf (limit : Option Nat) (entries : List Entry) : List Entry :=
  match limit with
  | none => entries
  | some n => entries.rtake n

variable {wanted : String → Bool} {limit : Option Nat} {unique : Bool} {e : Entry}
  {entries older newer : List Entry}

/-- Whether an entry is selected depends on the entries after it alone. -/
theorem selected_cons (wanted : String → Bool) (unique : Bool) (e : Entry) (newer : List Entry) :
    selected wanted unique (e :: newer) =
      if wanted e.input && !(unique && newer.any (·.input == e.input)) then
        e :: selected wanted unique newer
      else selected wanted unique newer := by
  cases unique with
  | false => simp only [selected, Bool.false_eq_true, ↓reduceIte, List.filter_cons, Bool.false_and,
      Bool.not_false, Bool.and_true]
  | true =>
    cases hrepeated : newer.any (·.input == e.input) with
    | true => simp [selected, latest, hrepeated]
    | false => simp [selected, latest, hrepeated, List.filter_cons]

/-- Of the entries with an input that is wanted, one at least is selected. -/
theorem any_selected {input : String} (hwanted : wanted input = true) (unique : Bool)
    (entries : List Entry) :
    (selected wanted unique entries).any (·.input == input) = entries.any (·.input == input) := by
  induction entries with
  | nil => simp [selected, latest]
  | cons e newer ih =>
    rw [selected_cons, List.any_cons]
    by_cases hinput : e.input = input
    · subst hinput
      cases hrepeated : newer.any (·.input == e.input) with
      | true =>
        rw [hrepeated] at ih
        split <;> simp [ih]
      | false => simp [hwanted]
    · have hother : (e.input == input) = false := beq_eq_false_iff_ne.2 hinput
      rw [hother, Bool.false_or, ← ih]
      split
      · rw [List.any_cons, hother, Bool.false_or]
      · rfl

theorem selected_suffix (wanted : String → Bool) (unique : Bool) (older newer : List Entry) :
    selected wanted unique newer <:+ selected wanted unique (older ++ newer) := by
  induction older with
  | nil => exact List.suffix_refl _
  | cons e older ih =>
    rw [List.cons_append, selected_cons]
    split
    · exact ih.trans (List.suffix_cons e _)
    · exact ih

theorem lastOf_of_lt (h : ∀ n ∈ limit, entries.length < n) : lastOf limit entries = entries := by
  cases limit with
  | none => rfl
  | some n =>
    have hlt : entries.length < n := h n rfl
    rw [lastOf, List.rtake, Nat.sub_eq_zero_of_le (Nat.le_of_lt hlt), List.drop_zero]

theorem lastOf_of_suffix (h : newer <:+ entries) : lastOf (some newer.length) entries = newer := by
  obtain ⟨older, rfl⟩ := h
  rw [lastOf, List.rtake, List.length_append, Nat.add_sub_cancel, List.drop_left]

/-- What was found so far is what is selected of the entries that were looked at; as long as the limit is
not reached, the search ends with the last entries that are selected of all. -/
theorem find_selected (h : ∀ n ∈ limit, (selected wanted unique newer).length < n) :
    find wanted limit unique (selected wanted unique newer) older =
      lastOf limit (selected wanted unique (older.reverse ++ newer)) := by
  induction older generalizing newer with
  | nil => exact (lastOf_of_lt h).symm
  | cons e older ih =>
    have hseen : (!wanted e.input || (unique && (selected wanted unique newer).any (·.input == e.input))) =
        !(wanted e.input && !(unique && newer.any (·.input == e.input))) := by
      cases hwanted : wanted e.input with
      | false => rfl
      | true => simp [any_selected hwanted]
    have hcons := selected_cons wanted unique e newer
    rw [find, hseen, List.reverse_cons, List.append_assoc, List.singleton_append]
    cases hkept : wanted e.input && !(unique && newer.any (·.input == e.input)) with
    | false =>
      rw [hkept, if_neg Bool.false_ne_true] at hcons
      rw [← hcons] at h ⊢
      exact ih h
    | true =>
      rw [hkept, if_pos rfl] at hcons
      have hlength : (selected wanted unique newer).length + 1 =
          (selected wanted unique (e :: newer)).length := by
        rw [hcons, List.length_cons]
      rw [Bool.not_true, if_neg Bool.false_ne_true, hlength, ← hcons]
      split
      next henough =>
        cases limit with
        | none => exact nomatch henough
        | some n =>
          have hlt : (selected wanted unique newer).length < n := h n rfl
          have hle : n ≤ (selected wanted unique (e :: newer)).length := of_decide_eq_true henough
          obtain rfl : n = (selected wanted unique (e :: newer)).length := by omega
          exact (lastOf_of_suffix (selected_suffix wanted unique older.reverse (e :: newer))).symm
      next hmore =>
        apply ih
        intro n hn
        obtain rfl := Option.mem_def.1 hn
        exact Nat.lt_of_not_le fun hle => hmore (decide_eq_true hle)

theorem find_eq (wanted : String → Bool) (unique : Bool) (hlimit : ∀ n ∈ limit, 1 ≤ n)
    (entries : List Entry) :
    find wanted limit unique [] entries.reverse = lastOf limit (selected wanted unique entries) := by
  have hnone : selected wanted unique [] = [] := by
    cases unique <;> rfl
  have hroom : ∀ n ∈ limit, (selected wanted unique []).length < n := by
    rw [hnone]
    exact hlimit
  have hfind : find wanted limit unique (selected wanted unique []) entries.reverse = _ :=
    find_selected hroom
  rwa [hnone, List.reverse_reverse, List.append_nil] at hfind

theorem latest_sublist (entries : List Entry) : (latest entries).Sublist entries := by
  induction entries with
  | nil => exact .slnil
  | cons e later ih =>
    rw [latest]
    split
    · exact ih.cons e
    · exact ih.cons_cons e

theorem selected_sublist (wanted : String → Bool) (unique : Bool) (entries : List Entry) :
    (selected wanted unique entries).Sublist entries := by
  cases unique with
  | false => exact List.filter_sublist
  | true => exact List.filter_sublist.trans (latest_sublist entries)

theorem lastOf_sublist (limit : Option Nat) (entries : List Entry) :
    (lastOf limit entries).Sublist entries := by
  cases limit with
  | none => exact .refl _
  | some n => exact List.drop_sublist _ entries

theorem latest_nodup (entries : List Entry) : ((latest entries).map Entry.input).Nodup := by
  induction entries with
  | nil => exact List.nodup_nil
  | cons e later ih =>
    rw [latest]
    split
    · exact ih
    next hnew =>
      rw [List.map_cons, List.nodup_cons]
      refine ⟨fun hmem => hnew ?_, ih⟩
      obtain ⟨x, hx, hinput⟩ := List.mem_map.1 hmem
      rw [List.any_eq_true]
      exact ⟨x, (latest_sublist later).subset hx, beq_iff_eq.2 hinput⟩

/-- An entry of a history, behind which its input does not come again. -/
def IsLatest (entries : List Entry) (e : Entry) : Prop :=
  ∃ earlier later, entries = earlier ++ e :: later ∧ ∀ x ∈ later, x.input ≠ e.input

theorem isLatest_of_mem_latest (he : e ∈ latest entries) : IsLatest entries e := by
  induction entries with
  | nil => exact nomatch he
  | cons first later ih =>
    rw [latest] at he
    split at he
    next =>
      obtain ⟨earlier, rest, rfl, hlast⟩ := ih he
      exact ⟨first :: earlier, rest, rfl, hlast⟩
    next hnew =>
      obtain rfl | he := List.mem_cons.1 he
      · refine ⟨[], later, rfl, fun x hx hinput => hnew ?_⟩
        rw [List.any_eq_true]
        exact ⟨x, hx, beq_iff_eq.2 hinput⟩
      · obtain ⟨earlier, rest, rfl, hlast⟩ := ih he
        exact ⟨first :: earlier, rest, rfl, hlast⟩

/-- Where lines are counted up, the latest entry with an input has the greatest line. -/
theorem IsLatest.line_le (h : IsLatest entries e) (hlines : entries.Pairwise (·.line < ·.line))
    {x : Entry} (hx : x ∈ entries) (hinput : x.input = e.input) : x.line ≤ e.line := by
  obtain ⟨earlier, later, rfl, hlast⟩ := h
  obtain ⟨_, _, hacross⟩ := List.pairwise_append.1 hlines
  obtain hx | hx := List.mem_append.1 hx
  · exact Int.le_of_lt (hacross x hx e List.mem_cons_self)
  · obtain rfl | hx := List.mem_cons.1 hx
    · exact Int.le_refl _
    · exact absurd hinput (hlast x hx)

/-- With a limit that is absent or at least one, a search finds the last of the wanted entries, in the
order in which they were stored; if inputs are to be found once, only entries that no later entry repeats. -/
theorem search_selects (h : History) (limit : Option Nat) (unique : Bool)
    (hlimit : ∀ n ∈ limit, 1 ≤ n) :
    (∀ wanted : String → Bool,
      let found := find wanted limit unique [] h.entries.reverse
      found = lastOf limit (selected wanted unique h.entries) ∧ found.Sublist h.entries ∧
      (unique = true → (found.map Entry.input).Nodup ∧ ∀ e ∈ found, IsLatest h.entries e ∧
        (h.entries.Pairwise (·.line < ·.line) →
          ∀ x ∈ h.entries, x.input = e.input → x.line ≤ e.line))) ∧
    ∀ pattern : String, h.query (.search pattern limit unique) =
      match Pattern.ofString? pattern with
      | none => []
      | some p => lastOf limit (selected p.matches unique h.entries) := by
  constructor
  · intro wanted found
    have hfound : found = lastOf limit (selected wanted unique h.entries) :=
      find_eq wanted unique hlimit h.entries
    have hlast := lastOf_sublist limit (selected wanted unique h.entries)
    rw [← hfound] at hlast
    refine ⟨hfound, hlast.trans (selected_sublist wanted unique h.entries), ?_⟩
    rintro rfl
    have hlatest : found.Sublist (latest h.entries) := hlast.trans List.filter_sublist
    constructor
    · exact (latest_nodup h.entries).sublist (hlatest.map Entry.input)
    · intro e he
      have hisLatest := isLatest_of_mem_latest (hlatest.subset he)
      exact ⟨hisLatest, fun hlines x hx hinput => hisLatest.line_le hlines hx hinput⟩
  · intro pattern
    rw [query]
    cases Pattern.ofString? pattern with
    | none => rfl
    | some p => exact find_eq p.matches unique hlimit h.entries

/-- The first entry is repeated by the third, and the last one is not wanted. -/
theorem search_selects_repeated :
    let h := (((empty.store 1 "x").store 2 "y").store 3 "x").store 4 "z"
    h.query (.search "[!z]" (some 2) true) = [⟨0, 2, "y"⟩, ⟨0, 3, "x"⟩] ∧
      ∀ e ∈ find (· != "z") (some 2) true [] h.entries.reverse, IsLatest h.entries e := by
  intro h
  have hlimit : ∀ n ∈ some 2, 1 ≤ n := by
    intro n hn
    obtain rfl := Option.mem_some.1 hn
    decide
  obtain ⟨hfind, hquery⟩ := search_selects h (some 2) true hlimit
  obtain ⟨_, _, hunique⟩ := hfind (· != "z")
  constructor
  · rw [hquery]
    decide +kernel
  · intro e he
    exact ((hunique rfl).2 e he).1

end NotebookKernel.History
