import NotebookKernel.Proofs.History.Search
import NotebookKernel.Proofs.Json.Fields

namespace NotebookKernel

open Json

namespace Pattern

/-- A wildcard that may stop anywhere takes whatever there is. -/
theorem retry_all (cs : List Char) : retry (fun _ => true) (compare []) cs = .matched := by
  induction cs with
  | nil => rfl
  | cons c cs ih =>
    cases cs with
    | nil => rfl
    | cons d cs => exact ih

theorem anyText_matches (s : String) : Pattern.matches ⟨[.anyText]⟩ s = true := by
  unfold «matches»
  cases s.toList with
  | nil => rfl
  | cons c cs =>
    have hretry : compare [.anyText] (c :: cs) = .matched := retry_all (c :: cs)
    rw [hretry]
    rfl

theorem ofString?_star : ofString? "*" = some ⟨[.anyText]⟩ := by
  decide +kernel

end Pattern

namespace Query

/-- The content of a request for the last `n` cells. -/
def lastCells (n : Int) : Value := .ofFields [("hist_access_type", .string "tail"), ("n", .ofInt n)]

/-- The content of a request for up to `n` cells, whatever is in them. -/
def anyCells (n : Int) : Value :=
  .ofFields [("hist_access_type", .string "search"), ("pattern", .string "*"), ("n", .ofInt n)]

/-- The numbers that count as limits. -/
def Counts (n : Int) : Prop := -0x8000000000000000 ≤ n ∧ n < 0x8000000000000000

instance (n : Int) : Decidable (Counts n) := inferInstanceAs (Decidable (_ ∧ _))

theorem asInt64?_ofInt (n : Int) : (Value.ofInt n).asInt64? = if Counts n then some n else none := rfl

theorem asked_lastCells (n : Int) : asked (lastCells n) "n" 10 = if Counts n then n else 10 := by
  have hn : (lastCells n).get? "n" = some (.ofInt n) :=
    Value.get?_ofFields_concat [("hist_access_type", .string "tail")] _ _
  rw [asked, hn, Option.bind_some, asInt64?_ofInt]
  split <;> rfl

theorem ofContent?_lastCells (n : Int) :
    ofContent? (lastCells n) = some (.tail (if Counts n then n else 10).toNat) := by
  have htype : (lastCells n).get? "hist_access_type" = some (.string "tail") :=
    Value.get?_ofFields_append_cons (by simp) [] _
  rw [ofContent?_tail htype, asked_lastCells]

theorem ofContent?_anyCells (n : Int) :
    ofContent? (anyCells n) = some (.search "*" (if Counts n then some n.toNat else none) false) := by
  have htype : (anyCells n).get? "hist_access_type" = some (.string "search") :=
    Value.get?_ofFields_append_cons (by simp) [] _
  have hpattern : (anyCells n).get? "pattern" = some (.string "*") :=
    Value.get?_ofFields_append_cons (by simp)
      [("hist_access_type", .string "search")] _
  have hn : (anyCells n).get? "n" = some (.ofInt n) :=
    Value.get?_ofFields_concat [("hist_access_type", .string "search"), ("pattern", .string "*")] _ _
  have hunique : (anyCells n).get? "unique" = none :=
    Value.get?_ofFields_append (by simp) []
  simp only [ofContent?, htype, hpattern, hn, hunique, Option.bind_some, Value.asString?,
    asInt64?_ofInt, Option.getD_some, Option.bind_none, Option.getD_none]
  split <;> rfl

end Query

namespace History

open Query

variable {wanted : String → Bool} {unique : Bool} {found entries : List Entry}

/-- A limit of zero is noticed where a limit of one is. -/
theorem find_zero : find wanted (some 0) unique found entries =
    find wanted (some 1) unique found entries := by
  induction entries generalizing found with
  | nil => rfl
  | cons e older ih =>
    rw [find, find, ih]
    split
    · rfl
    · rw [if_pos (by simp), if_pos (by simp)]

/-- What a search finds with any limit. -/
theorem find_raised (wanted : String → Bool) (limit : Option Nat) (unique : Bool)
    (entries : List Entry) : find wanted limit unique [] entries.reverse =
      lastOf (limit.map (max 1)) (selected wanted unique entries) := by
  have hraised : find wanted limit unique [] entries.reverse =
      find wanted (limit.map (max 1)) unique [] entries.reverse := by
    match limit with
    | none => rfl
    | some 0 => exact find_zero
    | some (n + 1) => rw [Option.map_some, Nat.max_eq_right (by omega)]
  have hpositive : ∀ n ∈ limit.map (max 1), 1 ≤ n := by
    intro n hn
    obtain ⟨m, _, rfl⟩ := Option.map_eq_some_iff.1 hn
    exact Nat.le_max_left 1 m
  rw [hraised, find_eq wanted unique hpositive]

theorem length_query_search (h : History) (pattern : String) (n : Nat) (unique : Bool) :
    (h.query (.search pattern (some n) unique)).length ≤ max 1 n := by
  rw [query]
  cases Pattern.ofString? pattern with
  | none => exact Nat.zero_le _
  | some p =>
    dsimp only
    rw [find_raised, Option.map_some, lastOf, List.rtake, List.length_drop]
    omega

theorem query_star (h : History) (limit : Option Nat) :
    h.query (.search "*" limit false) = lastOf (limit.map (max 1)) h.entries := by
  have hall : selected (Pattern.matches ⟨[.anyText]⟩) false h.entries = h.entries :=
    List.filter_eq_self.2 fun e _ => Pattern.anyText_matches e.input
  rw [query, Pattern.ofString?_star]
  dsimp only
  rw [find_raised, hall]

theorem shown_lastCells (h : History) (n : Int) :
    h.shown (lastCells n) = h.entries.rtake (if Counts n then n else 10).toNat := by
  rw [shown, ofContent?_lastCells]
  rfl

theorem shown_anyCells (h : History) (n : Int) :
    h.shown (anyCells n) =
      lastOf ((if Counts n then some n.toNat else none).map (max 1)) h.entries := by
  rw [shown, ofContent?_anyCells]
  exact query_star h _

/-- Where there are entries, the last ones of two numbers differ unless one of them is positive. -/
theorem rtake_max_one_iff (n : Nat) :
    entries.rtake (max 1 n) = entries.rtake n ↔ 1 ≤ n ∨ entries = [] := by
  constructor
  · intro heq
    obtain rfl | hn := Nat.eq_zero_or_pos n
    · refine .inr (List.length_eq_zero_iff.1 ?_)
      have hlength := congrArg List.length heq
      rw [List.rtake, List.rtake, List.length_drop, List.length_drop] at hlength
      omega
    · exact .inl hn
  · rintro (hn | rfl)
    · rw [Nat.max_eq_right hn]
    · rw [List.rtake, List.rtake, List.drop_nil, List.drop_nil]

/-- A search for anything and a listing of the last cells answer the same exactly if the limit is positive or
nothing is stored; with a limit of zero or less the search answers the newest entry, and no search answers
more than one. A number that does not count leaves the search without a limit, and the listing with its
own. -/
theorem search_agrees_iff (h : History) (n : Int) :
    (Counts n →
      h.shown (lastCells n) = h.entries.rtake n.toNat ∧
      h.shown (anyCells n) = h.entries.rtake (max 1 n.toNat) ∧
      (h.shown (anyCells n) = h.shown (lastCells n) ↔ 1 ≤ n ∨ h.entries = []) ∧
      ∀ pattern unique, (h.query (.search pattern (some n.toNat) unique)).length ≤ max 1 n.toNat) ∧
    (¬ Counts n →
      h.shown (lastCells n) = h.entries.rtake 10 ∧ h.shown (anyCells n) = h.entries) := by
  have hlast := shown_lastCells h n
  have hany := shown_anyCells h n
  constructor
  · intro hn
    rw [if_pos hn] at hlast hany
    have hpositive : 1 ≤ n.toNat ↔ 1 ≤ n := by omega
    refine ⟨hlast, hany, ?_, fun pattern unique => length_query_search h pattern n.toNat unique⟩
    rw [hlast, hany, ← hpositive]
    exact rtake_max_one_iff n.toNat
  · intro hn
    rw [if_neg hn] at hlast hany
    exact ⟨hlast, hany⟩

/-- A negative limit is a limit of zero. -/
theorem search_agrees_iff_negative :
    let h := (empty.store 1 "x").store 2 "y"
    Counts (-3) ∧ h.shown (lastCells (-3)) = [] ∧ h.shown (anyCells (-3)) = [⟨0, 2, "y"⟩] ∧
      h.shown (anyCells 2) = h.shown (lastCells 2) := by
  intro h
  have hcounts : Counts (-3) := by decide
  obtain ⟨hlast, hany, _⟩ := (search_agrees_iff h (-3)).1 hcounts
  obtain ⟨_, _, hagree, _⟩ := (search_agrees_iff h 2).1 (by decide)
  exact ⟨hcounts, hlast, hany, hagree.2 (.inl (by decide))⟩

/-- A search that is to find nothing finds the newest entry. -/
theorem search_passes_limit :
    let h := empty.store 1 "a"
    h.shown (lastCells 0) = [] ∧ h.shown (anyCells 0) = [⟨0, 1, "a"⟩] := by
  decide +kernel

end History

end NotebookKernel
