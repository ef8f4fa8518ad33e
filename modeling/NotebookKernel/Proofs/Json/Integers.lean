import NotebookKernel.Json.Parser
import NotebookKernel.Proofs.Json.Strings

namespace NotebookKernel.Json

/-- A number that stands before this text ends there. -/
def EndsNumber : List Char → Prop
  | [] => True
  | c :: _ => Reader.isDigit c = false ∧ c ≠ '.' ∧ c ≠ 'e' ∧ c ≠ 'E'

/-- The digits before this text end there. -/
def EndsDigits : List Char → Prop
  | [] => True
  | c :: _ => Reader.isDigit c = false

/-- A number without an exponent ends before this text, unless that goes on with one. -/
def EndsFraction : List Char → Prop
  | [] => True
  | c :: _ => Reader.isDigit c = false ∧ c ≠ '.'

theorem EndsFraction.digits {rest : List Char} (h : EndsFraction rest) : EndsDigits rest := by
  cases rest with
  | nil => trivial
  | cons c cs => exact h.1

theorem EndsNumber.fraction {rest : List Char} (h : EndsNumber rest) : EndsFraction rest := by
  cases rest with
  | nil => trivial
  | cons c cs => exact ⟨h.1, h.2.1⟩

theorem EndsItem.ends_number {c : Char} (h : EndsItem c) (rest : List Char) :
    EndsNumber (c :: rest) := by
  rcases h with rfl | rfl | rfl <;> exact ⟨rfl, by decide, by decide, by decide⟩

/-- The values of the digits of a number. -/
def digitValues (n : Nat) : List Nat := (digitChars n).map fun c => c.toNat - '0'.toNat

theorem digitValues_of_lt {n : Nat} (h : n < 10) : digitValues n = [n] := by
  rw [digitValues, digitChars, Nat.toDigits_of_lt_base h]
  simp only [List.map_cons, List.map_nil]
  rw [show '0'.toNat = 48 from rfl, Nat.toNat_digitChar_sub_48_of_lt_ten h]

theorem digitValues_of_ge {n : Nat} (h : 10 ≤ n) :
    digitValues n = digitValues (n / 10) ++ [n % 10] := by
  have hlt : n % 10 < 10 := Nat.mod_lt n (by decide)
  rw [digitValues, digitChars, Nat.toDigits_of_base_le (by decide) h, List.map_append]
  simp only [List.map_cons, List.map_nil]
  rw [show '0'.toNat = 48 from rfl, Nat.toNat_digitChar_sub_48_of_lt_ten hlt]
  rfl

theorem foldl_digitValues (n : Nat) : (digitValues n).foldl (fun n d => n * 10 + d) 0 = n := by
  rw [digitValues, digitChars, List.foldl_map]
  simpa only [Nat.ofDigitChars_eq_foldl, Nat.mul_comm 10] using
    Nat.ofDigitChars_ten_toDigits (n := n)

/-- Only zero is written with a leading zero. -/
theorem digitValues_cases (n : Nat) :
    digitValues n = [0] ∨ ∃ d ds, digitValues n = d :: ds ∧ d ≠ 0 := by
  induction n using Nat.strongRecOn with
  | ind n ih =>
    by_cases h : n < 10
    · rw [digitValues_of_lt h]
      by_cases hz : n = 0
      · exact .inl (by rw [hz])
      · exact .inr ⟨n, [], rfl, hz⟩
    · have hge := Nat.le_of_not_lt h
      rw [digitValues_of_ge hge]
      rcases ih (n / 10) (by omega) with hz | ⟨d, ds, he, hd⟩
      · have hn := foldl_digitValues (n / 10)
        rw [hz] at hn
        simp only [List.foldl_cons, List.foldl_nil] at hn
        omega
      · exact .inr ⟨d, ds ++ [n % 10], by rw [he]; rfl, hd⟩

theorem isDigit_of_mem_digitChars {n : Nat} {c : Char} (h : c ∈ digitChars n) :
    Reader.isDigit c = true := by
  have hd := Nat.isDigit_of_mem_toDigits (by decide) (by decide) h
  simpa [Char.isDigit, Reader.isDigit, Char.le_def] using hd

theorem digitChars_cons (n : Nat) : ∃ c cs, digitChars n = c :: cs ∧ Reader.isDigit c = true := by
  cases he : digitChars n with
  | nil => exact absurd he Nat.toDigits_ne_nil
  | cons c cs => exact ⟨c, cs, rfl, isDigit_of_mem_digitChars (he ▸ List.mem_cons_self)⟩

/-- The literal that is written for an integer. -/
def Literal.ofInt (n : Int) : Literal := ⟨n < 0, digitValues n.natAbs, [], none⟩

theorem Literal.toInt?_ofInt {n : Int} (hl : -0x8000000000000000 ≤ n)
    (hh : n < 0x10000000000000000) :
    (Literal.ofInt n).toInt? = some n := by
  have hplain : ¬ (([] : List Nat) ≠ [] ∨ (none : Option (Bool × List Nat)) ≠ none) := by simp
  simp only [toInt?, ofInt, foldl_digitValues, if_neg hplain, decide_eq_true_eq]
  split
  · rw [if_pos (by omega)]
    simp only [Option.some.injEq]
    omega
  · rw [if_pos (by omega)]
    simp only [Option.some.injEq]
    omega

namespace Reader

variable {rest : List Char} {ds : List Char} {cut : Fault}

theorem takeWhile_isDigit (hr : EndsDigits rest) :
    rest.takeWhile isDigit = [] ∧ rest.dropWhile isDigit = rest := by
  cases rest with
  | nil => exact ⟨rfl, rfl⟩
  | cons c cs =>
    have hr' : isDigit c = false := hr
    have hc : ¬ isDigit c = true := by simp [hr']
    exact ⟨List.takeWhile_cons_of_neg hc, List.dropWhile_cons_of_neg hc⟩

theorem digits_append (hd : ∀ c ∈ ds, isDigit c = true) (hr : EndsDigits rest) :
    digits (ds ++ rest) = .ok (ds.map fun c => c.toNat - '0'.toNat, rest) := by
  obtain ⟨htake, hdrop⟩ := takeWhile_isDigit hr
  change Except.ok (((ds ++ rest).takeWhile isDigit).map _, (ds ++ rest).dropWhile isDigit) = _
  rw [List.takeWhile_append_of_pos hd, List.dropWhile_append_of_pos hd, htake, hdrop,
    List.append_nil]

theorem someDigits_digitChars (n : Nat) (hr : EndsNumber rest) :
    someDigits cut (digitChars n ++ rest) = .ok (digitValues n, rest) := by
  have hd := digits_append (fun c => isDigit_of_mem_digitChars (n := n)) hr.fraction.digits
  obtain ⟨c, cs, he, hc⟩ := digitChars_cons n
  rw [someDigits, get_run]
  rw [he] at hd ⊢
  simp only [List.cons_append, hc, ↓reduceIte]
  rw [digitValues, he]
  exact hd

theorem wholeDigits_digitChars (n : Nat) (hr : EndsNumber rest) :
    wholeDigits cut (digitChars n ++ rest) = .ok (digitValues n, rest) := by
  rw [wholeDigits, bind_run (someDigits_digitChars n hr)]
  rcases digitValues_cases n with h | ⟨d, ds, h, hd⟩
  · rw [h]; rfl
  · rw [h]
    cases d with
    | zero => exact absurd rfl hd
    | succ d => rfl

theorem fractionDigits_none (hr : EndsFraction rest) :
    fractionDigits cut rest = .ok ([], rest) := by
  cases rest with
  | nil => rfl
  | cons c cs =>
    rw [fractionDigits, get_run]
    generalize he : c :: cs = text
    split
    · cases he
      exact absurd rfl hr.2
    · rfl

theorem exponentDigits_none (hr : EndsNumber rest) :
    exponentDigits cut rest = .ok (none, rest) := by
  cases rest with
  | nil => rfl
  | cons c cs =>
    rw [exponentDigits, get_run]
    have hc : ¬ (c = 'e' ∨ c = 'E') := by
      rintro (h | h)
      · exact hr.2.2.1 h
      · exact hr.2.2.2 h
    simp only [if_neg hc]
    rfl

/-- What a literal is behind its sign. -/
theorem magnitude_digitChars (negative : Bool) (n : Nat) (hr : EndsNumber rest) :
    (do let ds ← wholeDigits cut
        let fraction ← fractionDigits cut
        return ⟨negative, ds, fraction, ← exponentDigits cut⟩ : Reader Literal)
      (digitChars n ++ rest) = .ok (⟨negative, digitValues n, [], none⟩, rest) := by
  rw [bind_run (wholeDigits_digitChars n hr), bind_run (fractionDigits_none hr.fraction),
    bind_run (exponentDigits_none hr)]
  rfl

theorem literal_intChars (n : Int) (hr : EndsNumber rest) :
    literal cut (intChars n ++ rest) = .ok (.ofInt n, rest) := by
  rw [literal, get_run]
  by_cases hn : n < 0
  · simp only [intChars, if_pos hn, List.cons_append, List.head?_cons, beq_self_eq_true, ↓reduceIte]
    rw [modify_run, Literal.ofInt, decide_eq_true hn]
    exact magnitude_digitChars true n.natAbs hr
  · obtain ⟨c, cs, he, hc⟩ := digitChars_cons n.natAbs
    have hminus : (some c == some '-') = false := by
      cases hd : (some c == some '-') with
      | false => rfl
      | true => cases eq_of_beq hd; cases hc
    simp only [intChars, if_neg hn, he, List.cons_append, List.head?_cons, hminus,
      Bool.false_eq_true, ↓reduceIte]
    rw [← List.cons_append, ← he, Literal.ofInt, decide_eq_false hn]
    exact magnitude_digitChars false n.natAbs hr

theorem number_intChars {n : Int} (hl : -0x8000000000000000 ≤ n) (hh : n < 0x10000000000000000)
    (hr : EndsNumber rest) :
    number (intChars n ++ rest) = .ok (.int n, rest) := by
  rw [number, bind_run (literal_intChars n hr)]
  simp only [Literal.toNumber?, Literal.toInt?_ofInt hl hh]
  rfl

theorem intChars_cons (n : Int) :
    ∃ c cs, intChars n = c :: cs ∧ (c = '-' ∨ isDigit c = true) := by
  unfold intChars
  split
  · exact ⟨'-', _, rfl, .inl rfl⟩
  · obtain ⟨c, cs, he, hc⟩ := digitChars_cons n.natAbs
    exact ⟨c, cs, he, .inr hc⟩

end Reader

end NotebookKernel.Json
