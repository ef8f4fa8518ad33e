import Mathlib.Algebra.Group.Nat.Defs
import Mathlib.Data.List.Induction
import NotebookKernel.Json.Number
import NotebookKernel.Proofs.Text.Utf8
import NotebookKernel.Signals.Handling

namespace NotebookKernel

open Json

/-- The value of a text of digits, zero being written as 48. -/
def numeralValue (text : List UInt8) : Nat := text.foldl (fun n b => 10 * n + (b.toNat - 48)) 0

theorem Buffer.append?_append {capacity : Nat} (b : Buffer capacity) (bytes more : List UInt8) :
    b.append? (bytes ++ more) = (b.append? bytes).bind (·.append? more) := List.foldlM_append

/-- A text of digits that has a given value; there may be zeros in front. -/
structure Numeral (text : List UInt8) (n : Nat) : Prop where
  nonempty : text ≠ []
  digits : ∀ b ∈ text, 48 ≤ b.toNat ∧ b.toNat ≤ 57
  value : numeralValue text = n

/-- The digits of a number as it is usually written. -/
def digitBytes (n : Nat) : List UInt8 := Utf8.encode (digitChars n)

variable {n : Nat}

theorem encode_digitChar {d : Nat} (h : d < 10) : Utf8.encode [d.digitChar] = [.ofNat (48 + d)] := by
  revert d
  decide

theorem digitBytes_of_lt (h : n < 10) : digitBytes n = [.ofNat (48 + n)] := by
  rw [digitBytes, digitChars, Nat.toDigits_of_lt_base h]
  exact encode_digitChar h

theorem digitBytes_of_ge (h : 10 ≤ n) :
    digitBytes n = digitBytes (n / 10) ++ [.ofNat (48 + n % 10)] := by
  rw [digitBytes, digitChars, Nat.toDigits_of_base_le (by decide) h, Utf8.encode_append]
  exact congrArg _ (encode_digitChar (Nat.mod_lt n (by decide)))

theorem length_digitBytes_le {k : Nat} (h : n < 10 ^ (k + 1)) : (digitBytes n).length ≤ k + 1 := by
  induction k generalizing n with
  | zero =>
    rw [digitBytes_of_lt h]
    exact Nat.le_refl 1
  | succ k ih =>
    by_cases hlt : n < 10
    · rw [digitBytes_of_lt hlt]
      exact Nat.le_add_left 1 _
    · rw [digitBytes_of_ge (Nat.le_of_not_lt hlt), List.length_append]
      have hrest := ih (n := n / 10) (by omega)
      exact Nat.succ_le_succ hrest

theorem numeralValue_concat (text : List UInt8) (b : UInt8) :
    numeralValue (text ++ [b]) = 10 * numeralValue text + (b.toNat - 48) := List.foldl_append

theorem toNat_digit {d : Nat} (h : d < 10) : (UInt8.ofNat (48 + d)).toNat = 48 + d :=
  Utf8.toNat_ofNat (by omega)

theorem numeral_digit {d : Nat} (h : d < 10) : Numeral [.ofNat (48 + d)] d := by
  have hdigit := toNat_digit h
  refine ⟨List.cons_ne_nil _ _, List.forall_mem_singleton.2 ?_, ?_⟩
  · omega
  · change 10 * 0 + ((UInt8.ofNat (48 + d)).toNat - 48) = d
    omega

theorem Numeral.concat {text : List UInt8} (h : Numeral text n) {d : Nat} (hd : d < 10) :
    Numeral (text ++ [.ofNat (48 + d)]) (10 * n + d) := by
  have hdigit := toNat_digit hd
  refine ⟨List.append_ne_nil_of_right_ne_nil _ (List.cons_ne_nil _ _), ?_, ?_⟩
  · exact List.forall_mem_append.2 ⟨h.digits, (numeral_digit hd).digits⟩
  · rw [numeralValue_concat, h.value, hdigit, Nat.add_sub_cancel_left]

theorem numeral_digitBytes (n : Nat) : Numeral (digitBytes n) n := by
  induction n using Nat.strongRecOn with
  | ind n ih =>
    by_cases h : n < 10
    · rw [digitBytes_of_lt h]
      exact numeral_digit h
    · have hge := Nat.le_of_not_lt h
      have hconcat := (ih (n / 10) (by omega)).concat (Nat.mod_lt n (by decide))
      rw [digitBytes_of_ge hge]
      rwa [Nat.div_add_mod] at hconcat

/-- A number is written in one way only, but for zeros in front. -/
theorem Numeral.eq_zeros_append {text : List UInt8} (h : Numeral text n) :
    ∃ zeros, text = List.replicate zeros 48 ++ digitBytes n := by
  induction text using List.reverseRecOn generalizing n with
  | nil => exact absurd rfl h.nonempty
  | append_singleton text b ih =>
    obtain ⟨-, hdigits, hvalue⟩ := h
    obtain ⟨htext, hlast⟩ := List.forall_mem_append.1 hdigits
    have hb := hlast b (List.mem_singleton_self b)
    rw [numeralValue_concat] at hvalue
    -- The last digit is that of `n`, and the digits before it write `n / 10`, if there are any.
    have hlow : n % 10 = b.toNat - 48 := by omega
    have hhigh : n / 10 = numeralValue text := by omega
    have hbyte : b = .ofNat (48 + n % 10) := by
      apply UInt8.toNat_inj.1
      rw [toNat_digit (Nat.mod_lt n (by decide))]
      omega
    by_cases hempty : text = []
    · have hlt : n < 10 := by
        rw [hempty] at hhigh
        change n / 10 = 0 at hhigh
        omega
      refine ⟨0, ?_⟩
      rw [hempty, digitBytes_of_lt hlt, hbyte, Nat.mod_eq_of_lt hlt]
      rfl
    · obtain ⟨zeros, hzeros⟩ := ih ⟨hempty, htext, hhigh.symm⟩
      by_cases hlt : n < 10
      · rw [Nat.div_eq_of_lt hlt, digitBytes_of_lt (by decide)] at hzeros
        refine ⟨zeros + 1, ?_⟩
        rw [hzeros, digitBytes_of_lt hlt, hbyte, Nat.mod_eq_of_lt hlt, List.replicate_succ']
        rfl
      · refine ⟨zeros, ?_⟩
        rw [digitBytes_of_ge (Nat.le_of_not_lt hlt), ← List.append_assoc, ← hzeros, hbyte]

theorem Numeral.length_lt {text : List UInt8} (h : Numeral text n) (hne : text ≠ digitBytes n) :
    (digitBytes n).length < text.length := by
  obtain ⟨zeros, rfl⟩ := h.eq_zeros_append
  cases zeros with
  | zero => exact absurd rfl hne
  | succ zeros =>
    rw [List.length_append, List.length_replicate]
    omega

namespace Diagnostic

theorem pushDigits_bytes {b : Buffer digitLimit} (h : b.bytes.length + (digitBytes n).length ≤ digitLimit) :
    ∃ c, pushDigits? n b = some c ∧ c.bytes = b.bytes ++ (digitBytes n).reverse := by
  induction n using Nat.strongRecOn generalizing b with
  | ind n ih =>
    have hroom : b.bytes.length < digitLimit := by
      have hpos := List.length_pos_iff.2 (numeral_digitBytes n).nonempty
      omega
    obtain ⟨c, hc, hbytes⟩ := Buffer.bytes_push (.ofNat (48 + n % 10)) hroom
    rw [pushDigits?, hc]
    change ∃ d, (if n / 10 = 0 then some c else pushDigits? (n / 10) c) = some d ∧ _
    by_cases hlt : n < 10
    · rw [if_pos (Nat.div_eq_of_lt hlt), digitBytes_of_lt hlt]
      refine ⟨c, rfl, ?_⟩
      rw [hbytes, Nat.mod_eq_of_lt hlt]
      rfl
    · have hge := Nat.le_of_not_lt hlt
      have hmore : ¬ n / 10 = 0 := by omega
      rw [digitBytes_of_ge hge, List.length_append, List.length_singleton] at h
      have hrest : c.bytes.length + (digitBytes (n / 10)).length ≤ digitLimit := by
        rw [hbytes, List.length_append, List.length_singleton]
        omega
      obtain ⟨d, hd, hall⟩ := ih (n / 10) (by omega) hrest
      rw [if_neg hmore]
      refine ⟨d, hd, ?_⟩
      rw [hall, hbytes, digitBytes_of_ge hge, List.reverse_append, List.append_assoc]
      rfl

/-- The absolute value of the least number is no 32-bit number with a sign, but has ten digits all the same. -/
theorem length_digitBytes_signal (signal : Int32) :
    (digitBytes signal.toInt.natAbs).length ≤ digitLimit := by
  have hlow := Int32.le_toInt signal
  have hhigh := Int32.toInt_lt signal
  apply length_digitBytes_le
  omega

theorem pushDigits_signal (signal : Int32) : ∃ b, pushDigits? signal.toInt.natAbs .empty = some b ∧
    b.bytes.reverse = digitBytes signal.toInt.natAbs := by
  have hroom := length_digitBytes_signal signal
  rw [← Nat.zero_add (digitBytes _).length] at hroom
  obtain ⟨b, hb, hbytes⟩ := pushDigits_bytes (b := .empty) hroom
  refine ⟨b, hb, ?_⟩
  rw [hbytes]
  exact List.reverse_reverse _

theorem line_bytes (signal : Int32) : ∃ b, line? signal = some b ∧
    b.bytes = introduction ++ digitBytes signal.toInt.natAbs ++ [58, 10] := by
  have hroom : (introduction ++ digitBytes signal.toInt.natAbs ++ [58, 10]).length ≤ lineLimit := by
    have hdigits : (digitBytes signal.toInt.natAbs).length ≤ 10 := length_digitBytes_signal signal
    have hintroduction : introduction.length = 14 := rfl
    rw [List.length_append, List.length_append, hintroduction]
    change 14 + (digitBytes signal.toInt.natAbs).length + 2 ≤ 32
    omega
  rw [← Nat.zero_add (List.length _)] at hroom
  obtain ⟨b, hb, hbytes⟩ := Buffer.bytes_append (b := .empty) _ hroom
  obtain ⟨digits, hdigits, hreversed⟩ := pushDigits_signal signal
  refine ⟨b, ?_, hbytes⟩
  rw [Buffer.append?_append, Buffer.append?_append, Option.bind_assoc] at hb
  rw [line?, hdigits, ← hb, ← hreversed]
  rfl

/-- Whatever the signal, its line fits into its buffer and its digits into theirs. The line is an introduction,
the absolute value of the number, a colon and a newline, and any other way to write that value takes more
digits. -/
theorem line_exact (signal : Int32) :
    let value := signal.toInt.natAbs
    let digits := digitBytes value
    (∃ b, pushDigits? value .empty = some b ∧ b.bytes.reverse = digits) ∧
    (∃ b, line? signal = some b ∧ b.bytes =
      Utf8.encode "Error: signal ".toList ++ digits ++ Utf8.encode ":\n".toList) ∧
    Numeral digits value ∧
    ∀ other, Numeral other value → other ≠ digits → digits.length < other.length := by
  intro value digits
  exact ⟨pushDigits_signal signal, line_bytes signal, numeral_digitBytes value, fun _ => Numeral.length_lt⟩

/-- The least number, and another way to write its absolute value. -/
theorem line_exact_least :
    let padded := Utf8.encode "02147483648".toList
    (∃ b, line? .minValue = some b ∧ b.bytes = Utf8.encode "Error: signal 2147483648:\n".toList) ∧
      Numeral padded 2147483648 ∧ (digitBytes 2147483648).length < padded.length := by
  intro padded
  have hpadded : Numeral padded 2147483648 :=
    ⟨by decide, by decide +kernel, by decide +kernel⟩
  obtain ⟨-, ⟨b, hb, hbytes⟩, -, hshortest⟩ := line_exact .minValue
  have hother : padded ≠ digitBytes 2147483648 := by decide +kernel
  refine ⟨⟨b, hb, ?_⟩, hpadded, hshortest padded hpadded hother⟩
  rw [hbytes]
  decide +kernel

end Diagnostic

theorem Ending.diagnostic_eq (s : Signal) : Ending.diagnostic s =
    ⟨.exited 1, Diagnostic.introduction ++ digitBytes s.number ++ [58, 10]⟩ := by
  obtain ⟨b, hb, hbytes⟩ := Diagnostic.line_bytes (.ofNat s.number)
  have hvalue : (Int32.ofNat s.number).toInt.natAbs = s.number := by cases s <;> rfl
  rw [hvalue] at hbytes
  rw [Ending.diagnostic, hb, ← hbytes]
  rfl

end NotebookKernel
