import NotebookKernel.Text.Utf8

namespace NotebookKernel

/-- Bytes that fit into a given space. A line is put together in such where a process may be in any state. -/
structure Buffer (capacity : Nat) where
  bytes : List UInt8
  length_le : bytes.length ≤ capacity

namespace Buffer

variable {capacity : Nat}

def empty : Buffer capacity := ⟨[], Nat.zero_le _⟩

/-- Fails when the buffer is full. -/
def push? (b : Buffer capacity) (byte : UInt8) : Option (Buffer capacity) :=
  if h : b.bytes.length < capacity then
    some ⟨b.bytes ++ [byte], by simp only [List.length_append, List.length_singleton]; omega⟩
  else none

def append? (b : Buffer capacity) (bytes : List UInt8) : Option (Buffer capacity) :=
  bytes.foldlM push? b

theorem bytes_push {b : Buffer capacity} (byte : UInt8) (h : b.bytes.length < capacity) :
    ∃ c, b.push? byte = some c ∧ c.bytes = b.bytes ++ [byte] := by
  rw [push?, dif_pos h]
  exact ⟨_, rfl, rfl⟩

/-- Nothing fails while there is room. -/
theorem bytes_append {b : Buffer capacity} (bytes : List UInt8)
    (h : b.bytes.length + bytes.length ≤ capacity) :
    ∃ c, b.append? bytes = some c ∧ c.bytes = b.bytes ++ bytes := by
  induction bytes generalizing b with
  | nil => exact ⟨b, rfl, (List.append_nil _).symm⟩
  | cons byte rest ih =>
    rw [List.length_cons] at h
    obtain ⟨c, hc, hbytes⟩ := bytes_push (b := b) byte (by omega)
    have hroom : c.bytes.length + rest.length ≤ capacity := by
      rw [hbytes, List.length_append, List.length_singleton]
      omega
    obtain ⟨d, hd, he⟩ := ih hroom
    refine ⟨d, ?_, ?_⟩
    · rw [append?, List.foldlM_cons, hc]
      exact hd
    · rw [he, hbytes, List.append_assoc]
      rfl

end Buffer

namespace Diagnostic

/-- The length that a 32-bit number can have at most. -/
abbrev digitLimit : Nat := 10

abbrev lineLimit : Nat := 32

/-- The digits of a number, the last one first. -/
def pushDigits? (n : Nat) (b : Buffer digitLimit) : Option (Buffer digitLimit) := do
  let b ← b.push? (.ofNat (48 + n % 10))
  if n / 10 = 0 then return b else pushDigits? (n / 10) b
termination_by n

def introduction : List UInt8 := Utf8.encode "Error: signal ".toList

/-- The signal is named by its number without a sign. -/
def line? (signal : Int32) : Option (Buffer lineLimit) := do
  let b ← Buffer.empty.append? introduction
  let digits ← pushDigits? signal.toInt.natAbs .empty
  let b ← b.append? digits.bytes.reverse
  b.append? [58, 10]

end Diagnostic

end NotebookKernel
