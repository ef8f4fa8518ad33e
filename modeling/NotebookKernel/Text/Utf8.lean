namespace NotebookKernel.Utf8

def encode (cs : List Char) : List UInt8 := cs.flatMap String.utf8EncodeChar

def isTail (b : UInt8) : Bool := 0x80 ≤ b && b ≤ 0xBF

/-- What the first byte of a sequence of several bytes says: its share of the code point, the range
of the second byte, and how many more bytes follow that one. The range rules out overlong forms,
surrogates and numbers beyond the last code point. -/
structure Lead where
  share : Nat
  low : UInt8
  high : UInt8
  further : Nat
  deriving DecidableEq, Repr

def lead? (a : UInt8) : Option Lead :=
  if a < 0xC2 then none
  else if a < 0xE0 then some ⟨a.toNat - 0xC0, 0x80, 0xBF, 0⟩
  else if a < 0xF0 then
    some ⟨a.toNat - 0xE0, if a = 0xE0 then 0xA0 else 0x80, if a = 0xED then 0x9F else 0xBF, 1⟩
  else if a < 0xF5 then
    some ⟨a.toNat - 0xF0, if a = 0xF0 then 0x90 else 0x80, if a = 0xF4 then 0x8F else 0xBF, 2⟩
  else none

def join (share : Nat) (tail : List UInt8) : Nat :=
  tail.foldl (fun n b => n * 64 + (b.toNat - 0x80)) share

/-- The character of the well-formed sequence at the front, and what follows it. -/
def next? : List UInt8 → Option (Char × List UInt8)
  | [] => none
  | a :: rest =>
    if a < 0x80 then some (Char.ofNat a.toNat, rest)
    else match lead? a, rest with
      | some lead, b :: rest =>
        let tail := rest.take lead.further
        if lead.low ≤ b ∧ b ≤ lead.high ∧ tail.length = lead.further ∧ tail.all isTail then
          some (Char.ofNat (join lead.share (b :: tail)), rest.drop lead.further)
        else none
      | _, _ => none

theorem length_next {bytes rest : List UInt8} {c : Char} (h : next? bytes = some (c, rest)) :
    rest.length < bytes.length := by
  cases bytes with
  | nil => simp [next?] at h
  | cons a bytes =>
    simp only [next?] at h
    split at h
    · simp_all
    · split at h
      · split at h
        · simp only [Option.some.injEq, Prod.mk.injEq] at h
          obtain ⟨_, rfl⟩ := h
          simp only [List.length_cons, List.length_drop]
          omega
        · simp at h
      · simp at h

/-- `none` when some byte is not part of a well-formed sequence. -/
def decode? (bytes : List UInt8) : Option (List Char) :=
  go [] bytes
where
  go (seen : List Char) (bytes : List UInt8) : Option (List Char) :=
    match bytes with
    | [] => some seen.reverse
    | b :: bytes =>
      match _h : next? (b :: bytes) with
      | some (c, rest) => go (c :: seen) rest
      | none => none
  termination_by bytes.length
  decreasing_by exact length_next ‹next? _ = some _›

/-- What stands for bytes that are no character. -/
def replacement : Char := '\uFFFD'

/-- How many of the bytes after the first one still belong to a sequence that no character comes of. -/
def spoiled (a : UInt8) (rest : List UInt8) : Nat :=
  match lead? a, rest with
  | some lead, b :: rest =>
    if lead.low ≤ b ∧ b ≤ lead.high then 1 + ((rest.take lead.further).takeWhile isTail).length else 0
  | _, _ => 0

/-- Characters for any bytes. What stands for a sequence that no character comes of does not tell which it
was. -/
def decodeReplacing (bytes : List UInt8) : List Char :=
  match bytes with
  | [] => []
  | b :: bytes =>
    match _h : next? (b :: bytes) with
    | some (c, rest) => c :: decodeReplacing rest
    | none => replacement :: decodeReplacing (bytes.drop (spoiled b bytes))
termination_by bytes.length
decreasing_by
  · exact length_next ‹next? _ = some _›
  · simp only [List.length_drop, List.length_cons]
    omega

/-- The code point that carries a byte outside every well-formed sequence. -/
def escapeByte (b : UInt8) : Nat := 0xDC00 + b.toNat

/-- Code points for any bytes. -/
def decodeEscaping (bytes : List UInt8) : List Nat :=
  match bytes with
  | [] => []
  | b :: bytes =>
    match _h : next? (b :: bytes) with
    | some (c, rest) => c.toNat :: decodeEscaping rest
    | none => escapeByte b :: decodeEscaping bytes
termination_by bytes.length
decreasing_by
  · exact length_next ‹next? _ = some _›
  · simp

/-- The bytes that a code point of `decodeEscaping` stands for. -/
def encodeEscaped (n : Nat) : List UInt8 :=
  if 0xDC80 ≤ n ∧ n ≤ 0xDCFF then [.ofNat (n - 0xDC00)] else String.utf8EncodeChar (Char.ofNat n)

end NotebookKernel.Utf8
