import NotebookKernel.Text.Utf8

namespace NotebookKernel.Utf8

theorem toNat_ofNat {n : Nat} (h : n < 256) : (UInt8.ofNat n).toNat = n := by
  rw [UInt8.toNat_ofNat']
  exact Nat.mod_eq_of_lt h

theorem lead?_two {n : Nat} (low : 2 ≤ n) (high : n < 32) :
    lead? (.ofNat (n + 0xC0)) = some ⟨n, 0x80, 0xBF, 0⟩ := by
  have hn : (UInt8.ofNat (n + 0xC0)).toNat = n + 0xC0 := toNat_ofNat (by omega)
  have h₁ : ¬ UInt8.ofNat (n + 0xC0) < 0xC2 := by
    simp only [UInt8.lt_iff_toNat_lt, hn, UInt8.reduceToNat]
    omega
  have h₂ : UInt8.ofNat (n + 0xC0) < 0xE0 := by
    simp only [UInt8.lt_iff_toNat_lt, hn, UInt8.reduceToNat]
    omega
  rw [lead?, if_neg h₁, if_pos h₂, hn, Nat.add_sub_cancel]

theorem lead?_three {n : Nat} (high : n < 16) :
    lead? (.ofNat (n + 0xE0)) =
      some ⟨n, if n = 0 then 0xA0 else 0x80, if n = 13 then 0x9F else 0xBF, 1⟩ := by
  have hall : ∀ n : Fin 16, lead? (.ofNat (n.val + 0xE0)) =
      some ⟨n.val, if n.val = 0 then 0xA0 else 0x80, if n.val = 13 then 0x9F else 0xBF, 1⟩ := by
    decide
  exact hall ⟨n, high⟩

theorem lead?_four {n : Nat} (high : n < 5) :
    lead? (.ofNat (n + 0xF0)) =
      some ⟨n, if n = 0 then 0x90 else 0x80, if n = 4 then 0x8F else 0xBF, 2⟩ := by
  have hall : ∀ n : Fin 5, lead? (.ofNat (n.val + 0xF0)) =
      some ⟨n.val, if n.val = 0 then 0x90 else 0x80, if n.val = 4 then 0x8F else 0xBF, 2⟩ := by
    decide
  exact hall ⟨n, high⟩

/-- The byte that carries six bits behind a lead. -/
def tailByte (n : Nat) : UInt8 := .ofNat (n % 64 + 0x80)

theorem toNat_tailByte (n : Nat) : (tailByte n).toNat = n % 64 + 0x80 := toNat_ofNat (by omega)

theorem isTail_tailByte (n : Nat) : isTail (tailByte n) = true := by
  simp only [isTail, Bool.and_eq_true, decide_eq_true_eq, UInt8.le_iff_toNat_le, toNat_tailByte,
    UInt8.reduceToNat]
  omega

theorem next?_of_lead {a : UInt8} {lead : Lead} (h : lead? a = some lead) {n : Nat}
    (low : lead.low.toNat ≤ n % 64 + 0x80) (high : n % 64 + 0x80 ≤ lead.high.toNat)
    {t : List UInt8} (hlen : t.length = lead.further) (htail : ∀ b ∈ t, isTail b = true) {c : Char}
    (hc : join lead.share (tailByte n :: t) = c.toNat) (rest : List UInt8) :
    next? (a :: tailByte n :: (t ++ rest)) = some (c, rest) := by
  -- A byte below 0x80 is a character of its own and leads nothing.
  have hbig : ¬ a < 0x80 := by
    intro ha
    have hlt : a < 0xC2 := UInt8.lt_trans ha (by decide)
    rw [lead?, if_pos hlt] at h
    exact nomatch h
  have htake : (t ++ rest).take lead.further = t := by rw [← hlen, List.take_left]
  have hdrop : (t ++ rest).drop lead.further = rest := by rw [← hlen, List.drop_left]
  have hlow : lead.low ≤ tailByte n := by rwa [UInt8.le_iff_toNat_le, toNat_tailByte]
  have hhigh : tailByte n ≤ lead.high := by rwa [UInt8.le_iff_toNat_le, toNat_tailByte]
  simp only [next?, if_neg hbig, h, htake, hdrop]
  rw [if_pos ⟨hlow, hhigh, hlen, List.all_eq_true.2 htail⟩, hc, Char.ofNat_toNat]

theorem join_cons (share : Nat) (b : UInt8) (tail : List UInt8) :
    join share (b :: tail) = join (share * 64 + (b.toNat - 0x80)) tail := by
  rw [join, List.foldl_cons, join]

theorem join_nil (share : Nat) : join share [] = share := rfl

theorem next?_encode (c : Char) (rest : List UInt8) :
    next? (String.utf8EncodeChar c ++ rest) = some (c, rest) := by
  have hvalid : c.toNat < 0xD800 ∨ 0xDFFF < c.toNat ∧ c.toNat < 0x110000 := c.valid
  have hval : c.val.toNat = c.toNat := rfl
  unfold String.utf8EncodeChar
  simp only [hval]
  split
  next h =>
    have hn : (UInt8.ofNat c.toNat).toNat = c.toNat := toNat_ofNat (by omega)
    have hlt : UInt8.ofNat c.toNat < 0x80 := by
      rw [UInt8.lt_iff_toNat_lt, hn]
      exact Nat.lt_succ_of_le h
    simp only [List.singleton_append, next?, if_pos hlt, hn, Char.ofNat_toNat]
  split
  next h₁ h₂ =>
    have hlead := lead?_two (n := c.toNat / 64 % 32) (by omega) (by omega)
    refine next?_of_lead hlead ?_ ?_ (t := []) rfl (List.forall_mem_nil _) ?_ rest
    · simp only [UInt8.reduceToNat]
      omega
    · simp only [UInt8.reduceToNat]
      omega
    · simp only [join_cons, join_nil, toNat_tailByte]
      omega
  split
  next h₁ h₂ h₃ =>
    have hlead := lead?_three (n := c.toNat / 4096 % 16) (by omega)
    refine next?_of_lead hlead (n := c.toNat / 64) ?_ ?_ (t := [tailByte c.toNat]) rfl ?_ ?_ rest
    · dsimp only
      split <;> simp only [UInt8.reduceToNat] <;> omega
    · dsimp only
      split <;> simp only [UInt8.reduceToNat] <;> omega
    · simp only [List.mem_singleton, forall_eq, isTail_tailByte]
    · simp only [join_cons, join_nil, toNat_tailByte]
      omega
  next h₁ h₂ h₃ =>
    have hlead := lead?_four (n := c.toNat / 262144 % 8) (by omega)
    refine next?_of_lead hlead (n := c.toNat / 4096) ?_ ?_
      (t := [tailByte (c.toNat / 64), tailByte c.toNat]) rfl ?_ ?_ rest
    · dsimp only
      split <;> simp only [UInt8.reduceToNat] <;> omega
    · dsimp only
      split <;> simp only [UInt8.reduceToNat] <;> omega
    · simp only [List.forall_mem_cons, isTail_tailByte, true_and]
      exact List.forall_mem_nil _
    · simp only [join_cons, join_nil, toNat_tailByte]
      omega

theorem decode?_go_encode (cs seen : List Char) :
    decode?.go seen (encode cs) = some (seen.reverse ++ cs) := by
  induction cs generalizing seen with
  | nil => rw [encode, List.flatMap_nil, decode?.go, List.append_nil]
  | cons c cs ih =>
    have hnext : next? (encode (c :: cs)) = some (c, encode cs) := next?_encode c (encode cs)
    cases hbytes : encode (c :: cs) with
    | nil =>
      rw [hbytes] at hnext
      cases hnext
    | cons b bytes =>
      rw [hbytes] at hnext
      rw [decode?.go]
      split
      next c' rest h =>
        rw [hnext] at h
        obtain ⟨rfl, rfl⟩ := Prod.mk.inj (Option.some.inj h)
        rw [ih, List.reverse_cons, List.append_assoc, List.singleton_append]
      next h =>
        rw [hnext] at h
        cases h

theorem decode?_encode (cs : List Char) : decode? (encode cs) = some cs :=
  decode?_go_encode cs []

theorem toNat_of_mem_encodeChar {c : Char} {b : UInt8} (h : b ∈ String.utf8EncodeChar c) :
    b.toNat = c.toNat ∨ 0x80 ≤ b.toNat := by
  have hval : c.val.toNat = c.toNat := rfl
  unfold String.utf8EncodeChar at h
  simp only [hval] at h
  split at h
  next hc =>
    rw [List.mem_singleton.1 h]
    exact .inl (toNat_ofNat (by omega))
  right
  split at h
  · simp only [List.mem_cons, List.not_mem_nil, or_false] at h
    rcases h with rfl | rfl <;> rw [toNat_ofNat (by omega)] <;> omega
  split at h
  · simp only [List.mem_cons, List.not_mem_nil, or_false] at h
    rcases h with rfl | rfl | rfl <;> rw [toNat_ofNat (by omega)] <;> omega
  · simp only [List.mem_cons, List.not_mem_nil, or_false] at h
    rcases h with rfl | rfl | rfl | rfl <;> rw [toNat_ofNat (by omega)] <;> omega

theorem encode_append (cs ds : List Char) : encode (cs ++ ds) = encode cs ++ encode ds :=
  List.flatMap_append

/-- Bytes below 0x80 come from characters below 0x80 only. -/
theorem encode_ge {n : Nat} (hn : n ≤ 0x80) {cs : List Char} (h : ∀ c ∈ cs, n ≤ c.toNat) :
    ∀ b ∈ encode cs, n ≤ b.toNat := by
  intro b hb
  obtain ⟨c, hc, hb⟩ := List.mem_flatMap.1 hb
  have hge : n ≤ c.toNat := h c hc
  rcases toNat_of_mem_encodeChar hb with heq | hbig <;> omega

end NotebookKernel.Utf8
