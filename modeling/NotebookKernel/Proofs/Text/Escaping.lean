import NotebookKernel.Proofs.Text.Utf8
import NotebookKernel.Reported

namespace NotebookKernel

namespace Utf8

theorem toNat_charOfNat {n : Nat} (h : n.isValidChar) : (Char.ofNat n).toNat = n := by
  rw [Char.ofNat, dif_pos h]
  rfl

section Encoding

variable {n : Nat}

theorem encodeChar_one (h : n < 0x80) : String.utf8EncodeChar (Char.ofNat n) = [.ofNat n] := by
  have hn : (Char.ofNat n).val.toNat = n := toNat_charOfNat (.inl (by omega))
  unfold String.utf8EncodeChar
  simp only [hn]
  rw [if_pos (by omega)]

theorem encodeChar_two (low : 0x80 ≤ n) (high : n < 0x800) :
    String.utf8EncodeChar (Char.ofNat n) =
      [.ofNat (n / 64 % 32 + 0xC0), .ofNat (n % 64 + 0x80)] := by
  have hn : (Char.ofNat n).val.toNat = n := toNat_charOfNat (.inl (by omega))
  unfold String.utf8EncodeChar
  simp only [hn]
  rw [if_neg (by omega), if_pos (by omega)]

theorem encodeChar_three (low : 0x800 ≤ n) (high : n < 0x10000) (h : n.isValidChar) :
    String.utf8EncodeChar (Char.ofNat n) =
      [.ofNat (n / 4096 % 16 + 0xE0), .ofNat (n / 64 % 64 + 0x80), .ofNat (n % 64 + 0x80)] := by
  have hn : (Char.ofNat n).val.toNat = n := toNat_charOfNat h
  unfold String.utf8EncodeChar
  simp only [hn]
  rw [if_neg (by omega), if_neg (by omega), if_pos (by omega)]

theorem encodeChar_four (low : 0x10000 ≤ n) (h : n.isValidChar) :
    String.utf8EncodeChar (Char.ofNat n) = [.ofNat (n / 262144 % 8 + 0xF0),
      .ofNat (n / 4096 % 64 + 0x80), .ofNat (n / 64 % 64 + 0x80), .ofNat (n % 64 + 0x80)] := by
  have hn : (Char.ofNat n).val.toNat = n := toNat_charOfNat h
  unfold String.utf8EncodeChar
  simp only [hn]
  rw [if_neg (by omega), if_neg (by omega), if_neg (by omega)]

end Encoding

theorem ofNat_eq {n : Nat} {b : UInt8} (h : n = b.toNat) : UInt8.ofNat n = b := by
  rw [h, UInt8.ofNat_toNat]

/-- What a first byte says, by the number of bytes that it leads. -/
theorem lead?_cases {a : UInt8} {lead : Lead} (h : lead? a = some lead) :
    0x80 ≤ lead.low.toNat ∧ lead.high.toNat ≤ 0xBF ∧
    ((lead.further = 0 ∧ 0xC2 ≤ a.toNat ∧ a.toNat < 0xE0 ∧ lead.share = a.toNat - 0xC0) ∨
    (lead.further = 1 ∧ 0xE0 ≤ a.toNat ∧ a.toNat < 0xF0 ∧ lead.share = a.toNat - 0xE0 ∧
      (a.toNat = 0xE0 → 0xA0 ≤ lead.low.toNat) ∧ (a.toNat = 0xED → lead.high.toNat ≤ 0x9F)) ∨
    (lead.further = 2 ∧ 0xF0 ≤ a.toNat ∧ a.toNat < 0xF5 ∧ lead.share = a.toNat - 0xF0 ∧
      (a.toNat = 0xF0 → 0x90 ≤ lead.low.toNat) ∧ (a.toNat = 0xF4 → lead.high.toNat ≤ 0x8F))) := by
  have hall : ∀ k : Fin 256, ∀ lead ∈ lead? (.ofNat k.val),
      0x80 ≤ lead.low.toNat ∧ lead.high.toNat ≤ 0xBF ∧
      ((lead.further = 0 ∧ 0xC2 ≤ k.val ∧ k.val < 0xE0 ∧ lead.share = k.val - 0xC0) ∨
      (lead.further = 1 ∧ 0xE0 ≤ k.val ∧ k.val < 0xF0 ∧ lead.share = k.val - 0xE0 ∧
        (k.val = 0xE0 → 0xA0 ≤ lead.low.toNat) ∧ (k.val = 0xED → lead.high.toNat ≤ 0x9F)) ∨
      (lead.further = 2 ∧ 0xF0 ≤ k.val ∧ k.val < 0xF5 ∧ lead.share = k.val - 0xF0 ∧
        (k.val = 0xF0 → 0x90 ≤ lead.low.toNat) ∧ (k.val = 0xF4 → lead.high.toNat ≤ 0x8F))) := by
    decide +kernel
  have ha := hall ⟨a.toNat, a.toNat_lt⟩ lead
  rw [UInt8.ofNat_toNat] at ha
  exact ha h

theorem isTail_iff {b : UInt8} : isTail b = true ↔ 0x80 ≤ b.toNat ∧ b.toNat ≤ 0xBF := by
  simp only [isTail, Bool.and_eq_true, decide_eq_true_eq, UInt8.le_iff_toNat_le, UInt8.reduceToNat]

/-- A well-formed sequence of several bytes is the encoding of the character that it is read as. -/
theorem encodeChar_join {a b : UInt8} {tail : List UInt8} {lead : Lead} (hlead : lead? a = some lead)
    (hlow : lead.low ≤ b) (hhigh : b ≤ lead.high) (hlen : tail.length = lead.further)
    (htail : ∀ t ∈ tail, isTail t = true) :
    String.utf8EncodeChar (Char.ofNat (join lead.share (b :: tail))) = a :: b :: tail := by
  rw [UInt8.le_iff_toNat_le] at hlow hhigh
  simp only [isTail_iff] at htail
  obtain ⟨hleast, hmost, hcases⟩ := lead?_cases hlead
  obtain ⟨hfurther, hge, hlt, hshare⟩ | ⟨hfurther, hge, hlt, hshare, hoverlong, hsurrogate⟩ |
    ⟨hfurther, hge, hlt, hshare, hoverlong, hbeyond⟩ := hcases <;> rw [hfurther] at hlen
  · obtain rfl := List.length_eq_zero_iff.1 hlen
    simp only [join_cons, join_nil, hshare]
    rw [encodeChar_two (by omega) (by omega)]
    simp only [List.cons.injEq, and_true]
    exact ⟨ofNat_eq (by omega), ofNat_eq (by omega)⟩
  · obtain ⟨t, rfl⟩ := List.length_eq_one_iff.1 hlen
    have ht := List.forall_mem_singleton.1 htail
    -- What the second byte may be leaves out the surrogates, and overlong forms below.
    have hvalid : (join lead.share [b, t]).isValidChar := by
      simp only [join_cons, join_nil, hshare, Nat.isValidChar]
      omega
    simp only [join_cons, join_nil, hshare] at hvalid ⊢
    rw [encodeChar_three (by omega) (by omega) hvalid]
    simp only [List.cons.injEq, and_true]
    exact ⟨ofNat_eq (by omega), ofNat_eq (by omega), ofNat_eq (by omega)⟩
  · match tail, hlen with
    | [t, u], _ =>
      obtain ⟨ht, hrest⟩ := List.forall_mem_cons.1 htail
      have hu := List.forall_mem_singleton.1 hrest
      have hvalid : (join lead.share [b, t, u]).isValidChar := by
        simp only [join_cons, join_nil, hshare, Nat.isValidChar]
        omega
      simp only [join_cons, join_nil, hshare] at hvalid ⊢
      rw [encodeChar_four (by omega) hvalid]
      simp only [List.cons.injEq, and_true]
      exact ⟨ofNat_eq (by omega), ofNat_eq (by omega), ofNat_eq (by omega), ofNat_eq (by omega)⟩

/-- Only the encoding of a character is read as that character. -/
theorem eq_of_next? {bytes rest : List UInt8} {c : Char} (h : next? bytes = some (c, rest)) :
    bytes = String.utf8EncodeChar c ++ rest := by
  cases bytes with
  | nil => cases h
  | cons a bytes =>
    by_cases ha : a < 0x80
    · simp only [next?, if_pos ha, Option.some.injEq, Prod.mk.injEq] at h
      obtain ⟨rfl, rfl⟩ := h
      have hlt : a.toNat < 0x80 := UInt8.lt_iff_toNat_lt.1 ha
      rw [encodeChar_one hlt, UInt8.ofNat_toNat]
      rfl
    · simp only [next?, if_neg ha] at h
      split at h
      next lead b bytes hlead =>
        split at h
        next hwell =>
          obtain ⟨hlow, hhigh, hlen, htail⟩ := hwell
          obtain ⟨rfl, rfl⟩ := Prod.mk.inj (Option.some.inj h)
          rw [encodeChar_join hlead hlow hhigh hlen (List.all_eq_true.1 htail), List.cons_append,
            List.cons_append, List.take_append_drop]
        next => cases h
      next => cases h

/-- Outside every well-formed sequence there are no bytes below 0x80. -/
theorem le_of_next?_none {b : UInt8} {bytes : List UInt8} (h : next? (b :: bytes) = none) :
    0x80 ≤ b.toNat := by
  refine Nat.le_of_not_lt fun hlt => ?_
  have hb : b < 0x80 := UInt8.lt_iff_toNat_lt.2 hlt
  simp only [next?, if_pos hb] at h
  cases h

theorem encodeEscaped_toNat (c : Char) : encodeEscaped c.toNat = String.utf8EncodeChar c := by
  have hvalid : c.toNat < 0xD800 ∨ 0xDFFF < c.toNat ∧ c.toNat < 0x110000 := c.valid
  rw [encodeEscaped, if_neg (by omega), Char.ofNat_toNat]

theorem escapeByte_bounds {b : UInt8} (h : 0x80 ≤ b.toNat) :
    0xDC80 ≤ escapeByte b ∧ escapeByte b ≤ 0xDCFF := by
  have hlt : b.toNat < 256 := b.toNat_lt
  unfold escapeByte
  omega

theorem encodeEscaped_escapeByte {b : UInt8} (h : 0x80 ≤ b.toNat) :
    encodeEscaped (escapeByte b) = [b] := by
  rw [encodeEscaped, if_pos (escapeByte_bounds h), escapeByte, Nat.add_sub_cancel_left,
    UInt8.ofNat_toNat]

/-- Nothing is lost in decoding. -/
theorem encode_decodeEscaping (bytes : List UInt8) :
    (decodeEscaping bytes).flatMap encodeEscaped = bytes := by
  fun_induction decodeEscaping bytes with
  | case1 => rfl
  | case2 b bytes c rest h ih =>
    rw [List.flatMap_cons, ih, encodeEscaped_toNat, ← eq_of_next? h]
  | case3 b bytes h ih =>
    rw [List.flatMap_cons, ih, encodeEscaped_escapeByte (le_of_next?_none h), List.singleton_append]

theorem mem_decodeEscaping {bytes : List UInt8} {n : Nat} (h : n ∈ decodeEscaping bytes) :
    n.isValidChar ∨ 0xDC80 ≤ n ∧ n ≤ 0xDCFF := by
  fun_induction decodeEscaping bytes with
  | case1 => cases h
  | case2 b bytes c rest hnext ih =>
    obtain rfl | hrest := List.mem_cons.1 h
    · exact .inl c.valid
    · exact ih hrest
  | case3 b bytes hnext ih =>
    obtain rfl | hrest := List.mem_cons.1 h
    · exact .inr (escapeByte_bounds (le_of_next?_none hnext))
    · exact ih hrest

theorem decodeEscaping_of_next? {bytes rest : List UInt8} {c : Char}
    (h : next? bytes = some (c, rest)) : decodeEscaping bytes = c.toNat :: decodeEscaping rest := by
  cases bytes with
  | nil => cases h
  | cons b bytes =>
    rw [decodeEscaping]
    split
    next c' rest' h' =>
      obtain ⟨rfl, rfl⟩ := Prod.mk.inj (Option.some.inj (h.symm.trans h'))
      rfl
    next h' =>
      rw [h] at h'
      cases h'

/-- An encoded text is decoded to its own code points. -/
theorem decodeEscaping_encode (cs : List Char) : decodeEscaping (encode cs) = cs.map Char.toNat := by
  induction cs with
  | nil => rw [encode, List.flatMap_nil, decodeEscaping, List.map_nil]
  | cons c cs ih =>
    have hnext : next? (encode (c :: cs)) = some (c, encode cs) := next?_encode c (encode cs)
    rw [decodeEscaping_of_next? hnext, ih, List.map_cons]

end Utf8

namespace Reported

/-- Any arguments are reported one by one and in order, each by code points from which its bytes are got back.
These are the characters of the argument where it is a text, and in any case are characters or stand for
single bytes. So no other arguments are reported alike, and nothing else of the report changes. -/
theorem arguments_survive (r : Reported) (arguments : List (List UInt8)) :
    let reported := r.setArguments arguments
    reported.arguments.length = arguments.length ∧
    reported.arguments.map (·.flatMap Utf8.encodeEscaped) = arguments ∧
    (∀ (i : Nat) (cs : List Char), arguments[i]? = some (Utf8.encode cs) →
      reported.arguments[i]? = some (cs.map Char.toNat)) ∧
    (∀ points ∈ reported.arguments, ∀ n ∈ points, n.isValidChar ∨ 0xDC80 ≤ n ∧ n ≤ 0xDCFF) ∧
    (∀ other, (r.setArguments other).arguments = reported.arguments → other = arguments) ∧
    reported = { r with arguments := reported.arguments } := by
  intro reported
  have hreencoded (arguments : List (List UInt8)) :
      (r.setArguments arguments).arguments.map (·.flatMap Utf8.encodeEscaped) = arguments := by
    rw [setArguments, List.map_map]
    exact (List.map_congr_left fun bytes _ => Utf8.encode_decodeEscaping bytes).trans (List.map_id' _)
  refine ⟨List.length_map _, hreencoded arguments, ?_, ?_, ?_, rfl⟩
  · intro i cs hargument
    change (arguments.map Utf8.decodeEscaping)[i]? = _
    rw [List.getElem?_map, hargument, Option.map_some, Utf8.decodeEscaping_encode]
  · intro points hpoints n hn
    obtain ⟨bytes, -, rfl⟩ := List.mem_map.1 hpoints
    exact Utf8.mem_decodeEscaping hn
  · intro other hsame
    rw [← hreencoded other, hsame, hreencoded]

/-- A character, then bytes that are none: an overlong form, a surrogate, a number beyond the last code point
and a sequence that is cut off. -/
theorem arguments_survive_undecodable :
    let arguments := [Utf8.encode ['é'],
      [0xC0, 0xAF, 0xED, 0xA0, 0x80, 0xF4, 0x90, 0x80, 0x80, 0x41, 0xE2, 0x82]]
    let reported := setArguments ⟨[], [], ["."]⟩ arguments
    reported = ⟨[], [[0xE9], [0xDCC0, 0xDCAF, 0xDCED, 0xDCA0, 0xDC80, 0xDCF4, 0xDC90, 0xDC80, 0xDC80, 0x41,
      0xDCE2, 0xDC82]], ["."]⟩ ∧
    reported.arguments[0]? = some ['é'.toNat] ∧
    ∀ n ∈ reported.arguments.flatten, n.isValidChar ∨ 0xDC80 ≤ n ∧ n ≤ 0xDCFF := by
  intro arguments reported
  obtain ⟨-, -, htext, hmem, -⟩ := arguments_survive ⟨[], [], ["."]⟩ arguments
  refine ⟨?_, htext 0 ['é'] rfl, ?_⟩
  · decide +kernel
  intro n hn
  obtain ⟨points, hpoints, hn⟩ := List.mem_flatten.1 hn
  exact hmem points hpoints n hn

end Reported

end NotebookKernel
