import NotebookKernel.Proofs.Wire.Readers

namespace NotebookKernel

open Json

namespace Hex

theorem digit_ascii {n : Nat} (hn : n < 16) : (digit n).toNat < 128 := by
  have hall : ∀ m : Fin 16, (digit m.val).toNat < 128 := by decide
  exact hall ⟨n, hn⟩

theorem digit?_eq_some {c : Char} {n : Nat} :
    digit? c = some n ↔ n < 16 ∧ c.toLower = digit n := by
  by_cases hc : c.toNat < 128
  · have hread : ∀ k : Fin 128, ∀ m ∈ digit? (Char.ofNat k.val),
        m < 16 ∧ (Char.ofNat k.val).toLower = digit m := by decide +kernel
    have hwritten : ∀ k : Fin 128, ∀ m : Fin 16, (Char.ofNat k.val).toLower = digit m.val →
        digit? (Char.ofNat k.val) = some m.val := by decide +kernel
    have hread := hread ⟨c.toNat, hc⟩ n
    have hwritten := hwritten ⟨c.toNat, hc⟩
    rw [Char.ofNat_toNat] at hread hwritten
    exact ⟨hread, fun ⟨hn, h⟩ => hwritten ⟨n, hn⟩ h⟩
  · have hbeyond {d : Char} (hd : d.toNat < 128) : ¬ c ≤ d := fun h => hc (Nat.lt_of_le_of_lt h hd)
    have hnone : digit? c = none := by
      rw [digit?, if_neg fun h => hbeyond (by decide) h.2, if_neg fun h => hbeyond (by decide) h.2,
        if_neg fun h => hbeyond (by decide) h.2]
    have hsame : c.toLower = c := dif_neg fun h => hbeyond (d := 'Z') (by decide) h.2
    rw [hnone, hsame]
    exact ⟨nofun, fun ⟨hn, h⟩ => absurd (h ▸ digit_ascii hn) hc⟩

theorem encodeByte_ofNat {x y : Nat} (hx : x < 16) (hy : y < 16) :
    encodeByte (.ofNat (x * 16 + y)) = [digit x, digit y] := by
  have hbyte : (UInt8.ofNat (x * 16 + y)).toNat = x * 16 + y := Utf8.toNat_ofNat (by omega)
  have hhigh : (x * 16 + y) / 16 = x := by omega
  have hlow : (x * 16 + y) % 16 = y := by omega
  rw [encodeByte, hbyte, hhigh, hlow]

/-- Bytes have one text, apart from the case of its letters. -/
theorem decode?_eq_some {cs : List Char} {bytes : List UInt8} :
    decode? cs = some bytes ↔ cs.map Char.toLower = encode bytes := by
  fun_induction decode? cs generalizing bytes with
  | case1 =>
    cases bytes with
    | nil => exact ⟨fun _ => rfl, fun _ => rfl⟩
    | cons b bytes => exact ⟨nofun, nofun⟩
  | case2 c =>
    refine ⟨nofun, fun h => ?_⟩
    have hlength := congrArg List.length h
    rw [length_encode, List.length_map, List.length_singleton] at hlength
    omega
  | case3 high low rest ih =>
    constructor
    · intro h
      obtain ⟨x, hx, h⟩ := Option.bind_eq_some_iff.1 h
      obtain ⟨y, hy, h⟩ := Option.bind_eq_some_iff.1 h
      obtain ⟨bytes', hbytes, h⟩ := Option.bind_eq_some_iff.1 h
      obtain rfl := Option.some.inj h
      obtain ⟨hxlt, hx⟩ := digit?_eq_some.1 hx
      obtain ⟨hylt, hy⟩ := digit?_eq_some.1 hy
      rw [encode, List.flatMap_cons, encodeByte_ofNat hxlt hylt, List.map_cons, List.map_cons, hx, hy,
        ih.1 hbytes]
      rfl
    · intro h
      cases bytes with
      | nil => cases h
      | cons b bytes =>
        obtain ⟨hhigh, h⟩ := List.cons.inj h
        obtain ⟨hlow, hrest⟩ := List.cons.inj h
        have hjoin : UInt8.ofNat (b.toNat / 16 * 16 + b.toNat % 16) = b := by
          rw [Nat.div_add_mod' b.toNat 16, UInt8.ofNat_toNat]
        rw [digit?_eq_some.2 ⟨Nat.div_lt_of_lt_mul b.toNat_lt, hhigh⟩,
          digit?_eq_some.2 ⟨Nat.mod_lt _ (by decide), hlow⟩, ih.2 hrest]
        exact congrArg (fun b => some (b :: bytes)) hjoin

def digits : List Char := "0123456789abcdef".toList

theorem encode_digits (bytes : List UInt8) : ∀ c ∈ encode bytes, c ∈ digits := by
  have hall : ∀ n : Fin 16, digit n.val ∈ digits := by decide
  intro c hc
  obtain ⟨b, _, hc⟩ := List.mem_flatMap.1 hc
  obtain rfl | hc := List.mem_cons.1 hc
  · exact hall ⟨b.toNat / 16, Nat.div_lt_of_lt_mul b.toNat_lt⟩
  · obtain rfl := List.mem_singleton.1 hc
    exact hall ⟨b.toNat % 16, Nat.mod_lt _ (by decide)⟩

end Hex

namespace Signer

variable {s : Signer} (hkey : s.key ≠ "") (p : Parts)

include hkey

theorem sign_eq : s.sign p =
    Hex.encode (Hmac.digest (Utf8.encode s.key.toList) (Utf8.encode p.chars)).toList := by
  have henabled : s.enabled = true := bne_iff_ne.2 hkey
  rw [sign, if_pos henabled, digest_eq]

theorem length_sign : (s.sign p).length = 64 := by
  rw [sign_eq hkey, Hex.length_encode, Vector.length_toList]

theorem verify_iff (signature : List Char) :
    s.verify p signature = true ↔ signature.map Char.toLower = s.sign p := by
  rw [verify_eq_true hkey, Hex.decode?_eq_some, sign_eq hkey]

theorem verify_nil : s.verify p [] = false := by
  rw [← Bool.not_eq_true, verify_iff hkey]
  intro h
  have hlength := length_sign hkey p
  rw [← h] at hlength
  exact nomatch hlength

end Signer

theorem Line.signature_of_unsigned {text : List Char} {es : List (String × List Char)} {l : Line}
    (hes : entries text = .ok es) (hunsigned : "signature" ∉ es.map (·.1))
    (hl : Line.parse text = .ok l) : l.signature = "" := by
  obtain ⟨_, hsigned⟩ := (Line.parse_iff hes).1 hl
  rw [valuesOf_eq_nil hunsigned] at hsigned
  cases hsigned with
  | without h => exact h

namespace Wire

theorem decode_unsigned {s : Signer} (hkey : s.key ≠ "") {text : List Char} {l : Line}
    (hl : Line.parse text = .ok l) (hunsigned : l.signature = "") :
    decode s text = .error .invalidSignature := by
  have hverify : s.verify l.parts l.signature.toList ≠ true := by
    rw [hunsigned]
    exact Bool.eq_false_iff.1 (Signer.verify_nil hkey l.parts)
  rw [decode, hl]
  exact if_neg hverify

end Wire

namespace Signer

/-- A signature is accepted when it is the code of the parts as one text, whatever the case of its letters.
Without a key there is nothing to sign with and nothing to check. -/
theorem verify_exact (s : Signer) :
    (s.key ≠ "" →
      (∀ p signature, s.verify p signature = true ↔ signature.map Char.toLower = s.sign p) ∧
      (∀ p, s.sign p =
          Hex.encode (Hmac.digest (Utf8.encode s.key.toList) (Utf8.encode p.chars)).toList ∧
        (s.sign p).length = 64 ∧ ∀ c ∈ s.sign p, c ∈ Hex.digits) ∧
      (∀ p p' : Parts, p.chars = p'.chars → s.sign p = s.sign p') ∧
      (∀ p, s.verify p [] = false) ∧
      ∀ text l, Line.parse text = .ok l →
        (l.signature = "" ∨ ∃ es, entries text = .ok es ∧ "signature" ∉ es.map (·.1)) →
        Wire.decode s text = .error .invalidSignature) ∧
    (s.key = "" → ∀ p, s.sign p = [] ∧ ∀ signature, s.verify p signature = true) := by
  refine ⟨fun hkey => ⟨?_, ?_, ?_, ?_, ?_⟩, fun hkey p => ?_⟩
  · exact fun p signature => verify_iff hkey p signature
  · intro p
    refine ⟨sign_eq hkey p, length_sign hkey p, ?_⟩
    rw [sign_eq hkey]
    exact Hex.encode_digits _
  · intro p p' h
    rw [sign_eq hkey, sign_eq hkey, h]
  · exact fun p => verify_nil hkey p
  · rintro text l hl (hunsigned | ⟨es, hes, hunsigned⟩)
    · exact Wire.decode_unsigned hkey hl hunsigned
    · exact Wire.decode_unsigned hkey hl (Line.signature_of_unsigned hes hunsigned hl)
  · obtain ⟨key⟩ := s
    obtain rfl : key = "" := hkey
    exact ⟨rfl, fun _ => rfl⟩

/-- A signature in capitals is accepted for the same text cut otherwise. -/
theorem verify_exact_capitals :
    let s : Signer := ⟨"key"⟩
    let p : Parts := ⟨"The quick ".toList, "brown fox jumps ".toList, [], "over the lazy dog".toList⟩
    let p' : Parts := ⟨[], "The quick brown fox".toList, " jumps over the lazy".toList, " dog".toList⟩
    let signature := "F7BC83F430538424B13298E6AA6FB143EF4D59A14946175997479DBC2D1A3CD8".toList
    s.key ≠ "" ∧ s.verify p signature = true ∧ s.verify p' signature = true ∧
      s.verify p' [] = false := by
  intro s p p' signature
  have hkey : s.key ≠ "" := by decide
  obtain ⟨hverify, _, hcut, hempty, _⟩ := (verify_exact s).1 hkey
  have hsign : signature.map Char.toLower = s.sign p := by decide +kernel
  have hsign' : signature.map Char.toLower = s.sign p' := hsign.trans (hcut p p' (by decide))
  exact ⟨hkey, (hverify p signature).2 hsign, (hverify p' signature).2 hsign', hempty p'⟩

end Signer

end NotebookKernel
