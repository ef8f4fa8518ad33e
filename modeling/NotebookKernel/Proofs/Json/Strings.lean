import NotebookKernel.Json.Parser
import NotebookKernel.Proofs.Json.Reading

namespace NotebookKernel.Json.Reader

variable {rest : List Char} {c : Char} {unicode : Reader Char}

theorem hex4_control (h : c < ' ') (rest : List Char) :
    hex4 ('0' :: '0' :: Hex.digit (c.toNat / 16) :: Hex.digit (c.toNat % 16) :: rest) =
      .ok (c.toNat, rest) := by
  have hlt : c.toNat < 32 := h
  have hzero : Hex.digit? '0' = some 0 := by decide
  have hhigh := Hex.digit?_digit (n := c.toNat / 16) (by omega)
  have hlow := Hex.digit?_digit (n := c.toNat % 16) (by omega)
  rw [hex4, get_run]
  simp only [List.take_succ_cons, List.take_zero, List.mapM_cons, List.mapM_nil, hzero, hhigh, hlow,
    Option.pure_def, Option.bind_eq_bind, Option.bind_some]
  change Except.ok (((0 * 16 + 0) * 16 + c.toNat / 16) * 16 + c.toNat % 16, rest) = _
  rw [show ((0 * 16 + 0) * 16 + c.toNat / 16) * 16 + c.toNat % 16 = c.toNat by omega]

/-- Reads the escapes by which control characters are written. -/
def ReadsControls (unicode : Reader Char) : Prop :=
  ∀ c rest, c < ' ' → unicode ('0' :: '0' :: Hex.digit (c.toNat / 16) ::
    Hex.digit (c.toNat % 16) :: rest) = .ok (c, rest)

theorem unicodeEscape_reads_controls : ReadsControls unicodeEscape := by
  intro c rest h
  have hlt : c.toNat < 32 := h
  have htrail : isTrailSurrogate c.toNat = false := by simp [isTrailSurrogate]; omega
  have hlead : isLeadSurrogate c.toNat = false := by simp [isLeadSurrogate]; omega
  rw [unicodeEscape, bind_run (hex4_control h rest)]
  simp only [htrail, hlead]
  change Except.ok (Char.ofNat c.toNat, rest) = _
  rw [Char.ofNat_toNat]

theorem looseUnicodeEscape_reads_controls : ReadsControls looseUnicodeEscape := by
  intro c rest h
  rw [looseUnicodeEscape, bind_run (hex4_control h rest)]
  change Except.ok (Char.ofNat c.toNat, rest) = _
  rw [Char.ofNat_toNat]

theorem escapeWith_short {letter : Char} (hu : letter ≠ 'u') (h : shortEscape? letter = some c)
    (rest : List Char) : escapeWith unicode (letter :: rest) = .ok (c, rest) := by
  rw [escapeWith, get_run]
  simp only [if_neg hu, h]
  rfl

theorem escapeWith_unicode (cs : List Char) : escapeWith unicode ('u' :: cs) = unicode cs := rfl

theorem stringBody_quote (b : Char) (bound seen rest : List Char) :
    stringBody unicode (b :: bound) seen ('"' :: rest) = .ok (seen.reverse, rest) := rfl

theorem stringBody_plain (hq : c ≠ '"') (hb : c ≠ '\\') (hc : ¬ c < ' ') (b : Char)
    (bound seen rest : List Char) : stringBody unicode (b :: bound) seen (c :: rest) =
      stringBody unicode bound (c :: seen) rest := by
  rw [stringBody, get_run]
  simp only [if_neg hq, if_neg hb, if_neg hc]
  rfl

theorem stringBody_escape {cs : List Char} (h : escapeWith unicode cs = .ok (c, rest)) (b : Char)
    (bound seen : List Char) : stringBody unicode (b :: bound) seen ('\\' :: cs) =
      stringBody unicode bound (c :: seen) rest := by
  have hne : ¬ '\\' = '"' := by decide
  rw [stringBody, get_run]
  simp only [if_neg hne, ↓reduceIte]
  rw [set_run, bind_run h]

theorem stringBody_escapeChar (hu : ReadsControls unicode) (c b : Char)
    (bound seen rest : List Char) :
    stringBody unicode (b :: bound) seen (escapeChar c ++ rest) =
      stringBody unicode bound (c :: seen) rest := by
  have short {letter : Char} (hu : letter ≠ 'u') (h : shortEscape? letter = some c) :
      stringBody unicode (b :: bound) seen ('\\' :: letter :: rest) =
        stringBody unicode bound (c :: seen) rest :=
    stringBody_escape (escapeWith_short hu h rest) b bound seen
  unfold escapeChar
  split
  next h => exact short (by decide) (by rw [h]; rfl)
  next hquote =>
  split
  next h => exact short (by decide) (by rw [h]; rfl)
  next hbackslash =>
  split
  next h => exact short (by decide) (by rw [h]; rfl)
  split
  next h => exact short (by decide) (by rw [h]; rfl)
  split
  next h => exact short (by decide) (by rw [h]; rfl)
  split
  next h => exact short (by decide) (by rw [h]; rfl)
  split
  next h => exact short (by decide) (by rw [h]; rfl)
  split
  next h => exact stringBody_escape ((escapeWith_unicode _).trans (hu c rest h)) b bound seen
  next h => exact stringBody_plain hquote hbackslash h b bound seen rest

theorem escapeChar_ne_nil (c : Char) : escapeChar c ≠ [] := by
  unfold escapeChar
  repeat' split
  all_goals simp

theorem length_le_escaped (s : List Char) : s.length ≤ (s.flatMap escapeChar).length := by
  induction s with
  | nil => simp
  | cons c s ih =>
    have := List.length_pos_iff.2 (escapeChar_ne_nil c)
    simp only [List.flatMap_cons, List.length_append, List.length_cons]
    omega

theorem stringBody_escaped (hu : ReadsControls unicode) (s bound seen rest : List Char)
    (hb : s.length < bound.length) :
    stringBody unicode bound seen (s.flatMap escapeChar ++ '"' :: rest) =
      .ok (seen.reverse ++ s, rest) := by
  induction s generalizing bound seen with
  | nil =>
    cases bound with
    | nil => simp at hb
    | cons b bound => rw [List.append_nil]; exact stringBody_quote b bound seen rest
  | cons c s ih =>
    cases bound with
    | nil => simp at hb
    | cons b bound =>
      have hb' : s.length < bound.length := by simpa using hb
      rw [List.flatMap_cons, List.append_assoc, stringBody_escapeChar hu, ih bound (c :: seen) hb']
      simp

theorem quote_append (s rest : List Char) :
    quote s ++ rest = '"' :: (s.flatMap escapeChar ++ '"' :: rest) := by
  simp [quote]

/-- The loop over a string has enough rounds for what was written. -/
theorem stringBody_quoted (hu : ReadsControls unicode) (s rest : List Char) :
    stringBody unicode (s.flatMap escapeChar ++ '"' :: rest) []
      (s.flatMap escapeChar ++ '"' :: rest) = .ok (s, rest) := by
  have hb : s.length < (s.flatMap escapeChar ++ '"' :: rest).length := by
    have := length_le_escaped s
    simp only [List.length_append, List.length_cons]
    omega
  exact stringBody_escaped hu s _ [] rest hb

theorem word_quote (cs : List Char) : word ['"'] ('"' :: cs) = .ok ((), cs) := rfl

theorem string_quote (s : String) (rest : List Char) :
    string (quote s.toList ++ rest) = .ok (s, rest) := by
  rw [quote_append, string, bind_run (word_quote _), get_run,
    bind_run (stringBody_quoted unicodeEscape_reads_controls s.toList rest), String.ofList_toList]
  rfl

theorem skipString_quote (s rest : List Char) : skipString (quote s ++ rest) = .ok ((), rest) := by
  rw [quote_append, skipString, bind_run (word_quote _), get_run,
    bind_run (stringBody_quoted looseUnicodeEscape_reads_controls s rest)]
  rfl

theorem key_quote (s : String) (rest : List Char) :
    key (quote s.toList ++ rest) = .ok (s, rest) := by
  have hs := string_quote s rest
  rw [quote_append] at hs ⊢
  rw [key, bind_run (upcoming_cons rfl _)]
  exact hs

theorem onlyString_quote (s : String) (rest : List Char) :
    onlyString (quote s.toList ++ rest) = .ok (s, rest) := by
  have hs := string_quote s rest
  rw [quote_append] at hs ⊢
  rw [onlyString, bind_run (upcoming_cons rfl _)]
  exact hs

end NotebookKernel.Json.Reader
