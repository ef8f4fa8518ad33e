import NotebookKernel.Proofs.Json.Printing
import NotebookKernel.Proofs.Json.Tokens

namespace NotebookKernel.Json.Reader

variable {cut : Fault} {cs rest : List Char} {c : Char} {ds : List Nat}

theorem of_digits (h : digits cs = .ok (ds, rest)) :
    ∃ w, cs = w ++ rest ∧ (∀ c tail, cs = c :: tail → isDigit c = true → ∃ w', w = c :: w') ∧
      ∀ x, EndsDigits x → digits (w ++ x) = .ok (ds, x) := by
  obtain ⟨rfl, rfl⟩ := of_pure h
  have hall : ∀ c ∈ cs.takeWhile isDigit, isDigit c = true :=
    fun c hc => List.all_eq_true.1 List.all_takeWhile c hc
  refine ⟨cs.takeWhile isDigit, List.takeWhile_append_dropWhile.symm, ?_,
    fun x hx => digits_append hall hx⟩
  rintro c tail rfl hc
  exact ⟨tail.takeWhile isDigit, List.takeWhile_cons_of_pos hc⟩

theorem of_someDigits (h : someDigits cut cs = .ok (ds, rest)) :
    ∃ c w, isDigit c = true ∧ cs = c :: (w ++ rest) ∧
      ∀ cut' x, EndsDigits x → someDigits cut' (c :: (w ++ x)) = .ok (ds, x) := by
  rw [someDigits, get_run] at h
  split at h
  next => exact nomatch h
  next c tail =>
    split at h
    next hc =>
      obtain ⟨w, hcs, hhead, hw⟩ := of_digits h
      obtain ⟨w', rfl⟩ := hhead c tail rfl hc
      refine ⟨c, w', hc, hcs, fun cut' x hx => ?_⟩
      rw [someDigits, get_run]
      simp only [hc, ↓reduceIte]
      exact hw x hx
    next => exact nomatch h

theorem of_wholeDigits (h : wholeDigits cut cs = .ok (ds, rest)) :
    ∃ c w, isDigit c = true ∧ cs = c :: (w ++ rest) ∧
      ∀ cut' x, EndsDigits x → wholeDigits cut' (c :: (w ++ x)) = .ok (ds, x) := by
  obtain ⟨ds', mid, hdigits, h⟩ := of_bind h
  obtain ⟨c, w, hc, hcs, hw⟩ := of_someDigits hdigits
  split at h
  next => exact nomatch h
  next hzeros =>
    obtain ⟨rfl, rfl⟩ := of_pure h
    refine ⟨c, w, hc, hcs, fun cut' x hx => ?_⟩
    rw [wholeDigits, bind_run (hw cut' x hx)]
    split
    next => exact absurd rfl (hzeros _ _)
    next => rfl

theorem of_fractionDigits (h : fractionDigits cut cs = .ok (ds, rest)) :
    ∃ w, cs = w ++ rest ∧ (w = [] ∨ ∃ w', w = '.' :: w') ∧
      ∀ cut' x, EndsFraction x → fractionDigits cut' (w ++ x) = .ok (ds, x) := by
  rw [fractionDigits, get_run] at h
  split at h
  next tail =>
    rw [set_run] at h
    obtain ⟨c, w, _, rfl, hw⟩ := of_someDigits h
    exact ⟨'.' :: c :: w, rfl, .inr ⟨_, rfl⟩, fun cut' x hx => hw cut' x hx.digits⟩
  next =>
    obtain ⟨rfl, rfl⟩ := of_pure h
    exact ⟨[], rfl, .inl rfl, fun cut' x hx => fractionDigits_none hx⟩

/-- The digits of an exponent behind its sign. -/
theorem of_signed {negative : Bool} {e : Option (Bool × List Nat)} {before : List Char}
    (h : (do
      set cs
      return some (negative, ← someDigits cut) : Reader (Option (Bool × List Nat))) before =
        .ok (e, rest)) :
    ∃ c w, isDigit c = true ∧ cs = c :: (w ++ rest) ∧ ∃ ds, e = some (negative, ds) ∧
      ∀ cut' x, EndsDigits x → someDigits cut' (c :: (w ++ x)) = .ok (ds, x) := by
  rw [set_run] at h
  obtain ⟨ds, mid, hdigits, h⟩ := of_bind h
  obtain ⟨rfl, rfl⟩ := of_pure h
  obtain ⟨c, w, hc, hcs, hw⟩ := of_someDigits hdigits
  exact ⟨c, w, hc, hcs, ds, rfl, hw⟩

theorem exponentDigits_signed {letter sign : Char} {negative : Bool} (hletter : letter = 'e' ∨ letter = 'E')
    (hsign : sign = '+' ∧ negative = false ∨ sign = '-' ∧ negative = true)
    (h : someDigits cut cs = .ok (ds, rest)) :
    exponentDigits cut (letter :: sign :: cs) = .ok (some (negative, ds), rest) := by
  obtain ⟨rfl, rfl⟩ | ⟨rfl, rfl⟩ := hsign
  all_goals
    rw [exponentDigits, get_run]
    simp only [hletter, ↓reduceIte]
    rw [set_run, bind_run h]
    rfl

theorem exponentDigits_unsigned {letter : Char} (hletter : letter = 'e' ∨ letter = 'E')
    (hc : isDigit c = true) (h : someDigits cut (c :: cs) = .ok (ds, rest)) :
    exponentDigits cut (letter :: c :: cs) = .ok (some (false, ds), rest) := by
  rw [exponentDigits, get_run]
  simp only [hletter, ↓reduceIte]
  generalize htext : c :: cs = text at h ⊢
  split
  next =>
    obtain rfl := (List.cons.inj htext).1
    cases hc
  next =>
    obtain rfl := (List.cons.inj htext).1
    cases hc
  next =>
    rw [set_run, bind_run h]
    rfl

theorem of_exponentDigits {e : Option (Bool × List Nat)}
    (h : exponentDigits cut cs = .ok (e, rest)) :
    ∃ w, cs = w ++ rest ∧ (w = [] ∨ ∃ c w', w = c :: w' ∧ (c = 'e' ∨ c = 'E')) ∧
      ∀ cut' x, EndsNumber x → exponentDigits cut' (w ++ x) = .ok (e, x) := by
  rw [exponentDigits, get_run] at h
  split at h
  next letter tail =>
    split at h
    next hletter =>
      split at h
      next =>
        obtain ⟨c, w, _, rfl, ds, rfl, hw⟩ := of_signed h
        exact ⟨letter :: '+' :: c :: w, rfl, .inr ⟨_, _, rfl, hletter⟩, fun cut' x hx =>
          exponentDigits_signed hletter (.inl ⟨rfl, rfl⟩) (hw cut' x hx.fraction.digits)⟩
      next =>
        obtain ⟨c, w, _, rfl, ds, rfl, hw⟩ := of_signed h
        exact ⟨letter :: '-' :: c :: w, rfl, .inr ⟨_, _, rfl, hletter⟩, fun cut' x hx =>
          exponentDigits_signed hletter (.inr ⟨rfl, rfl⟩) (hw cut' x hx.fraction.digits)⟩
      next =>
        obtain ⟨c, w, hc, rfl, ds, rfl, hw⟩ := of_signed h
        exact ⟨letter :: c :: w, rfl, .inr ⟨_, _, rfl, hletter⟩, fun cut' x hx =>
          exponentDigits_unsigned hletter hc (hw cut' x hx.fraction.digits)⟩
    next =>
      obtain ⟨rfl, rfl⟩ := of_pure h
      exact ⟨[], rfl, .inl rfl, fun cut' x hx => exponentDigits_none hx⟩
  next =>
    obtain ⟨rfl, rfl⟩ := of_pure h
    exact ⟨[], rfl, .inl rfl, fun cut' x hx => exponentDigits_none hx⟩

/-- The text of a number, behind which nothing that could belong to it may stand. -/
def Spells (w : List Char) (l : Literal) : Prop :=
  ∀ cut x, EndsNumber x → literal cut (w ++ x) = .ok (l, x)

/-- What a literal is behind its sign. -/
theorem of_magnitude {negative : Bool} {l : Literal}
    (h : (do
      let ds ← wholeDigits cut
      let fraction ← fractionDigits cut
      return ⟨negative, ds, fraction, ← exponentDigits cut⟩ : Reader Literal) cs = .ok (l, rest)) :
    ∃ c w, isDigit c = true ∧ cs = c :: (w ++ rest) ∧ ∀ cut' x, EndsNumber x →
      (do
        let ds ← wholeDigits cut'
        let fraction ← fractionDigits cut'
        return ⟨negative, ds, fraction, ← exponentDigits cut'⟩ : Reader Literal) (c :: (w ++ x)) =
          .ok (l, x) := by
  obtain ⟨whole, mid, hwhole, h⟩ := of_bind h
  obtain ⟨fraction, mid', hfraction, h⟩ := of_bind h
  obtain ⟨exponent, mid'', hexponent, h⟩ := of_bind h
  obtain ⟨rfl, rfl⟩ := of_pure h
  obtain ⟨c, w₁, hc, rfl, hw₁⟩ := of_wholeDigits hwhole
  obtain ⟨w₂, rfl, hhead₂, hw₂⟩ := of_fractionDigits hfraction
  obtain ⟨w₃, rfl, hhead₃, hw₃⟩ := of_exponentDigits hexponent
  refine ⟨c, w₁ ++ (w₂ ++ w₃), hc, by simp, fun cut' x hx => ?_⟩
  have hfollows : EndsFraction (w₃ ++ x) := by
    obtain rfl | ⟨letter, w', rfl, rfl | rfl⟩ := hhead₃
    · exact hx.fraction
    · exact ⟨rfl, by decide⟩
    · exact ⟨rfl, by decide⟩
  have hfollows' : EndsDigits (w₂ ++ (w₃ ++ x)) := by
    obtain rfl | ⟨w', rfl⟩ := hhead₂
    · exact hfollows.digits
    · exact (rfl : isDigit '.' = false)
  rw [List.append_assoc, List.append_assoc, bind_run (hw₁ cut' _ hfollows'),
    bind_run (hw₂ cut' _ hfollows), bind_run (hw₃ cut' x hx)]
  rfl

theorem of_literal {l : Literal} (h : literal cut cs = .ok (l, rest)) :
    ∃ w, cs = w ++ rest ∧ w ≠ [] ∧ Spells w l := by
  rw [literal, get_run] at h
  split at h
  next hminus =>
    cases cs with
    | nil => cases hminus
    | cons first tail =>
      obtain rfl : first = '-' := Option.some.inj (beq_iff_eq.1 hminus)
      rw [modify_run] at h
      obtain ⟨c, w, _, htail, hw⟩ := of_magnitude h
      refine ⟨'-' :: c :: w, congrArg ('-' :: ·) htail, List.cons_ne_nil _ _, fun cut' x hx => ?_⟩
      rw [literal, get_run]
      exact hw cut' x hx
  next hminus =>
    have hplain : (cs.head? == some '-') = false := Bool.eq_false_iff.2 hminus
    rw [hplain] at h
    obtain ⟨c, w, hc, rfl, hw⟩ := of_magnitude h
    refine ⟨c :: w, rfl, List.cons_ne_nil _ _, fun cut' x hx => ?_⟩
    have hplain' : ((c :: w ++ x).head? == some '-') = false := hplain
    rw [literal, get_run]
    simp only [hplain', Bool.false_eq_true, ↓reduceIte]
    exact hw cut' x hx

variable {tail w : List Char} {v : Value} {u : Unit}

theorem of_number {n : Number} (h : number cs = .ok (n, rest)) :
    ∃ w l, cs = w ++ rest ∧ w ≠ [] ∧ Spells w l ∧ l.toNumber? = some n := by
  obtain ⟨l, mid, hliteral, hmid⟩ := of_bind h
  obtain ⟨w, hcs, hne, hw⟩ := of_literal hliteral
  cases hn : l.toNumber? with
  | none =>
    rw [hn] at hmid
    exact nomatch hmid
  | some n' =>
    rw [hn] at hmid
    obtain ⟨rfl, rfl⟩ := of_pure hmid
    exact ⟨w, l, hcs, hne, hw, hn⟩

/-- Passes over a value that starts with `c` and is neither an array nor an object. -/
def skipScalar (c : Char) : Reader Unit :=
  if c = '"' then skipString
  else if c = '-' ∨ isDigit c then do let _ ← literal .malformed
  else do let _ ← scalar c

theorem skipScalar_number (hc : StartsNumber c) {l : Literal} (hw : Spells w l) {x : List Char}
    (hx : EndsNumber x) : skipScalar c (w ++ x) = .ok ((), x) := by
  have hc' : c = '-' ∨ isDigit c = true := hc
  simp only [skipScalar, if_neg (hc.ne (d := '"') (by decide) rfl), if_pos hc']
  exact bind_run (hw .malformed x hx) _

theorem scalar_number (hc : StartsNumber c) {l : Literal} {n : Number} (hw : Spells w l)
    (hn : l.toNumber? = some n) {x : List Char} (hx : EndsNumber x) :
    scalar c (w ++ x) = .ok (.number n, x) := by
  have hc' : c = '-' ∨ isDigit c = true := hc
  have hnumber : number (w ++ x) = .ok (n, x) := by
    rw [number, bind_run (hw .endOfInput x hx)]
    simp only [hn]
    rfl
  simp only [scalar, if_neg (hc.ne (d := '"') (by decide) rfl), if_pos hc']
  exact bind_run hnumber _

/-- The text of a word, which is read and passed over alike. -/
theorem of_scalar_word {first : Char} {letters : List Char}
    (hread : word (first :: letters) (c :: tail) = .ok (u, rest))
    (hscalar : scalar first = do word (first :: letters); return v)
    (hskip : skipScalar first = do let _ ← scalar first) :
    ∃ w, tail = w ++ rest ∧ ∀ x, EndsNumber x →
      scalar c (c :: (w ++ x)) = .ok (v, x) ∧ skipScalar c (c :: (w ++ x)) = .ok ((), x) := by
  obtain ⟨rfl, rfl⟩ := List.cons.inj (of_word hread)
  have hrun (x : List Char) : scalar c (c :: (letters ++ x)) = .ok (v, x) := by
    rw [hscalar]
    exact bind_run (word_takes (c :: letters) x) _
  refine ⟨letters, rfl, fun x _ => ⟨hrun x, ?_⟩⟩
  rw [hskip]
  exact bind_run (hrun x) _

/-- What was read is read again wherever no number goes on behind it, and passed over there. -/
theorem of_scalar_cons (h : scalar c (c :: tail) = .ok (v, rest)) :
    ∃ w, tail = w ++ rest ∧ ∀ x, EndsNumber x →
      scalar c (c :: (w ++ x)) = .ok (v, x) ∧ skipScalar c (c :: (w ++ x)) = .ok ((), x) := by
  cases of_scalar h with
  | string hc read =>
    subst hc
    obtain ⟨w, hcs, hw⟩ := of_string read
    obtain ⟨w', rfl⟩ := hw.cons
    obtain ⟨t', hw'⟩ := hw.loose
    obtain ⟨_, htail⟩ := List.cons.inj hcs
    exact ⟨w', htail, fun x _ => ⟨bind_run (hw.string x) _, hw'.skipString x⟩⟩
  | number hc read =>
    obtain ⟨w, l, hcs, hne, hw, hn⟩ := of_number read
    obtain ⟨first, w', rfl⟩ := List.exists_cons_of_ne_nil hne
    obtain ⟨rfl, htail⟩ := List.cons.inj hcs
    exact ⟨w', htail, fun x hx => ⟨scalar_number hc hw hn hx, skipScalar_number hc hw hx⟩⟩
  | null read => exact of_scalar_word read rfl rfl
  | true read => exact of_scalar_word read rfl rfl
  | false read => exact of_scalar_word read rfl rfl

theorem of_skipScalar_cons (h : skipScalar c (c :: tail) = .ok (u, rest)) :
    ∃ w, tail = w ++ rest ∧ ∀ x, EndsNumber x → skipScalar c (c :: (w ++ x)) = .ok ((), x) := by
  rw [skipScalar] at h
  split at h
  next hc =>
    subst hc
    obtain ⟨w, t, hcs, hw⟩ := of_skipString h
    obtain ⟨w', rfl⟩ := hw.cons
    exact ⟨w', (List.cons.inj hcs).2, fun x _ => hw.skipString x⟩
  next hquote =>
    split at h
    next hc =>
      obtain ⟨l, mid, hliteral, h⟩ := of_bind h
      obtain ⟨w, hcs, hne, hw⟩ := of_literal hliteral
      obtain ⟨first, w', rfl⟩ := List.exists_cons_of_ne_nil hne
      obtain ⟨rfl, htail⟩ := List.cons.inj hcs
      obtain ⟨_, rfl⟩ := of_pure h
      exact ⟨w', htail, fun x hx => skipScalar_number hc hw hx⟩
    next =>
      obtain ⟨v, mid, hscalar, h⟩ := of_bind h
      obtain ⟨_, rfl⟩ := of_pure h
      obtain ⟨w, htail, hw⟩ := of_scalar_cons hscalar
      exact ⟨w, htail, fun x hx => (hw x hx).2⟩

end NotebookKernel.Json.Reader
