import NotebookKernel.Json.Verbatim
import NotebookKernel.Proofs.Json.Integers
import NotebookKernel.Proofs.Json.Inversion

namespace NotebookKernel.Json

def Blanks (b : List Char) : Prop := ∀ c ∈ b, isBlank c = true

theorem exists_blanks (cs : List Char) : ∃ b, Blanks b ∧ cs = b ++ cs.dropWhile isBlank :=
  ⟨cs.takeWhile isBlank, fun c hc => List.all_eq_true.1 List.all_takeWhile c hc,
    List.takeWhile_append_dropWhile.symm⟩

theorem Blanks.dropWhile {b : List Char} (hb : Blanks b) (cs : List Char) :
    (b ++ cs).dropWhile isBlank = cs.dropWhile isBlank := List.dropWhile_append_of_pos hb

theorem EndsNumber.blanks {b cs : List Char} (hb : Blanks b) (h : EndsNumber cs) :
    EndsNumber (b ++ cs) := by
  cases b with
  | nil => exact h
  | cons c b =>
    have hc := hb c List.mem_cons_self
    simp only [isBlank, Bool.or_eq_true, beq_iff_eq] at hc
    obtain ((rfl | rfl) | rfl) | rfl := hc <;> exact ⟨rfl, by decide, by decide, by decide⟩

namespace Reader

variable {α β : Type} {r : Reader α} {f : α → Reader β} {a : α} {b : β} {c : Char}
  {cs rest w w' : List Char}

/-- Reads a text, whatever follows it. -/
def Takes (r : Reader α) (w : List Char) (a : α) : Prop := ∀ x, r (w ++ x) = .ok (a, x)

theorem Takes.map (h : Takes r w a) (f : α → β) : Takes (do return f (← r)) w (f a) := by
  intro x
  rw [bind_run (h x)]
  rfl

/-- What is read does not depend on what follows it. -/
def Cuts (r : Reader α) : Prop :=
  ∀ ⦃cs a rest⦄, r cs = .ok (a, rest) → ∃ w, cs = w ++ rest ∧ Takes r w a

theorem upcoming_blanks {p : List Char} (hp : Blanks p) (f : List Char → Reader β)
    (cs : List Char) : (upcoming >>= f) (p ++ cs) = (upcoming >>= f) cs := by
  have hskip : skipBlanks (p ++ cs) = .ok ((), cs.dropWhile isBlank) :=
    congrArg (fun rest => Except.ok ((), rest)) (hp.dropWhile cs)
  have hskip' : skipBlanks cs = .ok ((), cs.dropWhile isBlank) := rfl
  have hupcoming : upcoming (p ++ cs) = upcoming cs := by
    rw [upcoming, bind_run hskip, bind_run hskip']
  simp only [bind, StateT.bind, hupcoming]

theorem word_takes (w : List Char) : Takes (word w) w () := by
  intro x
  induction w with
  | nil => rfl
  | cons c w ih =>
    rw [List.cons_append, word, get_run]
    simp only [↓reduceIte]
    rw [set_run]
    exact ih

theorem token_takes {p : List Char} (hp : Blanks p) (hc : isBlank c = false) :
    Takes (token c) (p ++ [c]) () := by
  intro x
  rw [List.append_assoc]
  exact (upcoming_blanks hp _ _).trans (token_cons hc x)

theorem of_token_blanks {u : Unit} (h : token c cs = .ok (u, rest)) :
    ∃ p, Blanks p ∧ cs = p ++ [c] ++ rest := by
  obtain ⟨p, hp, hcs⟩ := exists_blanks cs
  rw [of_token h] at hcs
  exact ⟨p, hp, by rw [hcs, List.append_assoc]; rfl⟩

theorem length_of_mapM {digits : List Nat} (h : w.mapM Hex.digit? = some digits) :
    digits.length = w.length := by
  induction w generalizing digits with
  | nil =>
    obtain rfl := Option.some.inj h
    rfl
  | cons c w ih =>
    rw [List.mapM_cons] at h
    obtain ⟨d, _, h⟩ := Option.bind_eq_some_iff.1 h
    obtain ⟨ds, hds, h⟩ := Option.bind_eq_some_iff.1 h
    obtain rfl := Option.some.inj h
    rw [List.length_cons, List.length_cons, ih hds]

theorem hex4_cuts : Cuts hex4 := by
  intro cs n rest h
  obtain ⟨_, _, _, _, hdigits, rfl, rfl⟩ := of_hex4 h
  have hlength : 4 = (cs.take 4).length := length_of_mapM hdigits
  refine ⟨cs.take 4, (List.take_append_drop 4 cs).symm, fun x => ?_⟩
  rw [hex4, get_run, List.take_left' hlength.symm, List.drop_left' hlength.symm, hdigits]
  rfl

/-- The digits of an escape, and those of the other half of a character that takes two. -/
theorem of_unicodeEscape (h : unicodeEscape cs = .ok (c, rest)) :
    ∃ w n, Takes hex4 w n ∧ ((cs = w ++ rest ∧ Takes unicodeEscape w c) ∨
      ∃ w' n', Takes hex4 w' n' ∧ cs = w ++ '\\' :: 'u' :: w' ++ rest ∧
        Takes unicodeEscape (w ++ '\\' :: 'u' :: w') c) := by
  obtain ⟨unit, mid, hunit, hmid⟩ := of_bind h
  obtain ⟨w, hcs, hw⟩ := hex4_cuts hunit
  refine ⟨w, unit, hw, ?_⟩
  cases htrail : isTrailSurrogate unit with
  | true =>
    simp only [htrail, ↓reduceIte] at hmid
    cases hmid
  | false =>
    simp only [htrail, Bool.false_eq_true, ↓reduceIte] at hmid
    cases hlead : isLeadSurrogate unit with
    | false =>
      simp only [hlead, Bool.false_eq_true, ↓reduceIte] at hmid
      obtain ⟨rfl, rfl⟩ := of_pure hmid
      refine .inl ⟨hcs, fun x => ?_⟩
      rw [unicodeEscape, bind_run (hw x)]
      simp only [htrail, hlead, Bool.false_eq_true, ↓reduceIte]
      rfl
    | true =>
      simp only [hlead, ↓reduceIte] at hmid
      obtain ⟨_, mid', hword, hmid⟩ := of_bind hmid
      obtain ⟨trail, mid'', htrail', hend⟩ := of_bind hmid
      obtain ⟨w', hcs', hw'⟩ := hex4_cuts htrail'
      cases hpair : isTrailSurrogate trail with
      | false =>
        simp only [hpair, Bool.false_eq_true, ↓reduceIte] at hend
        cases hend
      | true =>
        simp only [hpair, ↓reduceIte] at hend
        obtain ⟨rfl, rfl⟩ := of_pure hend
        refine .inr ⟨w', trail, hw', ?_, fun x => ?_⟩
        · rw [hcs, of_word hword, hcs']
          simp
        · have hunits : w ++ '\\' :: 'u' :: w' ++ x = w ++ (['\\', 'u'] ++ (w' ++ x)) := by simp
          rw [hunits, unicodeEscape, bind_run (hw _)]
          simp only [htrail, hlead, Bool.false_eq_true, ↓reduceIte]
          rw [bind_run (word_takes ['\\', 'u'] _), bind_run (hw' x)]
          simp only [hpair, ↓reduceIte]
          rfl

theorem unicodeEscape_cuts : Cuts unicodeEscape := by
  intro cs c rest h
  obtain ⟨w, _, _, ⟨hcs, hw⟩ | ⟨w', _, _, hcs, hw⟩⟩ := of_unicodeEscape h
  · exact ⟨w, hcs, hw⟩
  · exact ⟨_, hcs, hw⟩

theorem looseUnicodeEscape_cuts : Cuts looseUnicodeEscape := by
  intro cs c rest h
  obtain ⟨n, mid, hn, h⟩ := of_bind h
  obtain ⟨w, hcs, hw⟩ := hex4_cuts hn
  obtain ⟨rfl, rfl⟩ := of_pure h
  exact ⟨w, hcs, hw.map Char.ofNat⟩

/-- An escape of one letter, or what stands behind a `u`. -/
theorem of_escapeWith {unicode : Reader Char} (h : escapeWith unicode cs = .ok (c, rest)) :
    (∃ letter, cs = letter :: rest ∧ letter ≠ 'u' ∧ shortEscape? letter = some c) ∨
      ∃ tail, cs = 'u' :: tail ∧ unicode tail = .ok (c, rest) := by
  rw [escapeWith, get_run] at h
  split at h
  next => exact nomatch h
  next first tail =>
    rw [set_run] at h
    split at h
    next hu => exact .inr ⟨tail, by rw [hu], h⟩
    next hu =>
      cases hshort : shortEscape? first with
      | none =>
        simp only [hshort] at h
        exact nomatch h
      | some short =>
        simp only [hshort] at h
        obtain ⟨rfl, rfl⟩ := of_pure h
        exact .inl ⟨first, rfl, hu, hshort⟩

theorem escapeWith_cuts {unicode : Reader Char} (hu : Cuts unicode) : Cuts (escapeWith unicode) := by
  intro cs c rest h
  obtain ⟨letter, rfl, hletter, hshort⟩ | ⟨tail, rfl, h⟩ := of_escapeWith h
  · exact ⟨[letter], rfl, escapeWith_short hletter hshort⟩
  · obtain ⟨w, rfl, hw⟩ := hu h
    exact ⟨'u' :: w, rfl, hw⟩

/-- What stands between the quotation marks of a string, and the characters that it stands for. -/
inductive Body (unicode : Reader Char) : List Char → List Char → Prop where
  | nil : Body unicode [] []
  | plain {c : Char} {q s : List Char} (quote : c ≠ '"') (escape : c ≠ '\\') (control : ¬ c < ' ')
      (more : Body unicode q s) : Body unicode (c :: q) (c :: s)
  | escape {c : Char} {w q s : List Char} (reads : Takes (escapeWith unicode) w c)
      (more : Body unicode q s) : Body unicode ('\\' :: (w ++ q)) (c :: s)

variable {unicode : Reader Char} {q s : List Char}

theorem Body.length_le (h : Body unicode q s) : s.length ≤ q.length := by
  induction h with
  | nil => exact Nat.le_refl 0
  | plain _ _ _ _ ih => exact Nat.succ_le_succ ih
  | escape _ _ ih =>
    rw [List.length_cons, List.length_cons, List.length_append]
    omega

theorem of_stringBody (hu : Cuts unicode) {bound seen chars : List Char}
    (h : stringBody unicode bound seen cs = .ok (chars, rest)) :
    ∃ q s, cs = q ++ '"' :: rest ∧ chars = seen.reverse ++ s ∧ Body unicode q s := by
  induction bound generalizing seen cs with
  | nil => cases h
  | cons _ bound ih =>
    rw [stringBody, get_run] at h
    split at h
    next => cases h
    next c tail =>
      rw [set_run] at h
      split at h
      next hc =>
        obtain ⟨rfl, rfl⟩ := of_pure h
        exact ⟨[], [], by rw [hc]; rfl, (List.append_nil _).symm, .nil⟩
      next hquote =>
        split at h
        next hc =>
          obtain ⟨c', mid, hescape, hrest⟩ := of_bind h
          obtain ⟨w, rfl, hw⟩ := escapeWith_cuts hu hescape
          obtain ⟨q, s, rfl, rfl, hmore⟩ := ih hrest
          refine ⟨'\\' :: (w ++ q), c' :: s, ?_, by simp, .escape hw hmore⟩
          rw [hc, List.cons_append, List.append_assoc]
        next hescape =>
          split at h
          next => cases h
          next hcontrol =>
            obtain ⟨q, s, rfl, rfl, hmore⟩ := ih h
            exact ⟨c :: q, c :: s, rfl, by simp, .plain hquote hescape hcontrol hmore⟩

theorem Body.stringBody (h : Body unicode q s) {bound seen : List Char} (x : List Char)
    (hb : q.length < bound.length) :
    stringBody unicode bound seen (q ++ '"' :: x) = .ok (seen.reverse ++ s, x) := by
  induction h generalizing bound seen with
  | nil =>
    cases bound with
    | nil => exact absurd hb (Nat.not_lt_zero _)
    | cons b bound =>
      rw [List.append_nil]
      exact stringBody_quote b bound seen x
  | @plain c q s hquote hescape hcontrol _ ih =>
    cases bound with
    | nil => exact absurd hb (Nat.not_lt_zero _)
    | cons b bound =>
      rw [List.cons_append, stringBody_plain hquote hescape hcontrol, ih (Nat.lt_of_succ_lt_succ hb)]
      simp
  | @escape c w q s hreads _ ih =>
    cases bound with
    | nil => exact absurd hb (Nat.not_lt_zero _)
    | cons b bound =>
      have hq : q.length < bound.length := by
        simp only [List.length_cons, List.length_append] at hb
        omega
      rw [List.cons_append, List.append_assoc, stringBody_escape (hreads _), ih hq]
      simp

/-- What can be read can be passed over, where halves of characters count one by one. -/
theorem Body.loose (h : Body unicodeEscape q s) : ∃ s', Body looseUnicodeEscape q s' := by
  induction h with
  | nil => exact ⟨[], .nil⟩
  | @plain c q s hquote hescape hcontrol _ ih =>
    obtain ⟨s', hs'⟩ := ih
    exact ⟨c :: s', .plain hquote hescape hcontrol hs'⟩
  | @escape c w q s hreads _ ih =>
    obtain ⟨s', hs'⟩ := ih
    have hloose {v : List Char} {n : Nat} (hv : Takes hex4 v n) :
        Takes (escapeWith looseUnicodeEscape) ('u' :: v) (Char.ofNat n) := hv.map Char.ofNat
    obtain ⟨letter, hw, hletter, hshort⟩ | ⟨tail, hw, htail⟩ := of_escapeWith (hreads [])
    · rw [List.append_nil] at hw
      exact ⟨c :: s', hw ▸ .escape (escapeWith_short hletter hshort) hs'⟩
    · rw [List.append_nil] at hw
      subst hw
      obtain ⟨v, n, hv, ⟨htail, _⟩ | ⟨v', n', hv', htail, _⟩⟩ := of_unicodeEscape htail
      · rw [List.append_nil] at htail
        rw [htail]
        exact ⟨_, .escape (hloose hv) hs'⟩
      · rw [List.append_nil] at htail
        have hsplit : '\\' :: ('u' :: tail ++ q) =
            '\\' :: ('u' :: v ++ '\\' :: ('u' :: v' ++ q)) := by
          rw [htail]
          simp
        rw [hsplit]
        exact ⟨_, .escape (hloose hv) (.escape (hloose hv') hs')⟩

/-- The text of a string. -/
inductive Quoted (unicode : Reader Char) : List Char → String → Prop where
  | mk {q s : List Char} (body : Body unicode q s) : Quoted unicode ('"' :: (q ++ ['"'])) (.ofList s)

variable {t : String}

theorem Quoted.length_lt (h : Quoted unicode w t) : t.toList.length < w.length := by
  cases h with
  | mk body =>
    have hle := body.length_le
    rw [String.toList_ofList]
    simp only [List.length_cons, List.length_append]
    omega

theorem Quoted.cons (h : Quoted unicode w t) : ∃ tail, w = '"' :: tail := by
  cases h with
  | mk body => exact ⟨_, rfl⟩

theorem Quoted.loose (h : Quoted unicodeEscape w t) : ∃ t', Quoted looseUnicodeEscape w t' := by
  cases h with
  | mk body =>
    obtain ⟨s', hs'⟩ := body.loose
    exact ⟨_, .mk hs'⟩

/-- The loop over a string has enough rounds. -/
theorem Body.takes (h : Body unicode q s) (x : List Char) :
    Reader.stringBody unicode (q ++ '"' :: x) [] (q ++ '"' :: x) = .ok (s, x) := by
  have hb : q.length < (q ++ '"' :: x).length := by
    simp only [List.length_append, List.length_cons]
    omega
  exact h.stringBody x hb

theorem Quoted.string (h : Quoted unicodeEscape w t) : Takes string w t := by
  cases h with
  | @mk q s body =>
    intro x
    have htext : '"' :: (q ++ ['"']) ++ x = ['"'] ++ (q ++ '"' :: x) := by simp
    rw [htext, Reader.string, bind_run (word_takes ['"'] _), get_run, bind_run (body.takes x)]
    rfl

theorem Quoted.skipString (h : Quoted looseUnicodeEscape w t) : Takes skipString w () := by
  cases h with
  | @mk q s body =>
    intro x
    have htext : '"' :: (q ++ ['"']) ++ x = ['"'] ++ (q ++ '"' :: x) := by simp
    rw [htext, Reader.skipString, bind_run (word_takes ['"'] _), get_run, bind_run (body.takes x)]
    rfl

theorem of_string (h : string cs = .ok (t, rest)) :
    ∃ w, cs = w ++ rest ∧ Quoted unicodeEscape w t := by
  obtain ⟨_, mid, hword, hrest⟩ := of_bind h
  rw [get_run] at hrest
  obtain ⟨s, mid', hbody, hend⟩ := of_bind hrest
  obtain ⟨rfl, rfl⟩ := of_pure hend
  obtain ⟨q, s', rfl, rfl, hs⟩ := of_stringBody unicodeEscape_cuts hbody
  rw [of_word hword]
  exact ⟨_, by simp, .mk hs⟩

theorem of_skipString {u : Unit} (h : skipString cs = .ok (u, rest)) :
    ∃ w t, cs = w ++ rest ∧ Quoted looseUnicodeEscape w t := by
  obtain ⟨_, mid, hword, hrest⟩ := of_bind h
  rw [get_run] at hrest
  obtain ⟨_, mid', hbody, hend⟩ := of_bind hrest
  obtain ⟨_, rfl⟩ := of_pure hend
  obtain ⟨q, s, rfl, _, hs⟩ := of_stringBody looseUnicodeEscape_cuts hbody
  rw [of_word hword]
  exact ⟨_, .ofList s, by simp, .mk hs⟩

end Reader

end NotebookKernel.Json
