import NotebookKernel.Proofs.Json.Inversion

namespace NotebookKernel.Json

inductive Place where
  | plain
  | quoted
  | escaped
  deriving DecidableEq

/-- How many brackets are open, all kinds of which count alike, and where the scan is. -/
structure Scan where
  depth : Nat
  place : Place
  deriving DecidableEq

namespace Scan

def closed : Scan := ⟨0, .plain⟩

def step (s : Scan) (c : Char) : Scan :=
  match s.place with
  | .plain =>
    if c = '[' ∨ c = '\x7b' then ⟨s.depth + 1, .plain⟩
    else if c = ']' ∨ c = '\x7d' then ⟨s.depth - 1, .plain⟩
    else if c = '"' then ⟨s.depth, .quoted⟩
    else s
  | .quoted =>
    if c = '"' then ⟨s.depth, .plain⟩
    else if c = '\\' then ⟨s.depth, .escaped⟩
    else s
  | .escaped => ⟨s.depth, .quoted⟩

/-- The text behind the brackets that are open. -/
def beyond (s : Scan) : List Char → Option (List Char)
  | [] => if s = closed then some [] else none
  | c :: cs => if s = closed then some (c :: cs) else beyond (s.step c) cs

variable {s : Scan} {c : Char} {cs rest q : List Char}

theorem beyond_closed (cs : List Char) : beyond closed cs = some cs := by
  cases cs with
  | nil => rfl
  | cons c cs => rfl

theorem beyond_cons (hs : s ≠ closed) (c : Char) (cs : List Char) :
    beyond s (c :: cs) = beyond (s.step c) cs := if_neg hs

theorem beyond_plain (n : Nat) (c : Char) (cs : List Char) :
    beyond ⟨n + 1, .plain⟩ (c :: cs) = beyond (step ⟨n + 1, .plain⟩ c) cs :=
  beyond_cons (by simp [closed]) c cs

theorem beyond_quoted (n : Nat) (c : Char) (cs : List Char) :
    beyond ⟨n, .quoted⟩ (c :: cs) = beyond (step ⟨n, .quoted⟩ c) cs :=
  beyond_cons (by simp [closed]) c cs

theorem beyond_escaped (n : Nat) (c : Char) (cs : List Char) :
    beyond ⟨n, .escaped⟩ (c :: cs) = beyond ⟨n, .quoted⟩ cs :=
  beyond_cons (by simp [closed]) c cs

theorem beyond_suffix (h : beyond s cs = some rest) : rest <:+ cs := by
  by_cases hs : s = closed
  · subst hs
    rw [beyond_closed] at h
    exact Option.some.inj h ▸ List.suffix_refl _
  · induction cs generalizing s with
    | nil =>
      rw [beyond, if_neg hs] at h
      exact nomatch h
    | cons c cs ih =>
      rw [beyond_cons hs] at h
      by_cases hs' : s.step c = closed
      · rw [hs', beyond_closed] at h
        exact Option.some.inj h ▸ List.suffix_cons c cs
      · exact (ih h hs').trans (List.suffix_cons c cs)

/-- What stands behind the brackets has no part in finding their end. -/
theorem beyond_append (h : beyond s (q ++ rest) = some rest) (other : List Char) :
    beyond s (q ++ other) = some other := by
  have hshort (c : Char) (cs : List Char) : ¬ (c :: (cs ++ rest)) <:+ rest := by
    intro hsuffix
    have hle := hsuffix.length_le
    rw [List.length_cons, List.length_append] at hle
    omega
  induction q generalizing s with
  | nil =>
    -- A scan that is not at its end passes over at least one character.
    have hs : s = closed := by
      apply Decidable.byContradiction
      intro hs
      cases rest with
      | nil =>
        rw [List.nil_append, beyond, if_neg hs] at h
        exact nomatch h
      | cons c rest =>
        rw [List.nil_append, beyond_cons hs] at h
        have hle := (beyond_suffix h).length_le
        rw [List.length_cons] at hle
        omega
    rw [hs]
    exact beyond_closed other
  | cons c q ih =>
    by_cases hs : s = closed
    · rw [hs, beyond_closed] at h
      exact absurd ⟨[], Option.some.inj h⟩ (hshort c q)
    · rw [List.cons_append, beyond_cons hs] at h ⊢
      exact ih h

end Scan

open Scan

variable {c : Char} {cs mid rest w : List Char}

/-- A text that opens with a bracket and ends where it is closed, whatever follows. -/
def Enclosed (text : List Char) : Prop :=
  ∃ c q, text = c :: q ∧ (c = '[' ∨ c = '\x7b') ∧ ∀ rest, beyond ⟨1, .plain⟩ (q ++ rest) = some rest

/-- No enclosed text begins another one. -/
theorem Enclosed.eq {text text' : List Char} (h : Enclosed text) (h' : Enclosed text')
    {rest rest' : List Char} (heq : text ++ rest = text' ++ rest') : text = text' ∧ rest = rest' := by
  obtain ⟨c, q, rfl, _, hq⟩ := h
  obtain ⟨c', q', rfl, _, hq'⟩ := h'
  obtain ⟨rfl, hmore⟩ := List.cons.inj heq
  change q ++ rest = q' ++ rest' at hmore
  have hrest : some rest = some rest' := by
    rw [← hq rest, hmore, hq' rest']
  obtain rfl := Option.some.inj hrest
  exact ⟨congrArg (c :: ·) (List.append_cancel_right hmore), rfl⟩

/-- Within brackets the scan comes from one place of a text to another as it was. -/
def Level (cs rest : List Char) : Prop :=
  ∀ n, beyond ⟨n + 1, .plain⟩ cs = beyond ⟨n + 1, .plain⟩ rest

theorem Level.refl (cs : List Char) : Level cs cs := fun _ => rfl

theorem Level.trans (h : Level cs mid) (h' : Level mid rest) : Level cs rest :=
  fun n => (h n).trans (h' n)

/-- A character that is neither a bracket nor a quotation mark. -/
def Ordinary (c : Char) : Prop := c ∉ ['[', '\x7b', ']', '\x7d', '"']

instance (c : Char) : Decidable (Ordinary c) := inferInstanceAs (Decidable (c ∉ _))

theorem Ordinary.of_bool {f : Char → Bool}
    (hf : ∀ c ∈ ['[', '\x7b', ']', '\x7d', '"'], f c = false) (h : f c = true) : Ordinary c :=
  fun hmem => nomatch (hf c hmem).symm.trans h

theorem Ordinary.level (h : Ordinary c) (cs : List Char) : Level (c :: cs) cs := by
  intro n
  simp only [Ordinary, List.mem_cons, List.not_mem_nil, or_false, not_or] at h
  obtain ⟨hsquare, hcurly, hsquare', hcurly', hquote⟩ := h
  rw [beyond_plain]
  simp only [step, hsquare, hcurly, hsquare', hcurly', hquote, or_self, ↓reduceIte]

theorem level_append (h : ∀ c ∈ w, Ordinary c) (cs : List Char) : Level (w ++ cs) cs := by
  induction w with
  | nil => exact .refl cs
  | cons c w ih =>
    obtain ⟨hc, hw⟩ := List.forall_mem_cons.1 h
    exact (hc.level _).trans (ih hw)

theorem level_dropWhile {f : Char → Bool} (hf : ∀ c ∈ ['[', '\x7b', ']', '\x7d', '"'], f c = false)
    (cs : List Char) : Level cs (cs.dropWhile f) := by
  have hordinary : ∀ c ∈ cs.takeWhile f, Ordinary c := fun c hc =>
    .of_bool hf (List.all_eq_true.1 List.all_takeWhile c hc)
  have hlevel := level_append hordinary (cs.dropWhile f)
  rw [List.takeWhile_append_dropWhile] at hlevel
  exact hlevel

theorem level_blanks (cs : List Char) : Level cs (cs.dropWhile isBlank) :=
  level_dropWhile (by simp [isBlank]) cs

theorem level_digits (cs : List Char) : Level cs (cs.dropWhile Reader.isDigit) :=
  level_dropWhile (by simp [Reader.isDigit]) cs

theorem beyond_open (h : c = '[' ∨ c = '\x7b') (n : Nat) (cs : List Char) :
    beyond ⟨n + 1, .plain⟩ (c :: cs) = beyond ⟨n + 2, .plain⟩ cs := by
  rw [beyond_plain]
  simp only [step, h, ↓reduceIte]

theorem beyond_close (h : c = ']' ∨ c = '\x7d') (n : Nat) (cs : List Char) :
    beyond ⟨n + 1, .plain⟩ (c :: cs) = beyond ⟨n, .plain⟩ cs := by
  rw [beyond_plain]
  obtain rfl | rfl := h
  · rfl
  · rfl

namespace Reader

theorem token_level {u : Unit} (hc : Ordinary c) (h : token c cs = .ok (u, rest)) : Level cs rest := by
  have hnext := level_blanks cs
  rw [of_token h] at hnext
  exact hnext.trans (hc.level rest)

theorem word_level {u : Unit} (hw : ∀ c ∈ w, Ordinary c) (h : word w cs = .ok (u, rest)) :
    Level cs rest := by
  rw [of_word h]
  exact level_append hw rest

theorem quoted_of_ne (hquote : c ≠ '"') (hescape : c ≠ '\\') (n : Nat) (cs : List Char) :
    beyond ⟨n, .quoted⟩ (c :: cs) = beyond ⟨n, .quoted⟩ cs := by
  rw [beyond_quoted]
  simp only [step, hquote, hescape, ↓reduceIte]

theorem quoted_append (hw : ∀ c ∈ w, c ≠ '"' ∧ c ≠ '\\') (n : Nat) (cs : List Char) :
    beyond ⟨n, .quoted⟩ (w ++ cs) = beyond ⟨n, .quoted⟩ cs := by
  induction w with
  | nil => rfl
  | cons c w ih =>
    obtain ⟨⟨hquote, hescape⟩, hw⟩ := List.forall_mem_cons.1 hw
    exact (quoted_of_ne hquote hescape n _).trans (ih hw)

theorem isSome_of_digits {digits : List Nat} (h : w.mapM Hex.digit? = some digits) :
    ∀ c ∈ w, (Hex.digit? c).isSome := by
  induction w generalizing digits with
  | nil => exact nofun
  | cons c w ih =>
    rw [List.mapM_cons] at h
    obtain ⟨d, hd, h⟩ := Option.bind_eq_some_iff.1 h
    obtain ⟨ds, hds, _⟩ := Option.bind_eq_some_iff.1 h
    exact List.forall_mem_cons.2 ⟨Option.isSome_of_eq_some hd, ih hds⟩

theorem hex4_beyond {code : Nat} (h : hex4 cs = .ok (code, rest)) (n : Nat) :
    beyond ⟨n, .quoted⟩ cs = beyond ⟨n, .quoted⟩ rest := by
  obtain ⟨_, _, _, _, hdigits, _, rfl⟩ := of_hex4 h
  have hsafe : ∀ c ∈ cs.take 4, c ≠ '"' ∧ c ≠ '\\' := by
    intro c hc
    have hdigit := isSome_of_digits hdigits c hc
    constructor
    · rintro rfl
      exact absurd hdigit (by decide)
    · rintro rfl
      exact absurd hdigit (by decide)
  have hskip := quoted_append hsafe n (cs.drop 4)
  rw [List.take_append_drop] at hskip
  exact hskip

theorem escapeWith_beyond (h : escapeWith looseUnicodeEscape cs = .ok (c, rest)) (n : Nat) :
    beyond ⟨n, .escaped⟩ cs = beyond ⟨n, .quoted⟩ rest := by
  rw [escapeWith, get_run] at h
  split at h
  next => cases h
  next first tail =>
    rw [set_run] at h
    rw [beyond_escaped]
    split at h
    next =>
      obtain ⟨code, mid, hhex, h⟩ := of_bind h
      obtain ⟨_, rfl⟩ := of_pure h
      exact hex4_beyond hhex n
    next =>
      cases hshort : shortEscape? first with
      | none =>
        simp only [hshort] at h
        cases h
      | some short =>
        simp only [hshort] at h
        obtain ⟨_, rfl⟩ := of_pure h
        rfl

theorem stringBody_beyond {bound seen chars : List Char}
    (h : stringBody looseUnicodeEscape bound seen cs = .ok (chars, rest)) (n : Nat) :
    beyond ⟨n, .quoted⟩ cs = beyond ⟨n, .plain⟩ rest := by
  induction bound generalizing seen cs with
  | nil => exact nomatch h
  | cons _ bound ih =>
    rw [stringBody, get_run] at h
    split at h
    next => exact nomatch h
    next c tail =>
      rw [set_run] at h
      split at h
      next hc =>
        obtain ⟨_, rfl⟩ := of_pure h
        rw [hc, beyond_quoted]
        rfl
      next hquote =>
        split at h
        next hc =>
          obtain ⟨_, mid, hescape, h⟩ := of_bind h
          rw [hc, beyond_quoted]
          exact (escapeWith_beyond hescape n).trans (ih h)
        next hescape =>
          split at h
          next => exact nomatch h
          next =>
            rw [quoted_of_ne hquote hescape]
            exact ih h

theorem skipString_level {u : Unit} (h : skipString cs = .ok (u, rest)) : Level cs rest := by
  intro n
  obtain ⟨_, mid, hword, h⟩ := of_bind h
  rw [get_run] at h
  obtain ⟨_, mid', hbody, h⟩ := of_bind h
  obtain ⟨_, rfl⟩ := of_pure h
  rw [of_word hword, List.singleton_append, beyond_plain]
  exact stringBody_beyond hbody (n + 1)

theorem digits_level {ds : List Nat} (h : digits cs = .ok (ds, rest)) : Level cs rest := by
  obtain ⟨_, rfl⟩ := of_pure h
  exact level_digits cs

theorem someDigits_level {cut : Fault} {ds : List Nat} (h : someDigits cut cs = .ok (ds, rest)) :
    Level cs rest := by
  rw [someDigits, get_run] at h
  split at h
  next => cases h
  next =>
    split at h
    next => exact digits_level h
    next => cases h

theorem wholeDigits_level {cut : Fault} {ds : List Nat} (h : wholeDigits cut cs = .ok (ds, rest)) :
    Level cs rest := by
  obtain ⟨digits, mid, hdigits, h⟩ := of_bind h
  split at h
  next => exact nomatch h
  next =>
    obtain ⟨_, rfl⟩ := of_pure h
    exact someDigits_level hdigits

theorem fractionDigits_level {cut : Fault} {ds : List Nat}
    (h : fractionDigits cut cs = .ok (ds, rest)) : Level cs rest := by
  rw [fractionDigits, get_run] at h
  split at h
  next tail =>
    have hpoint : Ordinary '.' := by decide
    exact (hpoint.level tail).trans (someDigits_level h)
  next =>
    obtain ⟨_, rfl⟩ := of_pure h
    exact .refl cs

theorem signed_level {cut : Fault} {negative : Bool} {e : Option (Bool × List Nat)}
    {before : List Char}
    (h : (do
      set cs
      return some (negative, ← someDigits cut) : Reader (Option (Bool × List Nat))) before =
        .ok (e, rest)) : Level cs rest := by
  rw [set_run] at h
  obtain ⟨_, _, hdigits, h⟩ := of_bind h
  obtain ⟨_, rfl⟩ := of_pure h
  exact someDigits_level hdigits

theorem exponentDigits_level {cut : Fault} {e : Option (Bool × List Nat)}
    (h : exponentDigits cut cs = .ok (e, rest)) : Level cs rest := by
  rw [exponentDigits, get_run] at h
  split at h
  next c tail =>
    split at h
    next hc =>
      have hletter : Ordinary c := by
        obtain rfl | rfl := hc
        · decide
        · decide
      refine (hletter.level tail).trans ?_
      split at h
      next more =>
        have hplus : Ordinary '+' := by decide
        exact (hplus.level more).trans (signed_level h)
      next more =>
        have hminus : Ordinary '-' := by decide
        exact (hminus.level more).trans (signed_level h)
      next => exact signed_level h
    next =>
      obtain ⟨_, rfl⟩ := of_pure h
      exact .refl _
  next =>
    obtain ⟨_, rfl⟩ := of_pure h
    exact .refl _

theorem magnitude_level {cut : Fault} {negative : Bool} {l : Literal}
    (h : (do
      let ds ← wholeDigits cut
      let fraction ← fractionDigits cut
      return ⟨negative, ds, fraction, ← exponentDigits cut⟩ : Reader Literal) cs = .ok (l, rest)) :
    Level cs rest := by
  obtain ⟨_, _, hwhole, h⟩ := of_bind h
  obtain ⟨_, _, hfraction, h⟩ := of_bind h
  obtain ⟨_, _, hexponent, h⟩ := of_bind h
  obtain ⟨_, rfl⟩ := of_pure h
  exact (wholeDigits_level hwhole).trans
    ((fractionDigits_level hfraction).trans (exponentDigits_level hexponent))

theorem literal_level {cut : Fault} {l : Literal} (h : literal cut cs = .ok (l, rest)) :
    Level cs rest := by
  rw [literal, get_run] at h
  split at h
  next hminus =>
    cases cs with
    | nil => exact nomatch hminus
    | cons c tail =>
      obtain rfl : c = '-' := Option.some.inj (beq_iff_eq.1 hminus)
      have hordinary : Ordinary '-' := by decide
      exact (hordinary.level tail).trans (magnitude_level h)
  next => exact magnitude_level h

theorem scalar_level {v : Value} (hquote : c ≠ '"') (hnumber : ¬ (c = '-' ∨ isDigit c))
    (h : scalar c cs = .ok (v, rest)) : Level cs rest := by
  cases of_scalar h with
  | string hc => exact absurd hc hquote
  | number hc => exact absurd hc hnumber
  | null hword => exact word_level (by simp [Ordinary]) hword
  | true hword => exact word_level (by simp [Ordinary]) hword
  | false hword => exact word_level (by simp [Ordinary]) hword

variable {u : Unit} {close : Char}

/-- The items behind a bracket lead to where it is closed. -/
theorem items_closes {item : Unit → Reader Unit} (hclose : close = ']' ∨ close = '\x7d')
    (hitem : ∀ {cs rest u v}, item u cs = .ok (v, rest) → Level cs rest)
    (h : items close item u cs = .ok ((), rest)) (n : Nat) :
    beyond ⟨n + 1, .plain⟩ cs = beyond ⟨n, .plain⟩ rest := by
  have hcomma : Ordinary ',' := by decide
  have hkeeps : Keeps item fun _ mid => Level cs mid :=
    ⟨fun hlevel => hlevel.trans (level_blanks _), fun hlevel => hlevel.trans (hcomma.level _),
      fun hlevel hread => hlevel.trans (hitem hread)⟩
  have hlevel : Level cs (close :: rest) := hkeeps.items (.refl cs) h
  exact (hlevel n).trans (beyond_close hclose n rest)

/-- How a value is passed over: one that starts with a bracket up to where that is closed. -/
inductive Passed : List Char → List Char → Prop where
  | enclosed {c : Char} {tail rest : List Char} (bracket : c = '[' ∨ c = '\x7b')
      (closes : ∀ n, beyond ⟨n + 1, .plain⟩ tail = beyond ⟨n, .plain⟩ rest) : Passed (c :: tail) rest
  | bare {c : Char} {tail rest : List Char} (square : c ≠ '[') (curly : c ≠ '\x7b')
      (level : Level (c :: tail) rest) : Passed (c :: tail) rest

theorem Passed.level (h : Passed cs rest) : Level cs rest := by
  cases h with
  | enclosed bracket closes =>
    intro n
    rw [beyond_open bracket]
    exact closes (n + 1)
  | bare _ _ level => exact level

theorem bare_level
    (h : (if c = '"' then skipString
      else if c = '-' ∨ isDigit c then do let _ ← literal .malformed
      else do let _ ← scalar c : Reader Unit) cs = .ok (u, rest)) : Level cs rest := by
  split at h
  next => exact skipString_level h
  next hquote =>
    split at h
    next =>
      obtain ⟨_, _, hliteral, h⟩ := of_bind h
      obtain ⟨_, rfl⟩ := of_pure h
      exact literal_level hliteral
    next hnumber =>
      obtain ⟨_, _, hscalar, h⟩ := of_bind h
      obtain ⟨_, rfl⟩ := of_pure h
      exact scalar_level hquote hnumber hscalar

theorem field_level {value : Reader Unit}
    (hvalue : ∀ {cs rest u}, value cs = .ok (u, rest) → Level cs rest)
    (h : (do
      match ← upcoming with
      | '"' :: _ => skipString
      | _ => throw .malformed
      token ':'
      value : Reader Unit) cs = .ok (u, rest)) : Level cs rest := by
  have hcolon : Ordinary ':' := by decide
  obtain ⟨_, mid, hkey, h⟩ := of_bind h
  obtain ⟨hmid, rfl, _⟩ := of_upcoming hkey
  have hblanks : Level cs mid := hmid ▸ level_blanks cs
  split at h
  next =>
    obtain ⟨_, _, hstring, h⟩ := of_bind h
    obtain ⟨_, _, htoken, h⟩ := of_bind h
    exact hblanks.trans
      ((skipString_level hstring).trans ((token_level hcolon htoken).trans (hvalue h)))
  next => exact nomatch h

theorem skipWithin_passed {depth : Nat} (h : skipWithin depth cs = .ok (u, rest)) :
    Passed (cs.dropWhile isBlank) rest := by
  induction depth generalizing cs rest u with
  | zero =>
    rw [skipWithin] at h
    obtain ⟨c, tail, hnext, h⟩ := of_upcoming_bind h
    rw [hnext]
    dsimp only at h
    split at h
    next => exact nomatch h
    next hsquare =>
      split at h
      next => exact nomatch h
      next hcurly => exact .bare hsquare hcurly (bare_level h)
  | succ depth ih =>
    have hvalue {cs rest : List Char} {u : Unit} (h : skipWithin depth cs = .ok (u, rest)) :
        Level cs rest := (level_blanks cs).trans (ih h).level
    rw [skipWithin] at h
    obtain ⟨c, tail, hnext, h⟩ := of_upcoming_bind h
    rw [hnext]
    dsimp only at h
    split at h
    next hsquare => exact .enclosed (.inl hsquare) (items_closes (.inl rfl) hvalue h)
    next hsquare =>
      split at h
      next hcurly =>
        rw [set_run] at h
        exact .enclosed (.inr hcurly) (items_closes (.inr rfl) (field_level hvalue) h)
      next hcurly => exact .bare hsquare hcurly (bare_level h)

end Reader

/-- The text of a value as it was cut out of another text. -/
structure Kept (text : List Char) : Prop where
  starts : ∀ c ∈ text.head?, isBlank c = false
  encloses : ∀ c ∈ text.head?, c = '[' ∨ c = '\x7b' → Enclosed text

theorem Kept.head? {text tail : List Char} (h : Kept text)
    (hnext : text.dropWhile isBlank = c :: tail) : text.head? = some c := by
  cases text with
  | nil => exact nomatch hnext
  | cons first more =>
    have hfirst := h.starts first rfl
    rw [List.dropWhile_cons_of_neg (by simp [hfirst])] at hnext
    exact congrArg some (List.cons.inj hnext).1

theorem not_blank_of_dropWhile {tail : List Char} (h : cs.dropWhile isBlank = c :: tail) :
    isBlank c = false := by
  have hhead := List.head?_dropWhile_not isBlank cs
  rw [h] at hhead
  exact hhead

theorem verbatim_kept {text : List Char} (h : Reader.verbatim cs = .ok (text, rest)) : Kept text := by
  obtain ⟨c, tail, hnext, h⟩ := Reader.of_upcoming_bind h
  obtain ⟨_, mid, hskip, h⟩ := Reader.of_bind h
  rw [Reader.get_run] at h
  obtain ⟨rfl, rfl⟩ := Reader.of_pure h
  have hc := not_blank_of_dropWhile hnext
  have hpassed := Reader.skipWithin_passed hskip
  rw [List.dropWhile_cons_of_neg (by simp [hc])] at hpassed
  have hhead (first : Char)
      (hfirst : first ∈ ((c :: tail).take ((c :: tail).length - mid.length)).head?) : first = c := by
    rw [List.head?_take] at hfirst
    split at hfirst
    next => exact nomatch hfirst
    next => exact (Option.some.inj hfirst).symm
  refine ⟨fun first hfirst => hhead first hfirst ▸ hc, fun first hfirst hbracket => ?_⟩
  rw [hhead first hfirst] at hbracket
  cases hpassed with
  | bare square curly => exact absurd hbracket (not_or.2 ⟨square, curly⟩)
  | enclosed _ closes =>
    have hend : beyond ⟨1, .plain⟩ tail = some mid := (closes 0).trans (beyond_closed mid)
    obtain ⟨q, rfl⟩ := beyond_suffix hend
    refine ⟨c, q, ?_, hbracket, beyond_append hend⟩
    rw [← List.cons_append, List.length_append, Nat.add_sub_cancel, List.take_left' rfl]

end NotebookKernel.Json
