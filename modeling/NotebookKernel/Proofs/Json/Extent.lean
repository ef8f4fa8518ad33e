import NotebookKernel.Proofs.Json.Enclosure
import NotebookKernel.Proofs.Json.Scalars
import NotebookKernel.Proofs.Json.Values
import NotebookKernel.Proofs.Json.Verbatim

namespace NotebookKernel.Json.Reader

variable {α β σ : Type} {r : Reader α} {f : α → Reader β} {a : α} {c close : Char}
  {cs rest tail w : List Char} {depth : Nat} {u : Unit} {v : Value}
  {embedded : List Char → Except Fault Value}

theorem upcoming_run (h : cs.dropWhile isBlank = c :: tail) (f : List Char → Reader β) :
    (upcoming >>= f) cs = f (c :: tail) (c :: tail) := by
  have hskip : skipBlanks cs = .ok ((), c :: tail) := congrArg (fun rest => Except.ok ((), rest)) h
  have hupcoming : upcoming cs = .ok (c :: tail, c :: tail) := by
    rw [upcoming, bind_run hskip]
    rfl
  exact bind_run hupcoming f

/-- Reads a text from its first character that is no blank. -/
def Local (r : Reader α) : Prop :=
  ∀ ⦃cs a rest⦄, r cs = .ok (a, rest) → ∃ c w, cs.dropWhile isBlank = c :: (w ++ rest) ∧
    ∀ x, EndsNumber x → ∀ cs', cs'.dropWhile isBlank = c :: (w ++ x) → r cs' = .ok (a, x)

/-- Reads a text that no number goes on with. -/
def Trailing (r : Reader α) : Prop :=
  ∀ ⦃cs a rest⦄, r cs = .ok (a, rest) → ∃ w, cs = w ++ rest ∧ (∀ x, EndsNumber (w ++ x)) ∧
    ∀ x, EndsNumber x → r (w ++ x) = .ok (a, x)

theorem Local.bind (hr : Local r) (hf : ∀ a, Trailing (f a)) : Local (r >>= f) := by
  intro cs b rest h
  obtain ⟨a, mid, hread, hmid⟩ := of_bind h
  obtain ⟨c, w, hcs, hw⟩ := hr hread
  obtain ⟨w', rfl, hends, hw'⟩ := hf a hmid
  refine ⟨c, w ++ w', by rw [hcs, List.append_assoc], fun x hx cs' hcs' => ?_⟩
  rw [List.append_assoc] at hcs'
  rw [bind_run (hw (w' ++ x) (hends x) cs' hcs')]
  exact hw' x hx

theorem Local.map (hr : Local r) (g : α → β) : Local (do return g (← r)) := by
  intro cs b rest h
  obtain ⟨a, mid, hread, hmid⟩ := of_bind h
  obtain ⟨rfl, rfl⟩ := of_pure hmid
  obtain ⟨c, w, hcs, hw⟩ := hr hread
  exact ⟨c, w, hcs, fun x hx cs' hcs' => bind_run (hw x hx cs' hcs') _⟩

theorem dropWhile_blanks {b : List Char} (hb : Blanks b) (hc : isBlank c = false) (cs : List Char) :
    (b ++ c :: cs).dropWhile isBlank = c :: cs := by
  rw [hb.dropWhile, List.dropWhile_cons_of_neg (by simp [hc])]

theorem Trailing.colon (hr : Local r) : Trailing (do token ':'; r) := by
  intro cs a rest h
  obtain ⟨_, mid, htoken, hmid⟩ := of_bind h
  obtain ⟨p, hp, rfl⟩ := of_token_blanks htoken
  obtain ⟨c, w, hfront, hw⟩ := hr hmid
  obtain ⟨b, hb, hsplit⟩ := exists_blanks mid
  have hc := not_blank_of_dropWhile hfront
  rw [hfront] at hsplit
  have hcolon : EndsNumber (':' :: (b ++ c :: w)) := ⟨rfl, by decide, by decide, by decide⟩
  have htext (x : List Char) :
      p ++ [':'] ++ (b ++ c :: w) ++ x = p ++ [':'] ++ (b ++ c :: (w ++ x)) := by simp
  refine ⟨p ++ [':'] ++ (b ++ c :: w), by rw [htext, hsplit], fun x => ?_, fun x hx => ?_⟩
  · rw [htext, List.append_assoc]
    exact .blanks hp hcolon
  · rw [htext, bind_run (token_takes hp rfl _)]
    exact hw x hx _ (dropWhile_blanks hb hc _)

variable {item : σ → Reader σ} {s t : σ}

theorem moreItems_trailing (hclose : Closing close) (hitem : ∀ s, Local (item s))
    {bound : List Char} (h : moreItems close item bound s cs = .ok (t, rest)) :
    ∃ w, cs = w ++ rest ∧ (∀ x, EndsNumber (w ++ x)) ∧ ∀ bound' x, w.length ≤ bound'.length →
      moreItems close item bound' s (w ++ x) = .ok (t, x) := by
  induction bound generalizing s cs with
  | nil => cases h
  | cons _ bound ih =>
    obtain ⟨first, tail, hnext, h⟩ := of_upcoming_bind h
    obtain ⟨b, hb, hsplit⟩ := exists_blanks cs
    rw [hnext] at hsplit
    dsimp only at h
    rw [set_run] at h
    split at h
    next hfirst =>
      obtain ⟨rfl, rfl⟩ := of_pure h
      subst hfirst
      have htext (x : List Char) : b ++ [first] ++ x = b ++ first :: x := by simp
      refine ⟨b ++ [first], by rw [htext, hsplit], fun x => ?_, fun bound' x hbound => ?_⟩
      · rw [htext]
        exact .blanks hb (hclose.ends_item.ends_number x)
      · cases bound' with
        | nil => simp at hbound
        | cons d bound' =>
          rw [htext, moreItems, upcoming_blanks hb]
          exact moreItems_close hclose d bound' s x
    next =>
      split at h
      next hfirst =>
        subst hfirst
        obtain ⟨s', mid, hread, hmore⟩ := of_bind h
        obtain ⟨c, w, hfront, hw⟩ := hitem s hread
        obtain ⟨w', rfl, hends, hw'⟩ := ih hmore
        obtain ⟨b', hb', hsplit'⟩ := exists_blanks tail
        have hc := not_blank_of_dropWhile hfront
        rw [hfront] at hsplit'
        have htext (x : List Char) : b ++ ',' :: (b' ++ c :: (w ++ w')) ++ x =
            b ++ ',' :: (b' ++ c :: (w ++ (w' ++ x))) := by simp
        refine ⟨b ++ ',' :: (b' ++ c :: (w ++ w')), by rw [htext, ← hsplit', hsplit],
          fun x => ?_, fun bound' x hbound => ?_⟩
        · rw [htext]
          exact .blanks hb (EndsItem.ends_number (.inl rfl) _)
        · cases bound' with
          | nil => simp at hbound
          | cons d bound' =>
            have hbound' : w'.length ≤ bound'.length := by
              simp only [List.length_append, List.length_cons] at hbound
              omega
            rw [htext, moreItems, upcoming_blanks hb]
            refine (moreItems_comma hclose d bound' s _).trans ?_
            rw [bind_run (hw (w' ++ x) (hends x) _ (dropWhile_blanks hb' hc _))]
            exact hw' bound' x hbound'
      next => cases h

theorem restItems_trailing (hclose : Closing close) (hitem : ∀ s, Local (item s)) (s : σ) :
    Trailing (do moreItems close item (← get) s) := by
  intro cs t rest h
  rw [get_run] at h
  obtain ⟨w, hcs, hends, hw⟩ := moreItems_trailing hclose hitem h
  refine ⟨w, hcs, hends, fun x _ => ?_⟩
  rw [get_run]
  exact hw (w ++ x) x (by simp)

theorem items_local (hclose : Closing close) (hitem : ∀ s, Local (item s)) (s : σ) :
    Local (items close item s) := by
  intro cs t rest h
  obtain ⟨first, tail, hnext, h⟩ := of_upcoming_bind h
  dsimp only at h
  split at h
  next hfirst =>
    obtain ⟨rfl, rfl⟩ := of_pure h
    refine ⟨first, [], hnext, fun x _ cs' hcs' => ?_⟩
    rw [items, upcoming_run hcs']
    simp only [hfirst, ↓reduceIte]
    rfl
  next hfirst =>
    obtain ⟨s', mid, hread, hmore⟩ := of_bind h
    obtain ⟨c, w, hfront, hw⟩ := hitem s hread
    obtain ⟨w', rfl, hends, hw'⟩ := restItems_trailing hclose hitem s' hmore
    rw [List.dropWhile_cons_of_neg (by simp [not_blank_of_dropWhile hnext])] at hfront
    obtain ⟨rfl, rfl⟩ := List.cons.inj hfront
    refine ⟨first, w ++ w', by rw [hnext, List.append_assoc], fun x hx cs' hcs' => ?_⟩
    rw [List.append_assoc] at hcs'
    have hc := not_blank_of_dropWhile hcs'
    rw [items, upcoming_run hcs']
    simp only [if_neg hfirst]
    rw [bind_run (hw (w' ++ x) (hends x) _ (List.dropWhile_cons_of_neg (by simp [hc])))]
    exact hw' x hx

theorem not_throw (f : Fault) (cs : List Char) (p : α × List Char) :
    (throw f : Reader α) cs ≠ .ok p := nofun

/-- A reader for what starts with a quotation mark, and one for anything else. -/
def onQuote (r other : Reader α) : List Char → Reader α
  | '"' :: _ => r
  | _ => other

theorem onQuote_of_ne {other : Reader α} (hc : c ≠ '"') (tail : List Char) :
    onQuote r other (c :: tail) = other := by
  generalize htext : c :: tail = text
  unfold onQuote
  split
  next => exact absurd (List.cons.inj htext).1 hc
  next => rfl

theorem of_onQuote {other : Reader α} (hother : ∀ cs p, other cs ≠ .ok p)
    (h : (upcoming >>= onQuote r other) cs = .ok (a, rest)) :
    ∃ tail, cs.dropWhile isBlank = '"' :: tail ∧ r ('"' :: tail) = .ok (a, rest) := by
  obtain ⟨first, tail, hnext, h⟩ := of_upcoming_bind h
  by_cases hfirst : first = '"'
  · subst hfirst
    exact ⟨tail, hnext, h⟩
  · rw [onQuote_of_ne hfirst] at h
    exact absurd h (hother _ _)

theorem onQuote_local {other : Reader α} (hother : ∀ cs p, other cs ≠ .ok p)
    (hr : ∀ {cs a rest}, r cs = .ok (a, rest) → ∃ w, cs = '"' :: w ++ rest ∧ Takes r ('"' :: w) a) :
    Local (upcoming >>= onQuote r other) := by
  intro cs a rest h
  obtain ⟨tail, hfront, hread⟩ := of_onQuote hother h
  obtain ⟨w, hcs, hw⟩ := hr hread
  refine ⟨'"', w, hfront.trans hcs, fun x _ cs' hcs' => ?_⟩
  rw [upcoming_run hcs']
  exact hw x

theorem string_quoted {s : String} (h : string cs = .ok (s, rest)) :
    ∃ w, cs = '"' :: w ++ rest ∧ Takes string ('"' :: w) s := by
  obtain ⟨w, hcs, hw⟩ := of_string h
  obtain ⟨w', rfl⟩ := hw.cons
  exact ⟨w', hcs, hw.string⟩

theorem skipString_quoted (h : skipString cs = .ok (u, rest)) :
    ∃ w, cs = '"' :: w ++ rest ∧ Takes skipString ('"' :: w) u := by
  obtain ⟨w, _, hcs, hw⟩ := of_skipString h
  obtain ⟨w', rfl⟩ := hw.cons
  exact ⟨w', hcs, hw.skipString⟩

theorem of_key {k : String} (h : key cs = .ok (k, rest)) :
    ∃ w, cs.dropWhile isBlank = w ++ rest ∧ Quoted unicodeEscape w k := by
  have hquote : (upcoming >>= onQuote string (throw .malformed)) cs = .ok (k, rest) := h
  obtain ⟨tail, hfront, hread⟩ := of_onQuote (not_throw .malformed) hquote
  obtain ⟨w, hcs, hw⟩ := of_string hread
  exact ⟨w, hfront.trans hcs, hw⟩

theorem of_onlyString {s : String} (h : onlyString cs = .ok (s, rest)) :
    ∃ w, cs.dropWhile isBlank = w ++ rest ∧ Quoted unicodeEscape w s := by
  have hquote : (upcoming >>= onQuote string refuse) cs = .ok (s, rest) := h
  obtain ⟨tail, hfront, hread⟩ := of_onQuote (fun _ _ h => not_refuse h) hquote
  obtain ⟨w, hcs, hw⟩ := of_string hread
  exact ⟨w, hfront.trans hcs, hw⟩

theorem key_local : Local key := onQuote_local (not_throw .malformed) string_quoted

theorem onlyString_local : Local onlyString :=
  onQuote_local (fun _ _ h => not_refuse h) string_quoted

/-- Passes over the key of a field. -/
def skipKey : Reader Unit := upcoming >>= onQuote skipString (throw .malformed)

theorem skipKey_local : Local skipKey := onQuote_local (not_throw .malformed) skipString_quoted

theorem skipField_eq (depth : Nat) (u : Unit) :
    skipField depth u = (do skipKey; token ':'; skipWithin depth) := by
  rw [skipKey, bind_assoc]
  apply congrArg (upcoming >>= ·)
  funext next
  cases next with
  | nil => rfl
  | cons c tail =>
    by_cases hc : c = '"'
    · subst hc
      rfl
    · rw [onQuote_of_ne hc]
      generalize htext : c :: tail = text
      split
      next => exact absurd (List.cons.inj htext).1 hc
      next => rfl

/-- How a text is passed over from its first character that is no blank. -/
inductive Skips : Nat → List Char → List Char → Prop where
  | array {depth : Nat} {tail rest : List Char}
      (inner : items ']' (fun _ => skipWithin depth) () tail = .ok ((), rest)) :
      Skips (depth + 1) ('[' :: tail) rest
  | object {depth : Nat} {tail rest : List Char}
      (inner : items '\x7d' (skipField depth) () tail = .ok ((), rest)) :
      Skips (depth + 1) ('\x7b' :: tail) rest
  | scalar {depth : Nat} {c : Char} {tail rest : List Char} (square : c ≠ '[') (curly : c ≠ '\x7b')
      (inner : skipScalar c (c :: tail) = .ok ((), rest)) : Skips depth (c :: tail) rest

theorem of_skipWithin (h : skipWithin depth cs = .ok (u, rest)) :
    Skips depth (cs.dropWhile isBlank) rest := by
  rw [skipWithin.eq_def] at h
  obtain ⟨c, tail, hnext, h⟩ := of_upcoming_bind h
  rw [hnext]
  dsimp only at h
  split at h
  next hsquare =>
    subst hsquare
    cases depth with
    | zero => cases h
    | succ depth => exact .array h
  next hsquare =>
    split at h
    next hcurly =>
      subst hcurly
      cases depth with
      | zero => cases h
      | succ depth => exact .object h
    next hcurly => exact .scalar hsquare hcurly h

theorem Skips.run {text : List Char} (h : Skips depth text rest) (hcs : cs.dropWhile isBlank = text) :
    skipWithin depth cs = .ok ((), rest) := by
  cases h with
  | array inner =>
    rw [skipWithin.eq_def, upcoming_run hcs]
    exact inner
  | object inner =>
    rw [skipWithin.eq_def, upcoming_run hcs]
    exact inner
  | scalar square curly inner =>
    rw [skipWithin.eq_def, upcoming_run hcs]
    simp only [if_neg square, if_neg curly]
    exact inner

theorem skipField_local (hvalue : Local (skipWithin depth)) (u : Unit) :
    Local (skipField depth u) := by
  rw [skipField_eq]
  exact skipKey_local.bind fun _ => .colon hvalue

/-- What stands behind an opening bracket is read as before. -/
theorem Local.behind (hr : Local r) (h : r cs = .ok (a, rest)) :
    ∃ w, cs = w ++ rest ∧ ∀ x, EndsNumber x → r (w ++ x) = .ok (a, x) := by
  obtain ⟨c, w, hfront, hw⟩ := hr h
  obtain ⟨b, hb, hsplit⟩ := exists_blanks cs
  have hc := not_blank_of_dropWhile hfront
  rw [hfront] at hsplit
  refine ⟨b ++ c :: w, by rw [hsplit, List.append_assoc]; rfl, fun x hx => ?_⟩
  rw [List.append_assoc]
  exact hw x hx _ (dropWhile_blanks hb hc _)

theorem skipWithin_local (depth : Nat) : Local (skipWithin depth) := by
  induction depth using Nat.strongRecOn with
  | ind depth ih =>
    intro cs u rest h
    generalize hfront : cs.dropWhile isBlank = text
    have hskips := of_skipWithin h
    rw [hfront] at hskips
    cases hskips with
    | @array depth _ _ inner =>
      have hvalue := ih depth depth.lt_succ_self
      obtain ⟨w, rfl, hw⟩ := (items_local (.inl rfl) (fun _ => hvalue) ()).behind inner
      exact ⟨_, w, rfl, fun x hx cs' hcs' => (Skips.array (hw x hx)).run hcs'⟩
    | @object depth _ _ inner =>
      have hfield := skipField_local (ih depth depth.lt_succ_self)
      obtain ⟨w, rfl, hw⟩ := (items_local (.inr rfl) hfield ()).behind inner
      exact ⟨_, w, rfl, fun x hx cs' hcs' => (Skips.object (hw x hx)).run hcs'⟩
    | scalar square curly inner =>
      obtain ⟨w, rfl, hw⟩ := of_skipScalar_cons inner
      exact ⟨_, w, rfl, fun x hx cs' hcs' => (Skips.scalar square curly (hw x hx)).run hcs'⟩

/-- An item of an array, and the items so far. -/
def addItem (embedded : List Char → Except Fault Value) (depth : Nat) (vs : List Value) :
    Reader (List Value) := do
  return (← valueWith embedded depth) :: vs

/-- An object behind its first key. -/
def objectFrom (embedded : List Char → Except Fault Value) (depth : Nat) (k : String) :
    Reader Value := do
  if k = verbatimKey then embeddedValue embedded
  else
    token ':'
    let first := [(k, ← valueWith embedded depth)]
    return .object (← moreItems '\x7d' (addField embedded depth) (← get) first)

/-- How a text is read from its first character that is no blank. -/
inductive Yields (embedded : List Char → Except Fault Value) :
    Nat → List Char → Value → List Char → Prop where
  | array {depth : Nat} {tail rest : List Char} {vs : List Value}
      (inner : items ']' (addItem embedded depth) [] tail = .ok (vs, rest)) :
      Yields embedded (depth + 1) ('[' :: tail) (.array vs.reverse) rest
  | empty {depth : Nat} {tail rest : List Char} (front : tail.dropWhile isBlank = '\x7d' :: rest) :
      Yields embedded (depth + 1) ('\x7b' :: tail) (.object []) rest
  | object {depth : Nat} {tail more rest : List Char} {c : Char} {v : Value}
      (front : tail.dropWhile isBlank = c :: more) (curly : c ≠ '\x7d')
      (inner : (key >>= objectFrom embedded depth) (c :: more) = .ok (v, rest)) :
      Yields embedded (depth + 1) ('\x7b' :: tail) v rest
  | scalar {depth : Nat} {tail rest : List Char} {c : Char} {v : Value} (square : c ≠ '[')
      (curly : c ≠ '\x7b') (inner : scalar c (c :: tail) = .ok (v, rest)) :
      Yields embedded depth (c :: tail) v rest

theorem of_valueWith (h : valueWith embedded depth cs = .ok (v, rest)) :
    Yields embedded depth (cs.dropWhile isBlank) v rest := by
  rw [valueWith.eq_def] at h
  obtain ⟨c, tail, hnext, h⟩ := of_upcoming_bind h
  rw [hnext]
  dsimp only at h
  split at h
  next hsquare =>
    subst hsquare
    cases depth with
    | zero => cases h
    | succ depth =>
      dsimp only at h
      rw [set_run] at h
      obtain ⟨vs, mid, hitems, h⟩ := of_bind h
      obtain ⟨rfl, rfl⟩ := of_pure h
      exact .array hitems
  next hsquare =>
    split at h
    next hcurly =>
      subst hcurly
      cases depth with
      | zero => cases h
      | succ depth =>
        dsimp only at h
        rw [set_run] at h
        obtain ⟨first, more, hfirst, h⟩ := of_upcoming_bind h
        by_cases hclose : first = '\x7d'
        · subst hclose
          obtain ⟨rfl, rfl⟩ := of_pure h
          exact .empty hfirst
        · refine .object hfirst hclose ?_
          generalize htext : first :: more = text at h ⊢
          split at h
          next => exact absurd (List.cons.inj htext).1 hclose
          next => exact h
    next hcurly => exact .scalar hsquare hcurly h

theorem Yields.run {text : List Char} (h : Yields embedded depth text v rest)
    (hcs : cs.dropWhile isBlank = text) : valueWith embedded depth cs = .ok (v, rest) := by
  have hne : ¬ '\x7b' = '[' := by decide
  cases h with
  | array inner =>
    rw [valueWith.eq_def, upcoming_run hcs]
    simp only [↓reduceIte]
    rw [set_run]
    exact bind_run inner _
  | empty front =>
    rw [valueWith.eq_def, upcoming_run hcs]
    simp only [if_neg hne, ↓reduceIte]
    rw [set_run, upcoming_run front]
    rfl
  | @object _ _ more _ c _ front curly inner =>
    rw [valueWith.eq_def, upcoming_run hcs]
    simp only [if_neg hne, ↓reduceIte]
    rw [set_run, upcoming_run front]
    generalize htext : c :: more = text at inner ⊢
    split
    next => exact absurd (List.cons.inj htext).1 curly
    next => exact inner
  | scalar square curly inner =>
    rw [valueWith.eq_def, upcoming_run hcs]
    simp only [if_neg square, if_neg curly]
    exact inner

theorem closing_trailing (x : Except Fault Value) : Trailing (do
    match x with
    | .error _ => throw .mismatch
    | .ok v => do token '\x7d'; return v) := by
  intro cs v rest h
  cases x with
  | error f => exact nomatch h
  | ok v' =>
    obtain ⟨_, mid, htoken, hmid⟩ := of_bind h
    obtain ⟨p, hp, rfl⟩ := of_token_blanks htoken
    obtain ⟨rfl, rfl⟩ := of_pure hmid
    refine ⟨p ++ ['\x7d'], rfl, fun x => ?_, fun x _ => bind_run (token_takes hp rfl x) _⟩
    rw [List.append_assoc]
    exact .blanks hp (EndsItem.ends_number (.inr (.inr rfl)) _)

theorem addItem_local (hvalue : Local (valueWith embedded depth)) (vs : List Value) :
    Local (addItem embedded depth vs) := hvalue.map (· :: vs)

theorem addField_local (hvalue : Local (valueWith embedded depth))
    (fields : List (String × Value)) : Local (addField embedded depth fields) :=
  key_local.bind fun k => .colon (hvalue.map (insertField k · fields))

theorem Trailing.map (hr : Trailing r) (g : α → β) : Trailing (do return g (← r)) := by
  intro cs b rest h
  obtain ⟨a, mid, hread, hmid⟩ := of_bind h
  obtain ⟨rfl, rfl⟩ := of_pure hmid
  obtain ⟨w, hcs, hends, hw⟩ := hr hread
  exact ⟨w, hcs, hends, fun x hx => bind_run (hw x hx) _⟩

theorem objectFrom_trailing (hvalue : Local (valueWith embedded depth)) (k : String) :
    Trailing (objectFrom embedded depth k) := by
  unfold objectFrom
  split
  next => exact .colon (onlyString_local.bind fun text => closing_trailing (embedded text.toList))
  next =>
    refine .colon (hvalue.bind fun v => ?_)
    exact (restItems_trailing (.inr rfl) (addField_local hvalue) [(k, v)]).map Value.object

theorem valueWith_local (embedded : List Char → Except Fault Value) (depth : Nat) :
    Local (valueWith embedded depth) := by
  induction depth using Nat.strongRecOn with
  | ind depth ih =>
    intro cs v rest h
    generalize hfront : cs.dropWhile isBlank = text
    have hyields := of_valueWith h
    rw [hfront] at hyields
    cases hyields with
    | @array depth _ _ _ inner =>
      have hitem := addItem_local (ih depth depth.lt_succ_self)
      obtain ⟨w, rfl, hw⟩ := (items_local (.inl rfl) hitem []).behind inner
      exact ⟨_, w, rfl, fun x hx cs' hcs' => (Yields.array (hw x hx)).run hcs'⟩
    | @empty _ tail _ front =>
      obtain ⟨b, hb, hsplit⟩ := exists_blanks tail
      rw [front] at hsplit
      refine ⟨'\x7b', b ++ ['\x7d'], by rw [hsplit, List.append_assoc]; rfl, fun x _ cs' hcs' => ?_⟩
      rw [List.append_assoc] at hcs'
      exact (Yields.empty (dropWhile_blanks hb rfl x)).run hcs'
    | @object depth tail more _ c _ front curly inner =>
      have hobject := key_local.bind (objectFrom_trailing (ih depth depth.lt_succ_self))
      obtain ⟨b, hb, hsplit⟩ := exists_blanks tail
      obtain ⟨c', w, hmore, hw⟩ := hobject inner
      have hc := not_blank_of_dropWhile front
      rw [List.dropWhile_cons_of_neg (by simp [hc])] at hmore
      obtain ⟨rfl, rfl⟩ := List.cons.inj hmore
      rw [front] at hsplit
      refine ⟨'\x7b', b ++ c :: w, by rw [hsplit, List.append_assoc]; rfl, fun x hx cs' hcs' => ?_⟩
      rw [List.append_assoc] at hcs'
      exact (Yields.object (dropWhile_blanks hb hc (w ++ x)) curly
        (hw x hx _ (List.dropWhile_cons_of_neg (by simp [hc])))).run hcs'
    | scalar square curly inner =>
      obtain ⟨w, rfl, hw⟩ := of_scalar_cons inner
      exact ⟨_, w, rfl, fun x hx cs' hcs' => (Yields.scalar square curly (hw x hx).1).run hcs'⟩

end NotebookKernel.Json.Reader
