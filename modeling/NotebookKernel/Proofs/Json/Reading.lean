import NotebookKernel.Json.Reader

namespace NotebookKernel.Json

/-- What may stand behind an item of a list. -/
def EndsItem (c : Char) : Prop := c = ',' ∨ c = ']' ∨ c = '\x7d'

def Closing (c : Char) : Prop := c = ']' ∨ c = '\x7d'

theorem Closing.not_blank {c : Char} (h : Closing c) : isBlank c = false := by
  rcases h with rfl | rfl <;> rfl

theorem Closing.ne_comma {c : Char} (h : Closing c) : c ≠ ',' := by
  rcases h with rfl | rfl <;> decide

theorem Closing.ends_item {c : Char} (h : Closing c) : EndsItem c := .inr h

/-- The first character of an item tells it from the end of its list. -/
def StartsItem (close : Char) : List Char → Prop
  | [] => False
  | c :: _ => isBlank c = false ∧ c ≠ close

namespace Reader

variable {α β σ : Type} {cs rest : List Char} {c close : Char}

theorem bind_run {r : Reader α} {a : α} (h : r cs = .ok (a, rest)) (f : α → Reader β) :
    (r >>= f) cs = f a rest := by
  simp only [bind, StateT.bind, h, Except.bind]

theorem get_run (cs : List Char) (f : List Char → Reader α) : (get >>= f) cs = f cs cs := rfl

theorem modify_run (g : List Char → List Char) (cs : List Char) (f : PUnit → Reader α) :
    (modify g >>= f) cs = f ⟨⟩ (g cs) := rfl

theorem set_run (cs cs' : List Char) (f : PUnit → Reader α) : (set cs' >>= f) cs = f ⟨⟩ cs' := rfl

theorem upcoming_cons (h : isBlank c = false) (rest : List Char) :
    upcoming (c :: rest) = .ok (c :: rest, c :: rest) := by
  have hs : skipBlanks (c :: rest) = .ok ((), c :: rest) := by
    change Except.ok ((), (c :: rest).dropWhile isBlank) = _
    rw [List.dropWhile_cons_of_neg (by simp [h])]
  exact bind_run hs _

theorem token_cons (h : isBlank c = false) (rest : List Char) :
    token c (c :: rest) = .ok ((), rest) := by
  rw [token, bind_run (upcoming_cons h rest)]
  simp only [↓reduceIte]
  rfl

theorem whole_run {r : Reader α} {a : α} (h : r cs = .ok (a, [])) : whole r cs = .ok a := by
  change (r cs >>= _) = _
  rw [h]
  rfl

theorem whole_run_blanks {r : Reader α} {a : α} {blanks : List Char}
    (h : r cs = .ok (a, blanks)) (hblanks : ∀ c ∈ blanks, isBlank c = true) :
    whole r cs = .ok a := by
  have hnone : (blanks ++ []).dropWhile isBlank = [] := List.dropWhile_append_of_pos hblanks
  rw [List.append_nil] at hnone
  change (r cs >>= _) = _
  rw [h]
  change (if (blanks.dropWhile isBlank).isEmpty then pure a else throw Fault.malformed) = _
  rw [hnone]
  rfl

/-- `item` takes the texts one after the other and goes from `s` to `t`. -/
inductive Reads (item : σ → Reader σ) : σ → List (List Char) → σ → Prop where
  | nil (s : σ) : Reads item s [] s
  | cons {s t u : σ} {text : List Char} {texts : List (List Char)}
      (first : ∀ c rest, EndsItem c → item s (text ++ c :: rest) = .ok (t, c :: rest))
      (more : Reads item t texts u) : Reads item s (text :: texts) u

variable {item : σ → Reader σ} {s t : σ} {texts : List (List Char)}

theorem moreItems_close (hc : Closing close) (b : Char) (bound : List Char) (s : σ)
    (rest : List Char) : moreItems close item (b :: bound) s (close :: rest) = .ok (s, rest) := by
  rw [moreItems, bind_run (upcoming_cons hc.not_blank rest)]
  simp only [↓reduceIte]
  rfl

theorem moreItems_comma (hc : Closing close) (b : Char) (bound : List Char) (s : σ)
    (rest : List Char) : moreItems close item (b :: bound) s (',' :: rest) =
      (item s >>= moreItems close item bound) rest := by
  rw [moreItems, bind_run (upcoming_cons rfl rest)]
  simp only [if_neg hc.ne_comma.symm, ↓reduceIte]
  rfl

/-- Behind an item stands a comma or the end of the list. -/
theorem exists_ends_item (hc : Closing close) (texts : List (List Char)) (rest : List Char) :
    ∃ c cs, EndsItem c ∧ texts.flatMap (',' :: ·) ++ close :: rest = c :: cs := by
  cases texts with
  | nil => exact ⟨close, rest, hc.ends_item, rfl⟩
  | cons text texts => exact ⟨',', _, .inl rfl, rfl⟩

theorem moreItems_reads (hc : Closing close) (h : Reads item s texts t) (bound rest : List Char)
    (hb : texts.length < bound.length) :
    moreItems close item bound s (texts.flatMap (',' :: ·) ++ close :: rest) = .ok (t, rest) := by
  induction h generalizing bound with
  | nil s =>
    cases bound with
    | nil => simp at hb
    | cons b bound => exact moreItems_close hc b bound s rest
  | @cons s t u text texts first more ih =>
    cases bound with
    | nil => simp at hb
    | cons b bound =>
      have hb' : texts.length < bound.length := by simpa using hb
      obtain ⟨c, cs, hends, he⟩ := exists_ends_item hc texts rest
      rw [List.flatMap_cons, List.cons_append, List.cons_append, List.append_assoc,
        moreItems_comma hc, he, bind_run (first c cs hends), ← he]
      exact ih bound hb'

theorem intercalate_comma (text : List Char) (texts : List (List Char)) :
    [','].intercalate (text :: texts) = text ++ texts.flatMap (',' :: ·) := by
  induction texts generalizing text with
  | nil => simp
  | cons next texts ih => rw [List.intercalate_cons_cons, ih]; simp

theorem length_le_flatMap_comma (texts : List (List Char)) :
    texts.length ≤ (texts.flatMap (',' :: ·)).length := by
  induction texts with
  | nil => simp
  | cons text texts ih =>
    simp only [List.flatMap_cons, List.length_append, List.length_cons]
    omega

/-- The text that is left bounds the rounds that its items take. -/
theorem moreItems_rest (hc : Closing close) (h : Reads item s texts t) (rest : List Char) :
    moreItems close item (texts.flatMap (',' :: ·) ++ close :: rest) s
      (texts.flatMap (',' :: ·) ++ close :: rest) = .ok (t, rest) := by
  have hlt : texts.length < (texts.flatMap (',' :: ·) ++ close :: rest).length := by
    have hle := length_le_flatMap_comma texts
    simp only [List.length_append, List.length_cons]
    omega
  exact moreItems_reads hc h _ rest hlt

theorem items_join (hc : Closing close) (h : Reads item s texts t)
    (hs : ∀ text ∈ texts, StartsItem close text) (rest : List Char) :
    items close item s ([','].intercalate texts ++ close :: rest) = .ok (t, rest) := by
  cases h with
  | nil =>
    rw [List.intercalate_nil, List.nil_append, items, bind_run (upcoming_cons hc.not_blank rest)]
    simp only [↓reduceIte]
    rfl
  | @cons _ u _ text texts first more =>
    have hstart := hs text List.mem_cons_self
    cases text with
    | nil => exact hstart.elim
    | cons d text =>
      obtain ⟨c, cs, hends, he⟩ := exists_ends_item hc texts rest
      rw [intercalate_comma, List.append_assoc, he, List.cons_append, items,
        bind_run (upcoming_cons hstart.1 _)]
      simp only [if_neg hstart.2]
      rw [← List.cons_append, bind_run (first c cs hends), get_run, ← he]
      exact moreItems_rest hc more rest

end Reader

end NotebookKernel.Json
