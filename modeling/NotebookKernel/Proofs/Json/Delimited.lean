import NotebookKernel.Json.Record
import NotebookKernel.Proofs.Json.Lockstep

namespace NotebookKernel.Json

theorem Blanks.ends_number {b : List Char} (hb : Blanks b) : EndsNumber b := by
  have hends : EndsNumber (b ++ []) := .blanks hb trivial
  rw [List.append_nil] at hends
  exact hends

namespace Reader

variable {α : Type} {r : Reader α} {a : α} {c : Char} {cs rest mid tail text : List Char}
  {depth depth' n N M : Nat} {v : Value} {u : Unit}

theorem of_whole_blanks (h : whole r cs = .ok a) : ∃ rest, r cs = .ok (a, rest) ∧ Blanks rest := by
  obtain ⟨⟨a', rest⟩, hread, h⟩ := bind_eq_ok.1 h
  dsimp only at h
  split at h
  next hempty =>
    obtain rfl := Except.ok.inj h
    obtain ⟨b, hb, hsplit⟩ := exists_blanks rest
    rw [List.isEmpty_iff.1 hempty, List.append_nil] at hsplit
    exact ⟨rest, hread, hsplit ▸ hb⟩
  next => exact nomatch h

/-- The bound on embedded texts does not matter where it is greater than the length of the text. -/
theorem embeddedText_of_lt (h : embeddedText N text = .ok v) (hM : text.length < M) :
    embeddedText M text = .ok v := by
  induction M generalizing N text v with
  | zero => exact absurd hM (Nat.not_lt_zero _)
  | succ M ih =>
    cases N with
    | zero => exact nomatch h
    | succ N =>
      obtain ⟨rest, hread, hrest⟩ := of_whole_blanks h
      have hinner : ∀ t u, t.length < text.length → embeddedText N t = .ok u →
          embeddedText M t = .ok u := fun t u ht hu => ih hu (by omega)
      exact whole_run_blanks (valueWith_room (n := 0) hinner hrest.ends_number (Nat.le_refl _)
        (.inl (Nat.le_refl _)) hread) hrest

theorem valueWith_embedded (hrest : EndsNumber rest) (hM : cs.length ≤ M)
    (hroom : Room n depth depth' (cs.dropWhile isBlank))
    (h : valueWith (embeddedText N) depth cs = .ok (v, rest)) :
    valueWith (embeddedText M) depth' cs = .ok (v, rest) :=
  valueWith_room (fun _ _ ht hu => embeddedText_of_lt hu (Nat.lt_of_lt_of_le ht hM)) hrest
    (Nat.le_refl _) hroom h

theorem value_local (depth : Nat) : Local (value depth) := by
  intro cs v rest h
  obtain ⟨c, w, hfront, hw⟩ := valueWith_local _ _ h
  refine ⟨c, w, hfront, fun x hx cs' hcs' => ?_⟩
  exact valueWith_embedded (n := 0) hx (Nat.le_refl _) (.inl (Nat.le_refl _)) (hw x hx cs' hcs')

theorem skip_of_skipWithin (h : skipWithin depth cs = .ok ((), rest)) : skip cs = .ok ((), rest) := by
  have hpeak := Scan.peak_le ⟨0, .plain⟩ (cs.dropWhile isBlank)
  have hlength := (settles_blanks cs).length_le
  exact skipWithin_room (n := 0) (.inr (Nat.le_trans hpeak (Nat.add_le_add_left hlength 0))) h

theorem skipWithin_of_skip (h : skip cs = .ok ((), rest)) (hN : cs.length ≤ N) :
    skipWithin N cs = .ok ((), rest) := skipWithin_room (n := 0) (.inl hN) h

theorem skip_local : Local skip := by
  intro cs u rest h
  obtain ⟨c, w, hfront, hw⟩ := skipWithin_local _ h
  exact ⟨c, w, hfront, fun x hx cs' hcs' => skip_of_skipWithin (hw x hx cs' hcs')⟩

theorem of_verbatim (h : verbatim cs = .ok (text, rest)) :
    ∃ c w, text = c :: w ∧ cs.dropWhile isBlank = c :: (w ++ rest) ∧
      ∀ x, EndsNumber x → ∀ cs', cs'.dropWhile isBlank = c :: (w ++ x) → skip cs' = .ok ((), x) := by
  obtain ⟨first, tail, hnext, h⟩ := of_upcoming_bind h
  obtain ⟨_, mid, hskip, h⟩ := of_bind h
  rw [get_run] at h
  obtain ⟨rfl, rfl⟩ := of_pure h
  obtain ⟨c, w, hfront, hw⟩ := skip_local hskip
  rw [List.dropWhile_cons_of_neg (by simp [not_blank_of_dropWhile hnext])] at hfront
  refine ⟨c, w, ?_, hnext.trans hfront, hw⟩
  rw [hfront, ← List.cons_append, List.length_append, Nat.add_sub_cancel, List.take_left' rfl]

theorem verbatim_run {w : List Char} (hfront : cs.dropWhile isBlank = c :: (w ++ rest))
    (hskip : skip (c :: (w ++ rest)) = .ok ((), rest)) : verbatim cs = .ok (c :: w, rest) := by
  rw [verbatim, upcoming_run hfront, bind_run hskip, get_run, ← List.cons_append,
    List.length_append, Nat.add_sub_cancel, List.take_left' rfl]
  rfl

theorem dropWhile_front (h : cs.dropWhile isBlank = c :: tail) (tail' : List Char) :
    (c :: tail').dropWhile isBlank = c :: tail' :=
  List.dropWhile_cons_of_neg (by simp [not_blank_of_dropWhile h])

theorem verbatim_local : Local verbatim := by
  intro cs text rest h
  obtain ⟨c, w, rfl, hfront, hw⟩ := of_verbatim h
  exact ⟨c, w, hfront, fun x hx cs' hcs' => verbatim_run hcs' (hw x hx _ (dropWhile_front hcs' _))⟩

theorem verbatim_again (h : verbatim cs = .ok (text, rest)) : verbatim text = .ok (text, []) := by
  obtain ⟨c, w, rfl, hfront, hw⟩ := of_verbatim h
  have htext : (c :: w).dropWhile isBlank = c :: (w ++ []) := by
    rw [dropWhile_front hfront, List.append_nil]
  exact verbatim_run htext (hw [] trivial _ (dropWhile_front hfront _))

end Reader

open Reader

/-- What a form reads are the texts of values. -/
structure Form.Delimited {α : Type} (form : Form α) : Prop where
  extent : ∀ depth, Local (form.read depth)
  skips : ∀ {depth cs a rest}, EndsNumber rest → form.read depth cs = .ok (a, rest) →
    skip cs = .ok ((), rest)

namespace Form

variable {α β : Type} {form : Form α} {a : α} {cs rest t : List Char} {depth : Nat}

theorem Delimited.cuts (hf : form.Delimited) (hrest : EndsNumber rest)
    (h : form.read depth cs = .ok (a, rest)) :
    ∃ t, Reader.verbatim cs = .ok (t, rest) ∧ whole (form.read depth) t = .ok a := by
  obtain ⟨c, w, hfront, hw⟩ := hf.extent depth h
  have hskip := hf.skips hrest (hw rest hrest _ (dropWhile_front hfront _))
  have htext : (c :: w).dropWhile isBlank = c :: (w ++ []) := by
    rw [dropWhile_front hfront, List.append_nil]
  exact ⟨c :: w, verbatim_run hfront hskip, whole_run (hw [] trivial _ htext)⟩

theorem Delimited.joins (hf : form.Delimited) (hrest : EndsNumber rest)
    (hcut : Reader.verbatim cs = .ok (t, rest)) (h : whole (form.read depth) t = .ok a) :
    form.read depth cs = .ok (a, rest) := by
  obtain ⟨blanks, hread, hblanks⟩ := of_whole_blanks h
  obtain ⟨c, w, rfl, hfront, hw⟩ := of_verbatim hcut
  have htext : (c :: w).dropWhile isBlank = c :: (w ++ []) := by
    rw [dropWhile_front hfront, List.append_nil]
  -- The value ends where its text does.
  have hend := (hf.skips hblanks.ends_number hread).symm.trans (hw [] trivial _ htext)
  obtain rfl : blanks = [] := (Prod.mk.inj (Except.ok.inj hend)).2
  obtain ⟨c', w', hfront', hw'⟩ := hf.extent depth hread
  rw [htext] at hfront'
  obtain ⟨rfl, hw''⟩ := List.cons.inj hfront'
  rw [List.append_nil, List.append_nil] at hw''
  exact hw' rest hrest cs (hw'' ▸ hfront)

theorem Delimited.map (hf : form.Delimited) (g : α → β) : (form.map g).Delimited := by
  refine ⟨fun depth => ?_, fun hrest h => ?_⟩
  · intro cs b rest h
    obtain ⟨a, hread, rfl⟩ := of_map h
    obtain ⟨c, w, hfront, hw⟩ := hf.extent depth hread
    refine ⟨c, w, hfront, fun x hx cs' hcs' => ?_⟩
    change (g <$> form.read depth) cs' = _
    rw [map_eq_pure_bind, bind_run (hw x hx cs' hcs')]
    rfl
  · obtain ⟨a, hread, _⟩ := of_map h
    exact hf.skips hrest hread

theorem text_delimited : text.Delimited :=
  ⟨fun _ => onlyString_local, fun _ h => skip_of_skipWithin (onlyString_skips h 0)⟩

theorem verbatim_delimited : verbatim.Delimited := by
  refine ⟨fun _ => verbatim_local, fun hrest h => ?_⟩
  obtain ⟨c, w, _, hfront, hw⟩ := of_verbatim h
  exact hw _ hrest _ hfront

theorem any_delimited : any.Delimited :=
  ⟨value_local, fun hrest h => skip_of_skipWithin (valueWith_skips hrest h)⟩

end Form

namespace Record

variable {P α : Type} {r : Record P α} {p q : P} {a : α} {k : String} {c : Char}
  {cs mid rest tail : List Char} {depth N : Nat} {f : Field P} {fields : List (Field P)}

/-- Every field is read from texts of values. -/
def Delimited (r : Record P α) : Prop := ∀ f ∈ r.fields, f.form.Delimited

/-- What a key and the text behind its colon make of a draft. -/
inductive Assigns (r : Record P α) (depth : Nat) (p : P) (k : String) (cs : List Char) :
    P → List Char → Prop where
  | known {f : Field P} {g : P → P} {rest : List Char} (named : r.fieldNamed? k = some f)
      (unset : f.isSet p = false) (read : f.form.read depth cs = .ok (g, rest)) :
      Assigns r depth p k cs (g p) rest
  | unknown {rest : List Char} (named : r.fieldNamed? k = none) (skipped : skip cs = .ok ((), rest)) :
      Assigns r depth p k cs p rest

theorem of_readField (h : r.readField depth p cs = .ok (q, rest)) :
    ∃ k mid mid', key cs = .ok (k, mid) ∧ token ':' mid = .ok ((), mid') ∧
      Assigns r depth p k mid' q rest := by
  obtain ⟨k, mid, hkey, h⟩ := of_bind h
  cases hf : r.fieldNamed? k with
  | some f =>
    simp only [hf] at h
    cases hset : f.isSet p with
    | true =>
      simp only [hset, ↓reduceIte] at h
      exact nomatch h
    | false =>
      simp only [hset, Bool.false_eq_true, ↓reduceIte] at h
      obtain ⟨_, mid', htoken, h⟩ := of_bind h
      obtain ⟨g, _, hread, h⟩ := of_bind h
      obtain ⟨rfl, rfl⟩ := of_pure h
      exact ⟨k, mid, mid', hkey, htoken, .known hf hset hread⟩
  | none =>
    simp only [hf] at h
    obtain ⟨_, mid', htoken, h⟩ := of_bind h
    obtain ⟨_, _, hskip, h⟩ := of_bind h
    obtain ⟨rfl, rfl⟩ := of_pure h
    exact ⟨k, mid, mid', hkey, htoken, .unknown hf hskip⟩

theorem Assigns.run {mid' : List Char} (h : Assigns r depth p k mid' q rest)
    (hkey : key cs = .ok (k, mid)) (htoken : token ':' mid = .ok ((), mid')) :
    r.readField depth p cs = .ok (q, rest) := by
  rw [readField, bind_run hkey]
  cases h with
  | known named unset read =>
    simp only [named, unset, Bool.false_eq_true, ↓reduceIte]
    rw [bind_run htoken, bind_run read]
    rfl
  | unknown named skipped =>
    simp only [named]
    rw [bind_run htoken, bind_run skipped]
    rfl

theorem Delimited.assigns (hr : r.Delimited) (h : Assigns r depth p k cs q rest) :
    ∃ c w, cs.dropWhile isBlank = c :: (w ++ rest) ∧ ∀ x, EndsNumber x →
      ∀ cs', cs'.dropWhile isBlank = c :: (w ++ x) → Assigns r depth p k cs' q x := by
  cases h with
  | known named unset read =>
    obtain ⟨c, w, hfront, hw⟩ := (hr _ (List.mem_of_find?_eq_some named)).extent depth read
    exact ⟨c, w, hfront, fun x hx cs' hcs' => .known named unset (hw x hx cs' hcs')⟩
  | unknown named skipped =>
    obtain ⟨c, w, hfront, hw⟩ := skip_local skipped
    exact ⟨c, w, hfront, fun x hx cs' hcs' => .unknown named (hw x hx cs' hcs')⟩

theorem Delimited.assigns_skips (hr : r.Delimited) (hrest : EndsNumber rest)
    (h : Assigns r depth p k cs q rest) : skip cs = .ok ((), rest) := by
  cases h with
  | known named _ read => exact (hr _ (List.mem_of_find?_eq_some named)).skips hrest read
  | unknown _ skipped => exact skipped

theorem Delimited.readField_local (hr : r.Delimited) (p : P) : Local (r.readField depth p) := by
  intro cs q rest h
  obtain ⟨k, mid, mid', hkey, htoken, hassigns⟩ := of_readField h
  obtain ⟨c, w, hfront, hw⟩ := key_local hkey
  obtain ⟨b, hb, rfl⟩ := of_token_blanks htoken
  obtain ⟨c', w', hfront', hw'⟩ := hr.assigns hassigns
  obtain ⟨b', hb', hsplit⟩ := exists_blanks mid'
  rw [hfront'] at hsplit
  have htext (x : List Char) : w ++ (b ++ ':' :: (b' ++ c' :: w')) ++ x =
      w ++ (b ++ [':'] ++ (b' ++ c' :: (w' ++ x))) := by simp
  refine ⟨c, w ++ (b ++ ':' :: (b' ++ c' :: w')), by rw [hfront, htext, ← hsplit],
    fun x hx cs' hcs' => ?_⟩
  rw [htext] at hcs'
  have hends : EndsNumber (b ++ [':'] ++ (b' ++ c' :: (w' ++ x))) := by
    rw [List.append_assoc]
    exact .blanks hb ⟨rfl, by decide, by decide, by decide⟩
  have hvalue := hw' x hx _ (dropWhile_blanks hb' (not_blank_of_dropWhile hfront') (w' ++ x))
  exact hvalue.run (hw _ hends cs' hcs') (token_takes hb rfl _)

theorem Delimited.readField_skips (hr : r.Delimited) (hrest : EndsNumber rest) (hN : cs.length ≤ N)
    (h : r.readField depth p cs = .ok (q, rest)) : skipField N () cs = .ok ((), rest) := by
  obtain ⟨k, mid, mid', hkey, htoken, hassigns⟩ := of_readField h
  have hlength := ((skipKey_settles (key_skips hkey)).trans (colon_settles htoken)).length_le
  have hskip := skipWithin_of_skip (hr.assigns_skips hrest hassigns) (Nat.le_trans hlength hN)
  exact skipField_parts (key_skips hkey) htoken hskip ()

/-- How the rest of an array is read for the fields that are left. -/
inductive Elements (depth : Nat) : List (Field P) → P → List Char → P → List Char → Prop where
  | close {fields : List (Field P)} {p : P} {cs rest : List Char}
      (front : cs.dropWhile isBlank = ']' :: rest) : Elements depth fields p cs p rest
  | comma {f : Field P} {fields : List (Field P)} {p q : P} {g : P → P} {cs tail mid rest : List Char}
      (front : cs.dropWhile isBlank = ',' :: tail) (read : f.form.read depth tail = .ok (g, mid))
      (more : Elements depth fields (g p) mid q rest) : Elements depth (f :: fields) p cs q rest

theorem of_readElements {u : Unit} (h : readElements depth false fields p cs = .ok (q, mid))
    (hclose : token ']' mid = .ok (u, rest)) : Elements depth fields p cs q rest := by
  induction fields generalizing p cs with
  | nil =>
    obtain ⟨rfl, rfl⟩ := of_pure h
    exact .close (of_token hclose)
  | cons f fields ih =>
    obtain ⟨c, tail, hnext, h⟩ := of_upcoming_bind h
    dsimp only at h
    split at h
    next hc =>
      obtain ⟨rfl, rfl⟩ := of_pure h
      have hfront := of_token hclose
      rw [dropWhile_front hnext] at hfront
      exact .close (hnext.trans hfront)
    next =>
      rw [if_neg Bool.false_ne_true] at h
      split at h
      next hc =>
        subst hc
        rw [set_run] at h
        obtain ⟨g, mid', hread, h⟩ := of_bind h
        exact .comma hnext hread (ih h)
      next => exact nomatch h

theorem token_run (hfront : cs.dropWhile isBlank = c :: rest) : token c cs = .ok ((), rest) := by
  rw [token, upcoming_run hfront]
  simp only [↓reduceIte]
  rfl

theorem Elements.run (h : Elements depth fields p cs q rest) :
    ∃ mid, readElements depth false fields p cs = .ok (q, mid) ∧ token ']' mid = .ok ((), rest) := by
  induction h with
  | @close fields p cs rest front =>
    cases fields with
    | nil => exact ⟨cs, rfl, token_run front⟩
    | cons f fields =>
      refine ⟨']' :: rest, ?_, token_cons rfl rest⟩
      rw [readElements, upcoming_run front]
      simp only [↓reduceIte]
      rfl
  | @comma f fields p q g cs tail mid rest front read _ ih =>
    obtain ⟨mid', hmore, hclose⟩ := ih
    refine ⟨mid', ?_, hclose⟩
    have hne : ¬ ',' = ']' := by decide
    rw [readElements, upcoming_run front]
    simp only [if_neg hne, Bool.false_eq_true, ↓reduceIte]
    rw [set_run, bind_run read]
    exact hmore

theorem Elements.ends_number (h : Elements depth fields p cs q rest) : EndsNumber cs := by
  obtain ⟨b, hb, hsplit⟩ := exists_blanks cs
  rw [hsplit]
  cases h with
  | close front =>
    rw [front]
    exact .blanks hb (EndsItem.ends_number (.inr (.inl rfl)) _)
  | comma front =>
    rw [front]
    exact .blanks hb (EndsItem.ends_number (.inl rfl) _)

theorem Elements.extent (hf : ∀ f ∈ fields, f.form.Delimited) (h : Elements depth fields p cs q rest) :
    ∃ w, cs = w ++ rest ∧ (∀ x, EndsNumber (w ++ x)) ∧ ∀ x, Elements depth fields p (w ++ x) q x := by
  induction h with
  | @close fields p cs rest front =>
    obtain ⟨b, hb, hsplit⟩ := exists_blanks cs
    rw [front] at hsplit
    have htext (x : List Char) : b ++ [']'] ++ x = b ++ ']' :: x := by simp
    have hrun (x : List Char) : Elements depth fields p (b ++ [']'] ++ x) p x :=
      .close (by rw [htext, dropWhile_blanks hb rfl])
    exact ⟨b ++ [']'], by rw [htext, hsplit], fun x => (hrun x).ends_number, hrun⟩
  | @comma f fields p q g cs tail mid rest front read _ ih =>
    obtain ⟨hfirst, hfields⟩ := List.forall_mem_cons.1 hf
    obtain ⟨w', rfl, hends, hw'⟩ := ih hfields
    obtain ⟨w, rfl, hw⟩ := (hfirst.extent depth).behind read
    obtain ⟨b, hb, hsplit⟩ := exists_blanks cs
    rw [front] at hsplit
    have htext (x : List Char) : b ++ ',' :: (w ++ w') ++ x = b ++ ',' :: (w ++ (w' ++ x)) := by simp
    have hrun (x : List Char) : Elements depth (f :: fields) p (b ++ ',' :: (w ++ w') ++ x) q x :=
      .comma (by rw [htext, dropWhile_blanks hb rfl]) (hw _ (hends x)) (hw' x)
    exact ⟨b ++ ',' :: (w ++ w'), by rw [htext, hsplit], fun x => (hrun x).ends_number, hrun⟩

theorem Elements.skips (hf : ∀ f ∈ fields, f.form.Delimited)
    (h : Elements depth fields p cs q rest) {bound : List Char} (hN : cs.length ≤ N)
    (hbound : cs.length ≤ bound.length) :
    moreItems ']' (fun _ => skipWithin N) bound () cs = .ok ((), rest) := by
  induction h generalizing bound with
  | @close fields p cs rest front =>
    have hlength := (settles_blanks cs).length_le
    rw [front, List.length_cons] at hlength
    cases bound with
    | nil => exact absurd (Nat.le_trans hlength hbound) (Nat.not_succ_le_zero _)
    | cons d bound =>
      rw [moreItems, upcoming_run front]
      rfl
  | @comma f fields p q g cs tail mid rest front read more ih =>
    obtain ⟨hfirst, hfields⟩ := List.forall_mem_cons.1 hf
    have hlength := (settles_blanks cs).length_le
    rw [front, List.length_cons] at hlength
    cases bound with
    | nil => exact absurd (Nat.le_trans hlength hbound) (Nat.not_succ_le_zero _)
    | cons d bound =>
      have hskip : skipWithin N tail = .ok ((), mid) :=
        skipWithin_of_skip (hfirst.skips more.ends_number read) (by omega)
      have hmid := (skipWithin_settles hskip).length_le
      rw [List.length_cons] at hbound
      have hmore : moreItems ']' (fun _ => skipWithin N) bound () mid = .ok ((), rest) :=
        ih hfields (by omega) (by omega)
      rw [moreItems, upcoming_run front]
      exact (bind_run hskip _).trans hmore

/-- How a text is read from its first character that is no blank. -/
inductive Yields (r : Record P α) : Nat → List Char → α → List Char → Prop where
  | object {depth : Nat} {tail rest : List Char} {p : P} {a : α}
      (inner : items '\x7d' (r.readField depth) r.blank tail = .ok (p, rest))
      (full : r.complete p = .ok a) : Yields r (depth + 1) ('\x7b' :: tail) a rest
  | empty {depth : Nat} {tail rest : List Char} {a : α} (front : tail.dropWhile isBlank = ']' :: rest)
      (full : r.complete r.blank = .ok a) : Yields r (depth + 1) ('[' :: tail) a rest
  | array {depth : Nat} {tail more mid rest : List Char} {c : Char} {f : Field P}
      {fields : List (Field P)} {g : P → P} {q : P} {a : α} (split : r.fields = f :: fields)
      (front : tail.dropWhile isBlank = c :: more) (square : c ≠ ']')
      (first : f.form.read depth (c :: more) = .ok (g, mid))
      (elements : Elements depth fields (g r.blank) mid q rest) (full : r.complete q = .ok a) :
      Yields r (depth + 1) ('[' :: tail) a rest

theorem of_read (h : r.read depth cs = .ok (a, rest)) :
    Yields r depth (cs.dropWhile isBlank) a rest := by
  obtain ⟨c, tail, hnext, h⟩ := of_upcoming_bind h
  rw [hnext]
  dsimp only at h
  split at h
  next hc =>
    subst hc
    cases depth with
    | zero => exact nomatch h
    | succ depth =>
      dsimp only at h
      rw [set_run] at h
      obtain ⟨p, mid, hitems, h⟩ := of_bind h
      obtain ⟨hcomplete, rfl⟩ := of_lift h
      exact .object hitems hcomplete
  next =>
    split at h
    next hc =>
      subst hc
      cases depth with
      | zero => exact nomatch h
      | succ depth =>
        dsimp only at h
        rw [set_run] at h
        obtain ⟨q, mid, helements, hmid⟩ := of_bind h
        obtain ⟨a', mid', hcomplete, hrest⟩ := of_bind hmid
        obtain ⟨hfull, rfl⟩ := of_lift hcomplete
        obtain ⟨_, mid'', hclose, hend⟩ := of_bind hrest
        obtain ⟨rfl, rfl⟩ := of_pure hend
        cases hfields : r.fields with
        | nil =>
          rw [hfields] at helements
          obtain ⟨rfl, rfl⟩ := of_pure helements
          exact .empty (of_token hclose) hfull
        | cons f fields =>
          rw [hfields] at helements
          obtain ⟨c, more, hfront, helements⟩ := of_upcoming_bind helements
          dsimp only at helements
          split at helements
          next hc =>
            obtain ⟨rfl, rfl⟩ := of_pure helements
            have hend := of_token hclose
            rw [dropWhile_front hfront] at hend
            exact .empty (hfront.trans hend) hfull
          next hc =>
            rw [if_pos rfl] at helements
            obtain ⟨g, mid'', hfirst, helements⟩ := of_bind helements
            exact .array hfields hfront hc hfirst (of_readElements helements hclose) hfull
    next => exact absurd h not_refuse

theorem Yields.run {text : List Char} (h : Yields r depth text a rest)
    (hcs : cs.dropWhile isBlank = text) : r.read depth cs = .ok (a, rest) := by
  have hne : ¬ '[' = '\x7b' := by decide
  cases h with
  | object inner full =>
    rw [read, upcoming_run hcs]
    simp only [↓reduceIte]
    rw [set_run, bind_run inner, full]
    rfl
  | @empty depth tail _ _ front full =>
    have helements : ∃ mid, readElements depth true r.fields r.blank tail = .ok (r.blank, mid) ∧
        token ']' mid = .ok ((), rest) := by
      cases r.fields with
      | nil => exact ⟨tail, rfl, token_run front⟩
      | cons f fields =>
        refine ⟨']' :: rest, ?_, token_cons rfl rest⟩
        rw [readElements, upcoming_run front]
        rfl
    obtain ⟨mid, helements, hclose⟩ := helements
    rw [read, upcoming_run hcs]
    simp only [if_neg hne, ↓reduceIte]
    rw [set_run, bind_run helements, full]
    change (token ']' >>= fun _ => pure a) _ = _
    rw [bind_run hclose]
    rfl
  | @array depth tail more mid _ c f fields g q _ split front square first elements full =>
    obtain ⟨mid', hmore, hclose⟩ := elements.run
    have helements : readElements depth true r.fields r.blank tail = .ok (q, mid') := by
      rw [split, readElements, upcoming_run front]
      simp only [if_neg square, ↓reduceIte]
      rw [bind_run first]
      exact hmore
    rw [read, upcoming_run hcs]
    simp only [if_neg hne, ↓reduceIte]
    rw [set_run, bind_run helements, full]
    change (token ']' >>= fun _ => pure a) _ = _
    rw [bind_run hclose]
    rfl

theorem Delimited.read_local (hr : r.Delimited) (depth : Nat) : Local (r.read depth) := by
  intro cs a rest h
  generalize hfront : cs.dropWhile isBlank = text
  have hyields := of_read h
  rw [hfront] at hyields
  cases hyields with
  | object inner full =>
    obtain ⟨w, rfl, hw⟩ := (items_local (.inr rfl) hr.readField_local _).behind inner
    exact ⟨_, w, rfl, fun x hx cs' hcs' => (Yields.object (hw x hx) full).run hcs'⟩
  | @empty _ tail _ _ front full =>
    obtain ⟨b, hb, hsplit⟩ := exists_blanks tail
    rw [front] at hsplit
    refine ⟨'[', b ++ [']'], by rw [hsplit, List.append_assoc]; rfl, fun x _ cs' hcs' => ?_⟩
    rw [List.append_assoc] at hcs'
    exact (Yields.empty (dropWhile_blanks hb rfl x) full).run hcs'
  | @array depth tail more mid _ c f fields g q _ split front square first elements full =>
    have hall : ∀ f' ∈ f :: fields, f'.form.Delimited := fun f' hf' => hr f' (split ▸ hf')
    obtain ⟨hf, hfields⟩ := List.forall_mem_cons.1 hall
    obtain ⟨w', rfl, hends, hw'⟩ := elements.extent hfields
    obtain ⟨c', w, hmore, hw⟩ := hf.extent depth first
    rw [dropWhile_front front] at hmore
    obtain ⟨rfl, rfl⟩ := List.cons.inj hmore
    obtain ⟨b, hb, hsplit⟩ := exists_blanks tail
    rw [front] at hsplit
    have htext (x : List Char) : b ++ c :: (w ++ w') ++ x = b ++ c :: (w ++ (w' ++ x)) := by simp
    refine ⟨'[', b ++ c :: (w ++ w'), by rw [htext, ← hsplit], fun x hx cs' hcs' => ?_⟩
    rw [htext] at hcs'
    have hc := not_blank_of_dropWhile front
    exact (Yields.array split (dropWhile_blanks hb hc (w ++ (w' ++ x))) square
      (hw _ (hends x) _ (dropWhile_front front _)) (hw' x) full).run hcs'

theorem Delimited.read_skips (hr : r.Delimited) (h : r.read depth cs = .ok (a, rest)) :
    skip cs = .ok ((), rest) := by
  have hlength := (settles_blanks cs).length_le
  generalize hfront : cs.dropWhile isBlank = text at hlength
  have hyields := of_read h
  rw [hfront] at hyields
  suffices hskips : Skips (cs.length + 1) text rest by exact skip_of_skipWithin (hskips.run hfront)
  cases hyields with
  | @object depth _ _ _ _ inner full =>
    have hfollows : Follows (r.readField depth) (skipField cs.length) fun _ _ cs' =>
        cs'.length ≤ cs.length := by
      refine ⟨fun hR hs => Nat.le_trans hs.length_le hR, fun hR hends hitem => ?_⟩
      obtain ⟨w, hcs, _⟩ := (hr.readField_local _).behind hitem
      rw [hcs, List.length_append] at hR
      exact ⟨(), hr.readField_skips hends (by rw [hcs, List.length_append]; exact hR) hitem, by omega⟩
    obtain ⟨_, hitems, _⟩ := hfollows.items (.inr rfl) (t := ()) (Nat.le_of_succ_le hlength) inner
    exact .object hitems
  | empty front => exact .array (items_close _ _ front)
  | @array depth tail more mid _ c f fields g q _ split front square first elements full =>
    have hall : ∀ f' ∈ f :: fields, f'.form.Delimited := fun f' hf' => hr f' (split ▸ hf')
    obtain ⟨hf, hfields⟩ := List.forall_mem_cons.1 hall
    have htail := (settles_blanks tail).length_le
    rw [front] at htail
    rw [List.length_cons] at hlength
    have hskip : skipWithin cs.length (c :: more) = .ok ((), mid) :=
      skipWithin_of_skip (hf.skips elements.ends_number first) (by omega)
    have hmid := (skipWithin_settles hskip).length_le
    refine .array ?_
    rw [items_run front square hskip]
    exact elements.skips hfields (by omega) (Nat.le_refl _)

/-- A record is a form of the same kind as those of its fields. -/
theorem Delimited.form (hr : r.Delimited) : r.form.Delimited :=
  ⟨hr.read_local, fun _ h => hr.read_skips h⟩

end Record

end NotebookKernel.Json
