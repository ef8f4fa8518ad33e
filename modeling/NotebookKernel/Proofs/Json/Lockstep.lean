import NotebookKernel.Proofs.Json.Extent

namespace NotebookKernel.Json

namespace Scan

variable {s : Scan} {cs w x rest : List Char}

/-- The greatest number of brackets that are open at once, from here to the end of the text. -/
def peak : Scan → List Char → Nat
  | s, [] => s.depth
  | s, c :: cs => max s.depth (peak (s.step c) cs)

theorem depth_le_peak (s : Scan) (cs : List Char) : s.depth ≤ s.peak cs := by
  cases cs with
  | nil => exact Nat.le_refl _
  | cons c cs => exact Nat.le_max_left _ _

theorem depth_step_le (s : Scan) (c : Char) : (s.step c).depth ≤ s.depth + 1 := by
  unfold step
  repeat' split
  all_goals first | exact Nat.le_refl _ | exact Nat.le_succ _ | exact Nat.le_succ_of_le (Nat.pred_le _)

theorem peak_le (s : Scan) (cs : List Char) : s.peak cs ≤ s.depth + cs.length := by
  induction cs generalizing s with
  | nil => exact Nat.le_refl _
  | cons c cs ih =>
    have hstep := depth_step_le s c
    have hrest := ih (s.step c)
    rw [peak, List.length_cons]
    omega

theorem peak_foldl_le (s : Scan) (w x : List Char) : peak (w.foldl step s) x ≤ peak s (w ++ x) := by
  induction w generalizing s with
  | nil => exact Nat.le_refl _
  | cons c w ih => exact Nat.le_trans (ih (s.step c)) (Nat.le_max_right _ _)

/-- A scan that has not come to the end of its brackets is still on its way behind a text. -/
theorem beyond_foldl (h : beyond s (w ++ x) = some rest) (hrest : rest.length ≤ x.length) :
    beyond (w.foldl step s) x = some rest := by
  induction w generalizing s with
  | nil => exact h
  | cons c w ih =>
    by_cases hs : s = closed
    · rw [hs, beyond_closed] at h
      have hlength := congrArg List.length (Option.some.inj h)
      rw [List.length_append, List.length_cons] at hlength
      omega
    · rw [List.cons_append, beyond_cons hs] at h
      exact ih h

theorem beyond_closing (n : Nat) : beyond ⟨n, .plain⟩ (List.replicate n ']') = some [] := by
  induction n with
  | zero => rfl
  | succ n ih => exact (beyond_plain n ']' _).trans ih

/-- As many closing brackets as end a scan are open before them. -/
theorem eq_of_beyond_closing {n : Nat} (h : beyond s (List.replicate n ']') = some []) :
    s = ⟨n, .plain⟩ := by
  induction n generalizing s with
  | zero =>
    by_cases hs : s = closed
    · exact hs
    · exact nomatch (if_neg hs).symm.trans h
  | succ n ih =>
    have hs : s ≠ closed := by
      rintro rfl
      rw [beyond_closed] at h
      exact nomatch h
    rw [List.replicate_succ, beyond_cons hs] at h
    have hstep := ih h
    obtain ⟨depth, place⟩ := s
    cases place with
    | plain =>
      have hdepth : depth - 1 = n := congrArg Scan.depth hstep
      have hne : depth ≠ 0 := fun hzero => hs (by rw [hzero]; rfl)
      rw [show depth = n + 1 by omega]
    | quoted | escaped => exact nomatch congrArg Scan.place hstep

end Scan

open Scan

/-- The brackets that are open at once in a text. -/
def nesting (text : List Char) : Nat := closed.peak text

variable {c : Char} {cs mid rest tail w : List Char}

/-- The scan comes from one place of a text to another with the brackets open that were open before. -/
def Settles (cs rest : List Char) : Prop :=
  ∃ w, cs = w ++ rest ∧ ∀ n, w.foldl step ⟨n + 1, .plain⟩ = ⟨n + 1, .plain⟩

theorem Settles.trans (h : Settles cs mid) (h' : Settles mid rest) : Settles cs rest := by
  obtain ⟨w, rfl, hw⟩ := h
  obtain ⟨w', rfl, hw'⟩ := h'
  refine ⟨w ++ w', by rw [List.append_assoc], fun n => ?_⟩
  rw [List.foldl_append, hw, hw']

theorem Settles.length_le (h : Settles cs rest) : rest.length ≤ cs.length := by
  obtain ⟨w, rfl, _⟩ := h
  rw [List.length_append]
  omega

theorem foldl_of_level (h : ∀ x, EndsNumber x → Level (w ++ x) x) (n : Nat) :
    w.foldl step ⟨n + 1, .plain⟩ = ⟨n + 1, .plain⟩ := by
  have hends : EndsNumber (List.replicate (n + 1) ']') :=
    EndsItem.ends_number (.inr (.inl rfl)) _
  have hclosing := (h _ hends n).trans (beyond_closing (n + 1))
  exact eq_of_beyond_closing (beyond_foldl hclosing (Nat.zero_le _))

theorem settles_of_level (h : ∀ x, EndsNumber x → Level (w ++ x) x) (rest : List Char) :
    Settles (w ++ rest) rest := ⟨w, rfl, foldl_of_level h⟩

theorem Ordinary.settles (h : Ordinary c) (cs : List Char) : Settles (c :: cs) cs :=
  settles_of_level (w := [c]) (fun x _ => h.level x) cs

theorem settles_blanks (cs : List Char) : Settles cs (cs.dropWhile isBlank) := by
  obtain ⟨b, hb, hsplit⟩ := exists_blanks cs
  have hordinary : ∀ c ∈ b, Ordinary c := fun c hc => .of_bool (by simp [isBlank]) (hb c hc)
  have hsettles := settles_of_level (fun x _ => level_append hordinary x) (cs.dropWhile isBlank)
  rw [← hsplit] at hsettles
  exact hsettles

/-- With `n` brackets open, `depth'` more are enough for a text where `depth` were. -/
def Room (n depth depth' : Nat) (cs : List Char) : Prop :=
  depth ≤ depth' ∨ peak ⟨n, .plain⟩ cs ≤ n + depth'

variable {n depth depth' : Nat}

theorem Room.settles (hs : Settles cs rest) (h : Room (n + 1) depth depth' cs) :
    Room (n + 1) depth depth' rest := by
  obtain ⟨w, rfl, hw⟩ := hs
  apply h.imp_right
  intro hpeak
  have hle := peak_foldl_le ⟨n + 1, .plain⟩ w rest
  rw [hw] at hle
  exact Nat.le_trans hle hpeak

theorem Room.opened (hc : c = '[' ∨ c = '\x7b') (h : Room n (depth + 1) depth' (c :: tail)) :
    ∃ depth'', depth' = depth'' + 1 ∧ Room (n + 1) depth depth'' tail := by
  have hpeak : peak ⟨n, .plain⟩ (c :: tail) = max n (peak ⟨n + 1, .plain⟩ tail) := by
    rw [peak]
    simp only [step, hc, ↓reduceIte]
  have hle := depth_le_peak ⟨n + 1, .plain⟩ tail
  cases depth' with
  | zero =>
    obtain h | h := h
    · exact absurd h (Nat.not_succ_le_zero depth)
    · simp only [hpeak] at h hle
      omega
  | succ depth'' =>
    refine ⟨depth'', rfl, ?_⟩
    obtain h | h := h
    · exact .inl (Nat.le_of_succ_le_succ h)
    · right
      omega

namespace Reader

variable {α σ τ : Type} {r : Reader α} {a : α} {close : Char} {item : σ → Reader σ}
  {item' : τ → Reader τ} {R : σ → τ → List Char → Prop} {s s' : σ} {t : τ} {u : Unit}

/-- One reader of items keeps up with another. -/
structure Follows (item : σ → Reader σ) (item' : τ → Reader τ) (R : σ → τ → List Char → Prop) :
    Prop where
  settles : ∀ {s t cs rest}, R s t cs → Settles cs rest → R s t rest
  item : ∀ {s t cs s' rest}, R s t cs → EndsNumber rest → item s cs = .ok (s', rest) →
    ∃ t', item' t cs = .ok (t', rest) ∧ R s' t' rest

theorem ends_of_moreItems (hclose : Closing close) {bound : List Char}
    (h : moreItems close item bound s cs = .ok (s', rest)) : EndsNumber cs := by
  cases bound with
  | nil => exact nomatch h
  | cons _ bound =>
    obtain ⟨first, tail, hnext, h⟩ := of_upcoming_bind h
    obtain ⟨b, hb, hsplit⟩ := exists_blanks cs
    have hfirst : EndsItem first := by
      dsimp only at h
      rw [set_run] at h
      split at h
      next hfirst => exact hfirst ▸ hclose.ends_item
      next =>
        split at h
        next hfirst => exact .inl hfirst
        next => exact nomatch h
    rw [hsplit, hnext]
    exact .blanks hb (hfirst.ends_number tail)

theorem Follows.moreItems (hf : Follows item item' R) (hclose : Closing close) {bound : List Char}
    (hR : R s t cs) (h : moreItems close item bound s cs = .ok (s', rest)) :
    ∃ t', Reader.moreItems close item' bound t cs = .ok (t', rest) ∧ R s' t' (close :: rest) := by
  induction bound generalizing s t cs with
  | nil => cases h
  | cons _ bound ih =>
    obtain ⟨first, tail, hnext, h⟩ := of_upcoming_bind h
    have hfront : R s t (first :: tail) := hnext ▸ hf.settles hR (settles_blanks cs)
    rw [Reader.moreItems, upcoming_run hnext]
    dsimp only at h ⊢
    rw [set_run] at h ⊢
    split at h
    next hfirst =>
      obtain ⟨rfl, rfl⟩ := of_pure h
      simp only [hfirst, ↓reduceIte]
      exact ⟨t, rfl, hfirst ▸ hfront⟩
    next hfirst =>
      simp only [if_neg hfirst]
      split at h
      next hcomma =>
        subst hcomma
        obtain ⟨s₁, mid, hitem, hmore⟩ := of_bind h
        have hordinary : Ordinary ',' := by decide
        obtain ⟨t₁, hitem', hR'⟩ := hf.item (hf.settles hfront (hordinary.settles tail))
          (ends_of_moreItems hclose hmore) hitem
        simp only [↓reduceIte]
        rw [bind_run hitem']
        exact ih hR' hmore
      next => cases h

theorem Follows.items (hf : Follows item item' R) (hclose : Closing close) (hR : R s t cs)
    (h : items close item s cs = .ok (s', rest)) :
    ∃ t', Reader.items close item' t cs = .ok (t', rest) ∧ R s' t' (close :: rest) := by
  obtain ⟨first, tail, hnext, h⟩ := of_upcoming_bind h
  have hfront : R s t (first :: tail) := hnext ▸ hf.settles hR (settles_blanks cs)
  rw [Reader.items, upcoming_run hnext]
  dsimp only at h ⊢
  split at h
  next hfirst =>
    obtain ⟨rfl, rfl⟩ := of_pure h
    simp only [hfirst, ↓reduceIte]
    exact ⟨t, rfl, hfirst ▸ hfront⟩
  next hfirst =>
    obtain ⟨s₁, mid, hitem, hmore⟩ := of_bind h
    rw [get_run] at hmore
    obtain ⟨t₁, hitem', hR'⟩ := hf.item hfront (ends_of_moreItems hclose hmore) hitem
    simp only [if_neg hfirst]
    rw [bind_run hitem', get_run]
    exact hf.moreItems hclose hR' hmore

theorem items_close (item : σ → Reader σ) (s : σ) (hfront : cs.dropWhile isBlank = close :: rest) :
    items close item s cs = .ok (s, rest) := by
  rw [items, upcoming_run hfront]
  simp only [↓reduceIte]
  rfl

/-- A list begins with its first item. -/
theorem items_run {c : Char} {bound : List Char} (hfront : cs.dropWhile isBlank = c :: tail)
    (hc : c ≠ close) (hitem : item s (c :: tail) = .ok (s', bound)) :
    items close item s cs = moreItems close item bound s' bound := by
  rw [items, upcoming_run hfront]
  simp only [if_neg hc]
  rw [bind_run hitem, get_run]

theorem moreItems_run (item : σ → Reader σ) (s : σ) (h : token close cs = .ok (u, rest)) :
    moreItems close item cs s cs = .ok (s, rest) := by
  have hfront := of_token h
  cases cs with
  | nil => exact nomatch hfront
  | cons b bound =>
    rw [moreItems, upcoming_run hfront]
    simp only [↓reduceIte]
    rfl

variable {depth depth' : Nat} {v : Value} {k : String} {embedded : List Char → Except Fault Value}

theorem of_addItem {vs vs' : List Value} (h : addItem embedded depth vs cs = .ok (vs', rest)) :
    ∃ v, valueWith embedded depth cs = .ok (v, rest) ∧ vs' = v :: vs := by
  obtain ⟨v, mid, hvalue, h⟩ := of_bind h
  obtain ⟨rfl, rfl⟩ := of_pure h
  exact ⟨v, hvalue, rfl⟩

theorem of_addField {fields fields' : List (String × Value)}
    (h : addField embedded depth fields cs = .ok (fields', rest)) :
    ∃ k mid mid' v, key cs = .ok (k, mid) ∧ token ':' mid = .ok ((), mid') ∧
      valueWith embedded depth mid' = .ok (v, rest) ∧ fields' = insertField k v fields := by
  obtain ⟨k, mid, hkey, h⟩ := of_bind h
  obtain ⟨_, mid', htoken, h⟩ := of_bind h
  obtain ⟨v, _, hvalue, h⟩ := of_bind h
  obtain ⟨rfl, rfl⟩ := of_pure h
  exact ⟨k, mid, mid', v, hkey, htoken, hvalue, rfl⟩

theorem of_skipField (h : skipField depth u cs = .ok ((), rest)) :
    ∃ mid mid', skipKey cs = .ok ((), mid) ∧ token ':' mid = .ok ((), mid') ∧
      skipWithin depth mid' = .ok ((), rest) := by
  rw [skipField_eq] at h
  obtain ⟨_, mid, hkey, h⟩ := of_bind h
  obtain ⟨_, mid', htoken, h⟩ := of_bind h
  exact ⟨mid, mid', hkey, htoken, h⟩

theorem skipField_parts {mid' : List Char} (hkey : skipKey cs = .ok ((), mid))
    (htoken : token ':' mid = .ok ((), mid')) (hvalue : skipWithin depth mid' = .ok ((), rest))
    (u : Unit) : skipField depth u cs = .ok ((), rest) := by
  rw [skipField_eq, bind_run hkey, bind_run htoken]
  exact hvalue

/-- How an object goes on behind its first key. -/
inductive Continues (embedded : List Char → Except Fault Value) (depth : Nat) (k : String)
    (cs : List Char) : Value → List Char → Prop where
  | embedded {mid mid' rest : List Char} {text : String} {v : Value} (reserved : k = verbatimKey)
      (colon : token ':' cs = .ok ((), mid)) (string : onlyString mid = .ok (text, mid'))
      (value : embedded text.toList = .ok v) (close : token '\x7d' mid' = .ok ((), rest)) :
      Continues embedded depth k cs v rest
  | fields {mid mid' rest : List Char} {v : Value} {fields : List (String × Value)}
      (unreserved : k ≠ verbatimKey) (colon : token ':' cs = .ok ((), mid))
      (value : valueWith embedded depth mid = .ok (v, mid'))
      (more : moreItems '\x7d' (addField embedded depth) mid' [(k, v)] mid' = .ok (fields, rest)) :
      Continues embedded depth k cs (.object fields) rest

theorem of_objectFrom (h : objectFrom embedded depth k cs = .ok (v, rest)) :
    Continues embedded depth k cs v rest := by
  unfold objectFrom at h
  split at h
  next hreserved =>
    obtain ⟨_, mid, htoken, h⟩ := of_bind h
    obtain ⟨text, mid', hstring, h⟩ := of_bind h
    cases hvalue : embedded text.toList with
    | error f =>
      rw [hvalue] at h
      exact nomatch h
    | ok v' =>
      rw [hvalue] at h
      obtain ⟨_, _, hclose, h⟩ := of_bind h
      obtain ⟨rfl, rfl⟩ := of_pure h
      exact .embedded hreserved htoken hstring hvalue hclose
  next hunreserved =>
    obtain ⟨_, mid, htoken, h⟩ := of_bind h
    obtain ⟨v', mid', hvalue, h⟩ := of_bind h
    rw [get_run] at h
    obtain ⟨fields, _, hmore, h⟩ := of_bind h
    obtain ⟨rfl, rfl⟩ := of_pure h
    exact .fields hunreserved htoken hvalue hmore

theorem Continues.run (h : Continues embedded depth k cs v rest) :
    objectFrom embedded depth k cs = .ok (v, rest) := by
  cases h with
  | embedded reserved colon string value close =>
    rw [objectFrom, if_pos reserved, embeddedValue, bind_run colon, bind_run string, value]
    exact bind_run close _
  | fields unreserved colon value more =>
    rw [objectFrom, if_neg unreserved, bind_run colon, bind_run value, get_run]
    exact bind_run more _

theorem key_skips (h : key cs = .ok (k, rest)) : skipKey cs = .ok ((), rest) := by
  obtain ⟨w, hfront, hw⟩ := of_key h
  obtain ⟨w', rfl⟩ := hw.cons
  obtain ⟨_, hloose⟩ := hw.loose
  rw [skipKey, upcoming_run hfront]
  exact hloose.skipString rest

theorem onlyString_skips {text : String} (h : onlyString cs = .ok (text, rest)) (depth : Nat) :
    skipWithin depth cs = .ok ((), rest) := by
  obtain ⟨w, hfront, hw⟩ := of_onlyString h
  obtain ⟨w', rfl⟩ := hw.cons
  obtain ⟨_, hloose⟩ := hw.loose
  have hskip : skipScalar '"' ('"' :: (w' ++ rest)) = .ok ((), rest) := hloose.skipString rest
  exact (Skips.scalar (by decide) (by decide) hskip).run hfront

theorem addField_skips {fields fields' : List (String × Value)}
    (hvalue : ∀ {cs v}, valueWith embedded depth cs = .ok (v, rest) →
      skipWithin depth cs = .ok ((), rest))
    (h : addField embedded depth fields cs = .ok (fields', rest)) (u : Unit) :
    skipField depth u cs = .ok ((), rest) := by
  obtain ⟨k, mid, mid', v, hkey, htoken, hread, _⟩ := of_addField h
  exact skipField_parts (key_skips hkey) htoken (hvalue hread) u

theorem valueWith_skips (hrest : EndsNumber rest) (h : valueWith embedded depth cs = .ok (v, rest)) :
    skipWithin depth cs = .ok ((), rest) := by
  induction depth using Nat.strongRecOn generalizing cs v rest with
  | ind depth ih =>
    generalize hfront : cs.dropWhile isBlank = text
    have hyields := of_valueWith h
    rw [hfront] at hyields
    cases hyields with
    | @array depth _ _ _ inner =>
      have hfollows : Follows (addItem embedded depth) (fun _ : Unit => skipWithin depth)
          fun _ _ _ => True := by
        refine ⟨fun _ _ => trivial, fun _ hends hitem => ?_⟩
        obtain ⟨v, hvalue, _⟩ := of_addItem hitem
        exact ⟨(), ih depth depth.lt_succ_self hends hvalue, trivial⟩
      obtain ⟨_, hitems, _⟩ := hfollows.items (.inl rfl) trivial inner
      exact (Skips.array hitems).run hfront
    | @empty depth _ _ front =>
      have hitems := items_close (skipField depth) () front
      exact (Skips.object hitems).run hfront
    | @object depth _ _ _ _ _ front curly inner =>
      have hfollows : Follows (addField embedded depth) (skipField depth) fun _ _ _ => True := by
        refine ⟨fun _ _ => trivial, fun _ hends hitem => ⟨(), ?_, trivial⟩⟩
        exact addField_skips (ih depth depth.lt_succ_self hends) hitem ()
      obtain ⟨k, mid, hkey, hobject⟩ := of_bind inner
      refine (Skips.object ?_).run hfront
      cases of_objectFrom hobject with
      | embedded _ colon string _ close =>
        have hfield := skipField_parts (key_skips hkey) colon (onlyString_skips string depth) ()
        rw [items_run front curly hfield]
        exact moreItems_run _ _ close
      | fields _ colon value more =>
        have hends := ends_of_moreItems (.inr rfl) more
        have hfield :=
          skipField_parts (key_skips hkey) colon (ih depth depth.lt_succ_self hends value) ()
        obtain ⟨_, hmore, _⟩ := hfollows.moreItems (.inr rfl) (t := ()) trivial more
        rw [items_run front curly hfield]
        exact hmore
    | scalar square curly inner =>
      obtain ⟨w, rfl, hw⟩ := of_scalar_cons inner
      exact (Skips.scalar square curly (hw rest hrest).2).run hfront

theorem Local.settles (hr : Local r)
    (hlevel : ∀ {cs a rest}, r cs = .ok (a, rest) → Level cs rest) (h : r cs = .ok (a, rest)) :
    Settles cs rest := by
  obtain ⟨c, w, hfront, hw⟩ := hr h
  have hc := not_blank_of_dropWhile hfront
  have hblanks := settles_blanks cs
  rw [hfront] at hblanks
  refine hblanks.trans (settles_of_level (w := c :: w) (fun x hx => ?_) rest)
  exact hlevel (hw x hx _ (List.dropWhile_cons_of_neg (by simp [hc])))

theorem skipKey_level (h : skipKey cs = .ok (u, rest)) : Level cs rest := by
  obtain ⟨tail, hfront, hskip⟩ := of_onQuote (not_throw .malformed) h
  have hblanks := level_blanks cs
  rw [hfront] at hblanks
  exact hblanks.trans (skipString_level hskip)

theorem skipKey_settles (h : skipKey cs = .ok (u, rest)) : Settles cs rest :=
  skipKey_local.settles skipKey_level h

theorem colon_settles (h : token ':' cs = .ok (u, rest)) : Settles cs rest := by
  have hcolon : Ordinary ':' := by decide
  have hblanks := settles_blanks cs
  rw [of_token h] at hblanks
  exact hblanks.trans (hcolon.settles rest)

theorem skipWithin_settles (h : skipWithin depth cs = .ok (u, rest)) : Settles cs rest :=
  (skipWithin_local depth).settles
    (fun hskip => (level_blanks _).trans (skipWithin_passed hskip).level) h

theorem skipWithin_room {n : Nat} (hroom : Room n depth depth' (cs.dropWhile isBlank))
    (h : skipWithin depth cs = .ok ((), rest)) : skipWithin depth' cs = .ok ((), rest) := by
  induction depth using Nat.strongRecOn generalizing n depth' cs rest with
  | ind depth ih =>
    generalize hfront : cs.dropWhile isBlank = text at hroom
    have hskips := of_skipWithin h
    rw [hfront] at hskips
    cases hskips with
    | @array depth _ _ inner =>
      obtain ⟨depth'', rfl, hinner⟩ := hroom.opened (.inl rfl)
      have hfollows : Follows (fun _ : Unit => skipWithin depth)
          (fun _ : Unit => skipWithin depth'') fun _ _ cs => Room (n + 1) depth depth'' cs := by
        refine ⟨fun hR hs => hR.settles hs, fun hR _ hitem => ?_⟩
        have hvalue := ih depth depth.lt_succ_self (hR.settles (settles_blanks _)) hitem
        exact ⟨(), hvalue, hR.settles (skipWithin_settles hitem)⟩
      obtain ⟨_, hitems, _⟩ := hfollows.items (.inl rfl) hinner inner
      exact (Skips.array hitems).run hfront
    | @object depth _ _ inner =>
      obtain ⟨depth'', rfl, hinner⟩ := hroom.opened (.inr rfl)
      have hfollows : Follows (skipField depth) (skipField depth'')
          fun _ _ cs => Room (n + 1) depth depth'' cs := by
        refine ⟨fun hR hs => hR.settles hs, fun hR _ hitem => ?_⟩
        obtain ⟨mid, mid', hkey, htoken, hvalue⟩ := of_skipField hitem
        have hmid := (hR.settles (skipKey_settles hkey)).settles (colon_settles htoken)
        have hvalue' := ih depth depth.lt_succ_self (hmid.settles (settles_blanks _)) hvalue
        exact ⟨(), skipField_parts hkey htoken hvalue' (), hmid.settles (skipWithin_settles hvalue)⟩
      obtain ⟨_, hitems, _⟩ := hfollows.items (.inr rfl) hinner inner
      exact (Skips.object hitems).run hfront
    | scalar square curly inner => exact (Skips.scalar square curly inner).run hfront

/-- Room for a text of at most `N` characters. -/
structure Roomy (N n depth depth' : Nat) (cs : List Char) : Prop where
  room : Room (n + 1) depth depth' cs
  length_le : cs.length ≤ N

theorem Roomy.settles {N n : Nat} (h : Roomy N n depth depth' cs) (hs : Settles cs rest) :
    Roomy N n depth depth' rest := ⟨h.room.settles hs, Nat.le_trans hs.length_le h.length_le⟩

theorem valueWith_settles (hrest : EndsNumber rest)
    (h : valueWith embedded depth cs = .ok (v, rest)) : Settles cs rest :=
  skipWithin_settles (valueWith_skips hrest h)

theorem onlyString_length {text : String} (h : onlyString cs = .ok (text, rest)) :
    text.toList.length < cs.length := by
  obtain ⟨w, hfront, hw⟩ := of_onlyString h
  have hle := (settles_blanks cs).length_le
  have hlt := hw.length_lt
  rw [hfront, List.length_append] at hle
  omega

variable {embedded' : List Char → Except Fault Value} {N n : Nat}

/-- Where there is room, values are read alike with other bounds and other embedded texts. -/
def Alike (N n depth depth' : Nat) (embedded embedded' : List Char → Except Fault Value) : Prop :=
  ∀ cs v rest, EndsNumber rest → Roomy N n depth depth' cs →
    valueWith embedded depth cs = .ok (v, rest) →
    valueWith embedded' depth' cs = .ok (v, rest) ∧ Roomy N n depth depth' rest

theorem Alike.addItem (h : Alike N n depth depth' embedded embedded') :
    Follows (addItem embedded depth) (addItem embedded' depth')
      fun s t cs => s = t ∧ Roomy N n depth depth' cs := by
  refine ⟨fun hR hs => ⟨hR.1, hR.2.settles hs⟩, ?_⟩
  rintro s _ cs s' rest ⟨rfl, hR⟩ hends hitem
  obtain ⟨v, hvalue, rfl⟩ := of_addItem hitem
  obtain ⟨hvalue', hrest⟩ := h _ _ _ hends hR hvalue
  exact ⟨_, bind_run hvalue' _, rfl, hrest⟩

theorem Alike.addField (h : Alike N n depth depth' embedded embedded') :
    Follows (addField embedded depth) (addField embedded' depth')
      fun s t cs => s = t ∧ Roomy N n depth depth' cs := by
  refine ⟨fun hR hs => ⟨hR.1, hR.2.settles hs⟩, ?_⟩
  rintro s _ cs s' rest ⟨rfl, hR⟩ hends hitem
  obtain ⟨k, mid, mid', v, hkey, htoken, hvalue, rfl⟩ := of_addField hitem
  have hmid := (hR.settles (skipKey_settles (key_skips hkey))).settles (colon_settles htoken)
  obtain ⟨hvalue', hrest⟩ := h _ _ _ hends hmid hvalue
  have hfield : Reader.addField embedded' depth' s cs = .ok (insertField k v s, rest) := by
    rw [Reader.addField, bind_run hkey, bind_run htoken, bind_run hvalue']
    rfl
  exact ⟨_, hfield, rfl, hrest⟩

theorem Continues.alike (h : Continues embedded depth k cs v rest)
    (halike : Alike N n depth depth' embedded embedded')
    (he : ∀ t u, t.length < N → embedded t = .ok u → embedded' t = .ok u)
    (hR : Roomy N n depth depth' cs) : Continues embedded' depth' k cs v rest := by
  cases h with
  | embedded reserved colon string value close =>
    have hstring := onlyString_length string
    have hmid := (hR.settles (colon_settles colon)).length_le
    exact .embedded reserved colon string (he _ _ (Nat.lt_of_lt_of_le hstring hmid) value) close
  | fields unreserved colon value more =>
    have hends := ends_of_moreItems (.inr rfl) more
    obtain ⟨hvalue, hmid⟩ := halike _ _ _ hends (hR.settles (colon_settles colon)) value
    obtain ⟨_, hmore, rfl, _⟩ := halike.addField.moreItems (.inr rfl) ⟨rfl, hmid⟩ more
    exact .fields unreserved colon hvalue hmore

/-- A value is read alike with another bound on its brackets that has room for them, and where the texts
embedded in it are read alike. -/
theorem valueWith_room (he : ∀ t u, t.length < N → embedded t = .ok u → embedded' t = .ok u)
    (hrest : EndsNumber rest) (hN : cs.length ≤ N) (hroom : Room n depth depth' (cs.dropWhile isBlank))
    (h : valueWith embedded depth cs = .ok (v, rest)) :
    valueWith embedded' depth' cs = .ok (v, rest) := by
  induction depth using Nat.strongRecOn generalizing n depth' cs v rest with
  | ind depth ih =>
    have halike {depth₁ depth'' : Nat} (hlt : depth₁ < depth) :
        Alike N n depth₁ depth'' embedded embedded' := fun cs v rest hends hR hvalue =>
      ⟨ih depth₁ hlt hends hR.length_le (hR.room.settles (settles_blanks cs)) hvalue,
        hR.settles (valueWith_settles hends hvalue)⟩
    have hlength := Nat.le_trans (settles_blanks cs).length_le hN
    generalize hfront : cs.dropWhile isBlank = text at hroom
    have hyields := of_valueWith h
    rw [hfront] at hyields hlength
    cases hyields with
    | @array depth tail _ _ inner =>
      obtain ⟨depth'', rfl, hinner⟩ := hroom.opened (.inl rfl)
      have hroomy : Roomy N n depth depth'' tail := ⟨hinner, Nat.le_of_succ_le hlength⟩
      obtain ⟨_, hitems, rfl, _⟩ :=
        (halike depth.lt_succ_self).addItem.items (.inl rfl) ⟨rfl, hroomy⟩ inner
      exact (Yields.array hitems).run hfront
    | empty front =>
      obtain ⟨depth'', rfl, _⟩ := hroom.opened (.inr rfl)
      exact (Yields.empty front).run hfront
    | @object depth tail more _ c _ front curly inner =>
      obtain ⟨depth'', rfl, hinner⟩ := hroom.opened (.inr rfl)
      have hroomy : Roomy N n depth depth'' tail := ⟨hinner, Nat.le_of_succ_le hlength⟩
      obtain ⟨k, mid, hkey, hobject⟩ := of_bind inner
      have hblanks := settles_blanks tail
      rw [front] at hblanks
      have hmid := (hroomy.settles hblanks).settles (skipKey_settles (key_skips hkey))
      have hcontinues := (of_objectFrom hobject).alike (halike depth.lt_succ_self) he hmid
      exact (Yields.object front curly ((bind_run hkey _).trans hcontinues.run)).run hfront
    | scalar square curly inner => exact (Yields.scalar square curly inner).run hfront

end Reader

end NotebookKernel.Json
