import Mathlib.Data.List.Induction
import NotebookKernel.Proofs.Json.Delimited

namespace NotebookKernel.Json

/-- A key and the text of its value, behind the entries so far. -/
def Reader.entry (es : List (String × List Char)) : Reader (List (String × List Char)) := do
  let k ← key
  token ':'
  return es ++ [(k, ← verbatim)]

/-- The entries of the object that a text holds. -/
def entries (text : List Char) : Except Fault (List (String × List Char)) :=
  Reader.whole (do Reader.token '\x7b'; Reader.items '\x7d' Reader.entry []) text

/-- The texts of the values that a key has. -/
def valuesOf (k : String) (es : List (String × List Char)) : List (List Char) :=
  (es.filter (·.1 == k)).map (·.2)

open Reader

variable {cs rest text bound : List Char} {es es' : List (String × List Char)} {k : String}
  {t : List Char}

theorem of_entry (h : entry es cs = .ok (es', rest)) :
    ∃ k mid mid' t, key cs = .ok (k, mid) ∧ token ':' mid = .ok ((), mid') ∧
      verbatim mid' = .ok (t, rest) ∧ es' = es ++ [(k, t)] := by
  obtain ⟨k, mid, hkey, h⟩ := of_bind h
  obtain ⟨_, mid', htoken, h⟩ := of_bind h
  obtain ⟨t, _, hcut, h⟩ := of_bind h
  obtain ⟨rfl, rfl⟩ := of_pure h
  exact ⟨k, mid, mid', t, hkey, htoken, hcut, rfl⟩

theorem of_entries (h : entries text = .ok es) :
    ∃ tail blanks, text.dropWhile isBlank = '\x7b' :: tail ∧ Blanks blanks ∧
      items '\x7d' entry [] tail = .ok (es, blanks) := by
  obtain ⟨blanks, hread, hblanks⟩ := of_whole_blanks h
  obtain ⟨_, tail, htoken, hitems⟩ := of_bind hread
  exact ⟨tail, blanks, of_token htoken, hblanks, hitems⟩

/-- The texts of the values are cut out of themselves. -/
theorem entries_cut (h : entries text = .ok es) : ∀ e ∈ es, verbatim e.2 = .ok (e.2, []) := by
  obtain ⟨tail, blanks, _, _, hitems⟩ := of_entries h
  have hkeeps : Keeps entry fun es _ => ∀ e ∈ es, verbatim e.2 = .ok (e.2, []) := by
    refine ⟨fun he => he, fun he => he, fun he hitem => ?_⟩
    obtain ⟨k, mid, mid', t, _, _, hcut, rfl⟩ := of_entry hitem
    intro e hmem
    obtain hmem | hmem := List.mem_append.1 hmem
    · exact he e hmem
    · rw [List.mem_singleton.1 hmem]
      exact verbatim_again hcut
  exact hkeeps.items (List.forall_mem_nil _) hitems

theorem valuesOf_concat (k : String) (es : List (String × List Char)) (e : String × List Char) :
    valuesOf k (es ++ [e]) = valuesOf k es ++ if e.1 = k then [e.2] else [] := by
  simp only [valuesOf, List.filter_append, List.map_append, List.filter_cons, beq_iff_eq]
  split <;> rfl

theorem valuesOf_ne_nil (h : k ∈ es.map (·.1)) : valuesOf k es ≠ [] := by
  obtain ⟨e, he, rfl⟩ := List.mem_map.1 h
  have hmem : e.2 ∈ valuesOf e.1 es :=
    List.mem_map_of_mem (List.mem_filter.2 ⟨he, beq_self_eq_true e.1⟩)
  exact List.ne_nil_of_mem hmem

theorem valuesOf_cut (hes : entries text = .ok es) (h : valuesOf k es = [t]) :
    verbatim t = .ok (t, []) := by
  have hmem : t ∈ valuesOf k es := h ▸ List.mem_singleton_self t
  obtain ⟨e, he, rfl⟩ := List.mem_map.1 hmem
  exact entries_cut hes e (List.mem_filter.1 he).1

theorem valuesOf_eq_nil (h : k ∉ es.map (·.1)) : valuesOf k es = [] := by
  have hnone : es.filter (·.1 == k) = [] := by
    rw [List.filter_eq_nil_iff]
    intro e he hk
    exact h (beq_iff_eq.1 hk ▸ List.mem_map_of_mem he)
  rw [valuesOf, hnone]
  rfl

theorem valuesOf_insert {name : String} (h : k ≠ name) (before after : List (String × List Char))
    (t : List Char) : valuesOf k (before ++ (name, t) :: after) = valuesOf k (before ++ after) := by
  have hname : (name == k) = false := beq_false_of_ne (Ne.symm h)
  simp only [valuesOf, List.filter_append, List.filter_cons, hname, Bool.false_eq_true, ↓reduceIte]

theorem valuesOf_insert_self {before after : List (String × List Char)}
    (h : k ∉ (before ++ after).map (·.1)) (t : List Char) :
    valuesOf k (before ++ (k, t) :: after) = [t] := by
  have hnone := valuesOf_eq_nil h
  simp only [valuesOf, List.filter_append, List.filter_cons, List.map_append,
    List.append_eq_nil_iff, beq_self_eq_true, ↓reduceIte, List.map_cons] at hnone ⊢
  rw [hnone.1, hnone.2]
  rfl

namespace Record

variable {P α : Type} {r : Record P α} {p q : P} {a : α} {depth : Nat} {f : Field P}

/-- What an entry makes of a draft. A repeated key is refused. -/
def addEntry (r : Record P α) (depth : Nat) (p : P) (e : String × List Char) : Except Fault P :=
  match r.fieldNamed? e.1 with
  | some f => if f.isSet p then .error .mismatch else do return (← whole (f.form.read depth) e.2) p
  | none => .ok p

theorem of_addEntry {e : String × List Char} (h : r.addEntry depth p e = .ok q) :
    (∃ f g, r.fieldNamed? e.1 = some f ∧ f.isSet p = false ∧
      whole (f.form.read depth) e.2 = .ok g ∧ q = g p) ∨ (r.fieldNamed? e.1 = none ∧ q = p) := by
  unfold addEntry at h
  cases hf : r.fieldNamed? e.1 with
  | none =>
    simp only [hf] at h
    exact .inr ⟨rfl, (Except.ok.inj h).symm⟩
  | some f =>
    simp only [hf] at h
    split at h
    next => exact nomatch h
    next hset =>
      obtain ⟨g, hread, h⟩ := bind_eq_ok.1 h
      exact .inl ⟨f, g, rfl, Bool.eq_false_iff.2 hset, hread, (Except.ok.inj h).symm⟩

theorem addEntry_known {e : String × List Char} {g : P → P} (hf : r.fieldNamed? e.1 = some f)
    (hset : f.isSet p = false) (hread : whole (f.form.read depth) e.2 = .ok g) :
    r.addEntry depth p e = .ok (g p) := by
  simp only [addEntry, hf, hset, Bool.false_eq_true, ↓reduceIte, hread]
  rfl

theorem addEntry_unknown {e : String × List Char} (hf : r.fieldNamed? e.1 = none) (p : P) :
    r.addEntry depth p e = .ok p := by
  simp only [addEntry, hf]

theorem Delimited.addEntry_of_assigns (hr : r.Delimited) (hrest : EndsNumber rest)
    (h : Assigns r depth p k cs q rest) :
    ∃ t, verbatim cs = .ok (t, rest) ∧ r.addEntry depth p (k, t) = .ok q := by
  cases h with
  | known named unset read =>
    obtain ⟨t, hcut, hread⟩ := (hr _ (List.mem_of_find?_eq_some named)).cuts hrest read
    exact ⟨t, hcut, addEntry_known named unset hread⟩
  | unknown named skipped =>
    obtain ⟨c, w, hfront, hw⟩ := skip_local skipped
    have hcut := verbatim_run hfront (hw rest hrest _ (dropWhile_front hfront _))
    exact ⟨c :: w, hcut, addEntry_unknown named p⟩

theorem Delimited.assigns_of_addEntry (hr : r.Delimited) (hrest : EndsNumber rest)
    (hcut : verbatim cs = .ok (t, rest)) (h : r.addEntry depth p (k, t) = .ok q) :
    Assigns r depth p k cs q rest := by
  obtain ⟨f, g, hf, hset, hread, rfl⟩ | ⟨hf, rfl⟩ := of_addEntry h
  · exact .known hf hset ((hr f (List.mem_of_find?_eq_some hf)).joins hrest hcut hread)
  · obtain ⟨c, w, _, hfront, hw⟩ := of_verbatim hcut
    exact .unknown hf (hw rest hrest _ hfront)

/-- The entries of an object keep up with a record that is read from it. -/
theorem Delimited.follows (hr : r.Delimited) (depth : Nat) :
    Follows (r.readField depth) entry fun p es _ =>
      es.foldlM (r.addEntry depth) r.blank = .ok p := by
  refine ⟨fun hR _ => hR, fun hR hends hitem => ?_⟩
  obtain ⟨k, mid, mid', hkey, htoken, hassigns⟩ := of_readField hitem
  obtain ⟨t, hcut, hadd⟩ := hr.addEntry_of_assigns hends hassigns
  refine ⟨_, (bind_run hkey _).trans ((bind_run htoken _).trans (bind_run hcut _)), ?_⟩
  rw [List.foldlM_append, hR]
  exact bind_eq_ok.2 ⟨_, rfl, bind_eq_ok.2 ⟨_, hadd, rfl⟩⟩

/-- A record whose draft takes the entries of an object is read from it. -/
theorem Delimited.moreItems (hr : r.Delimited)
    (h : Reader.moreItems '\x7d' entry bound es cs = .ok (es', rest)) (depth : Nat) :
    ∃ more, es' = es ++ more ∧ ∀ p q, more.foldlM (r.addEntry depth) p = .ok q →
      Reader.moreItems '\x7d' (r.readField depth) bound p cs = .ok (q, rest) := by
  induction bound generalizing es cs with
  | nil => cases h
  | cons _ bound ih =>
    obtain ⟨first, tail, hnext, h⟩ := of_upcoming_bind h
    dsimp only at h
    rw [set_run] at h
    split at h
    next hfirst =>
      obtain ⟨rfl, rfl⟩ := of_pure h
      refine ⟨[], (List.append_nil _).symm, fun p q hq => ?_⟩
      obtain rfl := Except.ok.inj hq
      rw [Reader.moreItems, upcoming_run hnext]
      simp only [hfirst, ↓reduceIte]
      rfl
    next hfirst =>
      split at h
      next hcomma =>
        obtain ⟨es₁, mid, hitem, hmore⟩ := of_bind h
        obtain ⟨k, mid₁, mid₂, t, hkey, htoken, hcut, rfl⟩ := of_entry hitem
        obtain ⟨more, rfl, hrun⟩ := ih hmore
        refine ⟨(k, t) :: more, by simp, fun p q hq => ?_⟩
        obtain ⟨p', hadd, hq⟩ := bind_eq_ok.1 hq
        have hassigns := hr.assigns_of_addEntry (ends_of_moreItems (.inr rfl) hmore) hcut hadd
        rw [Reader.moreItems, upcoming_run hnext]
        simp only [if_neg hfirst, if_pos hcomma]
        rw [set_run, bind_run (hassigns.run hkey htoken)]
        exact hrun p' q hq
      next => cases h

theorem Delimited.items (hr : r.Delimited) (h : Reader.items '\x7d' entry [] cs = .ok (es, rest))
    (hq : es.foldlM (r.addEntry depth) p = .ok q) :
    Reader.items '\x7d' (r.readField depth) p cs = .ok (q, rest) := by
  obtain ⟨first, tail, hnext, h⟩ := of_upcoming_bind h
  dsimp only at h
  split at h
  next hfirst =>
    obtain ⟨rfl, rfl⟩ := of_pure h
    obtain rfl := Except.ok.inj hq
    exact items_close _ p (hfirst ▸ hnext)
  next hfirst =>
    obtain ⟨es₁, mid, hitem, hmore⟩ := of_bind h
    rw [get_run] at hmore
    obtain ⟨k, mid₁, mid₂, t, hkey, htoken, hcut, rfl⟩ := of_entry hitem
    obtain ⟨more, rfl, hrun⟩ := hr.moreItems hmore depth
    obtain ⟨p', hadd, hq⟩ := bind_eq_ok.1 hq
    have hassigns := hr.assigns_of_addEntry (ends_of_moreItems (.inr rfl) hmore) hcut hadd
    rw [items_run hnext hfirst (hassigns.run hkey htoken)]
    exact hrun p' q hq

/-- A record is read from the text of an object as from its entries. -/
theorem Delimited.read_iff (hr : r.Delimited) (hes : entries text = .ok es) :
    whole (r.read (depth + 1)) text = .ok a ↔
      ∃ q, es.foldlM (r.addEntry depth) r.blank = .ok q ∧ r.complete q = .ok a := by
  obtain ⟨tail, blanks, hfront, hblanks, hentries⟩ := of_entries hes
  constructor
  · intro h
    obtain ⟨_, hread, _⟩ := of_whole_blanks h
    have hyields := of_read hread
    rw [hfront] at hyields
    cases hyields with
    | @object _ _ _ q _ inner full =>
      obtain ⟨es', hitems, hq⟩ := (hr.follows depth).items (.inr rfl) (t := []) rfl inner
      rw [hentries] at hitems
      obtain rfl := (Prod.mk.inj (Except.ok.inj hitems)).1
      exact ⟨q, hq, full⟩
  · rintro ⟨q, hq, full⟩
    exact whole_run_blanks ((Yields.object (hr.items hentries hq) full).run hfront) hblanks

variable {γ : Type} {name : String} {form : Form γ} {fetch : P → Option γ}

/-- A part of the draft that belongs to one field. -/
structure Slot (r : Record P α) (name : String) (form : Form γ) (fetch : P → Option γ) : Prop where
  named : ∃ put default, r.fieldNamed? name = some (.of name form fetch put default) ∧
    ∀ x p, fetch (put x p) = some x
  blank : fetch r.blank = none
  others : ∀ f ∈ r.fields, f.name ≠ name → ∀ {depth cs g rest},
    f.form.read depth cs = .ok (g, rest) → ∀ p, fetch (g p) = fetch p

/-- A field is had from the text of its only value. -/
inductive Taken (read : List Char → Except Fault γ) : List (List Char) → Option γ → Prop where
  | none : Taken read [] none
  | one {t : List Char} {x : γ} (h : read t = .ok x) : Taken read [t] (some x)

theorem Taken.full {read : List Char → Except Fault γ} {ts : List (List Char)} {x : Option γ}
    (h : Taken read ts x) (hne : ts ≠ []) : ∃ t y, ts = [t] ∧ read t = .ok y ∧ x = some y := by
  cases h with
  | none => exact absurd rfl hne
  | one h => exact ⟨_, _, rfl, h, rfl⟩

theorem Taken.only {read : List Char → Except Fault γ} {ts : List (List Char)} {x : Option γ} {y : γ}
    (h : Taken read ts x) (hts : ts = [t]) (hread : read t = .ok y) : x = some y := by
  subst hts
  cases h with
  | one h =>
    rw [hread] at h
    rw [Except.ok.inj h]

theorem Taken.of_some {read : List Char → Except Fault γ} {ts : List (List Char)} {x : γ}
    (h : Taken read ts (some x)) : ∃ t, ts = [t] ∧ read t = .ok x := by
  cases h with
  | one h => exact ⟨_, rfl, h⟩

theorem of_whole_map {put : γ → P → P} {g : P → P}
    (h : whole ((form.map put).read depth) t = .ok g) :
    ∃ x, whole (form.read depth) t = .ok x ∧ g = put x := by
  obtain ⟨blanks, hread, hblanks⟩ := of_whole_blanks h
  obtain ⟨x, hform, rfl⟩ := of_map hread
  exact ⟨x, whole_run_blanks hform hblanks, rfl⟩

theorem whole_map {x : γ} (h : whole (form.read depth) t = .ok x) (put : γ → P → P) :
    whole ((form.map put).read depth) t = .ok (put x) := by
  obtain ⟨blanks, hread, hblanks⟩ := of_whole_blanks h
  refine whole_run_blanks ?_ hblanks
  change (put <$> form.read depth) t = _
  rw [map_eq_pure_bind, bind_run hread]
  rfl

theorem name_of_named (h : r.fieldNamed? k = some f) : f.name = k :=
  have hname : (f.name == k) = true := List.find?_some (p := fun f : Field P => f.name == k) h
  beq_iff_eq.1 hname

/-- What the entries of an object make of a part of the draft. -/
theorem Slot.taken (hs : r.Slot name form fetch)
    (h : es.foldlM (r.addEntry depth) r.blank = .ok q) :
    Taken (whole (form.read depth)) (valuesOf name es) (fetch q) := by
  obtain ⟨put, default, hnamed, hput⟩ := hs.named
  induction es using List.reverseRecOn generalizing q with
  | nil =>
    obtain rfl := Except.ok.inj h
    rw [hs.blank]
    exact .none
  | append_singleton es e ih =>
    rw [List.foldlM_append] at h
    obtain ⟨p, hp, h⟩ := bind_eq_ok.1 h
    obtain ⟨_, hadd, hq⟩ := bind_eq_ok.1 h
    obtain rfl := Except.ok.inj hq
    have htaken := ih hp
    rw [valuesOf_concat]
    obtain ⟨f, g, hf, hset, hread, rfl⟩ | ⟨hf, rfl⟩ := of_addEntry hadd
    · by_cases he : e.1 = name
      · rw [he, hnamed] at hf
        obtain rfl := Option.some.inj hf
        obtain ⟨x, hx, rfl⟩ := of_whole_map hread
        have hunset : fetch p = none := Option.isSome_eq_false_iff.1 hset |> Option.isNone_iff_eq_none.1
        rw [hunset] at htaken
        generalize valuesOf name es = ts at htaken
        cases htaken
        rw [if_pos he, hput]
        exact .one hx
      · obtain ⟨rest, hread, _⟩ := of_whole_blanks hread
        have hne : f.name ≠ name := fun hname => he ((name_of_named hf).symm.trans hname)
        rw [if_neg he, List.append_nil, hs.others f (List.mem_of_find?_eq_some hf) hne hread]
        exact htaken
    · have he : e.1 ≠ name := by
        rintro he
        rw [he, hnamed] at hf
        exact nomatch hf
      rw [if_neg he, List.append_nil]
      exact htaken

theorem Taken.unset {read : List Char → Except Fault γ} (h : Taken read [] (fetch p)) :
    fetch p = .none := by
  generalize fetch p = x at h
  cases h
  rfl

/-- Every field has a part of the draft to itself. -/
def Slotted (r : Record P α) : Prop :=
  ∀ f ∈ r.fields, ∃ (γ : Type) (form : Form γ) (fetch : P → Option γ),
    (∀ p, f.isSet p = (fetch p).isSome) ∧ r.Slot f.name form fetch

/-- The field stands at most once, and then with a text that it can be read from. -/
def Fits (f : Field P) (depth : Nat) (ts : List (List Char)) : Prop :=
  ts = [] ∨ ∃ t g, ts = [t] ∧ whole (f.form.read depth) t = .ok g

theorem Fits.of_append {ts ts' : List (List Char)} (h : Fits f depth (ts ++ ts')) :
    Fits f depth ts := by
  cases ts with
  | nil => exact .inl rfl
  | cons t ts =>
    obtain h | ⟨t', g, h, hread⟩ := h
    · exact nomatch h
    · obtain ⟨rfl, hrest⟩ := List.cons.inj h
      exact .inr ⟨t, g, by rw [(List.append_eq_nil_iff.1 hrest).1], hread⟩

theorem Fits.of_concat {ts : List (List Char)} (h : Fits f depth (ts ++ [t])) :
    ts = [] ∧ ∃ g, whole (f.form.read depth) t = .ok g := by
  obtain h | ⟨t', g, h, hread⟩ := h
  · exact nomatch (List.append_eq_nil_iff.1 h).2
  · have hsplit : ts ++ [t] = [] ++ [t'] := h
    obtain ⟨rfl, ht⟩ := List.append_inj' hsplit rfl
    exact ⟨rfl, g, (List.cons.inj ht).1 ▸ hread⟩

/-- A draft takes all entries when each field fits those with its key. -/
theorem Slotted.exists_draft (hr : r.Slotted)
    (h : ∀ f ∈ r.fields, Fits f depth (valuesOf f.name es)) :
    ∃ q, es.foldlM (r.addEntry depth) r.blank = .ok q := by
  induction es using List.reverseRecOn with
  | nil => exact ⟨r.blank, rfl⟩
  | append_singleton es e ih =>
    obtain ⟨p, hp⟩ := ih fun f hf => (valuesOf_concat f.name es e ▸ h f hf).of_append
    suffices hadd : ∃ q, r.addEntry depth p e = .ok q by
      obtain ⟨q, hadd⟩ := hadd
      refine ⟨q, ?_⟩
      rw [List.foldlM_append, hp]
      exact bind_eq_ok.2 ⟨p, rfl, bind_eq_ok.2 ⟨q, hadd, rfl⟩⟩
    cases hf : r.fieldNamed? e.1 with
    | none => exact ⟨p, addEntry_unknown hf p⟩
    | some f =>
      have hmem := List.mem_of_find?_eq_some hf
      have hfits := h f hmem
      rw [valuesOf_concat, if_pos (name_of_named hf).symm] at hfits
      obtain ⟨hnone, g, hread⟩ := hfits.of_concat
      obtain ⟨γ, form, fetch, hset, hslot⟩ := hr f hmem
      have htaken := hslot.taken hp
      rw [hnone] at htaken
      have hunset : f.isSet p = false := by
        rw [hset, htaken.unset, Option.isSome_none]
      exact ⟨g p, addEntry_known hf hunset hread⟩

end Record

end NotebookKernel.Json
