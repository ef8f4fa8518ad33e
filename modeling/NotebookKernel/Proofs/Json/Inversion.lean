import NotebookKernel.Json.Record
import NotebookKernel.Proofs.Json.Reading

namespace NotebookKernel

theorem bind_eq_ok {ε α β : Type} {x : Except ε α} {f : α → Except ε β} {b : β} :
    (x >>= f) = .ok b ↔ ∃ a, x = .ok a ∧ f a = .ok b := by
  cases x with
  | error e => exact ⟨nofun, nofun⟩
  | ok a =>
    constructor
    · intro h
      exact ⟨a, rfl, h⟩
    · rintro ⟨a', ha, h⟩
      obtain rfl := Except.ok.inj ha
      exact h

theorem exists_ok {ε α β : Type} {x : Except ε α} {f : α → β} {b : β}
    (h : x.toOption.map f = some b) : ∃ a, x = .ok a ∧ f a = b := by
  cases x with
  | error e => exact nomatch h
  | ok a => exact ⟨a, rfl, Option.some.inj h⟩

namespace Json

namespace Reader

variable {α β σ : Type} {cs rest : List Char} {a : α} {b : β}

theorem of_bind {r : Reader α} {f : α → Reader β} (h : (r >>= f) cs = .ok (b, rest)) :
    ∃ a mid, r cs = .ok (a, mid) ∧ f a mid = .ok (b, rest) := by
  obtain ⟨p, hr, h⟩ := bind_eq_ok.1 h
  exact ⟨p.1, p.2, hr, h⟩

theorem of_pure {a' : α} (h : (pure a : Reader α) cs = .ok (a', rest)) : a = a' ∧ cs = rest :=
  Prod.mk.inj (Except.ok.inj h)

theorem of_map {f : α → β} {r : Reader α} (h : (f <$> r) cs = .ok (b, rest)) :
    ∃ a, r cs = .ok (a, rest) ∧ b = f a := by
  obtain ⟨p, hr, h⟩ := bind_eq_ok.1 h
  obtain ⟨rfl, rfl⟩ := of_pure h
  exact ⟨p.1, hr, rfl⟩

theorem of_lift {x : Except Fault α} (h : (liftM x : Reader α) cs = .ok (a, rest)) :
    x = .ok a ∧ rest = cs := by
  obtain ⟨b, hx, h⟩ := bind_eq_ok.1 h
  obtain ⟨rfl, rfl⟩ := of_pure h
  exact ⟨hx, rfl⟩

theorem of_skipBlanks {u : Unit} (h : skipBlanks cs = .ok (u, rest)) :
    rest = cs.dropWhile isBlank := by
  obtain ⟨_, hrest⟩ := of_pure h
  exact hrest.symm

theorem of_upcoming {next : List Char} (h : upcoming cs = .ok (next, rest)) :
    next = cs.dropWhile isBlank ∧ rest = next ∧ next ≠ [] := by
  obtain ⟨_, mid, hskip, h⟩ := of_bind h
  obtain rfl := of_skipBlanks hskip
  cases hmid : cs.dropWhile isBlank with
  | nil =>
    rw [hmid] at h
    exact nomatch h
  | cons c tail =>
    rw [hmid] at h
    obtain ⟨rfl, rfl⟩ := of_pure h
    exact ⟨rfl, rfl, List.cons_ne_nil c tail⟩

/-- What comes next is looked at. -/
theorem of_upcoming_bind {f : List Char → Reader β} (h : (upcoming >>= f) cs = .ok (b, rest)) :
    ∃ c tail, cs.dropWhile isBlank = c :: tail ∧ f (c :: tail) (c :: tail) = .ok (b, rest) := by
  obtain ⟨next, mid, hup, h⟩ := of_bind h
  obtain ⟨hnext, rfl, hne⟩ := of_upcoming hup
  obtain ⟨c, tail, rfl⟩ := List.exists_cons_of_ne_nil hne
  exact ⟨c, tail, hnext.symm, h⟩

theorem of_token {c : Char} {u : Unit} (h : token c cs = .ok (u, rest)) :
    cs.dropWhile isBlank = c :: rest := by
  obtain ⟨next, tail, hnext, h⟩ := of_upcoming_bind h
  dsimp only at h
  split at h
  next hc =>
    obtain ⟨_, rfl⟩ := of_pure h
    rw [hnext, hc]
  next => exact nomatch h

theorem of_word {w : List Char} {u : Unit} (h : word w cs = .ok (u, rest)) : cs = w ++ rest := by
  induction w generalizing cs with
  | nil =>
    obtain ⟨_, rfl⟩ := of_pure h
    rfl
  | cons c w ih =>
    rw [word, get_run] at h
    split at h
    next => exact nomatch h
    next next tail =>
      split at h
      next hc => rw [hc, ih h, List.cons_append]
      next => exact nomatch h

theorem of_hex4 {n : Nat} (h : hex4 cs = .ok (n, rest)) :
    ∃ a b c d, (cs.take 4).mapM Hex.digit? = some [a, b, c, d] ∧
      n = ((a * 16 + b) * 16 + c) * 16 + d ∧ rest = cs.drop 4 := by
  rw [hex4, get_run] at h
  generalize hdigits : (cs.take 4).mapM Hex.digit? = digits at h
  split at h
  next a b c d =>
    obtain ⟨hn, hrest⟩ := of_pure h
    exact ⟨a, b, c, d, rfl, hn.symm, hrest.symm⟩
  next => cases h

theorem of_whole {r : Reader α} (h : whole r cs = .ok a) : ∃ rest, r cs = .ok (a, rest) := by
  obtain ⟨p, hr, h⟩ := bind_eq_ok.1 h
  dsimp only at h
  split at h
  next =>
    obtain rfl := Except.ok.inj h
    exact ⟨p.2, hr⟩
  next => exact nomatch h

/-- How a value that is neither an array nor an object is read. -/
inductive Scalar (c : Char) (cs : List Char) : Value → List Char → Prop where
  | string {s : String} {rest : List Char} (quote : c = '"') (read : string cs = .ok (s, rest)) :
      Scalar c cs (.string s) rest
  | number {n : Number} {rest : List Char} (start : c = '-' ∨ isDigit c)
      (read : number cs = .ok (n, rest)) : Scalar c cs (.number n) rest
  | null {rest : List Char} (read : word ['n', 'u', 'l', 'l'] cs = .ok ((), rest)) :
      Scalar c cs .null rest
  | true {rest : List Char} (read : word ['t', 'r', 'u', 'e'] cs = .ok ((), rest)) :
      Scalar c cs (.bool true) rest
  | false {rest : List Char} (read : word ['f', 'a', 'l', 's', 'e'] cs = .ok ((), rest)) :
      Scalar c cs (.bool false) rest

theorem of_scalar {c : Char} {v : Value} (h : scalar c cs = .ok (v, rest)) : Scalar c cs v rest := by
  unfold scalar at h
  split at h
  next hc =>
    obtain ⟨s, mid, hread, h⟩ := of_bind h
    obtain ⟨rfl, rfl⟩ := of_pure h
    exact .string hc hread
  next =>
    split at h
    next hc =>
      obtain ⟨n, mid, hread, h⟩ := of_bind h
      obtain ⟨rfl, rfl⟩ := of_pure h
      exact .number hc hread
    next =>
      split at h
      next =>
        obtain ⟨_, mid, hread, h⟩ := of_bind h
        obtain ⟨rfl, rfl⟩ := of_pure h
        exact .null hread
      next =>
        split at h
        next =>
          obtain ⟨_, mid, hread, h⟩ := of_bind h
          obtain ⟨rfl, rfl⟩ := of_pure h
          exact .true hread
        next =>
          split at h
          next =>
            obtain ⟨_, mid, hread, h⟩ := of_bind h
            obtain ⟨rfl, rfl⟩ := of_pure h
            exact .false hread
          next => exact nomatch h

theorem not_refuse : refuse cs ≠ .ok (a, rest) := by
  intro h
  obtain ⟨c, tail, _, h⟩ := of_upcoming_bind h
  dsimp only at h
  split at h
  · exact nomatch h
  · obtain ⟨_, _, _, h⟩ := of_bind h
    exact nomatch h

variable {close : Char} {item : σ → Reader σ} {Inv : σ → List Char → Prop} {s t : σ}

/-- What passing over blanks and commas and reading an item keep is kept up to the closing bracket. -/
structure Keeps (item : σ → Reader σ) (Inv : σ → List Char → Prop) : Prop where
  blanks : ∀ {s cs}, Inv s cs → Inv s (cs.dropWhile isBlank)
  comma : ∀ {s cs}, Inv s (',' :: cs) → Inv s cs
  item : ∀ {s cs t rest}, Inv s cs → item s cs = .ok (t, rest) → Inv t rest

theorem Keeps.moreItems (hk : Keeps item Inv) {bound : List Char} (hs : Inv s cs)
    (h : moreItems close item bound s cs = .ok (t, rest)) : Inv t (close :: rest) := by
  induction bound generalizing s cs with
  | nil => exact nomatch h
  | cons _ bound ih =>
    obtain ⟨c, tail, hnext, h⟩ := of_upcoming_bind h
    have hs' : Inv s (c :: tail) := hnext ▸ hk.blanks hs
    dsimp only at h
    rw [set_run] at h
    split at h
    next hc =>
      obtain ⟨rfl, rfl⟩ := of_pure h
      exact hc ▸ hs'
    next =>
      split at h
      next hc =>
        obtain ⟨u, mid, hitem, h⟩ := of_bind h
        exact ih (hk.item (hk.comma (hc ▸ hs')) hitem) h
      next => exact nomatch h

theorem Keeps.items (hk : Keeps item Inv) (hs : Inv s cs)
    (h : items close item s cs = .ok (t, rest)) : Inv t (close :: rest) := by
  obtain ⟨c, tail, hnext, h⟩ := of_upcoming_bind h
  have hs' : Inv s (c :: tail) := hnext ▸ hk.blanks hs
  dsimp only at h
  split at h
  next hc =>
    obtain ⟨rfl, rfl⟩ := of_pure h
    exact hc ▸ hs'
  next =>
    obtain ⟨u, mid, hitem, h⟩ := of_bind h
    exact hk.moreItems (hk.item hs' hitem) h

end Reader

namespace Record

open Reader

variable {P α : Type} {r : Record P α} {Inv : P → Prop} {p q : P} {a : α} {depth : Nat}
  {cs rest : List Char} {fields : List (Field P)}

/-- What holds of the blank draft and is kept by every field. -/
structure Keeps (r : Record P α) (Inv : P → Prop) : Prop where
  blank : Inv r.blank
  put : ∀ f ∈ r.fields, ∀ {depth cs g rest p}, f.form.read depth cs = .ok (g, rest) → Inv p → Inv (g p)
  unset : ∀ f ∈ r.fields, ∀ {p q}, f.unset p = .ok q → Inv p → Inv q

theorem Keeps.readField (hk : r.Keeps Inv) (hp : Inv p)
    (h : r.readField depth p cs = .ok (q, rest)) : Inv q := by
  obtain ⟨name, _, _, h⟩ := of_bind h
  cases hf : r.fieldNamed? name with
  | some f =>
    simp only [hf] at h
    split at h
    next => exact nomatch h
    next =>
      obtain ⟨_, _, _, h⟩ := of_bind h
      obtain ⟨g, _, hread, h⟩ := of_bind h
      obtain ⟨rfl, rfl⟩ := of_pure h
      exact hk.put f (List.mem_of_find?_eq_some hf) hread hp
  | none =>
    simp only [hf] at h
    obtain ⟨_, _, _, h⟩ := of_bind h
    obtain ⟨_, _, _, h⟩ := of_bind h
    obtain ⟨rfl, rfl⟩ := of_pure h
    exact hp

theorem Keeps.readElements (hk : r.Keeps Inv) {isFirst : Bool} (hf : ∀ f ∈ fields, f ∈ r.fields)
    (hp : Inv p) (h : readElements depth isFirst fields p cs = .ok (q, rest)) : Inv q := by
  induction fields generalizing isFirst p cs with
  | nil =>
    obtain ⟨rfl, rfl⟩ := of_pure h
    exact hp
  | cons f fields ih =>
    obtain ⟨hfirst, hfields⟩ := List.forall_mem_cons.1 hf
    obtain ⟨c, tail, _, h⟩ := of_upcoming_bind h
    dsimp only at h
    split at h
    next =>
      obtain ⟨rfl, rfl⟩ := of_pure h
      exact hp
    next =>
      split at h
      next =>
        obtain ⟨g, _, hread, h⟩ := of_bind h
        exact ih hfields (hk.put f hfirst hread hp) h
      next =>
        split at h
        next =>
          rw [set_run] at h
          obtain ⟨g, _, hread, h⟩ := of_bind h
          exact ih hfields (hk.put f hfirst hread hp) h
        next => exact nomatch h

theorem Keeps.unsets (hk : r.Keeps Inv) (hf : ∀ f ∈ fields, f ∈ r.fields) (hp : Inv p)
    (h : fields.foldlM (fun p f => if f.isSet p then pure p else f.unset p) p =
      (.ok q : Except Fault P)) : Inv q := by
  induction fields generalizing p with
  | nil =>
    obtain rfl := Except.ok.inj h
    exact hp
  | cons f fields ih =>
    obtain ⟨hfirst, hfields⟩ := List.forall_mem_cons.1 hf
    rw [List.foldlM_cons] at h
    split at h
    next => exact ih hfields hp h
    next =>
      obtain ⟨p', hunset, h⟩ := bind_eq_ok.1 h
      exact ih hfields (hk.unset f hfirst hunset hp) h

theorem Keeps.complete (hk : r.Keeps Inv) (hp : Inv p) (h : r.complete p = .ok a) :
    ∃ q, Inv q ∧ r.finish q = some a := by
  obtain ⟨q, hfold, h⟩ := bind_eq_ok.1 h
  split at h
  next b hfinish =>
    obtain rfl := Except.ok.inj h
    exact ⟨q, hk.unsets (fun _ hf => hf) hp hfold, hfinish⟩
  next => exact nomatch h

/-- A record is read from an object or an array, and is made of what its fields were read as. -/
theorem Keeps.read (hk : r.Keeps Inv) (h : r.read depth cs = .ok (a, rest)) :
    (∃ c tail, cs.dropWhile isBlank = c :: tail ∧ (c = '[' ∨ c = '\x7b')) ∧
      ∃ q, Inv q ∧ r.finish q = some a := by
  obtain ⟨c, tail, hnext, h⟩ := of_upcoming_bind h
  dsimp only at h
  split at h
  next hc =>
    refine ⟨⟨c, tail, hnext, .inr hc⟩, ?_⟩
    cases depth with
    | zero => exact nomatch h
    | succ depth =>
      dsimp only at h
      rw [set_run] at h
      obtain ⟨p, mid, hitems, h⟩ := of_bind h
      have hkeeps : Reader.Keeps (r.readField depth) fun p _ => Inv p :=
        ⟨fun hp => hp, fun hp => hp, fun hp hread => hk.readField hp hread⟩
      exact hk.complete (hkeeps.items hk.blank hitems) (of_lift h).1
  next =>
    split at h
    next hc =>
      refine ⟨⟨c, tail, hnext, .inl hc⟩, ?_⟩
      cases depth with
      | zero => exact nomatch h
      | succ depth =>
        dsimp only at h
        rw [set_run] at h
        obtain ⟨p, mid, helements, h⟩ := of_bind h
        obtain ⟨b, _, hcomplete, h⟩ := of_bind h
        obtain ⟨_, _, _, h⟩ := of_bind h
        obtain ⟨rfl, _⟩ := of_pure h
        exact hk.complete (hk.readElements (fun _ hf => hf) hk.blank helements) (of_lift hcomplete).1
    next => exact absurd h not_refuse

end Record

end Json

end NotebookKernel
