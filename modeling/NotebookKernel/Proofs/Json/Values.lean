import NotebookKernel.Proofs.Json.Fields
import NotebookKernel.Proofs.Json.Printing

namespace NotebookKernel.Json

/-- At most `depth` brackets are open at once, integers are of 64 bits, and fields stand in the
order of their keys, none of which is reserved. -/
inductive Value.Plain : Nat → Value → Prop where
  | null {depth : Nat} : Plain depth .null
  | bool {depth : Nat} (b : Bool) : Plain depth (.bool b)
  | int {depth : Nat} {n : Int} (low : -0x8000000000000000 ≤ n) (high : n < 0x10000000000000000) :
      Plain depth (.number (.int n))
  | string {depth : Nat} (s : String) : Plain depth (.string s)
  | array {depth : Nat} {items : List Value} (inner : ∀ v ∈ items, Plain depth v) :
      Plain (depth + 1) (.array items)
  | object {depth : Nat} {fields : List (String × Value)}
      (sorted : fields.Pairwise fun f g => f.1 < g.1)
      (unreserved : ∀ f ∈ fields, f.1 ≠ verbatimKey)
      (inner : ∀ f ∈ fields, Plain depth f.2) : Plain (depth + 1) (.object fields)

theorem Value.Plain.exact {depth : Nat} {v : Value} (h : v.Plain depth) : v.Exact := by
  induction h with
  | null => exact .null
  | bool b => exact .bool b
  | int => exact .int _
  | string s => exact .string s
  | array inner ih => exact .array ih
  | object sorted unreserved inner ih => exact .object ih

namespace Reader

variable {rest : List Char} {c : Char} (embedded : List Char → Except Fault Value)

theorem scalar_string (s : String) (rest : List Char) :
    scalar '"' (quote s.toList ++ rest) = .ok (.string s, rest) := by
  simp only [scalar, ↓reduceIte]
  rw [bind_run (string_quote s rest)]
  rfl

theorem scalar_int {n : Int} (low : -0x8000000000000000 ≤ n) (high : n < 0x10000000000000000)
    (hr : EndsNumber rest) (hc : StartsNumber c) :
    scalar c (intChars n ++ rest) = .ok (.number (.int n), rest) := by
  have hc' : c = '-' ∨ isDigit c = true := hc
  simp only [scalar, if_neg (hc.ne (d := '"') (by decide) rfl), if_pos hc']
  rw [bind_run (number_intChars low high hr)]
  rfl

theorem valueWith_scalar {depth : Nat} (hb : isBlank c = false) (ha : c ≠ '[') (ho : c ≠ '\x7b')
    (rest : List Char) : valueWith embedded depth (c :: rest) = scalar c (c :: rest) := by
  rw [valueWith.eq_def, bind_run (upcoming_cons hb rest)]
  simp only [if_neg ha, if_neg ho]

theorem valueWith_array (depth : Nat) (rest : List Char) :
    valueWith embedded (depth + 1) ('[' :: rest) =
      (do let vs ← items ']' (fun vs => do return (← valueWith embedded depth) :: vs) []
          return .array vs.reverse : Reader Value) rest := by
  rw [valueWith, bind_run (upcoming_cons rfl rest)]
  simp only [↓reduceIte]
  rw [set_run]

theorem valueWith_object_nil (depth : Nat) (rest : List Char) :
    valueWith embedded (depth + 1) ('\x7b' :: '\x7d' :: rest) = .ok (.object [], rest) := by
  have hne : ¬ '\x7b' = '[' := by decide
  rw [valueWith, bind_run (upcoming_cons rfl _)]
  simp only [if_neg hne, ↓reduceIte]
  rw [set_run, bind_run (upcoming_cons rfl _)]
  rfl

/-- A field of an object, and the object so far. -/
def addField (depth : Nat) (fields : List (String × Value)) : Reader (List (String × Value)) := do
  let k ← key
  token ':'
  return insertField k (← valueWith embedded depth) fields

theorem valueWith_object_cons {k : String} (hk : k ≠ verbatimKey) (depth : Nat)
    (rest : List Char) :
    valueWith embedded (depth + 1) ('\x7b' :: (quote k.toList ++ ':' :: rest)) =
      (do let first := [(k, ← valueWith embedded depth)]
          return .object (← moreItems '\x7d' (addField embedded depth) (← get) first) :
        Reader Value) rest := by
  have hne : ¬ '\x7b' = '[' := by decide
  rw [valueWith, bind_run (upcoming_cons rfl _)]
  simp only [if_neg hne, ↓reduceIte]
  rw [set_run, quote_append, bind_run (upcoming_cons rfl _), ← quote_append]
  change (key >>= _) _ = _
  rw [bind_run (key_quote k _), if_neg hk, bind_run (token_cons rfl rest)]
  rfl

theorem addField_run {depth : Nat} {k : String} {v : Value} {text : List Char}
    {fields : List (String × Value)} (hk : ∀ f ∈ fields, f.1 < k)
    (h : valueWith embedded depth (text ++ rest) = .ok (v, rest)) :
    addField embedded depth fields (fieldChars (k, text) ++ rest) =
      .ok (fields ++ [(k, v)], rest) := by
  rw [addField, fieldChars, List.append_assoc, List.cons_append, bind_run (key_quote k _),
    bind_run (token_cons rfl _), bind_run h, insertField_greatest hk]
  rfl

/-- Reads the value wherever a value may end. -/
def ReadsValue (depth : Nat) (v : Value) : Prop :=
  ∀ rest, EndsNumber rest → valueWith embedded depth (v.chars ++ rest) = .ok (v, rest)

theorem reads_items {depth : Nat} {vs : List Value}
    (h : ∀ v ∈ vs, ReadsValue embedded depth v) (seen : List Value) :
    Reads (fun seen => do return (← valueWith embedded depth) :: seen) seen
      (vs.map Value.chars) (vs.reverse ++ seen) := by
  induction vs generalizing seen with
  | nil => exact .nil seen
  | cons v vs ih =>
    have hmore := ih (fun w hw => h w (List.mem_cons_of_mem v hw)) (v :: seen)
    rw [List.reverse_cons, List.append_assoc]
    refine .cons (fun c rest hc => ?_) hmore
    rw [bind_run (h v List.mem_cons_self _ (hc.ends_number rest))]
    rfl

theorem reads_fields {depth : Nat} {fields : List (String × Value)}
    (h : ∀ f ∈ fields, ReadsValue embedded depth f.2)
    (sorted : fields.Pairwise fun f g => f.1 < g.1) (seen : List (String × Value))
    (hseen : ∀ f ∈ seen, ∀ g ∈ fields, f.1 < g.1) :
    Reads (addField embedded depth) seen (fields.map fun f => fieldChars (f.1, f.2.chars))
      (seen ++ fields) := by
  -- What was seen stays below what is to come, so that every field is inserted at the end.
  induction fields generalizing seen with
  | nil => rw [List.append_nil]; exact .nil seen
  | cons f fields ih =>
    obtain ⟨k, v⟩ := f
    obtain ⟨hfirst, hrest⟩ := List.pairwise_cons.1 sorted
    have hmore := ih (fun g hg => h g (List.mem_cons_of_mem _ hg)) hrest (seen ++ [(k, v)]) (by
      intro f hf g hg
      rcases List.mem_append.1 hf with hf | hf
      · exact hseen f hf g (List.mem_cons_of_mem _ hg)
      · rw [List.mem_singleton.1 hf]
        exact hfirst g hg)
    rw [List.append_assoc] at hmore
    refine .cons (fun c rest hc => ?_) hmore
    exact addField_run embedded (fun f hf => hseen f hf (k, v) List.mem_cons_self)
      (h (k, v) List.mem_cons_self _ (hc.ends_number rest))

theorem valueWith_fields {depth : Nat} {k : String} {v : Value} {fields : List (String × Value)}
    (hk : k ≠ verbatimKey) (hv : ReadsValue embedded depth v)
    (hfields : ∀ f ∈ fields, ReadsValue embedded depth f.2)
    (hfirst : ∀ f ∈ fields, k < f.1) (sorted : fields.Pairwise fun f g => f.1 < g.1)
    (rest : List Char) :
    valueWith embedded (depth + 1) ((Value.object ((k, v) :: fields)).chars ++ rest) =
      .ok (.object ((k, v) :: fields), rest) := by
  -- The first field is read apart from the others, for its key might be the reserved one.
  have hmore := reads_fields embedded hfields sorted [(k, v)] (by
    intro f hf g hg
    rw [List.mem_singleton.1 hf]
    exact hfirst g hg)
  have htail := moreItems_rest (.inr rfl) hmore rest
  obtain ⟨c, cs, hends, he⟩ := exists_ends_item (.inr rfl)
    (fields.map fun f => fieldChars (f.1, f.2.chars)) rest
  rw [Value.chars, fieldsChars_eq, List.map_cons, intercalate_comma, fieldChars]
  simp only [List.cons_append, List.append_assoc, List.nil_append]
  rw [valueWith_object_cons embedded hk depth, he, bind_run (hv _ (hends.ends_number cs)), get_run,
    ← he]
  exact bind_run htail _

theorem valueWith_chars {depth : Nat} {v : Value} (h : v.Plain depth) :
    ReadsValue embedded depth v := by
  induction h with
  | null =>
    intro rest _
    exact (valueWith_scalar embedded rfl (by decide) (by decide) _).trans rfl
  | bool b =>
    intro rest _
    cases b <;> exact (valueWith_scalar embedded rfl (by decide) (by decide) _).trans rfl
  | @int depth n low high =>
    intro rest hr
    obtain ⟨c, cs, he, hc⟩ := intChars_cons n
    have hs := scalar_int low high hr hc
    simp only [Value.chars, Number.chars]
    rw [he, List.cons_append] at hs ⊢
    have hn : StartsNumber c := hc
    rw [valueWith_scalar embedded hn.not_blank (hn.ne (by decide) rfl) (hn.ne (by decide) rfl), hs]
  | string s =>
    intro rest _
    have hs := scalar_string s rest
    simp only [Value.chars]
    rw [quote_append] at hs ⊢
    rw [valueWith_scalar embedded rfl (by decide) (by decide), hs]
  | @array depth vs inner ih =>
    intro rest _
    have hitems := items_join (.inl rfl) (reads_items embedded ih []) (by
      intro text ht
      obtain ⟨v, hv, rfl⟩ := List.mem_map.1 ht
      exact (inner v hv).exact.starts.starts_item (.inl rfl)) rest
    rw [Value.chars, itemsChars_eq, List.cons_append, List.append_assoc, List.singleton_append,
      valueWith_array embedded depth, bind_run hitems, List.append_nil, List.reverse_reverse]
    rfl
  | @object depth fields sorted unreserved inner ih =>
    intro rest _
    cases fields with
    | nil => exact valueWith_object_nil embedded depth rest
    | cons f fields =>
      obtain ⟨k, v⟩ := f
      obtain ⟨hfirst, hsorted⟩ := List.pairwise_cons.1 sorted
      exact valueWith_fields embedded (unreserved (k, v) List.mem_cons_self)
        (ih (k, v) List.mem_cons_self) (fun f hf => ih f (List.mem_cons_of_mem _ hf)) hfirst
        hsorted rest

end Reader

end NotebookKernel.Json
