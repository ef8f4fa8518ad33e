import NotebookKernel.Json.Verbatim
import NotebookKernel.Proofs.Json.Printing

namespace NotebookKernel.Json.Reader

variable {c : Char} {rest : List Char}

theorem skipWithin_array (depth : Nat) (rest : List Char) :
    skipWithin (depth + 1) ('[' :: rest) = items ']' (fun _ => skipWithin depth) () rest := by
  rw [skipWithin, bind_run (upcoming_cons rfl rest)]
  simp only [↓reduceIte]
  rw [set_run]

/-- Passes over a field of an object. -/
def skipField (depth : Nat) (_ : Unit) : Reader Unit := do
  match ← upcoming with
  | '"' :: _ => skipString
  | _ => throw .malformed
  token ':'
  skipWithin depth

theorem skipWithin_object (depth : Nat) (rest : List Char) :
    skipWithin (depth + 1) ('\x7b' :: rest) = items '\x7d' (skipField depth) () rest := by
  have hne : ¬ '\x7b' = '[' := by decide
  rw [skipWithin, bind_run (upcoming_cons rfl rest)]
  simp only [if_neg hne, ↓reduceIte]
  rw [set_run]
  rfl

theorem skipWithin_string (depth : Nat) (s rest : List Char) :
    skipWithin depth (quote s ++ rest) = .ok ((), rest) := by
  have hs := skipString_quote s rest
  rw [quote_append] at hs ⊢
  rw [skipWithin.eq_def, bind_run (upcoming_cons rfl _)]
  exact hs

theorem skipWithin_int (depth : Nat) (n : Int) (hr : EndsNumber rest) :
    skipWithin depth (intChars n ++ rest) = .ok ((), rest) := by
  obtain ⟨c, cs, he, hc⟩ := intChars_cons n
  have hn : StartsNumber c := hc
  have hl : literal .malformed (intChars n ++ rest) = _ := literal_intChars n hr
  rw [he, List.cons_append] at hl ⊢
  rw [skipWithin.eq_def, bind_run (upcoming_cons hn.not_blank _)]
  simp only [if_neg (hn.ne (d := '[') (by decide) rfl),
    if_neg (hn.ne (d := '\x7b') (by decide) rfl), if_neg (hn.ne (d := '"') (by decide) rfl), if_pos hc]
  exact bind_run hl _

theorem skipField_run {depth : Nat} {text : List Char}
    (h : skipWithin depth (text ++ rest) = .ok ((), rest)) (k : String) :
    skipField depth () (fieldChars (k, text) ++ rest) = .ok ((), rest) := by
  have hs := skipString_quote k.toList (':' :: (text ++ rest))
  rw [fieldChars, List.append_assoc, List.cons_append]
  rw [quote_append] at hs ⊢
  rw [skipField, bind_run (upcoming_cons rfl _)]
  change (skipString >>= _) _ = _
  rw [bind_run hs]
  change (token ':' >>= fun _ => skipWithin depth) _ = _
  rw [bind_run (token_cons rfl _)]
  exact h

theorem reads_all {item : Unit → Reader Unit} {texts : List (List Char)}
    (h : ∀ text ∈ texts, ∀ c rest, EndsItem c → item () (text ++ c :: rest) = .ok ((), c :: rest)) :
    Reads item () texts () := by
  induction texts with
  | nil => exact .nil ()
  | cons text texts ih =>
    exact .cons (h text List.mem_cons_self) (ih fun t ht => h t (List.mem_cons_of_mem _ ht))

theorem length_le_intercalate {text : List Char} {texts : List (List Char)} (h : text ∈ texts) :
    text.length ≤ ([','].intercalate texts).length := by
  cases texts with
  | nil => simp at h
  | cons first texts =>
    rw [intercalate_comma, List.length_append]
    rcases List.mem_cons.1 h with rfl | h
    · omega
    · have hle := (List.sublist_flatten_of_mem (List.mem_map_of_mem (f := (',' :: ·)) h)).length_le
      rw [← List.flatMap_def, List.length_cons] at hle
      omega

/-- The text of a value is long enough to bound the brackets in it. -/
theorem skipWithin_chars {v : Value} (h : v.Exact) {depth : Nat} (hd : v.chars.length ≤ depth)
    (hr : EndsNumber rest) : skipWithin depth (v.chars ++ rest) = .ok ((), rest) := by
  induction h generalizing depth rest with
  | null => rw [skipWithin.eq_def]; rfl
  | bool b => cases b <;> (rw [skipWithin.eq_def]; rfl)
  | int n => exact skipWithin_int depth n hr
  | string s => exact skipWithin_string depth s.toList rest
  | @array vs inner ih =>
    rw [Value.chars, itemsChars_eq] at hd ⊢
    cases depth with
    | zero => simp at hd
    | succ depth =>
      have hreads : Reads (fun _ => skipWithin depth) () (vs.map Value.chars) () := by
        apply reads_all
        intro text ht c rest hc
        have hle := length_le_intercalate ht
        obtain ⟨v, hv, rfl⟩ := List.mem_map.1 ht
        refine ih v hv ?_ (hc.ends_number rest)
        simp only [List.length_cons, List.length_append] at hd
        omega
      rw [List.cons_append, List.append_assoc, List.singleton_append, skipWithin_array]
      refine items_join (.inl rfl) hreads ?_ rest
      intro text ht
      obtain ⟨v, hv, rfl⟩ := List.mem_map.1 ht
      exact (inner v hv).starts.starts_item (.inl rfl)
  | @object fields inner ih =>
    rw [Value.chars, fieldsChars_eq] at hd ⊢
    cases depth with
    | zero => simp at hd
    | succ depth =>
      have hreads : Reads (skipField depth) () (fields.map fun f => fieldChars (f.1, f.2.chars))
          () := by
        apply reads_all
        intro text ht c rest hc
        have hle := length_le_intercalate ht
        obtain ⟨f, hf, rfl⟩ := List.mem_map.1 ht
        refine skipField_run (ih f hf ?_ (hc.ends_number rest)) f.1
        simp only [fieldChars, List.length_cons, List.length_append] at hd hle
        omega
      rw [List.cons_append, List.append_assoc, List.singleton_append, skipWithin_object]
      refine items_join (.inr rfl) hreads ?_ rest
      intro text ht
      obtain ⟨f, hf, rfl⟩ := List.mem_map.1 ht
      exact (starts_quote f.1.toList _).starts_item (.inr rfl)

theorem upcoming_starts {text : List Char} (h : StartsValue text) (rest : List Char) :
    upcoming (text ++ rest) = .ok (text ++ rest, text ++ rest) := by
  cases text with
  | nil => exact h.elim
  | cons c text => exact upcoming_cons h.1 _

/-- The text of a value is kept, whatever follows it. -/
theorem verbatim_chars {v : Value} (h : v.Exact) (hr : EndsNumber rest) :
    verbatim (v.chars ++ rest) = .ok (v.chars, rest) := by
  have hskip : skip (v.chars ++ rest) = .ok ((), rest) :=
    skipWithin_chars h (by simp) hr
  have hlength : (v.chars ++ rest).length - rest.length = v.chars.length := by simp
  rw [verbatim, bind_run (upcoming_starts h.starts rest), bind_run hskip, get_run, hlength,
    List.take_left]
  rfl

end NotebookKernel.Json.Reader
