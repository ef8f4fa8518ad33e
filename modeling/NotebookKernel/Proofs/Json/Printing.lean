import NotebookKernel.Json.Printer
import NotebookKernel.Proofs.Json.Integers

namespace NotebookKernel.Json

/-- Integers are its only numbers. -/
inductive Value.Exact : Value → Prop where
  | null : Exact .null
  | bool (b : Bool) : Exact (.bool b)
  | int (n : Int) : Exact (.number (.int n))
  | string (s : String) : Exact (.string s)
  | array {items : List Value} (inner : ∀ v ∈ items, Exact v) : Exact (.array items)
  | object {fields : List (String × Value)} (inner : ∀ f ∈ fields, Exact f.2) :
      Exact (.object fields)

/-- A field as it is written. -/
def fieldChars (field : String × List Char) : List Char := quote field.1.toList ++ ':' :: field.2

theorem itemsChars_eq (items : List Value) :
    itemsChars items = [','].intercalate (items.map Value.chars) := by
  induction items with
  | nil => rfl
  | cons v items ih =>
    cases items with
    | nil => simp [itemsChars]
    | cons w items =>
      rw [itemsChars, ih]
      · simp [List.intercalate_cons_cons]
      · exact List.cons_ne_nil w items

theorem fieldsChars_eq (fields : List (String × Value)) :
    fieldsChars fields = [','].intercalate (fields.map fun f => fieldChars (f.1, f.2.chars)) := by
  induction fields with
  | nil => rfl
  | cons f fields ih =>
    obtain ⟨k, v⟩ := f
    cases fields with
    | nil => simp [fieldsChars, fieldChars]
    | cons g fields =>
      rw [fieldsChars, ih]
      · simp [List.intercalate_cons_cons, fieldChars]
      · exact List.cons_ne_nil g fields

theorem chars_object (fields : List (String × Value)) :
    (Value.object fields).chars = recordChars (fields.map fun f => (f.1, f.2.chars)) := by
  rw [Value.chars, fieldsChars_eq, recordChars, List.map_map]
  rfl

/-- A value never starts like the end of a list. -/
def StartsValue : List Char → Prop
  | [] => False
  | c :: _ => isBlank c = false ∧ c ≠ ']' ∧ c ≠ '\x7d'

theorem StartsValue.starts_item {close : Char} {cs : List Char} (h : StartsValue cs)
    (hc : Closing close) : StartsItem close cs := by
  cases cs with
  | nil => exact h
  | cons c cs =>
    rcases hc with rfl | rfl
    · exact ⟨h.1, h.2.1⟩
    · exact ⟨h.1, h.2.2⟩

/-- How a number starts. -/
def StartsNumber (c : Char) : Prop := c = '-' ∨ Reader.isDigit c = true

theorem StartsNumber.ne {c d : Char} (h : StartsNumber c) (hm : d ≠ '-')
    (hd : Reader.isDigit d = false) : c ≠ d := by
  rintro rfl
  rcases h with h | h
  · exact hm h
  · rw [hd] at h
    cases h

theorem StartsNumber.not_blank {c : Char} (h : StartsNumber c) : isBlank c = false := by
  cases hb : isBlank c with
  | false => rfl
  | true =>
    simp only [isBlank, Bool.or_eq_true, beq_iff_eq] at hb
    rcases hb with ((rfl | rfl) | rfl) | rfl <;> rcases h with h | h <;> cases h

theorem StartsNumber.starts {c : Char} (h : StartsNumber c) (cs : List Char) :
    StartsValue (c :: cs) :=
  ⟨h.not_blank, h.ne (by decide) rfl, h.ne (by decide) rfl⟩

theorem starts_quote (s cs : List Char) : StartsValue (quote s ++ cs) := ⟨rfl, by decide, by decide⟩

theorem Value.Exact.starts {v : Value} (h : v.Exact) : StartsValue v.chars := by
  cases h with
  | null => exact ⟨rfl, by decide, by decide⟩
  | bool b => cases b <;> exact ⟨rfl, by decide, by decide⟩
  | int n =>
    obtain ⟨c, cs, he, hc⟩ := Reader.intChars_cons n
    simp only [Value.chars, Number.chars, he]
    exact StartsNumber.starts hc cs
  | string s => exact ⟨rfl, by decide, by decide⟩
  | array inner => exact ⟨rfl, by decide, by decide⟩
  | object inner => exact ⟨rfl, by decide, by decide⟩

def NoControls (cs : List Char) : Prop := ∀ c ∈ cs, 0x20 ≤ c.toNat

instance (cs : List Char) : Decidable (NoControls cs) :=
  List.decidableBAll (fun c : Char => 0x20 ≤ c.toNat) cs

theorem NoControls.nil : NoControls [] := List.forall_mem_nil _

theorem NoControls.append {cs ds : List Char} (h : NoControls cs) (h' : NoControls ds) :
    NoControls (cs ++ ds) := by
  intro c hc
  rcases List.mem_append.1 hc with hc | hc
  · exact h c hc
  · exact h' c hc

theorem NoControls.cons {c : Char} {cs : List Char} (hc : 0x20 ≤ c.toNat) (h : NoControls cs) :
    NoControls (c :: cs) := by
  intro d hd
  rcases List.mem_cons.1 hd with rfl | hd
  · exact hc
  · exact h d hd

theorem NoControls.of_subset {cs ds : List Char} (h : NoControls ds) (hsub : cs ⊆ ds) : NoControls cs :=
  fun c hc => h c (hsub hc)

theorem NoControls.flatMap {α : Type} {xs : List α} {f : α → List Char}
    (h : ∀ x ∈ xs, NoControls (f x)) : NoControls (xs.flatMap f) := by
  intro c hc
  obtain ⟨x, hx, hc⟩ := List.mem_flatMap.1 hc
  exact h x hx c hc

theorem NoControls.join {texts : List (List Char)} (h : ∀ text ∈ texts, NoControls text) :
    NoControls ([','].intercalate texts) := by
  cases texts with
  | nil => exact .nil
  | cons text texts =>
    rw [Reader.intercalate_comma]
    exact (h text List.mem_cons_self).append (.flatMap fun text ht =>
      .cons (by decide) (h text (List.mem_cons_of_mem _ ht)))

theorem hexDigit_ge {n : Nat} (h : n < 16) : 0x20 ≤ (Hex.digit n).toNat := by
  have hall : ∀ m : Fin 16, 0x20 ≤ (Hex.digit m.val).toNat := by decide
  exact hall ⟨n, h⟩

theorem escapeChar_no_controls (c : Char) : NoControls (escapeChar c) := by
  unfold escapeChar
  iterate 7
    split
    next => decide
  split
  next h =>
    have hlt : c.toNat < 32 := h
    have hprefix : NoControls ['\\', 'u', '0', '0'] := by decide
    exact hprefix.append
      (.cons (hexDigit_ge (by omega)) (.cons (hexDigit_ge (by omega)) .nil))
  next h =>
    have hge : 0x20 ≤ c.toNat := Nat.not_lt.1 h
    exact .cons hge .nil

theorem quote_no_controls (s : List Char) : NoControls (quote s) :=
  .cons (by decide) ((NoControls.flatMap fun c _ => escapeChar_no_controls c).append
    (.cons (by decide) .nil))

theorem digitChars_no_controls (n : Nat) : NoControls (digitChars n) := by
  intro c hc
  have hd := isDigit_of_mem_digitChars hc
  simp only [Reader.isDigit, Bool.and_eq_true, decide_eq_true_eq] at hd
  have hge : 48 ≤ c.toNat := hd.1
  omega

theorem intChars_no_controls (n : Int) : NoControls (intChars n) := by
  unfold intChars
  split
  · exact .cons (by decide) (digitChars_no_controls n.natAbs)
  · exact digitChars_no_controls n.natAbs

theorem Layout.chars_no_controls (layout : Layout) (d : Decimal) : NoControls (layout.chars d) := by
  have hdigits := digitChars_no_controls d.digits
  have hzeros (n : Nat) : NoControls (List.replicate n '0') := by
    intro c hc
    rw [List.eq_of_mem_replicate hc]
    decide
  unfold chars
  dsimp only
  split
  · split
    · exact (hdigits.append (hzeros _)).append (by decide)
    · split
      · exact (hdigits.of_subset (List.take_subset _ _)).append
          (.cons (by decide) (hdigits.of_subset (List.drop_subset _ _)))
      · have hpoint : NoControls ['0', '.'] := by decide
        exact (hpoint.append (hzeros _)).append hdigits
  · have hsign (e : Int) : 0x20 ≤ (if e < 0 then '-' else '+').toNat := by
      split <;> decide
    apply NoControls.append _ (.cons (by decide) (.cons (hsign _) (digitChars_no_controls _)))
    split
    next => exact hdigits
    next => exact hdigits
    next first rest _ hsplit =>
      rw [hsplit] at hdigits
      exact .cons (hdigits first List.mem_cons_self)
        (.cons (by decide) (hdigits.of_subset (List.subset_cons_self first rest)))

theorem floatChars_no_controls (x : Float) : NoControls (floatChars x) := by
  unfold floatChars
  split
  next => decide
  next b _ =>
    have hmagnitude : NoControls
        (if b.mantissa = 0 then ['0', '.', '0'] else floatLayout.chars (.shortest b)) := by
      split
      · decide
      · exact floatLayout.chars_no_controls _
    dsimp only
    split
    · exact .cons (by decide) hmagnitude
    · exact hmagnitude

theorem Number.chars_no_controls : (n : Number) → NoControls n.chars
  | .int n => intChars_no_controls n
  | .float x => floatChars_no_controls x

theorem recordChars_no_controls {fields : List (String × List Char)}
    (h : ∀ f ∈ fields, NoControls f.2) : NoControls (recordChars fields) := by
  refine .cons (by decide) (.append (.join ?_) (.cons (by decide) .nil))
  intro text ht
  obtain ⟨f, hf, rfl⟩ := List.mem_map.1 ht
  exact (quote_no_controls f.1.toList).append (.cons (by decide) (h f hf))

theorem Value.no_controls : (v : Value) → NoControls v.chars
  | .null => by decide
  | .bool b => by cases b <;> decide
  | .number n => n.chars_no_controls
  | .string s => quote_no_controls s.toList
  | .array items => by
    rw [Value.chars, itemsChars_eq]
    refine .cons (by decide) (.append (.join ?_) (.cons (by decide) .nil))
    intro text ht
    obtain ⟨v, hv, rfl⟩ := List.mem_map.1 ht
    exact v.no_controls
  | .object fields => by
    rw [chars_object]
    apply recordChars_no_controls
    intro f hf
    obtain ⟨g, hg, rfl⟩ := List.mem_map.1 hf
    exact g.2.no_controls
termination_by v => sizeOf v
decreasing_by
  · have := List.sizeOf_lt_of_mem hv
    simp only [Value.array.sizeOf_spec]
    omega
  · obtain ⟨k, v⟩ := g
    have := List.sizeOf_lt_of_mem hg
    simp only [Value.object.sizeOf_spec, Prod.mk.sizeOf_spec] at this ⊢
    omega

end NotebookKernel.Json
