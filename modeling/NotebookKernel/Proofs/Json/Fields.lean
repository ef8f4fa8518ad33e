import NotebookKernel.Json.Value

namespace NotebookKernel.Json

theorem insertField_greatest {key : String} {fields : List (String × Value)}
    (h : ∀ f ∈ fields, f.1 < key) (value : Value) :
    insertField key value fields = fields ++ [(key, value)] := by
  induction fields with
  | nil => rfl
  | cons f fields ih =>
    obtain ⟨k, v⟩ := f
    have hk : k < key := h (k, v) List.mem_cons_self
    have hne : ¬ key = k := fun he => String.lt_irrefl k (he ▸ hk)
    rw [insertField, if_neg (String.lt_asymm hk), if_neg hne,
      ih fun f hf => h f (List.mem_cons_of_mem _ hf)]
    rfl

theorem lookup_insertFields {key : String} {new : List (String × Value)}
    (h : key ∉ new.map (·.1)) (fields : List (String × Value)) :
    (insertFields new fields).lookup key = fields.lookup key := by
  induction new generalizing fields with
  | nil => rfl
  | cons f new ih =>
    obtain ⟨hf, hnew⟩ : key ≠ f.1 ∧ key ∉ new.map (·.1) := by
      rwa [List.map_cons, List.mem_cons, not_or] at h
    have hrest := ih hnew (insertField f.1 f.2 fields)
    rw [lookup_insertField_of_ne hf] at hrest
    exact hrest

theorem insertFields_append (new more fields : List (String × Value)) :
    insertFields (new ++ more) fields = insertFields more (insertFields new fields) :=
  List.foldl_append

namespace Value

/-- Of the fields with one key the last counts. -/
theorem get?_ofFields_append_cons {key : String} {after : List (String × Value)}
    (h : key ∉ after.map (·.1)) (before : List (String × Value)) (v : Value) :
    (ofFields (before ++ (key, v) :: after)).get? key = some v := by
  have hlast : (insertFields after (insertField key v (insertFields before []))).lookup key =
      some v := by
    rw [lookup_insertFields h]
    exact lookup_insertField_self key v _
  rw [ofFields, insertFields_append]
  exact hlast

theorem get?_ofFields_concat (before : List (String × Value)) (key : String) (v : Value) :
    (ofFields (before ++ [(key, v)])).get? key = some v :=
  get?_ofFields_append_cons List.not_mem_nil before v

theorem get?_ofFields_append {key : String} {after : List (String × Value)}
    (h : key ∉ after.map (·.1)) (before : List (String × Value)) :
    (ofFields (before ++ after)).get? key = (ofFields before).get? key := by
  rw [ofFields, insertFields_append]
  exact lookup_insertFields h _

end Value

end NotebookKernel.Json
