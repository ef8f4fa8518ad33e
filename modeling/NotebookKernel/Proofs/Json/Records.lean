import NotebookKernel.Json.Record
import NotebookKernel.Proofs.Json.Verbatim

namespace NotebookKernel.Json

open Reader

variable {P α β : Type} {rest : List Char} {depth : Nat} {r : Record P α} {p : P}

theorem Form.map_read {form : Form α} {cs : List Char} {a : α}
    (h : form.read depth cs = .ok (a, rest)) (f : α → β) :
    (form.map f).read depth cs = .ok (f a, rest) := by
  change (f <$> form.read depth) cs = _
  rw [map_eq_pure_bind, bind_run h]
  rfl

theorem Record.readField_run {name : String} {text : List Char} {field : Field P} {put : P → P}
    (hname : r.fieldNamed? name = some field) (hset : field.isSet p = false)
    (hread : field.form.read depth (text ++ rest) = .ok (put, rest)) :
    r.readField depth p (fieldChars (name, text) ++ rest) = .ok (put p, rest) := by
  rw [fieldChars, List.append_assoc, List.cons_append, readField, bind_run (key_quote name _)]
  simp only [hname, hset, Bool.false_eq_true, ↓reduceIte]
  rw [bind_run (token_cons rfl _), bind_run hread]
  rfl

section

variable {γ : Type} {name : String} {fetch : P → Option γ} {default : Option γ}

theorem Record.readField_of {form : Form γ} {put : γ → P → P} {text : List Char} {x : γ}
    (hname : r.fieldNamed? name = some (.of name form fetch put default)) (hset : fetch p = none)
    (hread : form.read depth (text ++ rest) = .ok (x, rest)) :
    r.readField depth p (fieldChars (name, text) ++ rest) = .ok (put x p, rest) := by
  refine readField_run hname ?_ (Form.map_read hread put)
  simp only [Field.of, hset, Option.isSome_none]

end

/-- A record is read from an object that brings it to a full draft. -/
theorem Record.read_recordChars {entries : List (String × List Char)} {a : α}
    (h : Reads (r.readField depth) r.blank (entries.map fieldChars) p)
    (hc : r.complete p = .ok a) (rest : List Char) :
    r.read (depth + 1) (recordChars entries ++ rest) = .ok (a, rest) := by
  have hitems := items_join (.inr rfl) h (by
    intro text ht
    obtain ⟨entry, he, rfl⟩ := List.mem_map.1 ht
    exact (starts_quote entry.1.toList _).starts_item (.inr rfl)) rest
  have hchars : recordChars entries ++ rest =
      '\x7b' :: ([','].intercalate (entries.map fieldChars) ++ '\x7d' :: rest) := by
    rw [recordChars, List.cons_append, List.append_assoc]
    rfl
  rw [hchars, read, bind_run (upcoming_cons rfl _)]
  simp only [↓reduceIte]
  rw [set_run, bind_run hitems, hc]
  rfl

end NotebookKernel.Json
