import NotebookKernel.Proofs.Json.Printing
import NotebookKernel.Proofs.Text.Utf8
import NotebookKernel.Transport.Connection
import NotebookKernel.Transport.Framing

namespace NotebookKernel

open Json

namespace Framing

theorem lineBytes_eq (line : LineText) :
    Connection.lineBytes line = Utf8.encode line ++ [newline] :=
  Utf8.encode_append line ['\n']

variable {line : LineText} {lines : List LineText}

theorem space_le_of_mem_encode (h : NoControls line) : ∀ b ∈ Utf8.encode line, 0x20 ≤ b.toNat :=
  Utf8.encode_ge (by decide) h

theorem newline_not_mem_encode (h : NoControls line) : newline ∉ Utf8.encode line := by
  intro hmem
  have hge : 0x20 ≤ newline.toNat := space_le_of_mem_encode h newline hmem
  exact absurd hge (by decide)

theorem text?_encode (h : NoControls line) : text? (Utf8.encode line) = some line := by
  have hlast : (Utf8.encode line).getLast? ≠ some carriageReturn := by
    intro hlast
    have hmem : carriageReturn ∈ Utf8.encode line := List.mem_of_getLast? hlast
    have hge : 0x20 ≤ carriageReturn.toNat := space_le_of_mem_encode h carriageReturn hmem
    exact absurd hge (by decide)
  rw [text?, withoutReturn, if_neg hlast, Utf8.decode?_encode]

theorem splitOn_lineBytes_append (h : ∀ line ∈ lines, NoControls line) {part : List UInt8}
    (hpart : newline ∉ part) :
    (lines.flatMap Connection.lineBytes ++ part).splitOn newline = lines.map Utf8.encode ++ [part] := by
  induction lines with
  | nil => exact List.splitOn_eq_singleton hpart
  | cons line lines ih =>
    have hline : newline ∉ Utf8.encode line := newline_not_mem_encode (h line List.mem_cons_self)
    rw [List.flatMap_cons, lineBytes_eq, List.append_assoc, List.append_assoc, List.singleton_append,
      List.splitOn_append_cons_self_of_not_mem hline,
      ih fun l hl => h l (List.mem_cons_of_mem _ hl)]
    rfl

theorem splitOn_lineBytes (h : ∀ line ∈ lines, NoControls line) :
    (lines.flatMap Connection.lineBytes).splitOn newline = lines.map Utf8.encode ++ [[]] := by
  have hsplit := splitOn_lineBytes_append h (List.not_mem_nil (a := newline))
  rwa [List.append_nil] at hsplit

/-- Bytes that break off somewhere are whole lines and a part of the one behind them. -/
theorem whole_and_part {bytes : List UInt8} (h : bytes <+: lines.flatMap Connection.lineBytes) :
    ∃ whole part, whole <+: lines ∧ bytes = whole.flatMap Connection.lineBytes ++ part ∧
      (part = [] ∨ ∃ line, whole ++ [line] <+: lines ∧ part <+: Utf8.encode line) := by
  induction lines generalizing bytes with
  | nil => exact ⟨[], [], List.prefix_refl _, List.prefix_nil.1 h, .inl rfl⟩
  | cons line lines ih =>
    rw [List.flatMap_cons] at h
    obtain hwithin | ⟨more, rfl⟩ := List.prefix_or_prefix_of_prefix h (List.prefix_append _ _)
    · rw [lineBytes_eq, List.prefix_concat_iff, ← lineBytes_eq] at hwithin
      obtain rfl | hpart := hwithin
      · refine ⟨[line], [], ⟨lines, rfl⟩, ?_, .inl rfl⟩
        rw [List.flatMap_cons, List.flatMap_nil, List.append_nil, List.append_nil]
      · exact ⟨[], bytes, List.nil_prefix, rfl, .inr ⟨line, ⟨lines, rfl⟩, hpart⟩⟩
    · obtain ⟨whole, part, hwhole, rfl, hpart⟩ := ih ((List.prefix_append_right_inj _).1 h)
      refine ⟨line :: whole, part, (List.prefix_cons_inj line).2 hwhole, ?_, ?_⟩
      · rw [List.flatMap_cons, List.append_assoc]
      · refine hpart.imp_right ?_
        rintro ⟨next, hnext, hpart⟩
        exact ⟨next, (List.prefix_cons_inj line).2 hnext, hpart⟩

theorem ofPieces_encode {limit : Nat} (h : ∀ line ∈ lines, NoControls line)
    (hlimit : ∀ line ∈ lines, (Utf8.encode line).length ≤ limit) :
    ofPieces limit (lines.map Utf8.encode ++ [[]]) = ⟨lines, some []⟩ := by
  induction lines with
  | nil => rfl
  | cons line lines ih =>
    have hfits : (Utf8.encode line).length ≤ limit := hlimit line List.mem_cons_self
    have hmore := ih (fun l hl => h l (List.mem_cons_of_mem _ hl))
      (fun l hl => hlimit l (List.mem_cons_of_mem _ hl))
    obtain ⟨piece, pieces, hpieces⟩ : ∃ piece pieces, lines.map Utf8.encode ++ [[]] =
        piece :: pieces := by cases lines <;> exact ⟨_, _, rfl⟩
    rw [hpieces] at hmore
    simp only [List.map_cons, List.cons_append, hpieces, ofPieces, if_pos hfits,
      text?_encode (h line List.mem_cons_self), hmore]

theorem frame_lineBytes {limit : Nat} (h : ∀ line ∈ lines, NoControls line)
    (hlimit : ∀ line ∈ lines, (Utf8.encode line).length ≤ limit) :
    frame limit (lines.flatMap Connection.lineBytes) = ⟨lines, some []⟩ := by
  rw [frame, splitOn_lineBytes h, ofPieces_encode h hlimit]

end Framing

end NotebookKernel
