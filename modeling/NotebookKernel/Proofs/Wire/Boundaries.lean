import NotebookKernel.Proofs.Json.Enclosure
import NotebookKernel.Proofs.Transport.Authentication

namespace NotebookKernel

open Json

namespace Json.Reader

variable {c : Char} {cs rest : List Char} {fields : List (String × Value)}

theorem object_braced {embedded : List Char → Except Fault Value} {depth : Nat}
    (h : valueWith embedded depth cs = .ok (.object fields, rest)) :
    ∃ tail, cs.dropWhile isBlank = '\x7b' :: tail := by
  rw [valueWith] at h
  obtain ⟨c, tail, hnext, h⟩ := of_upcoming_bind h
  dsimp only at h
  split at h
  next =>
    cases depth with
    | zero => cases h
    | succ depth =>
      dsimp only at h
      rw [set_run] at h
      obtain ⟨_, _, _, h⟩ := of_bind h
      cases h
  next =>
    split at h
    next hc =>
      rw [hc] at hnext
      exact ⟨tail, hnext⟩
    next => cases of_scalar h

end Json.Reader

/-- The parts were cut out of a line. -/
structure Parts.Kept (p : Parts) : Prop where
  header : Json.Kept p.header
  parentHeader : Json.Kept p.parentHeader
  metadata : Json.Kept p.metadata
  content : Json.Kept p.content

namespace Line

/-- The parts that were read so far were cut out of a line. -/
structure Draft.Kept (d : Draft) : Prop where
  header : ∀ text ∈ d.header, Json.Kept text
  parentHeader : ∀ text ∈ d.parentHeader, Json.Kept text
  metadata : ∀ text ∈ d.metadata, Json.Kept text
  content : ∀ text ∈ d.content, Json.Kept text

theorem record_keeps : record.Keeps Draft.Kept := by
  refine ⟨⟨nofun, nofun, nofun, nofun⟩, ?_, ?_⟩
  · intro f hf depth cs put rest d hread hd
    simp only [record, List.mem_cons, List.not_mem_nil, or_false] at hf
    obtain rfl | hpart := hf
    · obtain ⟨s, _, rfl⟩ := Reader.of_map hread
      exact ⟨hd.header, hd.parentHeader, hd.metadata, hd.content⟩
    · obtain rfl | rfl | rfl | rfl := hpart
      all_goals
        obtain ⟨text, hverbatim, rfl⟩ := Reader.of_map hread
        have hkept : ∀ text' ∈ some text, Json.Kept text' := by
          rintro _ ⟨⟩
          exact verbatim_kept hverbatim
      · exact ⟨hkept, hd.parentHeader, hd.metadata, hd.content⟩
      · exact ⟨hd.header, hkept, hd.metadata, hd.content⟩
      · exact ⟨hd.header, hd.parentHeader, hkept, hd.content⟩
      · exact ⟨hd.header, hd.parentHeader, hd.metadata, hkept⟩
  · intro f hf d d' hunset hd
    simp only [record, List.mem_cons, List.not_mem_nil, or_false] at hf
    obtain rfl | rfl | rfl | rfl | rfl := hf
    · obtain rfl := Except.ok.inj hunset
      exact ⟨hd.header, hd.parentHeader, hd.metadata, hd.content⟩
    all_goals exact nomatch hunset

theorem parse_kept {text : List Char} {l : Line} (h : parse text = .ok l) : l.parts.Kept := by
  obtain ⟨rest, hread⟩ := Reader.of_whole h
  obtain ⟨_, d, hd, hfinish⟩ := record_keeps.read hread
  obtain ⟨_, _, hfinish⟩ := Option.bind_eq_some_iff.1 hfinish
  obtain ⟨header, hheader, hfinish⟩ := Option.bind_eq_some_iff.1 hfinish
  obtain ⟨parentHeader, hparent, hfinish⟩ := Option.bind_eq_some_iff.1 hfinish
  obtain ⟨metadata, hmetadata, hfinish⟩ := Option.bind_eq_some_iff.1 hfinish
  obtain ⟨content, hcontent, hfinish⟩ := Option.bind_eq_some_iff.1 hfinish
  obtain rfl := Option.some.inj hfinish
  exact ⟨hd.header _ hheader, hd.parentHeader _ hparent, hd.metadata _ hmetadata,
    hd.content _ hcontent⟩

end Line

namespace Parts

variable {p p' : Parts} {m : Message}

/-- The texts of the parent header and of the metadata are objects. -/
structure Braced (p : Parts) : Prop where
  parentHeader : p.parentHeader.head? = some '\x7b'
  metadata : p.metadata.head? = some '\x7b'

theorem header_enclosed (hkept : p.Kept) (h : p.read = .ok m) : Enclosed p.header := by
  have hkeeps : Header.record.Keeps fun _ => True :=
    ⟨trivial, fun _ _ _ _ _ _ _ _ _ => trivial, fun _ _ _ _ _ _ => trivial⟩
  obtain ⟨rest, hread⟩ := Reader.of_whole (read_eq_ok.1 h).1
  obtain ⟨⟨c, tail, hnext, hc⟩, _⟩ := hkeeps.read hread
  exact hkept.header.encloses c (hkept.header.head? hnext) hc

theorem object_head {text : List Char} (hkept : Json.Kept text) {fields : List (String × Value)}
    (h : Value.parse text = .ok (.object fields)) : text.head? = some '\x7b' := by
  obtain ⟨rest, hread⟩ := Reader.of_whole h
  obtain ⟨tail, hnext⟩ := Reader.object_braced hread
  exact hkept.head? hnext

/-- The parts of a message can be had from their joint text in one way. -/
theorem eq_of_chars (hkept : p.Kept) (hkept' : p'.Kept) (hheader : Enclosed p.header)
    (hheader' : Enclosed p'.header) (hbraced : p.Braced) (hbraced' : p'.Braced)
    (h : p.chars = p'.chars) : p = p' := by
  have henclosed {text : List Char} (hkept : Json.Kept text) (hhead : text.head? = some '\x7b') :
      Enclosed text := hkept.encloses _ hhead (.inr rfl)
  simp only [chars, List.append_assoc] at h
  obtain ⟨hheaders, h⟩ := hheader.eq hheader' h
  obtain ⟨hparents, h⟩ := (henclosed hkept.parentHeader hbraced.parentHeader).eq
    (henclosed hkept'.parentHeader hbraced'.parentHeader) h
  obtain ⟨hmetadata, hcontent⟩ := (henclosed hkept.metadata hbraced.metadata).eq
    (henclosed hkept'.metadata hbraced'.metadata) h
  cases p
  cases p'
  simp only [Parts.mk.injEq]
  exact ⟨hheaders, hparents, hmetadata, hcontent⟩

end Parts

namespace Wire

variable {s : Signer} {text : List Char} {l : Line} {m : Message}

theorem read_of_decode (hl : Line.parse text = .ok l) (hm : decode s text = .ok m) :
    l.parts.read = .ok m := by
  obtain ⟨l', hl', _, hread⟩ := decode_iff.1 hm
  obtain rfl := Except.ok.inj (hl.symm.trans hl')
  exact hread

/-- Two lines that are accepted, whose parent headers and metadata are objects, and whose parts have the
same joint text have the same parts and hold the same message. -/
theorem boundaries_bind (s : Signer) :
    (∀ text l m, Line.parse text = .ok l → decode s text = .ok m →
      (∃ fields, m.parentHeader = .object fields) → (∃ fields, m.metadata = .object fields) →
      l.parts.Braced) ∧
    ∀ text l m text' l' m', Line.parse text = .ok l → decode s text = .ok m →
      Line.parse text' = .ok l' → decode s text' = .ok m' → l.parts.Braced → l'.parts.Braced →
      l.parts.chars = l'.parts.chars → l.parts = l'.parts ∧ m = m' := by
  constructor
  · rintro text l m hl hm ⟨fields, hparent⟩ ⟨fields', hmetadata⟩
    obtain ⟨_, hparent', hmetadata', _⟩ := Parts.read_eq_ok.1 (read_of_decode hl hm)
    rw [hparent] at hparent'
    rw [hmetadata] at hmetadata'
    have hkept := Line.parse_kept hl
    exact ⟨Parts.object_head hkept.parentHeader hparent',
      Parts.object_head hkept.metadata hmetadata'⟩
  · intro text l m text' l' m' hl hm hl' hm' hbraced hbraced' hchars
    have hread := read_of_decode hl hm
    have hread' := read_of_decode hl' hm'
    have hkept := Line.parse_kept hl
    have hkept' := Line.parse_kept hl'
    have hparts : l.parts = l'.parts := Parts.eq_of_chars hkept hkept'
      (Parts.header_enclosed hkept hread) (Parts.header_enclosed hkept' hread') hbraced hbraced' hchars
    rw [hparts, hread'] at hread
    exact ⟨hparts, (Except.ok.inj hread).symm⟩

/-- One line is an object and the other an array, with blanks between its elements. -/
theorem boundaries_bind_layouts :
    let s : Signer := ⟨""⟩
    let header := "[\"1\",\"s\",\"u\",\"\",\"status\",\"5.3\"]".toList
    let parts : Parts := ⟨header, ['\x7b', '\x7d'], ['\x7b', '\x7d'], ['"', '\x7b', '"']⟩
    let text := "\x7b\"header\":".toList ++ header ++
      ",\"parent_header\":\x7b\x7d,\"metadata\":\x7b\x7d,\"content\":\"\x7b\"\x7d".toList
    let text' := "[ \"\" , ".toList ++ header ++ " , \x7b\x7d , \x7b\x7d , \"\x7b\" ]".toList
    text ≠ text' ∧ ∃ l l' m m', Line.parse text = .ok l ∧ Line.parse text' = .ok l' ∧
      decode s text = .ok m ∧ decode s text' = .ok m' ∧ l.parts = parts ∧ l.parts = l'.parts ∧
      m = m' := by
  intro s header parts text text'
  have hl : (Line.parse text).toOption.map Line.parts = some parts := by decide +kernel
  have hl' : (Line.parse text').toOption.map Line.parts = some parts := by decide +kernel
  have hm : (decode s text).toOption.map Message.msgType = some "status" := by decide +kernel
  have hm' : (decode s text').toOption.map Message.msgType = some "status" := by decide +kernel
  obtain ⟨l, hl, hparts⟩ := exists_ok hl
  obtain ⟨l', hl', hparts'⟩ := exists_ok hl'
  obtain ⟨m, hm, _⟩ := exists_ok hm
  obtain ⟨m', hm', _⟩ := exists_ok hm'
  have hbraced : parts.Braced := ⟨rfl, rfl⟩
  have hbound := (boundaries_bind s).2 text l m text' l' m' hl hm hl' hm' (hparts ▸ hbraced)
    (hparts' ▸ hbraced) (by rw [hparts, hparts'])
  exact ⟨by decide, l, l', m, m', hl, hl', hm, hm', hparts, hbound⟩

end Wire

end NotebookKernel
