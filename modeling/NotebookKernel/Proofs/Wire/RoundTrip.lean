import NotebookKernel.Proofs.Json.Records
import NotebookKernel.Proofs.Json.Values
import NotebookKernel.Proofs.Transport.Framing
import NotebookKernel.Wire

namespace NotebookKernel

open Json Json.Reader

/-- The texts of values whose numbers are integers. -/
def Written (text : List Char) : Prop := ∃ v : Value, v.Exact ∧ text = v.chars

theorem Written.verbatim {text rest : List Char} (h : Written text) (hr : EndsNumber rest) :
    Reader.verbatim (text ++ rest) = .ok (text, rest) := by
  obtain ⟨v, hv, rfl⟩ := h
  exact verbatim_chars hv hr

theorem Written.no_controls {text : List Char} (h : Written text) : NoControls text := by
  obtain ⟨v, _, rfl⟩ := h
  exact v.no_controls

theorem Json.Value.Plain.written {depth : Nat} {v : Value} (h : v.Plain depth) : Written v.chars :=
  ⟨v, h.exact, rfl⟩

namespace Header

theorem written (h : Header) : Written h.chars := by
  refine ⟨.object (h.fields.map fun f => (f.1, .string f.2)), .object ?_, ?_⟩
  · intro f hf
    obtain ⟨g, _, rfl⟩ := List.mem_map.1 hf
    exact .string g.2
  · rw [chars_object, List.map_map]
    rfl

theorem reads (h : Header) (depth : Nat) :
    Reads (Header.record.readField depth) {}
      ((h.fields.map fun (name, s) => (name, quote s.toList)).map fieldChars)
      ⟨some h.id, some h.session, some h.username, some h.date, some h.msgType,
        some h.version⟩ := by
  iterate 6
    refine .cons (fun c rest _ => Record.readField_of rfl rfl (onlyString_quote _ _)) ?_
  exact .nil _

theorem parse_chars (h : Header) : Header.record.parse h.chars = .ok h := by
  have hread := Record.read_recordChars (h.reads 126) rfl []
  rw [List.append_nil] at hread
  exact whole_run hread

end Header

theorem Json.Value.parse_chars {v : Value} (h : v.Plain depthLimit) :
    Value.parse v.chars = .ok v := by
  have hread := valueWith_chars (embeddedText (v.chars ++ []).length) h [] trivial
  rw [List.append_nil] at hread
  exact whole_run hread

namespace Line

theorem reads {l : Line} (hh : Written l.parts.header) (hp : Written l.parts.parentHeader)
    (hm : Written l.parts.metadata) (hc : Written l.parts.content) (depth : Nat) :
    Reads (Line.record.readField depth) {}
      ([("signature", quote l.signature.toList), ("header", l.parts.header),
        ("parent_header", l.parts.parentHeader), ("metadata", l.parts.metadata),
        ("content", l.parts.content)].map fieldChars)
      ⟨some l.signature, some l.parts.header, some l.parts.parentHeader, some l.parts.metadata,
        some l.parts.content⟩ := by
  refine .cons (fun c rest _ => Record.readField_of rfl rfl (onlyString_quote _ _)) ?_
  refine .cons (fun c rest he => Record.readField_of rfl rfl (hh.verbatim (he.ends_number rest))) ?_
  refine .cons (fun c rest he => Record.readField_of rfl rfl (hp.verbatim (he.ends_number rest))) ?_
  refine .cons (fun c rest he => Record.readField_of rfl rfl (hm.verbatim (he.ends_number rest))) ?_
  refine .cons (fun c rest he => Record.readField_of rfl rfl (hc.verbatim (he.ends_number rest))) ?_
  exact .nil _

theorem parse_chars {l : Line} (hh : Written l.parts.header) (hp : Written l.parts.parentHeader)
    (hm : Written l.parts.metadata) (hc : Written l.parts.content) :
    Line.parse l.chars = .ok l := by
  have hread := Record.read_recordChars (reads hh hp hm hc 126) rfl []
  rw [List.append_nil] at hread
  exact whole_run hread

theorem no_controls {l : Line} (hh : Written l.parts.header) (hp : Written l.parts.parentHeader)
    (hm : Written l.parts.metadata) (hc : Written l.parts.content) : NoControls l.chars := by
  apply recordChars_no_controls
  simp only [List.forall_mem_cons, List.not_mem_nil, false_implies, implies_true, and_true]
  exact ⟨quote_no_controls _, hh.no_controls, hp.no_controls, hm.no_controls, hc.no_controls⟩

end Line

/-- The parts of a message that a line carries as they are. -/
structure Message.Plain (m : Message) : Prop where
  parentHeader : m.parentHeader.Plain depthLimit
  metadata : m.metadata.Plain depthLimit
  content : m.content.Plain depthLimit

theorem Signer.verify_sign (s : Signer) (p : Parts) : s.verify p (s.sign p) = true := by
  cases h : s.enabled with
  | false => simp [verify, h]
  | true => simp [verify, sign, h, Hex.decode?_encode]

theorem Parts.read_ofMessage {m : Message} (h : m.Plain) : (Parts.ofMessage m).read = .ok m := by
  simp only [Parts.read, Parts.ofMessage, Header.parse_chars, Value.parse_chars h.parentHeader,
    Value.parse_chars h.metadata, Value.parse_chars h.content]
  rfl

namespace Wire

theorem encode_no_controls (s : Signer) {m : Message} (h : m.Plain) : NoControls (encode s m) :=
  Line.no_controls m.header.written h.parentHeader.written h.metadata.written h.content.written

theorem decode_encoded (s : Signer) {m : Message} (h : m.Plain) :
    decode s (encode s m) = .ok m := by
  have hline : Line.parse (encode s m) = .ok (Line.sealed s (.ofMessage m)) :=
    Line.parse_chars m.header.written h.parentHeader.written h.metadata.written h.content.written
  -- The parts that are read out of the line are those that were signed, character by character.
  rw [decode, hline]
  change (if s.verify (.ofMessage m) (String.ofList (s.sign (.ofMessage m))).toList then
    readable (Parts.ofMessage m).read else throw .invalidSignature) = _
  rw [String.toList_ofList, Signer.verify_sign, Parts.read_ofMessage h]
  rfl

/-- What is put on a socket for messages. -/
def stream (s : Signer) (ms : List Message) : List UInt8 :=
  ms.flatMap fun m => Connection.lineBytes (encode s m)

/-- What the lines of a stream hold, each of them on its own. -/
def received (s : Signer) (bytes : List UInt8) : List (Option (Except Failure Message)) :=
  (bytes.splitOn Framing.newline).dropLast.map fun line => (Framing.text? line).map (decode s)

variable {ms : List Message}

theorem encodings_no_controls (s : Signer) (h : ∀ m ∈ ms, m.Plain) :
    ∀ line ∈ ms.map (encode s), NoControls line := by
  intro line hline
  obtain ⟨m, hm, rfl⟩ := List.mem_map.1 hline
  exact encode_no_controls s (h m hm)

theorem stream_eq (s : Signer) (ms : List Message) :
    stream s ms = (ms.map (encode s)).flatMap Connection.lineBytes :=
  (List.flatMap_map ..).symm

theorem splitOn_stream (s : Signer) (h : ∀ m ∈ ms, m.Plain) :
    (stream s ms).splitOn Framing.newline = ms.map (fun m => Utf8.encode (encode s m)) ++ [[]] := by
  rw [stream_eq, Framing.splitOn_lineBytes (encodings_no_controls s h), List.map_map]
  rfl

theorem received_stream (s : Signer) (h : ∀ m ∈ ms, m.Plain) :
    received s (stream s ms) = ms.map fun m => some (.ok m) := by
  rw [received, splitOn_stream s h, List.dropLast_concat, List.map_map]
  apply List.map_congr_left
  intro m hm
  have htext := Framing.text?_encode (encode_no_controls s (h m hm))
  simp only [Function.comp_apply, htext, Option.map_some, decode_encoded s (h m hm)]

theorem frame_stream (s : Signer) (h : ∀ m ∈ ms, m.Plain) {limit : Nat}
    (hlimit : ∀ m ∈ ms, (Utf8.encode (encode s m)).length ≤ limit) :
    Framing.frame limit (stream s ms) = ⟨ms.map (encode s), some []⟩ := by
  rw [stream_eq]
  apply Framing.frame_lineBytes (encodings_no_controls s h)
  intro line hline
  obtain ⟨m, hm, rfl⟩ := List.mem_map.1 hline
  exact hlimit m hm

theorem decode_encodings (s : Signer) (h : ∀ m ∈ ms, m.Plain) :
    (ms.map (encode s)).map (decode s) = ms.map .ok := by
  rw [List.map_map]
  apply List.map_congr_left
  intro m hm
  exact decode_encoded s (h m hm)

/-- A message is one line without control characters, from which it is read back; and the lines of
messages that follow each other on a socket are told apart, as long as each is within the limit. -/
theorem messages_survive (s : Signer) :
    (∀ m : Message, m.Plain →
      (∀ c ∈ encode s m, 0x20 ≤ c.toNat) ∧ decode s (encode s m) = .ok m) ∧
    ∀ ms : List Message, (∀ m ∈ ms, m.Plain) →
      (stream s ms).splitOn Framing.newline =
        ms.map (fun m => Utf8.encode (encode s m)) ++ [[]] ∧
      received s (stream s ms) = ms.map (fun m => some (.ok m)) ∧
      ∀ limit : Nat, (∀ m ∈ ms, (Utf8.encode (encode s m)).length ≤ limit) →
        (Framing.frame limit (stream s ms)).rest = some [] ∧
        (Framing.frame limit (stream s ms)).lines.map (decode s) = ms.map .ok := by
  refine ⟨fun m h => ⟨encode_no_controls s h, decode_encoded s h⟩, fun ms h => ?_⟩
  refine ⟨splitOn_stream s h, received_stream s h, fun limit hlimit => ?_⟩
  rw [frame_stream s h hlimit]
  exact ⟨rfl, decode_encodings s h⟩

theorem messages_survive_nested :
    let content : Value := .object
      [("\n\"", .array [.object [], .number (.int (-0x8000000000000000))]),
        ("é", .number (.int 0xFFFFFFFFFFFFFFFF))]
    let m : Message := ⟨⟨"1", "s", "u", "", "status", "5.3"⟩, .null, .object [], content⟩
    decode ⟨"key"⟩ (encode ⟨"key"⟩ m) = .ok m ∧
      received ⟨"key"⟩ (stream ⟨"key"⟩ [m, m]) = [some (.ok m), some (.ok m)] := by
  intro content m
  have hcontent : content.Plain depthLimit := by
    refine .object (by decide) (by decide) ?_
    simp only [List.forall_mem_cons]
    refine ⟨.array ?_, .int (by decide) (by decide), List.forall_mem_nil _⟩
    simp only [List.forall_mem_cons]
    exact ⟨.object .nil (List.forall_mem_nil _) (List.forall_mem_nil _),
      .int (by decide) (by decide), List.forall_mem_nil _⟩
  have hm : m.Plain :=
    ⟨.null, .object .nil (List.forall_mem_nil _) (List.forall_mem_nil _), hcontent⟩
  have hms : ∀ m' ∈ [m, m], m'.Plain := by
    intro m' hm'
    rcases List.mem_cons.1 hm' with rfl | hm'
    · exact hm
    · rwa [List.mem_singleton.1 hm']
  exact ⟨((messages_survive ⟨"key"⟩).1 m hm).2, ((messages_survive ⟨"key"⟩).2 _ hms).2.1⟩

end Wire

end NotebookKernel
