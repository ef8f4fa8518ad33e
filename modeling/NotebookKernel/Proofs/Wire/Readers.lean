import NotebookKernel.Proofs.Json.Entries
import NotebookKernel.Proofs.Transport.Authentication

namespace NotebookKernel

open Json Json.Reader

/-- The keys that the parts of a message stand under. -/
def partKeys : List String := ["header", "parent_header", "metadata", "content"]

variable {text : List Char} {es : List (String × List Char)}

/-- Among the entries each part stands once. -/
structure Parts.StandIn (p : Parts) (es : List (String × List Char)) : Prop where
  header : valuesOf "header" es = [p.header]
  parentHeader : valuesOf "parent_header" es = [p.parentHeader]
  metadata : valuesOf "metadata" es = [p.metadata]
  content : valuesOf "content" es = [p.content]

namespace Line

theorem record_delimited : record.Delimited := by
  intro f hf
  simp only [record, List.mem_cons, List.not_mem_nil, or_false] at hf
  obtain rfl | rfl | rfl | rfl | rfl := hf
  · exact Form.text_delimited.map _
  all_goals exact Form.verbatim_delimited.map _

theorem slots : record.Slot "signature" .text Draft.signature ∧
    record.Slot "header" .verbatim Draft.header ∧
    record.Slot "parent_header" .verbatim Draft.parentHeader ∧
    record.Slot "metadata" .verbatim Draft.metadata ∧
    record.Slot "content" .verbatim Draft.content := by
  refine ⟨⟨⟨_, _, rfl, fun _ _ => rfl⟩, rfl, ?_⟩, ⟨⟨_, _, rfl, fun _ _ => rfl⟩, rfl, ?_⟩,
    ⟨⟨_, _, rfl, fun _ _ => rfl⟩, rfl, ?_⟩, ⟨⟨_, _, rfl, fun _ _ => rfl⟩, rfl, ?_⟩,
    ⟨⟨_, _, rfl, fun _ _ => rfl⟩, rfl, ?_⟩⟩
  all_goals
    intro f hf hne depth cs g rest hread d
    simp only [record, List.mem_cons, List.not_mem_nil, or_false] at hf
    obtain rfl | rfl | rfl | rfl | rfl := hf
    all_goals
      obtain ⟨x, _, rfl⟩ := of_map hread
      first | rfl | exact absurd rfl hne

theorem record_slotted : record.Slotted := by
  obtain ⟨hsignature, hheader, hparent, hmetadata, hcontent⟩ := slots
  intro f hf
  simp only [record, List.mem_cons, List.not_mem_nil, or_false] at hf
  obtain rfl | rfl | rfl | rfl | rfl := hf
  · exact ⟨_, _, _, fun _ => rfl, hsignature⟩
  · exact ⟨_, _, _, fun _ => rfl, hheader⟩
  · exact ⟨_, _, _, fun _ => rfl, hparent⟩
  · exact ⟨_, _, _, fun _ => rfl, hmetadata⟩
  · exact ⟨_, _, _, fun _ => rfl, hcontent⟩

end Line

namespace Message

theorem record_delimited : record.Delimited := by
  have hheader : Header.record.Delimited := by
    intro f hf
    simp only [Header.record, List.mem_cons, List.not_mem_nil, or_false] at hf
    obtain rfl | rfl | rfl | rfl | rfl | rfl := hf
    all_goals exact Form.text_delimited.map _
  intro f hf
  simp only [record, List.mem_cons, List.not_mem_nil, or_false] at hf
  obtain rfl | rfl | rfl | rfl := hf
  · exact hheader.form.map _
  all_goals exact Form.any_delimited.map _

theorem slots : record.Slot "header" Header.record.form Draft.header ∧
    record.Slot "parent_header" .any Draft.parentHeader ∧
    record.Slot "metadata" .any Draft.metadata ∧ record.Slot "content" .any Draft.content := by
  refine ⟨⟨⟨_, _, rfl, fun _ _ => rfl⟩, rfl, ?_⟩, ⟨⟨_, _, rfl, fun _ _ => rfl⟩, rfl, ?_⟩,
    ⟨⟨_, _, rfl, fun _ _ => rfl⟩, rfl, ?_⟩, ⟨⟨_, _, rfl, fun _ _ => rfl⟩, rfl, ?_⟩⟩
  all_goals
    intro f hf hne depth cs g rest hread d
    simp only [record, List.mem_cons, List.not_mem_nil, or_false] at hf
    obtain rfl | rfl | rfl | rfl := hf
    all_goals
      obtain ⟨x, _, rfl⟩ := of_map hread
      first | rfl | exact absurd rfl hne

theorem record_slotted : record.Slotted := by
  obtain ⟨hheader, hparent, hmetadata, hcontent⟩ := slots
  intro f hf
  simp only [record, List.mem_cons, List.not_mem_nil, or_false] at hf
  obtain rfl | rfl | rfl | rfl := hf
  · exact ⟨_, _, _, fun _ => rfl, hheader⟩
  · exact ⟨_, _, _, fun _ => rfl, hparent⟩
  · exact ⟨_, _, _, fun _ => rfl, hmetadata⟩
  · exact ⟨_, _, _, fun _ => rfl, hcontent⟩

end Message

namespace Json

namespace Record

variable {P α : Type} {r : Record P α}

theorem readElements_flat {fields : List (Field P)}
    (h : ∀ f ∈ fields, ∀ depth depth', f.form.read depth = f.form.read depth') (depth depth' : Nat)
    (isFirst : Bool) (p : P) :
    readElements depth isFirst fields p = readElements depth' isFirst fields p := by
  induction fields generalizing isFirst p with
  | nil => rfl
  | cons f fields ih =>
    obtain ⟨hf, hfields⟩ := List.forall_mem_cons.1 h
    simp only [readElements, hf depth depth', ih hfields]

theorem readField_flat (h : ∀ f ∈ r.fields, ∀ depth depth', f.form.read depth = f.form.read depth')
    (depth depth' : Nat) : r.readField depth = r.readField depth' := by
  funext p
  unfold readField
  apply congrArg (key >>= ·)
  funext k
  cases hf : r.fieldNamed? k with
  | none => rfl
  | some f => simp only [h f (List.mem_of_find?_eq_some hf) depth depth']

/-- A record whose fields open no brackets needs only its own. -/
theorem read_flat (h : ∀ f ∈ r.fields, ∀ depth depth', f.form.read depth = f.form.read depth')
    (depth depth' : Nat) : r.read (depth + 1) = r.read (depth' + 1) := by
  unfold read
  simp only [readField_flat h depth depth', readElements_flat h depth depth']

end Record

theorem Reader.whole_value {depth depth' : Nat} {t : List Char} {v : Value}
    (hroom : Room 0 depth depth' (t.dropWhile isBlank)) (h : whole (value depth) t = .ok v) :
    whole (value depth') t = .ok v := by
  obtain ⟨blanks, hread, hblanks⟩ := of_whole_blanks h
  exact whole_run_blanks (valueWith_embedded hblanks.ends_number (Nat.le_refl _) hroom hread) hblanks

end Json

theorem Header.read_depth : Header.record.read 126 = Header.record.read depthLimit := by
  apply Record.read_flat
  intro f hf depth depth'
  simp only [record, List.mem_cons, List.not_mem_nil, or_false] at hf
  obtain rfl | rfl | rfl | rfl | rfl | rfl := hf
  all_goals rfl

theorem Message.parse_iff (hes : entries text = .ok es) (hparts : ∀ k ∈ partKeys, k ∈ es.map (·.1))
    {m : Message} : Message.parse text = .ok m ↔ ∃ p : Parts, p.StandIn es ∧
      whole (Header.record.read 126) p.header = .ok m.header ∧
      whole (value 126) p.parentHeader = .ok m.parentHeader ∧
      whole (value 126) p.metadata = .ok m.metadata ∧ whole (value 126) p.content = .ok m.content := by
  obtain ⟨hheader, hparent, hmetadata, hcontent⟩ := slots
  rw [Message.parse, Record.parse, show depthLimit = 126 + 1 from rfl,
    record_delimited.read_iff hes]
  constructor
  · rintro ⟨d, hd, hfull⟩
    obtain ⟨h, header, hh, hheader, hdh⟩ :=
      (hheader.taken hd).full (valuesOf_ne_nil (hparts _ (by decide)))
    obtain ⟨p, parent, hp, hparent, hdp⟩ :=
      (hparent.taken hd).full (valuesOf_ne_nil (hparts _ (by decide)))
    obtain ⟨n, metadata, hn, hmetadata, hdn⟩ :=
      (hmetadata.taken hd).full (valuesOf_ne_nil (hparts _ (by decide)))
    obtain ⟨c, content, hc, hcontent, hdc⟩ :=
      (hcontent.taken hd).full (valuesOf_ne_nil (hparts _ (by decide)))
    obtain ⟨_, _, _, _⟩ := d
    subst hdh hdp hdn hdc
    obtain rfl := Except.ok.inj hfull
    exact ⟨⟨h, p, n, c⟩, ⟨hh, hp, hn, hc⟩, hheader, hparent, hmetadata, hcontent⟩
  · rintro ⟨p, hp, hh, hpar, hn, hc⟩
    have hfits : ∀ f ∈ record.fields, Record.Fits f 126 (valuesOf f.name es) := by
      intro f hf
      simp only [record, List.mem_cons, List.not_mem_nil, or_false] at hf
      obtain rfl | rfl | rfl | rfl := hf
      · exact .inr ⟨_, _, hp.header, Record.whole_map hh _⟩
      · exact .inr ⟨_, _, hp.parentHeader, Record.whole_map hpar _⟩
      · exact .inr ⟨_, _, hp.metadata, Record.whole_map hn _⟩
      · exact .inr ⟨_, _, hp.content, Record.whole_map hc _⟩
    obtain ⟨d, hd⟩ := record_slotted.exists_draft hfits
    have hdh := (hheader.taken hd).only hp.header hh
    have hdp := (hparent.taken hd).only hp.parentHeader hpar
    have hdn := (hmetadata.taken hd).only hp.metadata hn
    have hdc := (hcontent.taken hd).only hp.content hc
    obtain ⟨_, _, _, _⟩ := d
    subst hdh hdp hdn hdc
    exact ⟨_, hd, rfl⟩

/-- Only the signature of a line may be left out. -/
theorem Line.of_complete {d : Draft} {l : Line} (h : record.complete d = .ok l) :
    l.signature = d.signature.getD "" ∧ d.header = some l.parts.header ∧
      d.parentHeader = some l.parts.parentHeader ∧ d.metadata = some l.parts.metadata ∧
      d.content = some l.parts.content := by
  obtain ⟨signature, header, parentHeader, metadata, content⟩ := d
  cases header with
  | none => cases signature <;> exact nomatch h
  | some header => cases parentHeader with
    | none => cases signature <;> exact nomatch h
    | some parentHeader => cases metadata with
      | none => cases signature <;> exact nomatch h
      | some metadata => cases content with
        | none => cases signature <;> exact nomatch h
        | some content =>
          cases signature <;> (obtain rfl := Except.ok.inj h; exact ⟨rfl, rfl, rfl, rfl, rfl⟩)

theorem Line.complete_full {d : Draft} {p : Parts} (hheader : d.header = some p.header)
    (hparent : d.parentHeader = some p.parentHeader) (hmetadata : d.metadata = some p.metadata)
    (hcontent : d.content = some p.content) :
    record.complete d = .ok ⟨d.signature.getD "", p⟩ := by
  obtain ⟨signature, header, parentHeader, metadata, content⟩ := d
  obtain rfl : header = some p.header := hheader
  obtain rfl : parentHeader = some p.parentHeader := hparent
  obtain rfl : metadata = some p.metadata := hmetadata
  obtain rfl : content = some p.content := hcontent
  cases signature <;> rfl

/-- The text that a signature is read from, if there is one. -/
inductive Signed (signature : String) : List (List Char) → Prop where
  | without (h : signature = "") : Signed signature []
  | one {t : List Char} (h : whole onlyString t = .ok signature) : Signed signature [t]

theorem Signed.of_taken {ts : List (List Char)} {x : Option String}
    (h : Record.Taken (whole onlyString) ts x) : Signed (x.getD "") ts := by
  cases h with
  | none => exact .without rfl
  | one h => exact .one h

theorem Signed.eq {signature : String} {ts : List (List Char)} {x : Option String}
    (h : Signed signature ts) (hx : Record.Taken (whole onlyString) ts x) :
    x.getD "" = signature := by
  cases h with
  | without h =>
    cases hx
    exact h.symm
  | one h => rw [hx.only rfl h, Option.getD_some]

theorem Line.parse_iff (hes : entries text = .ok es) {l : Line} : Line.parse text = .ok l ↔
    l.parts.StandIn es ∧ Signed l.signature (valuesOf "signature" es) := by
  obtain ⟨hsignature, hheader, hparent, hmetadata, hcontent⟩ := slots
  rw [Line.parse, Record.parse, show depthLimit = 126 + 1 from rfl, record_delimited.read_iff hes]
  have hcut {k : String} {t : List Char} (h : valuesOf k es = [t]) :
      whole (Form.verbatim.read 126) t = .ok t := whole_run (valuesOf_cut hes h)
  constructor
  · rintro ⟨d, hd, hfull⟩
    obtain ⟨hs, hdh, hdp, hdn, hdc⟩ := of_complete hfull
    have hvalue {k : String} {t : List Char} (h : Record.Taken (whole (Form.verbatim.read 126))
        (valuesOf k es) (some t)) : valuesOf k es = [t] := by
      obtain ⟨t', ht', hread⟩ := h.of_some
      rw [hcut ht'] at hread
      rw [ht', Except.ok.inj hread]
    refine ⟨⟨hvalue (hdh ▸ hheader.taken hd), hvalue (hdp ▸ hparent.taken hd),
      hvalue (hdn ▸ hmetadata.taken hd), hvalue (hdc ▸ hcontent.taken hd)⟩, ?_⟩
    rw [hs]
    exact .of_taken (hsignature.taken hd)
  · rintro ⟨hp, hsigned⟩
    have hfits : ∀ f ∈ record.fields, Record.Fits f 126 (valuesOf f.name es) := by
      intro f hf
      simp only [record, List.mem_cons, List.not_mem_nil, or_false] at hf
      obtain rfl | rfl | rfl | rfl | rfl := hf
      · change Record.Fits _ 126 (valuesOf "signature" es)
        generalize valuesOf "signature" es = ts at hsigned
        cases hsigned with
        | without => exact .inl rfl
        | one h => exact .inr ⟨_, _, rfl, Record.whole_map h _⟩
      · exact .inr ⟨_, _, hp.header, Record.whole_map (hcut hp.header) _⟩
      · exact .inr ⟨_, _, hp.parentHeader, Record.whole_map (hcut hp.parentHeader) _⟩
      · exact .inr ⟨_, _, hp.metadata, Record.whole_map (hcut hp.metadata) _⟩
      · exact .inr ⟨_, _, hp.content, Record.whole_map (hcut hp.content) _⟩
    obtain ⟨d, hd⟩ := record_slotted.exists_draft hfits
    have hds := hsigned.eq (hsignature.taken hd)
    have hdh := (hheader.taken hd).only hp.header (hcut hp.header)
    have hdp := (hparent.taken hd).only hp.parentHeader (hcut hp.parentHeader)
    have hdn := (hmetadata.taken hd).only hp.metadata (hcut hp.metadata)
    have hdc := (hcontent.taken hd).only hp.content (hcut hp.content)
    have hfull := complete_full hdh hdp hdn hdc
    rw [hds] at hfull
    exact ⟨d, hd, hfull⟩

theorem Parts.StandIn.insert {p : Parts} {before after : List (String × List Char)}
    (hp : p.StandIn (before ++ after)) (t : List Char) :
    p.StandIn (before ++ ("signature", t) :: after) := by
  constructor
  · rw [valuesOf_insert (by decide), hp.header]
  · rw [valuesOf_insert (by decide), hp.parentHeader]
  · rw [valuesOf_insert (by decide), hp.metadata]
  · rw [valuesOf_insert (by decide), hp.content]

namespace Wire

theorem verify_off (p : Parts) (signature : List Char) : Signer.verify ⟨""⟩ p signature = true := rfl

theorem nested_room {t : List Char} (hcut : Reader.verbatim t = .ok (t, [])) (hnesting : nesting t ≤ 126) :
    Room 0 depthLimit 126 (t.dropWhile isBlank) := by
  obtain ⟨c, w, rfl, hfront, _⟩ := of_verbatim hcut
  rw [dropWhile_front hfront]
  exact .inr (by rw [Nat.zero_add]; exact hnesting)

theorem decode_of_parse (hes : entries text = .ok es) (hparts : ∀ k ∈ partKeys, k ∈ es.map (·.1))
    (hunsigned : "signature" ∉ es.map (·.1)) {m : Message} (hm : Message.parse text = .ok m) :
    decode ⟨""⟩ text = .ok m := by
  obtain ⟨p, hp, hheader, hparent, hmetadata, hcontent⟩ := (Message.parse_iff hes hparts).1 hm
  have hline : Line.parse text = .ok ⟨"", p⟩ :=
    (Line.parse_iff hes).2 ⟨hp, by rw [valuesOf_eq_nil hunsigned]; exact .without rfl⟩
  have hroom (t : List Char) : Room 0 126 depthLimit (t.dropWhile isBlank) := .inl (by decide)
  rw [Header.read_depth] at hheader
  exact decode_iff.2 ⟨_, hline, verify_off _ _, Parts.read_eq_ok.2 ⟨hheader,
    whole_value (hroom _) hparent, whole_value (hroom _) hmetadata,
    whole_value (hroom _) hcontent⟩⟩

theorem parse_of_decode (hes : entries text = .ok es) (hparts : ∀ k ∈ partKeys, k ∈ es.map (·.1))
    (hnesting : ∀ e ∈ es, e.1 ∈ partKeys → nesting e.2 ≤ 126) {s : Signer} {m : Message}
    (hm : decode s text = .ok m) : Message.parse text = .ok m := by
  obtain ⟨l, hl, _, hread⟩ := decode_iff.1 hm
  obtain ⟨hp, _⟩ := (Line.parse_iff hes).1 hl
  obtain ⟨hheader, hparent, hmetadata, hcontent⟩ := Parts.read_eq_ok.1 hread
  have hroom {k : String} {t : List Char} (hk : k ∈ partKeys) (ht : valuesOf k es = [t]) :
      Room 0 depthLimit 126 (t.dropWhile isBlank) := by
    have hmem : t ∈ valuesOf k es := ht ▸ List.mem_singleton_self t
    obtain ⟨e, he, rfl⟩ := List.mem_map.1 hmem
    obtain ⟨he, hkey⟩ := List.mem_filter.1 he
    exact nested_room (entries_cut hes e he) (hnesting e he (beq_iff_eq.1 hkey ▸ hk))
  have hheader' : whole (Header.record.read 126) l.parts.header = .ok m.header := by
    rw [Header.read_depth]
    exact hheader
  exact (Message.parse_iff hes hparts).2 ⟨l.parts, hp, hheader',
    whole_value (hroom (by decide) hp.parentHeader) hparent,
    whole_value (hroom (by decide) hp.metadata) hmetadata,
    whole_value (hroom (by decide) hp.content) hcontent⟩

theorem decode_insert {before after : List (String × List Char)} {s s' : Signer} {m : Message}
    {l : Line} {text' t : List Char} {signature : String} (hes : entries text = .ok (before ++ after))
    (hunsigned : "signature" ∉ (before ++ after).map (·.1)) (hm : decode s text = .ok m)
    (hl : Line.parse text = .ok l)
    (hes' : entries text' = .ok (before ++ ("signature", t) :: after))
    (hsignature : whole onlyString t = .ok signature)
    (hverify : s'.verify l.parts signature.toList = true) : decode s' text' = .ok m := by
  obtain ⟨l', hl', _, hread⟩ := decode_iff.1 hm
  obtain rfl := Except.ok.inj (hl.symm.trans hl')
  obtain ⟨hp, _⟩ := (Line.parse_iff hes).1 hl
  have hline : Line.parse text' = .ok ⟨signature, l.parts⟩ := by
    refine (Line.parse_iff hes').2 ⟨hp.insert t, ?_⟩
    rw [valuesOf_insert_self hunsigned]
    exact .one hsignature
  exact decode_iff.2 ⟨_, hline, hverify, hread⟩

/-- An object with the parts of a message and without a signature holds the same message for both readers,
unless a part opens more brackets than the reader of whole messages has room for. A signature that verifies
may be put anywhere into it. -/
theorem readers_agree (text : List Char) (es : List (String × List Char))
    (hes : entries text = .ok es) (hparts : ∀ k ∈ partKeys, k ∈ es.map (·.1))
    (hunsigned : "signature" ∉ es.map (·.1)) :
    (∀ m, Message.parse text = .ok m → decode ⟨""⟩ text = .ok m) ∧
    (∀ m, decode ⟨""⟩ text = .ok m → (∀ e ∈ es, e.1 ∈ partKeys → nesting e.2 ≤ 126) →
      Message.parse text = .ok m) ∧
    ∀ s m l text' before after t signature, decode ⟨""⟩ text = .ok m → Line.parse text = .ok l →
      es = before ++ after → entries text' = .ok (before ++ ("signature", t) :: after) →
      whole onlyString t = .ok signature → s.verify l.parts signature.toList = true →
      decode s text' = .ok m := by
  refine ⟨fun m hm => decode_of_parse hes hparts hunsigned hm,
    fun m hm hnesting => parse_of_decode hes hparts hnesting hm, ?_⟩
  rintro s m l text' before after t signature hm hl rfl hes' hsignature hverify
  exact decode_insert hes hunsigned hm hl hes' hsignature hverify

/-- The parts stand in another order than on a line, between keys that no reader knows, and one key is
spelled with an escape. -/
theorem readers_agree_signed :
    let header := "[\"1\",\"s\",\"u\",\"\",\"status\",\"5.3\"]".toList
    let content := "[ 1 ,\"\\u00e9\x7d\"]".toList
    let signature := "cdadb21fa9c78b5377a010031ac1f06fc6f2bba949d96e8095888bc9e6baa1f6".toList
    let front := " \x7b \"content\" : ".toList ++ content ++
      ",\"x\":[1e999],\"\\u0068eader\": ".toList ++ header
    let back := " ,\"metadata\":\x7b\x7d,\"x\":0 , \"parent_header\":null\x7d ".toList
    let signed := front ++ ",\"signature\":\"".toList ++ signature ++ ['"'] ++ back
    ∃ m, decode ⟨""⟩ (front ++ back) = .ok m ∧ Message.parse (front ++ back) = .ok m ∧
      decode ⟨"key"⟩ signed = .ok m := by
  intro header content signature front back signed
  let before := [("content", content), ("x", "[1e999]".toList), ("header", header)]
  let after := [("metadata", ['\x7b', '\x7d']), ("x", ['0']), ("parent_header", "null".toList)]
  let parts : Parts := ⟨header, "null".toList, ['\x7b', '\x7d'], content⟩
  have hes : (entries (front ++ back)).toOption.map id = some (before ++ after) := by decide +kernel
  have hes' : (entries signed).toOption.map id =
    some (before ++ ("signature", '"' :: signature ++ ['"']) :: after) := by decide +kernel
  have hl : (Line.parse (front ++ back)).toOption.map Line.parts = some parts := by decide +kernel
  have hm : (decode ⟨""⟩ (front ++ back)).toOption.map Message.msgType = some "status" := by
    decide +kernel
  have hsignature : (whole onlyString ('"' :: signature ++ ['"'])).toOption.map String.toList =
    some signature := by decide +kernel
  have hverify : Signer.verify ⟨"key"⟩ parts signature = true := by decide +kernel
  obtain ⟨_, hes, rfl⟩ := exists_ok hes
  obtain ⟨_, hes', rfl⟩ := exists_ok hes'
  obtain ⟨l, hl, hparts⟩ := exists_ok hl
  obtain ⟨m, hm, _⟩ := exists_ok hm
  obtain ⟨digits, hdigits, hsignature⟩ := exists_ok hsignature
  obtain ⟨_, hback, hadd⟩ := readers_agree (front ++ back) (before ++ after) hes (by decide) (by decide)
  have hverify' : Signer.verify ⟨"key"⟩ l.parts digits.toList = true := by
    rw [hparts, hsignature]
    exact hverify
  exact ⟨m, hm, hback m hm (by decide), hadd ⟨"key"⟩ m l signed before after _ digits hm hl rfl hes'
    hdigits hverify'⟩

end Wire

end NotebookKernel
