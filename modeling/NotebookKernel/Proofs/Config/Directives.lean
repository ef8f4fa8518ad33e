import Mathlib
import NotebookKernel.ConnectionFile
import NotebookKernel.Proofs.Json.Printing
import NotebookKernel.Proofs.Json.Records
import NotebookKernel.Proofs.Text.Utf8

namespace NotebookKernel

open Json Json.Reader

namespace Json

theorem intChars_natCast (n : Nat) : intChars n = digitChars n :=
  if_neg (Int.not_lt.2 (Int.natCast_nonneg n))

theorem Form.wordOfNumber?_toNat (w : UInt16) : wordOfNumber? (.int w.toNat) = some w := by
  have hrange : (0 : Int) ≤ w.toNat ∧ (w.toNat : Int) < 0x10000 := by
    have hlt : w.toNat < 0x10000 := w.toNat_lt
    omega
  rw [wordOfNumber?, if_pos hrange, Int.toNat_natCast, UInt16.ofNat_toNat]

theorem Form.word16_digitChars (w : UInt16) {rest : List Char} (hr : EndsNumber rest)
    (depth : Nat) : word16.read depth (digitChars w.toNat ++ rest) = .ok (w, rest) := by
  have hlt : w.toNat < 0x10000 := w.toNat_lt
  have hnumber : number (digitChars w.toNat ++ rest) = .ok (.int w.toNat, rest) := by
    rw [← intChars_natCast]
    apply number_intChars
    · omega
    · omega
    · exact hr
  obtain ⟨c, cs, hchars, hdigit⟩ := digitChars_cons w.toNat
  rw [hchars, List.cons_append] at hnumber ⊢
  have hstarts : StartsNumber c := .inr hdigit
  have hnumeric : c = '-' ∨ isDigit c = true := hstarts
  simp only [word16]
  rw [bind_run (upcoming_cons hstarts.not_blank _)]
  simp only [if_pos hnumeric]
  rw [bind_run hnumber, wordOfNumber?_toNat]
  rfl

end Json

namespace Config

theorem reads (c : Config) (depth : Nat) :
    Reads (record.readField depth) {}
      ([("ip", quote c.ip.toList), ("transport", quote c.transport.toList),
        ("control_port", digitChars c.ports.control.toNat),
        ("shell_port", digitChars c.ports.shell.toNat),
        ("stdin_port", digitChars c.ports.stdin.toNat),
        ("iopub_port", digitChars c.ports.iopub.toNat),
        ("hb_port", digitChars c.ports.heartbeat.toNat), ("key", quote c.key.toList),
        ("signature_scheme", quote c.scheme.toList)].map fieldChars)
      ⟨some c.ip, some c.transport, some c.ports.control, some c.ports.shell, some c.ports.stdin,
        some c.ports.iopub, some c.ports.heartbeat, some c.key, some c.scheme⟩ := by
  iterate 2
    refine .cons (fun _ _ _ => Record.readField_of rfl rfl (onlyString_quote _ _)) ?_
  iterate 5
    refine .cons (fun _ rest he => Record.readField_of rfl rfl
      (Form.word16_digitChars _ (he.ends_number rest) depth)) ?_
  iterate 2
    refine .cons (fun _ _ _ => Record.readField_of rfl rfl (onlyString_quote _ _)) ?_
  exact .nil _

/-- A configuration is read back from its text, whatever blanks stand behind it. -/
theorem parse_chars_append (c : Config) {blanks : List Char}
    (hblanks : ∀ b ∈ blanks, isBlank b = true) : Config.parse (c.chars ++ blanks) = .ok c :=
  whole_run_blanks (Record.read_recordChars (c.reads 126) rfl blanks) hblanks

theorem chars_no_controls (c : Config) : NoControls c.chars := by
  apply recordChars_no_controls
  simp only [List.forall_mem_cons, List.not_mem_nil, false_implies, implies_true, and_true]
  exact ⟨quote_no_controls _, quote_no_controls _, digitChars_no_controls _,
    digitChars_no_controls _, digitChars_no_controls _, digitChars_no_controls _,
    digitChars_no_controls _, quote_no_controls _, quote_no_controls _⟩

/-- What is told of a configuration is its text, and a newline. -/
theorem directives_eq (c : Config) : c.directives = c.chars ++ ['\n'] := rfl

theorem parse_directives (c : Config) : Config.parse c.directives = .ok c := by
  rw [directives_eq]
  apply parse_chars_append
  exact List.forall_mem_singleton.2 rfl

theorem ofText_directives (c : Config) : ofText c.directives = c.validate := by
  rw [ofText, parse_directives]
  rfl

theorem ofFile_of_text {files : FileTree} {home path : Path} {text : List Char}
    (h : files.readText (Path.expandHome home path) = .ok text) :
    ofFile files home path = ofText text := by
  simp only [ofFile, h]
  rfl

/-- The text of a file is what its bytes encode. -/
theorem readText_encode {files : FileTree} {path : Path} {place : Place} {text : List Char}
    {mode : Nat} (h : files.locate path = .ok (place, .file (Utf8.encode text) mode)) :
    files.readText path = .ok text := by
  rw [FileTree.readText, h]
  simp only [Bind.bind, Except.bind, Utf8.decode?_encode]
  rfl

/-- The line that is printed for a configuration is its text and nothing else, is one line, and is read
back as the configuration; a connection file that holds the line is accepted just for the transport that
is supported. -/
theorem directives_agree (c : Config) :
    c.directives = c.chars ++ ['\n'] ∧ (∀ ch ∈ c.chars, 0x20 ≤ ch.toNat) ∧
    Config.parse c.directives = .ok c ∧ Config.parse c.chars = .ok c ∧
    ∀ (files : FileTree) (home path : Path) (place : Place) (mode : Nat),
      files.locate (Path.expandHome home path) =
        .ok (place, .file (Utf8.encode c.directives) mode) →
      ofFile files home path =
        if c.transport = "tcp" then .ok c
        else .error (.config ("unsupported transport '" ++ c.transport ++ "'")) := by
  have hparse : Config.parse (c.chars ++ []) = .ok c := c.parse_chars_append (List.forall_mem_nil _)
  rw [List.append_nil] at hparse
  refine ⟨c.directives_eq, c.chars_no_controls, c.parse_directives, hparse, ?_⟩
  intro files home path place mode hfile
  rw [ofFile_of_text (readText_encode hfile), ofText_directives]
  rfl

/-- A file in the home directory is found by a path that begins with `~`. -/
theorem locate_home (bytes : List UInt8) :
    (⟨[([.ofText "kernel.json"], .file bytes 0o600)], []⟩ : FileTree).locate
      (Path.expandHome [0x2F] ([0x7E, 0x2F] ++ Path.ofText "kernel.json")) =
        .ok ([.ofText "kernel.json"], .file bytes 0o600) := by
  cbv

theorem directives_agree_unsupported :
    let c : Config := ⟨"\"é\n", "ipc", ⟨0, 1, 80, 9999, 65535⟩, "\\key", ""⟩
    let name : Path := Utf8.encode "kernel.json".toList
    let files : FileTree := ⟨[([name], .file (Utf8.encode c.directives) 0o600)], []⟩
    Config.parse c.directives = .ok c ∧
      ofFile files [0x2F] ([0x7E, 0x2F] ++ name) = .error (.config "unsupported transport 'ipc'") := by
  intro c name files
  obtain ⟨_, _, hparse, _, haccepted⟩ := directives_agree c
  refine ⟨hparse, ?_⟩
  rw [haccepted files [0x2F] ([0x7E, 0x2F] ++ name) _ _ (locate_home _), if_neg (by decide)]
  rfl

end Config

end NotebookKernel
