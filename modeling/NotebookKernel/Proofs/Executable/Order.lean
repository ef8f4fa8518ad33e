import Mathlib
import NotebookKernel.Proofs.Text.Escaping

namespace NotebookKernel

namespace FileTree

/-- The path leads to a regular file that its owner, its group or all others may execute. -/
def IsProgram (t : FileTree) (path : Path) : Prop :=
  ∃ place bytes mode, t.locate path = .ok (place, .file bytes mode) ∧
    (mode.testBit 6 ∨ mode.testBit 3 ∨ mode.testBit 0)

theorem executeBits_iff (mode : Nat) :
    mode &&& 0o111 ≠ 0 ↔ (mode.testBit 6 ∨ mode.testBit 3 ∨ mode.testBit 0) := by
  constructor
  · intro h
    obtain ⟨i, hi⟩ := Nat.exists_testBit_of_ne_zero h
    rw [Nat.testBit_and, Bool.and_eq_true] at hi
    -- The mask is below 2 ^ 7, so that a bit that is common with it is one of seven.
    have hpow : 2 ^ i < 2 ^ 7 := Nat.lt_of_le_of_lt (Nat.ge_two_pow_of_testBit hi.2) (by decide)
    have hlt : i < 7 := (Nat.pow_lt_pow_iff_right (by decide)).1 hpow
    have hcases : ∀ i < 7, Nat.testBit 0o111 i = true → i = 6 ∨ i = 3 ∨ i = 0 := by decide
    obtain rfl | rfl | rfl := hcases i hlt hi.2
    · exact .inl hi.1
    · exact .inr (.inl hi.1)
    · exact .inr (.inr hi.1)
  · intro h hzero
    have hbit (i : Nat) (hi : Nat.testBit 0o111 i = true) : ¬ mode.testBit i := by
      have hand := congrArg (Nat.testBit · i) hzero
      simpa [Nat.testBit_and, hi] using hand
    obtain h | h | h := h
    · exact hbit 6 rfl h
    · exact hbit 3 rfl h
    · exact hbit 0 rfl h

theorem isExecutable_iff (t : FileTree) (path : Path) :
    t.isExecutable path = true ↔ t.IsProgram path := by
  unfold isExecutable IsProgram
  split
  next place bytes mode hlocate =>
    rw [bne_iff_ne, executeBits_iff]
    constructor
    · intro hmode
      exact ⟨place, bytes, mode, hlocate, hmode⟩
    · rintro ⟨place', bytes', mode', hlocate', hmode⟩
      obtain ⟨-, hfile⟩ := Prod.mk.inj (Except.ok.inj (hlocate.symm.trans hlocate'))
      obtain ⟨-, rfl⟩ := Node.file.inj hfile
      exact hmode
  next hother =>
    refine ⟨nofun, ?_⟩
    rintro ⟨place, bytes, mode, hlocate, -⟩
    exact absurd hlocate (hother place bytes mode)

end FileTree

namespace Executable

/-- The entries of a search path are what stands between its colons. -/
def Lists (searchPath : Path) (entries : List Path) : Prop :=
  searchPath = [0x3A].intercalate entries ∧ ∀ e ∈ entries, 0x3A ∉ e

/-- The first program that is met where all directories are tried for one name before the next name. -/
inductive Found (files : FileTree) (directories : List Path) : List Path → Path → Prop
  | here {name : Path} {names before after : List Path} {directory : Path}
      (split : directories = before ++ directory :: after)
      (earlier : ∀ d ∈ before, ¬ files.IsProgram (Path.join d name))
      (program : files.IsProgram (Path.join directory name)) :
      Found files directories (name :: names) (Path.join directory name)
  | later {name : Path} {names : List Path} {path : Path}
      (missing : ∀ d ∈ directories, ¬ files.IsProgram (Path.join d name))
      (found : Found files directories names path) :
      Found files directories (name :: names) path

/-- What is taken, given the override, the preferred path and the entries of the search path. -/
inductive Taken (files : FileTree) (entries : List Path) : Option Path → Option Path → Path → Prop
  | override {path : Path} {preferred : Option Path} (program : files.IsProgram path) :
      Taken files entries (some path) preferred path
  | preferred {path : Path} (program : files.IsProgram path) :
      Taken files entries none (some path) path
  | found {preferred : Option Path} {path : Path}
      (refused : ∀ p, preferred = some p → ¬ files.IsProgram p)
      (found : Found files (entries.filter (· ≠ []))
        [Utf8.encode "python3".toList, Utf8.encode "python".toList] path) :
      Taken files entries none preferred path

/-- Nothing that might be taken is a program, and this is what is said of it. -/
inductive Missed (files : FileTree) (entries : List Path) : Option Path → Option Path → Fault → Prop
  | override {path : Path} {preferred : Option Path} (refused : ¬ files.IsProgram path) :
      Missed files entries (some path) preferred (.notExecutable path)
  | found {preferred : Option Path} (refused : ∀ p, preferred = some p → ¬ files.IsProgram p)
      (missing : ∀ name ∈ [Utf8.encode "python3".toList, Utf8.encode "python".toList], ∀ d ∈ entries,
        d ≠ [] → ¬ files.IsProgram (Path.join d name)) :
      Missed files entries none preferred .notFound

variable {files : FileTree} {searchPath path : Path} {entries directories names : List Path}

theorem not_mem_of_mem_splitOn (x : UInt8) (bytes : List UInt8) : ∀ part ∈ bytes.splitOn x, x ∉ part := by
  induction bytes with
  | nil => simp
  | cons b bytes ih =>
    rw [List.splitOn_cons_eq_if_modifyHead]
    split
    next hb => exact List.forall_mem_cons.2 ⟨List.not_mem_nil, ih⟩
    next hb =>
      have hne : x ≠ b := fun h => hb (beq_iff_eq.2 h.symm)
      cases hparts : bytes.splitOn x with
      | nil => exact absurd hparts (List.splitOn_ne_nil x bytes)
      | cons part parts =>
        rw [hparts, List.forall_mem_cons] at ih
        exact List.forall_mem_cons.2 ⟨List.not_mem_cons_of_ne_of_not_mem hne ih.1, ih.2⟩

/-- Whatever the search path is, it is that of some entries. -/
theorem exists_lists (searchPath : Path) : ∃ entries, Lists searchPath entries :=
  ⟨searchPath.splitOn 0x3A, (List.intercalate_splitOn _).symm, not_mem_of_mem_splitOn _ searchPath⟩

theorem searchDirectories_of_lists (h : Lists searchPath entries) :
    searchDirectories searchPath = entries.filter (· ≠ []) := by
  obtain ⟨rfl, hcolon⟩ := h
  cases entries with
  | nil => rfl
  | cons e rest =>
    rw [searchDirectories, List.splitOn_intercalate 0x3A hcolon (List.cons_ne_nil _ _)]
    refine List.filter_congr fun e _ => ?_
    rw [Bool.eq_iff_iff, Bool.not_eq_true', List.isEmpty_eq_false_iff, decide_eq_true_iff]

theorem find?_join_eq_some (name : Path) :
    (directories.map (Path.join · name)).find? files.isExecutable = some path ↔
      ∃ before directory after, directories = before ++ directory :: after ∧
        (∀ d ∈ before, ¬ files.IsProgram (Path.join d name)) ∧
        files.IsProgram (Path.join directory name) ∧ Path.join directory name = path := by
  rw [List.find?_map, Option.map_eq_some_iff]
  constructor
  · rintro ⟨directory, hfind, hpath⟩
    obtain ⟨hprogram, before, after, hsplit, hearlier⟩ := List.find?_eq_some_iff_append.1 hfind
    refine ⟨before, directory, after, hsplit, ?_, (files.isExecutable_iff _).1 hprogram, hpath⟩
    intro d hd
    rw [← files.isExecutable_iff]
    simpa using hearlier d hd
  · rintro ⟨before, directory, after, hsplit, hearlier, hprogram, hpath⟩
    refine ⟨directory, List.find?_eq_some_iff_append.2 ⟨(files.isExecutable_iff _).2 hprogram,
      before, after, hsplit, ?_⟩, hpath⟩
    intro d hd
    simpa [← files.isExecutable_iff] using hearlier d hd

theorem find?_join_eq_none (name : Path) :
    (directories.map (Path.join · name)).find? files.isExecutable = none ↔
      ∀ d ∈ directories, ¬ files.IsProgram (Path.join d name) := by
  simp only [List.find?_eq_none, List.forall_mem_map, files.isExecutable_iff]

/-- One name after the other, each in all directories. -/
theorem find?_eq_some_iff_found :
    (names.flatMap fun name => directories.map (Path.join · name)).find? files.isExecutable =
      some path ↔ Found files directories names path := by
  induction names with
  | nil => exact ⟨nofun, nofun⟩
  | cons name names ih =>
    rw [List.flatMap_cons, List.find?_append, Option.or_eq_some_iff, find?_join_eq_some,
      find?_join_eq_none, ih]
    constructor
    · rintro (⟨before, directory, after, hsplit, hearlier, hprogram, rfl⟩ | ⟨hmissing, hfound⟩)
      · exact .here hsplit hearlier hprogram
      · exact .later hmissing hfound
    · rintro (⟨hsplit, hearlier, hprogram⟩ | ⟨hmissing, hfound⟩)
      · exact .inl ⟨_, _, _, hsplit, hearlier, hprogram, rfl⟩
      · exact .inr ⟨hmissing, hfound⟩

theorem find?_eq_none_iff_missing :
    (names.flatMap fun name => directories.map (Path.join · name)).find? files.isExecutable = none ↔
      ∀ name ∈ names, ∀ d ∈ directories, ¬ files.IsProgram (Path.join d name) := by
  simp only [List.find?_eq_none, List.forall_mem_flatMap, List.forall_mem_map, files.isExecutable_iff]

theorem Found.isProgram (h : Found files directories names path) : files.IsProgram path := by
  induction h with
  | here split earlier program => exact program
  | later missing found ih => exact ih

theorem Taken.isProgram {override preferred : Option Path}
    (h : Taken files entries override preferred path) : files.IsProgram path := by
  cases h with
  | override program => exact program
  | preferred program => exact program
  | found refused found => exact found.isProgram

theorem filter_eq_none_iff {preferred : Option Path} :
    preferred.filter files.isExecutable = none ↔ ∀ p, preferred = some p → ¬ files.IsProgram p := by
  simp only [Option.filter_eq_none_iff, files.isExecutable_iff]

theorem searchOrder_of_lists (h : Lists searchPath entries) :
    searchOrder searchPath = [Utf8.encode "python3".toList, Utf8.encode "python".toList].flatMap fun name =>
      (entries.filter (· ≠ [])).map (Path.join · name) := by
  rw [searchOrder, searchDirectories_of_lists h]
  rfl

theorem resolve_eq_ok_iff {override preferred searchPath : Option Path}
    (h : Lists (searchPath.getD usualSearchPath) entries) :
    resolve files override preferred searchPath = .ok path ↔
      Taken files entries override preferred path := by
  cases override with
  | some p =>
    by_cases hp : files.isExecutable p = true
    · rw [resolve, if_pos hp, Except.ok.injEq]
      constructor
      · rintro rfl
        exact .override ((files.isExecutable_iff p).1 hp)
      · rintro ⟨-⟩
        rfl
    · rw [resolve, if_neg hp]
      refine ⟨nofun, ?_⟩
      rintro ⟨program⟩
      exact absurd ((files.isExecutable_iff _).2 program) hp
  | none =>
    cases hpreferred : preferred.filter files.isExecutable with
    | some p =>
      obtain ⟨rfl, hp⟩ := Option.filter_eq_some_iff.1 hpreferred
      have hprogram := (files.isExecutable_iff p).1 hp
      simp only [resolve, hpreferred, Except.ok.injEq]
      constructor
      · rintro rfl
        exact .preferred hprogram
      · rintro (- | - | ⟨refused, -⟩)
        · rfl
        · exact absurd hprogram (refused _ rfl)
    | none =>
      have hrefused := filter_eq_none_iff.1 hpreferred
      -- Where the preferred path is refused, only the search can take anything.
      have htaken : Taken files entries none preferred path ↔
          Found files (entries.filter (· ≠ []))
            [Utf8.encode "python3".toList, Utf8.encode "python".toList] path := by
        constructor
        · rintro (- | ⟨program⟩ | ⟨-, found⟩)
          · exact absurd program (hrefused path rfl)
          · exact found
        · exact .found hrefused
      rw [htaken, ← find?_eq_some_iff_found, ← searchOrder_of_lists h]
      simp only [resolve, hpreferred]
      cases (searchOrder (searchPath.getD usualSearchPath)).find? files.isExecutable with
      | none => exact ⟨nofun, nofun⟩
      | some found => rw [Except.ok.injEq, Option.some.injEq]

theorem resolve_eq_error_iff {override preferred searchPath : Option Path} {fault : Fault}
    (h : Lists (searchPath.getD usualSearchPath) entries) :
    resolve files override preferred searchPath = .error fault ↔
      Missed files entries override preferred fault := by
  cases override with
  | some p =>
    by_cases hp : files.isExecutable p = true
    · rw [resolve, if_pos hp]
      refine ⟨nofun, ?_⟩
      rintro ⟨refused⟩
      exact absurd ((files.isExecutable_iff _).1 hp) refused
    · rw [resolve, if_neg hp, Except.error.injEq]
      constructor
      · rintro rfl
        exact .override (mt (files.isExecutable_iff p).2 hp)
      · rintro ⟨-⟩
        rfl
  | none =>
    cases hpreferred : preferred.filter files.isExecutable with
    | some p =>
      obtain ⟨rfl, hp⟩ := Option.filter_eq_some_iff.1 hpreferred
      simp only [resolve, hpreferred]
      refine ⟨nofun, ?_⟩
      rintro (- | ⟨refused, -⟩)
      exact absurd ((files.isExecutable_iff _).1 hp) (refused _ rfl)
    | none =>
      have hrefused := filter_eq_none_iff.1 hpreferred
      have hmissing : (searchOrder (searchPath.getD usualSearchPath)).find? files.isExecutable = none ↔
          ∀ name ∈ [Utf8.encode "python3".toList, Utf8.encode "python".toList], ∀ d ∈ entries, d ≠ [] →
            ¬ files.IsProgram (Path.join d name) := by
        simp only [searchOrder_of_lists h, find?_eq_none_iff_missing, List.mem_filter,
          decide_eq_true_iff, and_imp]
      simp only [resolve, hpreferred]
      cases hfind : (searchOrder (searchPath.getD usualSearchPath)).find? files.isExecutable with
      | none =>
        rw [Except.error.injEq]
        constructor
        · rintro rfl
          exact .found hrefused (hmissing.1 hfind)
        · rintro (- | -)
          rfl
      | some found =>
        refine ⟨nofun, ?_⟩
        rintro (- | ⟨-, missing⟩)
        rw [hmissing.2 missing] at hfind
        exact nomatch hfind

/-- The interpreter is looked for in the documented order, whatever the files are: what is found is what the
order takes, and a program; nothing is found just if the order misses. It is reported as the executable
then, by a text that stands for no other path, and else the report stays as it was. -/
theorem resolve_in_order (files : FileTree) (override preferred searchPath : Option Path)
    (r : Reported)
    (h : Lists (searchPath.getD (Utf8.encode "/usr/local/bin:/usr/bin:/bin".toList)) entries) :
    (∀ path, resolve files override preferred searchPath = .ok path ↔
      Taken files entries override preferred path) ∧
    (∀ fault, resolve files override preferred searchPath = .error fault ↔
      Missed files entries override preferred fault) ∧
    (∀ path, resolve files override preferred searchPath = .ok path → files.IsProgram path) ∧
    (∀ path, Taken files entries override preferred path → ∃ executable,
      r.locate files override preferred searchPath = (.ok path, { r with executable }) ∧
      executable.flatMap Utf8.encodeEscaped = path ∧
      ∀ text, path = Utf8.encode text → executable = text.map Char.toNat) ∧
    ∀ fault, Missed files entries override preferred fault →
      r.locate files override preferred searchPath = (.error fault, r) := by
  replace h : Lists (searchPath.getD usualSearchPath) entries := h
  refine ⟨fun _ => resolve_eq_ok_iff h, fun _ => resolve_eq_error_iff h, ?_, ?_, ?_⟩
  · intro path hpath
    exact ((resolve_eq_ok_iff h).1 hpath).isProgram
  · intro path htaken
    refine ⟨Utf8.decodeEscaping path, ?_, Utf8.encode_decodeEscaping path, ?_⟩
    · rw [Reported.locate, (resolve_eq_ok_iff h).2 htaken]
    · rintro text rfl
      exact Utf8.decodeEscaping_encode text
  · intro fault hmissed
    rw [Reported.locate, (resolve_eq_error_iff h).2 hmissed]

/-- A file that is called `python`, and two that are called `python3`, of which one lies where nobody may search
and the other in a directory whose name is no text. -/
def installed : FileTree :=
  ⟨[([[0x61]], .directory true), ([[0x61], .ofText "python"], .file [] 0o755),
    ([[0x62]], .directory false), ([[0x62], .ofText "python3"], .file [] 0o755),
    ([[0xFF]], .directory true), ([[0xFF], .ofText "python3"], .file [] 0o101)], []⟩

theorem installed_isExecutable : installed.isExecutable [0x61] = false ∧
    installed.isExecutable (Path.join [0x61] (.ofText "python3")) = false ∧
    installed.isExecutable (Path.join [0x62] (.ofText "python3")) = false ∧
    installed.isExecutable (Path.join [0xFF] (.ofText "python3")) = true := by
  cbv

/-- The preferred path is a directory. What is found after it stands behind what is called `python`. -/
theorem resolve_in_order_later_directory :
    let searchPath : Path := [0x61, 0x3A, 0x3A, 0x62, 0x3A, 0xFF]
    let hidden : Path := [0x62, 0x2F] ++ Utf8.encode "python3".toList
    let found : Path := [0xFF, 0x2F] ++ Utf8.encode "python3".toList
    Lists searchPath [[0x61], [], [0x62], [0xFF]] ∧
    resolve installed none (some [0x61]) (some searchPath) = .ok found ∧
    (∃ executable, Reported.locate ⟨[], [], []⟩ installed none (some [0x61]) (some searchPath) =
      (.ok found, ⟨executable, [], []⟩) ∧ executable.flatMap Utf8.encodeEscaped = found) ∧
    resolve installed (some hidden) (some [0x61]) (some searchPath) = .error (.notExecutable hidden) := by
  intro searchPath hidden found
  obtain ⟨hdirectory, habsent, hhidden, hprogram⟩ := installed_isExecutable
  rw [← Bool.not_eq_true, installed.isExecutable_iff] at hdirectory habsent hhidden
  rw [installed.isExecutable_iff] at hprogram
  have hlists : Lists searchPath [[0x61], [], [0x62], [0xFF]] := ⟨by decide, by decide⟩
  have htaken : Taken installed [[0x61], [], [0x62], [0xFF]] none (some [0x61]) found := by
    have hrefused : ∀ p, some [0x61] = some p → ¬ installed.IsProgram p := by
      rintro p ⟨⟩
      exact hdirectory
    have hearlier : ∀ d ∈ [[0x61], [0x62]], ¬ installed.IsProgram (Path.join d (.ofText "python3")) :=
      List.forall_mem_cons.2 ⟨habsent, List.forall_mem_singleton.2 hhidden⟩
    have hsplit : [[0x61], [], [0x62], [0xFF]].filter (· ≠ ([] : Path)) = [[0x61], [0x62]] ++ [0xFF] :: [] :=
      rfl
    exact .found hrefused (.here hsplit hearlier hprogram)
  obtain ⟨hok, -, -, hlocated, -⟩ :=
    resolve_in_order installed none (some [0x61]) (some searchPath) ⟨[], [], []⟩ hlists
  obtain ⟨-, herror, -⟩ :=
    resolve_in_order installed (some hidden) (some [0x61]) (some searchPath) ⟨[], [], []⟩ hlists
  obtain ⟨executable, hreported, hback, -⟩ := hlocated found htaken
  exact ⟨hlists, (hok _).2 htaken, ⟨executable, hreported, hback⟩, (herror _).2 (.override hhidden)⟩

end Executable

end NotebookKernel
