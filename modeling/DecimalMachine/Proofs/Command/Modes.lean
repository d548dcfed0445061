import DecimalMachine.Proofs.Command.FileTree
import DecimalMachine.Proofs.Command.Run

/-!
# The two ways to show a run

The status of the command that runs a dump tells what came of the dump: whether it could be read,
whether it could be loaded, and how its run ended. With the states of the machine shown or with the
output alone, this is the same, and so is the machine that is left. `runCommand_modes` is the main
statement.

Only the bytes that fill memory count: a number behind them may be no word.

## Main definitions

- `RunCommand.Loads` — a machine is loaded from the content of a dump
-/

namespace DecimalMachine

namespace Ending

variable {ending : Ending}

theorem exit_eq_completed_zero_iff : ending.exit = .completed 0 ↔ ending = .halted := by
  cases ending with
  | halted | cutOff => simp [exit]
  | failed error =>
    simp only [exit, Error.conclude, Error.status]
    split_ifs <;> simp

theorem exit_eq_unfinished_iff : ending.exit = .unfinished ↔ ending = .cutOff := by
  cases ending with
  | halted | cutOff => simp [exit]
  | failed error =>
    simp only [exit, Error.conclude]
    split_ifs <;> simp

theorem exit_eq_completed_one_iff :
    ending.exit = .completed 1 ↔ ∃ error, error.isProgramFault = true ∧ ending = .failed error := by
  cases ending with
  | halted | cutOff => simp [exit]
  | failed error =>
    simp only [exit, Error.conclude, Error.status, Error.isProgramFault]
    split_ifs <;> simp_all

theorem exit_eq_completed_two_iff :
    ending.exit = .completed 2 ↔ ∃ error, error.isFileFailure = true ∧ ending = .failed error := by
  cases ending with
  | halted | cutOff => simp [exit]
  | failed error =>
    cases error <;> simp [exit, Error.conclude, Error.status, Error.isFileFailure, Error.isReported]

end Ending

namespace RunCommand

/-- A machine with typed lines is loaded from the content of a dump. -/
def Loads (content : Except Error (List UInt8)) (lines : List String) (m : Machine) : Prop :=
  ∃ bytes cells, content = .ok bytes ∧ (machine lines).loadDump bytes = .ok (m, cells)

/-! ## Statuses -/

section Statuses

variable {content : Except Error (List UInt8)} {lines : List String} {m : Machine}
  {settings : Settings}

theorem Loads.ending_play (h : Loads content lines m) (settings : Settings) (limit : Nat) :
    (play settings (some content) lines limit).ending = (m.runUnobserved limit).ending := by
  obtain ⟨bytes, cells, rfl, hload⟩ := h
  rw [play_of_loadDump hload]
  exact (Machine.runFrom_congr _ _ _ _ _ _).1

/-- A dump cannot be read, or cannot be loaded, or is loaded and run. -/
theorem ending_play_cases (settings : Settings) (content : Except Error (List UInt8))
    (lines : List String) :
    (∃ error, content = .error error ∧
      ∀ limit, (play settings (some content) lines limit).ending = .failed error) ∨
    (∃ bytes error, content = .ok bytes ∧ (machine lines).loadDump bytes = .error error ∧
      ∀ limit, (play settings (some content) lines limit).ending = .failed error) ∨
    ∃ m, Loads content lines m ∧ ∀ limit,
      (play settings (some content) lines limit).ending = (m.runUnobserved limit).ending := by
  cases content with
  | error error => exact .inl ⟨error, rfl, fun _ => rfl⟩
  | ok bytes =>
    cases hload : (machine lines).loadDump bytes with
    | error error =>
      refine .inr (.inl ⟨bytes, error, rfl, hload, fun limit => ?_⟩)
      rw [play_of_loadDump_error hload]
    | ok loaded =>
      have hloads : Loads (.ok bytes) lines loaded.1 := ⟨bytes, loaded.2, rfl, hload⟩
      exact .inr (.inr ⟨loaded.1, hloads, hloads.ending_play settings⟩)

theorem ending_play_iff {ending : Ending} (hne : ∀ error, ending ≠ .failed error)
    (settings : Settings) (content : Except Error (List UInt8)) (lines : List String)
    (limit : Nat) :
    (play settings (some content) lines limit).ending = ending ↔
      ∃ m, Loads content lines m ∧ (m.runUnobserved limit).ending = ending := by
  constructor
  · rintro rfl
    rcases ending_play_cases settings content lines with
      ⟨error, -, hfailed⟩ | ⟨_, error, -, -, hfailed⟩ | ⟨m, hloads, hending⟩
    · exact absurd (hfailed limit) (hne error)
    · exact absurd (hfailed limit) (hne error)
    · exact ⟨m, hloads, (hending limit).symm⟩
  · rintro ⟨m, hloads, rfl⟩
    exact hloads.ending_play settings limit

theorem error_of_loadDump {bytes : List UInt8} {error : Error}
    (h : (machine lines).loadDump bytes = .error error) : error.isProgramFault = true := by
  rcases Result.bind_eq_error_iff.1 h with herror | ⟨_, -, ⟨⟩⟩
  obtain ⟨address, n, rfl, -⟩ := Memory.exists_of_loadDump_error herror
  rfl

/-- A dump is refused if one of the numbers that it fills memory with is no word. -/
theorem exists_loadDump_error_iff {bytes : List UInt8} :
    (∃ error, (machine lines).loadDump bytes = .error error) ↔
      ∃ address n, Memory.numberAt (Memory.fitted 100 bytes) address = some n ∧
        (n < -999 ∨ 999 < n) := by
  refine Iff.trans ?_ (Memory.exists_loadDump_error_iff (m := (machine lines).memory))
  constructor
  · rintro ⟨error, h⟩
    rcases Result.bind_eq_error_iff.1 h with herror | ⟨_, -, ⟨⟩⟩
    exact ⟨error, herror⟩
  · rintro ⟨error, herror⟩
    exact ⟨error, Result.bind_eq_error_iff.2 (.inl herror)⟩

theorem exists_completed_one_iff (settings : Settings)
    (hcontent : ∀ error, content = .error error → error.isProgramFault = false) :
    (∃ limit, (play settings (some content) lines limit).ending.exit = .completed 1) ↔
      (∃ bytes address n, content = .ok bytes ∧
        Memory.numberAt (Memory.fitted 100 bytes) address = some n ∧ (n < -999 ∨ 999 < n)) ∨
      ∃ m, Loads content lines m ∧ ∃ limit error, error.isProgramFault = true ∧
        (m.runUnobserved limit).ending = .failed error := by
  simp only [Ending.exit_eq_completed_one_iff]
  constructor
  · rintro ⟨limit, error, hfault, hfailed⟩
    rcases ending_play_cases settings content lines with
      ⟨cause, herror, hending⟩ | ⟨bytes, cause, rfl, hload, -⟩ | ⟨m, hloads, hending⟩
    · cases (hending limit).symm.trans hfailed
      cases (hcontent error herror).symm.trans hfault
    · obtain ⟨address, n, hn, hrange⟩ := exists_loadDump_error_iff.1 ⟨cause, hload⟩
      exact .inl ⟨bytes, address, n, rfl, hn, hrange⟩
    · exact .inr ⟨m, hloads, limit, error, hfault, (hending limit).symm.trans hfailed⟩
  · rintro (⟨bytes, address, n, rfl, hn, hrange⟩ | ⟨m, hloads, limit, error, hfault, hfailed⟩)
    · obtain ⟨error, hload⟩ := exists_loadDump_error_iff.2 ⟨address, n, hn, hrange⟩
      refine ⟨0, error, error_of_loadDump hload, ?_⟩
      rw [play_of_loadDump_error hload]
    · exact ⟨limit, error, hfault, (hloads.ending_play settings limit).trans hfailed⟩

theorem exists_completed_two_iff (settings : Settings) :
    (∃ limit, (play settings (some content) lines limit).ending.exit = .completed 2) ↔
      ∃ error, content = .error error ∧ error.isFileFailure = true := by
  simp only [Ending.exit_eq_completed_two_iff]
  have hprogram {error : Error} (hfault : error.isProgramFault = true)
      (hfile : error.isFileFailure = true) : False := by
    simp [Error.isProgramFault, hfile] at hfault
  constructor
  · rintro ⟨limit, error, hfile, hfailed⟩
    rcases ending_play_cases settings content lines with
      ⟨cause, herror, hending⟩ | ⟨bytes, cause, -, hload, hending⟩ | ⟨m, -, hending⟩
    · cases (hending limit).symm.trans hfailed
      exact ⟨error, herror, hfile⟩
    · cases (hending limit).symm.trans hfailed
      exact (hprogram (error_of_loadDump hload) hfile).elim
    · rw [hending] at hfailed
      exact (hprogram (Machine.isProgramFault_of_runFrom _ _ hfailed) hfile).elim
  · rintro ⟨error, rfl, hfile⟩
    exact ⟨0, error, hfile, rfl⟩

/-- A run that ends is ended the same if it is followed further. -/
theorem ending_play_of_le {limit limit' : Nat}
    (h : (play settings (some content) lines limit).ending ≠ .cutOff) (hle : limit ≤ limit') :
    (play settings (some content) lines limit').ending =
      (play settings (some content) lines limit).ending := by
  rcases ending_play_cases settings content lines with
    ⟨_, -, hending⟩ | ⟨_, _, -, -, hending⟩ | ⟨m, -, hending⟩
  · rw [hending, hending]
  · rw [hending, hending]
  · rw [hending] at h ⊢
    rw [hending]
    exact congrArg Run.ending (Machine.runFrom_of_le _ _ h hle)

theorem exists_completed_zero_iff (settings : Settings) :
    (∃ limit, (play settings (some content) lines limit).ending.exit = .completed 0) ↔
      ∃ m, Loads content lines m ∧ ∃ limit, (m.runUnobserved limit).ending = .halted := by
  simp only [Ending.exit_eq_completed_zero_iff]
  constructor
  · rintro ⟨limit, hhalted⟩
    obtain ⟨m, hloads, hending⟩ := (ending_play_iff (by simp) _ _ _ _).1 hhalted
    exact ⟨m, hloads, limit, hending⟩
  · rintro ⟨m, hloads, limit, hhalted⟩
    exact ⟨limit, (hloads.ending_play settings limit).trans hhalted⟩

theorem forall_unfinished_iff (settings : Settings) :
    (∀ limit, (play settings (some content) lines limit).ending.exit = .unfinished) ↔
      ∃ m, Loads content lines m ∧ ∀ limit, (m.runUnobserved limit).ending = .cutOff := by
  simp only [Ending.exit_eq_unfinished_iff]
  constructor
  · intro hnever
    obtain ⟨m, hloads, -⟩ := (ending_play_iff (by simp) _ _ _ _).1 (hnever 0)
    exact ⟨m, hloads, fun limit => (hloads.ending_play settings limit).symm.trans (hnever limit)⟩
  · rintro ⟨m, hloads, hnever⟩ limit
    exact (hloads.ending_play settings limit).trans (hnever limit)

/-- The command is still running, or it has returned a status for good, unless the dump could not
even be looked for. -/
theorem exit_play_cases (settings : Settings)
    (hcontent : ∀ error, content = .error error →
      error = .nullInPath ∨ error.isFileFailure = true) (limit : Nat) :
    let exit limit := (play settings (some content) lines limit).ending.exit
    exit limit = .unfinished ∨ (∀ limit', limit ≤ limit' → exit limit' = exit limit) ∧
      ((∃ status, exit limit = .completed status) ∨ content = .error .nullInPath) := by
  intro exit
  by_cases hcut : (play settings (some content) lines limit).ending = .cutOff
  · exact .inl (Ending.exit_eq_unfinished_iff.2 hcut)
  refine .inr ⟨fun limit' hle => congrArg Ending.exit (ending_play_of_le hcut hle), ?_⟩
  cases hending : (play settings (some content) lines limit).ending with
  | cutOff => exact absurd hending hcut
  | halted => exact .inl ⟨0, Ending.exit_eq_completed_zero_iff.2 hending⟩
  | failed error =>
    have hone (hfault : error.isProgramFault = true) : exit limit = .completed 1 :=
      Ending.exit_eq_completed_one_iff.2 ⟨error, hfault, hending⟩
    rcases ending_play_cases settings content lines with
      ⟨cause, rfl, hfailed⟩ | ⟨bytes, cause, -, hload, hfailed⟩ | ⟨m, -, hrun⟩
    · cases (hfailed limit).symm.trans hending
      rcases hcontent error rfl with rfl | hfile
      · exact .inr rfl
      · exact .inl ⟨2, Ending.exit_eq_completed_two_iff.2 ⟨error, hfile, hending⟩⟩
    · cases (hfailed limit).symm.trans hending
      exact .inl ⟨1, hone (error_of_loadDump hload)⟩
    · have hfailed := (hrun limit).symm.trans hending
      exact .inl ⟨1, hone (Machine.isProgramFault_of_runFrom _ _ hfailed)⟩

end Statuses

/-- A path that is not taken for one is refused the same with and without the flag. -/
theorem exists_runCommandOn_of_not_isPlain {path : String} (hpath : ¬grammar.IsPlain path) :
    ∃ refusal, Arguments.parse grammar ["--ram", path] = .error refusal ∧
      ∀ read files lines limit,
        (runCommandOn read ["--ram", path] files lines limit).exit =
            (refusal.conclude grammar).2 ∧
          (runCommandOn read ["--ram", path, "--output-only"] files lines limit).exit =
            (refusal.conclude grammar).2 := by
  obtain ⟨refusal, hrefused⟩ := exists_refusal hpath
  have hparse : Arguments.parse grammar ["--ram", path] = .error refusal := hrefused [] [] rfl
  have hflag : grammar.classifyAll ["--output-only"] =
      .ok [.mention ⟨"--output-only", grammar.find? "--output-only", "--output-only", none⟩] := by
    decide +kernel
  refine ⟨refusal, hparse, fun read files lines limit => ⟨?_, ?_⟩⟩
  · rw [runCommandOn, Grammar.start, hparse]
  · rw [runCommandOn, Grammar.start, hrefused _ _ hflag]

/-- The two ways to show a run differ in what shows and in nothing else. The command ends the same
either way, whatever it is given and whatever comes of reading the file. If it takes the path of a
dump, then it leaves the same machine either way, with the same input left and the same output, and
its outcome tells of one and the same run: all that was put out is shown as it comes, or at the end
if the machine halts. It returns zero if the machine loaded from the dump halts, one if a number
that the dump fills memory with is no word or a cycle fails, two if the dump cannot be read, and
else it never returns. -/
theorem runCommand_modes (read : Text.Pathname → Except PathFault (List UInt8)) (path : String)
    (files : FileTree) (lines : List String) :
    let content := onFile .readDump (.ofString path) (read (.ofString path))
    let traced limit := runCommandOn read ["--ram", path] files lines limit
    let quiet limit := runCommandOn read ["--ram", path, "--output-only"] files lines limit
    (∀ limit, (traced limit).exit = (quiet limit).exit) ∧
    ∀ arguments, Arguments.parse grammar ["--ram", path] = .ok arguments →
      (∀ limit,
        let run := play (settingsFor (.ofString path) false) (some content) lines limit
        let run' := play (settingsFor (.ofString path) true) (some content) lines limit
        traced limit = outcome (settingsFor (.ofString path) false) files run ∧
          quiet limit = outcome (settingsFor (.ofString path) true) files run' ∧
          run.machine = run'.machine ∧
          Tells false (traced limit) run' ∧ Tells true (quiet limit) run') ∧
      ((∃ limit, (traced limit).exit = .completed 0) ↔
        ∃ m, Loads content lines m ∧ ∃ limit, (m.runUnobserved limit).ending = .halted) ∧
      ((∃ limit, (traced limit).exit = .completed 1) ↔
        (∃ bytes address n, content = .ok bytes ∧
          Memory.numberAt (Memory.fitted 100 bytes) address = some n ∧ (n < -999 ∨ 999 < n)) ∨
        ∃ m, Loads content lines m ∧ ∃ limit error, error.isProgramFault = true ∧
          (m.runUnobserved limit).ending = .failed error) ∧
      ((∃ limit, (traced limit).exit = .completed 2) ↔
        ∃ error, content = .error error ∧ error.isFileFailure = true) ∧
      ((∀ limit, (traced limit).exit = .unfinished) ↔
        ∃ m, Loads content lines m ∧ ∀ limit, (m.runUnobserved limit).ending = .cutOff) ∧
      ∀ limit, (traced limit).exit = .unfinished ∨
        (∀ limit', limit ≤ limit' → (traced limit').exit = (traced limit).exit) ∧
          ((∃ status, (traced limit).exit = .completed status) ∨ content = .error .nullInPath) := by
  intro content traced quiet
  by_cases hpath : grammar.IsPlain path
  case neg =>
    obtain ⟨refusal, hparse, hexits⟩ := exists_runCommandOn_of_not_isPlain hpath
    refine ⟨fun limit => ?_, fun arguments harguments => ?_⟩
    · exact (hexits read files lines limit).1.trans (hexits read files lines limit).2.symm
    · cases hparse.symm.trans harguments
  have hexit (limit : Nat) : (traced limit).exit =
      (play (settingsFor (.ofString path) false) (some content) lines limit).ending.exit := by
    simp only [traced, content, runCommandOn_ram hpath, exit_outcome]
  have hfault : ∀ error, content = .error error →
      error = .nullInPath ∨ error.isFileFailure = true := by
    intro error herror
    rcases onFile_eq_error_iff.1 herror with ⟨-, rfl⟩ | ⟨-, fault, -, rfl⟩
    · exact .inl rfl
    · exact .inr rfl
  have hprogram : ∀ error, content = .error error → error.isProgramFault = false := by
    intro error herror
    rcases hfault error herror with rfl | hfile
    · rfl
    · simp [Error.isProgramFault, hfile]
  refine ⟨fun limit => ?_, fun arguments _ => ⟨fun limit => ?_, ?_⟩⟩
  · obtain ⟨⟨htraced, -, -⟩, ⟨hquiet, -, -⟩⟩ := tells_runCommandOn hpath read files lines limit
    exact htraced.trans hquiet.symm
  · exact ⟨runCommandOn_ram hpath, runCommandOn_ram_outputOnly hpath,
      (play_congr _ _ content lines limit).2, tells_runCommandOn hpath read files lines limit⟩
  · simp only [hexit]
    exact ⟨exists_completed_zero_iff _, exists_completed_one_iff _ hprogram,
      exists_completed_two_iff _, forall_unfinished_iff _, exit_play_cases _ hfault⟩

/-- A dump may hold a number that is no word and still be run to its end, if this number is behind
those that fill memory. -/
theorem not_forall_completed_one_iff :
    ¬∀ (path : String) (files : FileTree) (lines : List String) (arguments : Arguments),
      Arguments.parse grammar ["--ram", path] = .ok arguments →
      let content := files.readFor .readDump (.ofString path)
      ((∃ limit, (runCommand ["--ram", path, "--output-only"] files lines limit).exit =
          .completed 1) ↔
        (∃ bytes address n, content = .ok bytes ∧ Memory.numberAt bytes address = some n ∧
          (n < -999 ∨ 999 < n)) ∨
        ∃ m, Loads content lines m ∧ ∃ limit error, error.isProgramFault = true ∧
          (m.runUnobserved limit).ending = .failed error) := by
  intro h
  let bytes : List UInt8 := List.replicate 200 0 ++ [0x7f, 0xff]
  let files := FileTree.empty.add (.ofPathname (.ofString "p.bin")) (.file bytes)
  have hcontent : files.readFor .readDump (.ofString "p.bin") = .ok bytes := rfl
  have hholds : Memory.numberAt bytes 100 = some 32767 := by decide +kernel
  have hparse : Arguments.parse grammar ["--ram", "p.bin"] =
      .ok ⟨none, [("--ram", .text "p.bin")], [], []⟩ := by decide +kernel
  obtain ⟨limit, hexit⟩ := (h "p.bin" files [] _ hparse).2
    (.inl ⟨bytes, 100, 32767, hcontent, hholds, by decide⟩)
  -- The first word of the dump stops the machine.
  let settings := settingsFor (.ofString "p.bin") true
  have hhalts : (play settings (some (.ok bytes)) [] 1).ending = .halted := by decide +kernel
  have hplain : grammar.IsPlain "p.bin" := Grammar.isPlain_of_head (by decide)
  have hread : onFile .readDump (.ofString "p.bin") (files.read (.ofString "p.bin")) = .ok bytes :=
    hcontent
  rw [runCommand, runCommandOn_ram_outputOnly hplain, hread] at hexit
  simp only [outcome] at hexit
  rcases Nat.eq_zero_or_pos limit with rfl | hpos
  · exact absurd hexit (by decide +kernel)
  · rw [ending_play_of_le (by rw [hhalts]; simp) hpos, hhalts] at hexit
    cases hexit

end RunCommand

end DecimalMachine
