import DecimalMachine.Command.Launch
import DecimalMachine.Proofs.Assembly.Dump
import DecimalMachine.Proofs.Command.FileTree
import DecimalMachine.Proofs.Command.Run

/-!
# Launching a source

A source that is launched is assembled into a dump, which is put in front of the arguments for the
command that runs it. Among these arguments a dump of its own comes later and counts; without one,
what is run is the program that the source is assembled to. `launch_runs_source` is the main
statement.
-/

namespace DecimalMachine

namespace Launch

theorem ofArguments_append {before : List String} (h : option ∉ before) (path : String)
    (behind : List String) :
    ofArguments (before ++ option :: path :: behind) = .source path (before ++ behind) := by
  have hbefore : ∀ argument ∈ before, (argument != option) = true := by
    intro argument hargument
    simpa using ne_of_mem_of_not_mem hargument h
  rw [ofArguments, List.dropWhile_append_of_pos hbefore, List.takeWhile_append_of_pos hbefore]
  simp

theorem head?_dumpPath {scratch : String} (h : scratch.toList.head? ≠ some '-') :
    (dumpPath scratch).toList.head? ≠ some '-' := by
  rw [dumpPath, String.toList_append, List.head?_append]
  cases hhead : scratch.toList.head? with
  | none => decide
  | some c => rwa [hhead] at h

end Launch

theorem Refusal.exists_conclude (refusal : Refusal) (grammar : Grammar) :
    ∃ status, (refusal.conclude grammar).2 = .dismissed status := by
  cases refusal with
  | help => exact ⟨0, rfl⟩
  | version => exact ⟨0, rfl⟩
  | misuse message => exact ⟨2, rfl⟩

namespace AssembleCommand

/-- The command on a source that is assembled: what it shows is on the stream for messages. -/
theorem exists_assembleCommand {path output source : String} {files written : FileTree}
    {content : List UInt8} {words : List Word} (hpath : grammar.IsPlain path)
    (houtput : grammar.IsPlain output)
    (hcontent : files.readFor .readSource (.ofString path) = .ok content)
    (htext : sourceText (.ofString path) content = .ok source)
    (hwords : assemble source = .ok words)
    (hwritten : files.writeOutput (.ofString output) (Word.dump words) = .ok written) :
    ∃ pieces, pieces.filterMap Piece.out? = [] ∧
      assembleCommand [path, "--output", output] files = ⟨.completed 0, pieces, written⟩ := by
  obtain ⟨assembly, hassembly, rfl⟩ := Result.map_eq_ok_iff.1 hwords
  have hread : onFile .readSource (.ofString path) (files.read (.ofString path)) = .ok content :=
    hcontent
  have hwrite : onFile .writeOutput (.ofString output)
      (files.write (.ofString output) (Word.dump assembly.words)) = .ok written := hwritten
  obtain ⟨notices, hfile⟩ : ∃ notices,
      assembleFile files.read files.write (.ofString path) (.text output) =
        .ok (written, notices) := by
    simp only [assembleFile, assembleContent, hread, htext, hassembly, OptionValue.path,
      Assembly.dump, hwrite, bind, Except.bind]
    exact ⟨_, rfl⟩
  refine ⟨notices.flatMap (Notice.pieces .info), RunCommand.out?_notices .info notices, ?_⟩
  have hoption : AssembleCommand.output ⟨some path, [("--output", .text output)], [], []⟩ =
      .text output := rfl
  simp only [assembleCommand, assembleCommandOn, Grammar.start, parse_output hpath houtput,
    AssembleCommand.source, Option.getD_some, hoption, hfile]

/-- A path that is taken for an option is refused. -/
theorem exists_dismissed {path output : String} (hpath : ¬grammar.IsPlain path)
    (houtput : grammar.IsPlain output) : ∃ status, ∀ files,
      (assembleCommand [path, "--output", output] files).exit = .dismissed status := by
  obtain ⟨refusal, hrefused⟩ := exists_refusal hpath houtput
  obtain ⟨status, hstatus⟩ := refusal.exists_conclude grammar
  refine ⟨status, fun files => ?_⟩
  rw [assembleCommand, assembleCommandOn, Grammar.start, hrefused]
  exact hstatus

end AssembleCommand

namespace RunCommand

/-- What is asked for with a dump in front of other arguments: this dump, unless they name one by
option as well. -/
theorem request_withEarlier (arguments : Arguments) (path : String) :
    request (arguments.withEarlier [("--ram", .text path)]) =
      ⟨some ((arguments.values.lookup "--ram").getD (.text path)), arguments.positional,
        arguments.flags.contains "--output-only"⟩ := by
  have hlookup : (arguments.values ++ [("--ram", OptionValue.text path)]).lookup "--ram" =
      some ((arguments.values.lookup "--ram").getD (.text path)) := by
    rw [List.lookup_append]
    cases arguments.values.lookup "--ram" <;> rfl
  rw [request, Arguments.withEarlier, hlookup]

/-- A dump in front of arguments that name none by option is what is run. -/
theorem tells_runCommand_of_source {dump : String} {rest : List String} {arguments : Arguments}
    {written : FileTree} {words : List Word} {m : Machine} {lines : List String} {cells : Nat}
    (hdump : grammar.IsPlain dump) (harguments : Arguments.parse grammar rest = .ok arguments)
    (hfree : arguments.values.lookup "--ram" = none)
    (hcontent : written.readFor .readDump (.ofString dump) = .ok (Word.dump words))
    (hload : (machine lines).loadDump (Word.dump words) = .ok (m, cells)) (limit : Nat) :
    Tells (arguments.flags.contains "--output-only")
      (runCommand ("--ram" :: dump :: rest) written lines limit) (m.runUnobserved limit) := by
  have hread : onFile .readDump (.ofString dump) (written.read (.ofString dump)) =
      .ok (Word.dump words) := hcontent
  simp only [runCommand, runCommandOn, Grammar.start, parse_ram hdump harguments,
    request_withEarlier, hfree, Option.getD_none]
  rw [perform_eq, hread]
  exact (tells_play_of_loadDump hload _ _ _ _).after (out?_notices _ _)

/-- The words of a source that is assembled are loaded as a program, and as the dump of them. -/
theorem exists_machine_of_assemble {source : String} {words : List Word}
    (hwords : assemble source = .ok words) (lines : List String) :
    ∃ m, (machine lines).loadProgram (words.map .word) = .ok (m, words.length) ∧
      m.memory.toList = words ++ List.replicate (100 - words.length) .zero ∧
      (machine lines).loadDump (Word.dump words) = .ok (m, words.length) := by
  obtain ⟨memory, hload, hprogram, hcells⟩ := Memory.loadDump_blank (length_le_of_assemble hwords)
  have hmemory : (machine lines).memory.loadDump (Word.dump words) = .ok (memory, words.length) :=
    hload
  refine ⟨{ machine lines with memory := memory },
    Machine.loadProgram_eq_ok_iff.2 ⟨memory, hprogram, rfl⟩, hcells, ?_⟩
  rw [Machine.loadDump, hmemory]
  rfl

/-- Arguments that name a dump by option make up for one in front of them. -/
theorem runCommand_of_later_dump {dump : String} {rest : List String} {arguments : Arguments}
    {value : OptionValue} (hdump : grammar.IsPlain dump)
    (harguments : Arguments.parse grammar rest = .ok arguments)
    (hvalue : arguments.values.lookup "--ram" = some value) (files : FileTree)
    (lines : List String) (limit : Nat) :
    runCommand ("--ram" :: dump :: rest) files lines limit = runCommand rest files lines limit := by
  have hrequest : request (arguments.withEarlier [("--ram", .text dump)]) = request arguments := by
    rw [request_withEarlier, request, hvalue, Option.getD_some]
  simp only [runCommand, runCommandOn, Grammar.start, parse_ram hdump harguments, harguments,
    hrequest]

end RunCommand

section Launch

variable {scratch path source : String} {before behind : List String} {files written : FileTree}
  {content : List UInt8} {words : List Word} {arguments : Arguments}

/-- A launched source is run as the dump in front of the remaining arguments: the launch ends so,
and so it shows on the stream for output. -/
theorem launchCommand_runs_dump (hfirst : Launch.option ∉ before)
    (hpath : AssembleCommand.grammar.IsPlain path)
    (hcontent : files.readFor .readSource (.ofString path) = .ok content)
    (htext : AssembleCommand.sourceText (.ofString path) content = .ok source)
    (hwords : assemble source = .ok words) (hscratch : scratch.toList.head? ≠ some '-')
    (hwritten : (files.makeDirectory (.ofPathname (.ofString scratch))).writeOutput
      (.ofString (Launch.dumpPath scratch)) (Word.dump words) = .ok written)
    (lines : List String) (limit : Nat) :
    let launched :=
      launchCommand scratch (before ++ Launch.option :: path :: behind) files lines limit
    let run :=
      runCommand ("--ram" :: Launch.dumpPath scratch :: (before ++ behind)) written lines limit
    launched.exit = run.exit ∧ launched.stdout = run.stdout := by
  intro launched run
  obtain ⟨pieces, hpieces, hassemble⟩ := AssembleCommand.exists_assembleCommand hpath
    (Grammar.isPlain_of_head (Launch.head?_dumpPath hscratch))
    (FileTree.readFor_makeDirectory _ hcontent) htext hwords hwritten
  have hlaunched : launched = { run.after pieces with
      files := (run.after pieces).files.remove (.ofPathname (.ofString scratch)) } := by
    simp only [launched, launchCommand, Launch.ofArguments_append hfirst, hassemble, if_true, run]
  rw [hlaunched]
  exact ⟨rfl, RunCommand.stdout_after run hpieces⟩

/-- What becomes of a source that is launched. If it can be read and is assembled, the scratch
directory can be written to, and the other arguments are such as the command that runs dumps takes,
then there is the machine that is loaded with the words of the source, in a memory that is zero
behind them. If no other dump is named by option, then the launch ends as the run of this machine
does, with its output and with the typed lines as its input, up to every limit. If a dump is named,
then this one is run instead, as it would be without the source. A path that is taken for an option
is not assembled, and nothing is run. -/
theorem launch_runs_source (hfirst : Launch.option ∉ before)
    (hcontent : files.readFor .readSource (.ofString path) = .ok content)
    (htext : AssembleCommand.sourceText (.ofString path) content = .ok source)
    (hwords : assemble source = .ok words)
    (harguments : Arguments.parse RunCommand.grammar (before ++ behind) = .ok arguments)
    (hscratch : scratch.toList.head? ≠ some '-')
    (hwritten : (files.makeDirectory (.ofPathname (.ofString scratch))).writeOutput
      (.ofString (Launch.dumpPath scratch)) (Word.dump words) = .ok written)
    (lines : List String) :
    let launched limit :=
      launchCommand scratch (before ++ Launch.option :: path :: behind) files lines limit
    let dump := arguments.values.lookup "--ram"
    (AssembleCommand.grammar.IsPlain path → dump = none →
      ∃ m, (RunCommand.machine lines).loadProgram (words.map .word) = .ok (m, words.length) ∧
        m.memory.toList = words ++ List.replicate (100 - words.length) .zero ∧
        ∀ limit, RunCommand.Tells (arguments.flags.contains "--output-only") (launched limit)
          (m.runUnobserved limit)) ∧
    (AssembleCommand.grammar.IsPlain path → dump ≠ none →
      ∀ limit, let run := runCommand (before ++ behind) written lines limit
        (launched limit).exit = run.exit ∧ (launched limit).stdout = run.stdout) ∧
    (¬AssembleCommand.grammar.IsPlain path →
      ∃ status, ∀ limit, (launched limit).exit = .dismissed status) := by
  intro launched dump
  have hdump : RunCommand.grammar.IsPlain (Launch.dumpPath scratch) :=
    Grammar.isPlain_of_head (Launch.head?_dumpPath hscratch)
  refine ⟨fun hpath hfree => ?_, fun hpath hnamed limit => ?_, fun hpath => ?_⟩
  · obtain ⟨m, hprogram, hcells, hload⟩ := RunCommand.exists_machine_of_assemble hwords lines
    refine ⟨m, hprogram, hcells, fun limit => ?_⟩
    obtain ⟨hexit, hstdout⟩ := launchCommand_runs_dump hfirst hpath hcontent htext hwords hscratch
      hwritten lines limit
    have hread := FileTree.readFor_of_writeOutput .readDump hwritten
    exact (RunCommand.tells_runCommand_of_source hdump harguments hfree hread hload
      limit).congr hexit hstdout
  · obtain ⟨value, hvalue⟩ := Option.ne_none_iff_exists'.1 hnamed
    intro run
    have hrun := RunCommand.runCommand_of_later_dump hdump harguments hvalue written lines limit
    rw [show run = _ from hrun.symm]
    exact launchCommand_runs_dump hfirst hpath hcontent htext hwords hscratch hwritten lines limit
  · obtain ⟨status, hdismissed⟩ := AssembleCommand.exists_dismissed hpath
      (Grammar.isPlain_of_head (Launch.head?_dumpPath hscratch))
    refine ⟨status, fun limit => ?_⟩
    simp [launched, launchCommand, Launch.ofArguments_append hfirst, hdismissed]

end Launch

/-- A source that puts out what stands in its last cell, launched with only output asked for. -/
theorem launch_runs_source_of_output :
    let source := "LDA 3\nOUT\nHLT\nDAT 7\n"
    let files := FileTree.empty.add (.ofPathname (.ofString "p.asm"))
      (.file (Text.encodeUtf8 source))
    let words := [503, 902, 0, 7].map Word.wrap
    assemble source = .ok words ∧
      ∃ m, (RunCommand.machine []).loadProgram (words.map .word) = .ok (m, 4) ∧
        m.memory.toList = words ++ List.replicate 96 .zero ∧
        ∀ limit, RunCommand.Tells true
          (launchCommand "scratch" ["--asm", "p.asm", "--output-only"] files [] limit)
          (m.runUnobserved limit) := by
  intro source files words
  have hwords : assemble source = .ok words := by decide +kernel
  have hfirst : Launch.option ∉ ([] : List String) := by decide
  have hcontent : files.readFor .readSource (.ofString "p.asm") = .ok (Text.encodeUtf8 source) := by
    decide +kernel
  have htext : AssembleCommand.sourceText (.ofString "p.asm") (Text.encodeUtf8 source) =
      .ok source := by decide +kernel
  have harguments : Arguments.parse RunCommand.grammar ([] ++ ["--output-only"]) =
      .ok ⟨none, [], ["--output-only"], []⟩ := by decide +kernel
  have hwritten : (files.makeDirectory (.ofPathname (.ofString "scratch"))).writeOutput
      (.ofString (Launch.dumpPath "scratch")) (Word.dump words) =
        .ok ((files.makeDirectory (.ofPathname (.ofString "scratch"))).put
          (.ofPathname (.ofString "scratch/program.bin")) (.file (Word.dump words))) := by
    decide +kernel
  obtain ⟨hruns, -, -⟩ := launch_runs_source hfirst hcontent htext hwords harguments
    (by decide) hwritten []
  exact ⟨hwords, hruns (Grammar.isPlain_of_head (by decide)) rfl⟩

/-- A dump that is named behind the source is run instead of the source. -/
theorem not_forall_launch_runs_source :
    ¬∀ (scratch path source : String) (before behind : List String) (files written : FileTree)
      (content : List UInt8) (words : List Word) (arguments : Arguments),
      Launch.option ∉ before → AssembleCommand.grammar.IsPlain path →
      files.readFor .readSource (.ofString path) = .ok content →
      AssembleCommand.sourceText (.ofString path) content = .ok source →
      assemble source = .ok words →
      Arguments.parse RunCommand.grammar (before ++ behind) = .ok arguments →
      scratch.toList.head? ≠ some '-' →
      (files.makeDirectory (.ofPathname (.ofString scratch))).writeOutput
        (.ofString (Launch.dumpPath scratch)) (Word.dump words) = .ok written →
      ∀ lines, ∃ m,
        (RunCommand.machine lines).loadProgram (words.map .word) = .ok (m, words.length) ∧
        ∀ limit, RunCommand.Tells (arguments.flags.contains "--output-only")
          (launchCommand scratch (before ++ Launch.option :: path :: behind) files lines limit)
          (m.runUnobserved limit) := by
  intro h
  let source := "LDA 3\nOUT\nHLT\nDAT 7\n"
  let words := [503, 902, 0, 7].map Word.wrap
  let other := [503, 902, 0, 1].map Word.wrap
  let files := (FileTree.empty.add (.ofPathname (.ofString "p.asm"))
    (.file (Text.encodeUtf8 source))).add (.ofPathname (.ofString "other.bin"))
      (.file (Word.dump other))
  let directory := Place.ofPathname (.ofString "scratch")
  obtain ⟨m, hload, htells⟩ := h "scratch" "p.asm" source [] ["--ram", "other.bin", "--output-only"]
    files ((files.makeDirectory directory).put (.ofPathname (.ofString "scratch/program.bin"))
      (.file (Word.dump words))) (Text.encodeUtf8 source) words
    ⟨none, [("--ram", .text "other.bin")], ["--output-only"], []⟩ (by decide)
    (Grammar.isPlain_of_head (by decide)) (by decide +kernel) (by decide +kernel)
    (by decide +kernel) (by decide +kernel) (by decide) (by decide +kernel) []
  have hshown : (launchCommand "scratch" ["--asm", "p.asm", "--ram", "other.bin", "--output-only"]
      files [] 3).stdout = "1" ++ RunCommand.closing .halted := by decide +kernel
  have hmeant : (fun loaded : Machine × Nat =>
      String.join ((loaded.1.runUnobserved 3).events.toList.filterMap Event.streamed?) ++
        RunCommand.closing (loaded.1.runUnobserved 3).ending) <$>
      (RunCommand.machine []).loadProgram (words.map .word) =
        .ok ("7" ++ RunCommand.closing .halted) := by decide +kernel
  rw [hload] at hmeant
  have hstdout := (htells 3).stdout_eq rfl
  have hsame : "1" ++ RunCommand.closing .halted = "7" ++ RunCommand.closing .halted :=
    hshown.symm.trans (hstdout.trans (Except.ok.inj hmeant))
  exact absurd hsame (by decide +kernel)

end DecimalMachine
