import DecimalMachine.Proofs.Assembly.ErrorKinds
import DecimalMachine.Proofs.Report
import DecimalMachine.Proofs.Report.Message

/-!
# Reports that come about

Two things can keep a report from being made. A number is only written if it has no more digits than
a numeral may have, be it in a text or in the message of an error. And errors are waited for in two
places only: while the source is assembled and the numbers are read, and while the machine runs;
any other error goes past the report, and so does an error of a kind that the place does not wait
for. `Report.Attempt.ofSource` makes a report under these conditions. `attempt_ofSource` shows that
they are never felt: a report comes about for every source, every input and every limit that can
itself be written.

## Main definitions

- `Report.Attempt.ofSource` — a report that is made, or what goes past it
-/

namespace DecimalMachine

namespace Report

/-! ## Attempts at a report -/

namespace Attempt

def decimal (n : Int) : String := String.ofList (Text.decimal n)

/-- Why a run did not halt within its limit. Of the errors of a run only mistakes of the program are
waited for. -/
def problem (limit : Int) : Ending → Except Escape (Option String)
  | .halted => return none
  | .failed error =>
    match Escape.ofError error with
    | .raised error =>
      if error.isReported then return some error.message else .error (.raised error)
    | escape => .error escape
  | .cutOff => return some s!"Stopped after {← write toString limit} cycles"

def summaryText (words : Nat) (limit : Int) (m : Machine) (ending : Ending) :
    Except Escape String := do
  let reason ← problem limit ending
  let size ← write toString words
  let cycles ← write toString m.cycles
  let halted := if m.halted then "Yes" else "No"
  let runtime := reason.toList.map fun text => "\nRuntime: " ++ text
  return stack (["EXECUTION SUMMARY", rule 40 '=', s!"Words: {size}", s!"Cycles: {cycles}",
    s!"Halted: {halted}"] ++ runtime)

/-- What a cycle made of the accumulator. -/
def computed (before after : Word) : Except Escape String :=
  if before = after then return ""
  else return s!"  ACC {← write decimal before.toInt} -> {← write decimal after.toInt}"

/-- Where a cycle went on, if not at the next address. -/
def jumped (address counter : Int) : Except Escape String :=
  if counter = address + 1 then return ""
  else return "  PC -> " ++ (← write (Text.zeroPadded 2) counter)

def traceLine (entry : TraceEntry) : Except Escape String := do
  let cycle ← write (fun n => Text.rightAligned 4 s!"{n}") entry.cycle
  let address ← write (Text.zeroPadded 2) entry.address
  let word ← write (Text.zeroPadded 4) entry.word.toInt
  let listing := Text.leftAligned 8 entry.listing
  let computed ← computed entry.before.accumulator entry.after.accumulator
  let jumped ← jumped entry.address entry.after.programCounter
  return s!"[{cycle}] {address}: {word}  {listing}{computed}{jumped}"

def traceText (trace : Array TraceEntry) : Except Escape String := do
  let shown ← (trace.toList.take shownCycles).mapM traceLine
  let more ←
    if shownCycles < trace.size then
      pure [s!"\n... ({← write toString (trace.size - shownCycles : Nat)} more entries)"]
    else pure []
  return stack (["EXECUTION TRACE", rule 60 '='] ++ shown ++ more)

def stateText (m : Machine) : Except Escape String := do
  let counter ← write (Text.zeroPadded 2) m.registers.programCounter
  let instruction ← write toString m.registers.instructionRegister
  let address ← write (Text.zeroPadded 2) m.registers.addressRegister
  let accumulator ← write decimal m.registers.accumulator.toInt
  let cells ← m.memory.toList.mapM fun w => write (Text.zeroPadded 3) w.toInt
  return stack ["FINAL REGISTERS", rule 30 '=', s!"  PC:  {counter}", s!"  IR:  {instruction}",
    s!"  AR:  {address}", s!"  ACC: {accumulator}", "", "MEMORY", rule 30 '-',
    gridText Memory.defaultColumns cells]

def ofRun (words : Nat) (limit : Int) (run : Run) : Except Escape Report := do
  return {
    summary := ← summaryText words limit run.machine run.ending
    output := run.machine.output.text
    trace := ← traceText run.machine.trace
    state := ← stateText run.machine }

end Attempt

/-- The report on a source that is run on numbers for at most a number of cycles, or what goes past
it. What keeps the source or the numbers from being accepted becomes the report if it is waited for;
loading and the texts are not guarded. -/
def Attempt.ofSource (source inputs : String) (limit : Int) : Except Escape Report :=
  if source.toList.all Text.isBlank then return noProgram
  else
    match (accept source inputs).mapError Escape.ofError with
    | .error escape =>
      if escape.isAwaited then return refusal escape.reason else .error escape
    | .ok (assembly, input) => do
      let (m, _) ← ((Machine.fresh input true).loadProgram (assembly.words.map .word)).mapError
        Escape.ofError
      ofRun assembly.words.length limit (m.runUnobserved limit.toNat)

end Report

/-! ## Numbers of a run -/

namespace Machine

variable {m : Machine} {limit : Nat} {error : Error}

theorem cycles_step_le (m : Machine) : m.step.machine.cycles ≤ m.cycles + 1 := by
  cases houtcome : m.step.outcome with
  | error error =>
    rw [(halted_cycles_of_step_error houtcome).2]
    omega
  | ok entry => rw [(records_of_step houtcome).cycles]

/-- A run counts no more cycles than it is allowed. -/
theorem cycles_runFrom_le (observe : Machine → List Event) (limit : Nat) (m : Machine)
    (shown : Array Event) : (m.runFrom observe limit shown).machine.cycles ≤ m.cycles + limit := by
  induction limit generalizing m shown with
  | zero => exact Nat.le_refl _
  | succ limit ih =>
    have hstep := m.cycles_step_le
    rw [runFrom_succ]
    split
    · simp only
      omega
    · simp only
      omega
    · have hrest := ih m.step.machine (shown ++ observe m ++ m.step.events)
      simp only
      omega

theorem Failure.isReported {left : Machine} (h : m.Failure error left) :
    error.isReported = true := by
  cases h <;> rfl

end Machine

namespace Report

/-! ## Texts that are written -/

namespace Attempt

variable {words : Nat} {limit : Int} {m : Machine} {ending : Ending} {entry : TraceEntry}

theorem problem_eq_ok (hlimit : Text.IsWritable limit)
    (hending : ∀ error, ending = .failed error →
      error.isReported = true ∧ error.IsWritable) :
    problem limit ending = .ok (Report.problem limit ending) := by
  cases ending with
  | halted => rfl
  | failed error =>
    obtain ⟨hreported, hnumbers⟩ := hending error rfl
    simp only [problem, Escape.ofError_of_isWritable hnumbers, hreported, if_true]
    rfl
  | cutOff =>
    simp only [problem, write_of_isWritable toString hlimit]
    rfl

theorem summaryText_eq_ok (hwords : Text.IsWritable words) (hcycles : Text.IsWritable m.cycles)
    (hproblem : problem limit ending = .ok (Report.problem limit ending)) :
    summaryText words limit m ending = .ok (Report.summaryText words limit m ending) := by
  simp only [summaryText, hproblem, write_of_isWritable toString hwords,
    write_of_isWritable toString hcycles]
  rfl

theorem computed_eq_ok (before after : Word) :
    computed before after =
      .ok (if before = after then "" else s!"  ACC {before.text} -> {after.text}") := by
  rw [computed]
  split
  · rfl
  · simp only [write_of_word]
    rfl

theorem jumped_eq_ok (address : Int) {counter : Int} (hcounter : Text.IsWritable counter) :
    jumped address counter =
      .ok (if counter = address + 1 then "" else "  PC -> " ++ Text.zeroPadded 2 counter) := by
  rw [jumped]
  split
  · rfl
  · simp only [write_of_isWritable _ hcounter]
    rfl

theorem traceLine_eq_ok {number : Nat} (hnumber : Text.IsWritable number)
    (h : entry.IsCounted number) : traceLine entry = .ok (Report.traceLine entry) := by
  have hcycle : Text.IsWritable entry.cycle := by rwa [h.cycle]
  have haddress : Text.IsWritable entry.address := by
    have hrange := h.address
    exact Text.isWritable_of_small (by omega)
  have hcounter : Text.IsWritable entry.after.programCounter := by
    have hrange := h.programCounter
    exact Text.isWritable_of_small (by omega)
  simp only [traceLine, write_of_isWritable _ hcycle, write_of_isWritable _ haddress, write_of_word,
    computed_eq_ok, jumped_eq_ok _ hcounter]
  rfl

theorem traceText_eq_ok {entries : Array TraceEntry} (hsize : Text.IsWritable entries.size)
    (h : TraceEntry.AreCounted entries) :
    traceText entries = .ok (Report.traceText entries) := by
  have hshown : (entries.toList.take shownCycles).mapM traceLine =
      .ok ((entries.toList.take shownCycles).map Report.traceLine) := by
    refine Result.mapM_eq_ok_map fun entry hentry => ?_
    obtain ⟨number, -, hnumber, hcounted⟩ := h.exists_isCounted hentry
    exact traceLine_eq_ok (hsize.of_natAbs_le (by omega)) hcounted
  have hmore : Text.IsWritable (entries.size - shownCycles : Nat) :=
    hsize.of_natAbs_le (by omega)
  simp only [traceText, Report.traceText, hshown, write_of_isWritable toString hmore]
  by_cases hlong : shownCycles < entries.size
  · simp only [if_pos hlong]
    rfl
  · simp only [if_neg hlong]
    rfl

theorem stateText_eq_ok {recordTrace : Bool} (h : m.Invariant recordTrace) :
    stateText m = .ok (Report.stateText m) := by
  have hcounter : Text.IsWritable m.registers.programCounter := by
    have hrange := h.programCounter
    exact Text.isWritable_of_small (by omega)
  have hinstruction : Text.IsWritable m.registers.instructionRegister := by
    have hrange := h.instructionRegister
    exact Text.isWritable_of_small (by omega)
  have haddress : Text.IsWritable m.registers.addressRegister := by
    have hrange := h.addressRegister
    exact Text.isWritable_of_small (by omega)
  have hcells : (m.memory.toList.mapM fun w => write (Text.zeroPadded 3) w.toInt) =
      .ok (m.memory.toList.map Word.padded) :=
    Result.mapM_eq_ok_map fun w _ => write_of_word _ w
  simp only [stateText, write_of_isWritable _ hcounter, write_of_isWritable _ hinstruction,
    write_of_isWritable _ haddress, write_of_word _ m.registers.accumulator, hcells]
  rfl

theorem ofRun_eq_ok {run : Run} (hlimit : Text.IsWritable limit) (hwords : Text.IsWritable words)
    (hcycles : (run.machine.cycles : Int) ≤ max limit 0) (hmachine : run.machine.IsCounted)
    (hending : ∀ error, run.ending = .failed error →
      error.isReported = true ∧ error.IsWritable) :
    ofRun words limit run = .ok (Report.ofRun words limit run) := by
  obtain ⟨hinvariant, hentries⟩ := hmachine
  have hcount : Text.IsWritable run.machine.cycles := hlimit.of_natAbs_le (by omega)
  have hsize : Text.IsWritable run.machine.trace.size := by
    rwa [show run.machine.trace.size = run.machine.cycles from hinvariant.size_trace]
  simp only [ofRun, summaryText_eq_ok hwords hcount (problem_eq_ok hlimit hending),
    traceText_eq_ok hsize hentries, stateText_eq_ok hinvariant]
  rfl

end Attempt

/-! ## Sources that are accepted and sources that are not -/

variable {source inputs : String} {assembly : Assembly} {input : Input} {error : Error}

/-- What keeps a source or its numbers from being accepted is waited for. -/
theorem isAwaited_of_accept (h : accept source inputs = .error error) :
    (error.isReported || error.isWrongValue) = true := by
  rcases error_of_accept h with hcode | ⟨token, hread⟩ | ⟨_, n, -, rfl⟩
  · rcases (assemble_eq_error_iff.1 hcode).kind with hkind | hkind | ⟨_, _, _, rfl, -⟩
    · cases error <;> first | rfl | cases hkind
    · cases error <;> first | rfl | cases hkind
    · rfl
  · obtain rfl | ⟨digits, rfl⟩ := error_of_readInt hread <;> rfl
  · rfl

theorem prepare_eq_bind_accept (source inputs : String) :
    prepare source inputs = accept source inputs >>= fun p => do
      let (m, _) ← (Machine.fresh p.2 true).loadProgram (p.1.words.map .word)
      return (p.1, m) := by
  simp only [prepare, accept, bind_assoc, pure_bind]

theorem ofSource_of_accept_error (hblank : ¬source.toList.all Text.isBlank)
    (h : accept source inputs = .error error) (limit : Int) :
    ofSource source inputs limit = refusal error.message := by
  have hprepare : prepare source inputs = .error error := by
    rw [prepare_eq_bind_accept, h]
    rfl
  rw [ofSource, if_neg hblank, hprepare]

theorem accept_eq_ok_iff :
    accept source inputs = .ok (assembly, input) ↔
      Assembly.ofSource source = .ok assembly ∧ ∃ numbers, readInts inputs = .ok numbers ∧
        Input.ofOperands (numbers.map .int) = .ok input := by
  simp only [accept, Result.bind_eq_ok_iff, pure, Except.pure, Except.ok.injEq, Prod.mk.injEq]
  constructor
  · rintro ⟨_, hassembly, numbers, hnumbers, _, hinput, rfl, rfl⟩
    exact ⟨hassembly, numbers, hnumbers, hinput⟩
  · rintro ⟨hassembly, numbers, hnumbers, hinput⟩
    exact ⟨assembly, hassembly, numbers, hnumbers, input, hinput, rfl, rfl⟩

theorem attempt_of_accept_error (hblank : ¬source.toList.all Text.isBlank)
    (h : accept source inputs = .error error) (limit : Int) :
    Attempt.ofSource source inputs limit = .ok (refusal (Escape.ofError error).reason) := by
  have hawaited := Escape.isAwaited_ofError (isAwaited_of_accept h)
  rw [Attempt.ofSource, if_neg hblank, h]
  exact if_pos hawaited

/-- What is accepted is loaded and run, and all texts about the run are written. -/
theorem attempt_of_accept_ok {limit : Int} (hblank : ¬source.toList.all Text.isBlank)
    (h : accept source inputs = .ok (assembly, input)) (hlimit : Text.IsWritable limit) :
    Attempt.ofSource source inputs limit = .ok (ofSource source inputs limit) ∧
      ∃ m, (Machine.fresh input true).loadProgram (assembly.words.map .word) =
          .ok (m, assembly.words.length) ∧
        ∀ error, (m.runUnobserved limit.toNat).ending = .failed error →
          error.isReported = true ∧
            (ofSource source inputs limit).Says ("Runtime: " ++ error.message) := by
  obtain ⟨hassembly, numbers, hnumbers, hinput⟩ := accept_eq_ok_iff.1 h
  have hcode : assemble source = .ok assembly.words :=
    Result.map_eq_ok_iff.2 ⟨assembly, hassembly, rfl⟩
  obtain ⟨m, hload, hreport⟩ := ofSource_eq_ofRun hblank hcode hnumbers hinput
  have hcounted : m.IsCounted := Machine.isCounted_of_loadProgram hload
  obtain ⟨queue, -, rfl⟩ := Result.map_eq_ok_iff.1 hinput
  obtain ⟨hqueue, hcycles⟩ : m.input = .queue queue ∧ m.cycles = 0 := by
    obtain ⟨memory, -, rfl⟩ := Machine.loadProgram_eq_ok_iff.1 hload
    exact ⟨rfl, rfl⟩
  let run := m.runUnobserved limit.toNat
  have hrun : m.RunsTo limit run.ending run.machine := (Machine.runsTo_iff hcycles).2 ⟨rfl, rfl⟩
  have hlast : run.machine.IsCounted :=
    Machine.runFrom_induction (fun _ => Machine.IsCounted.step) _ _ hcounted _
  have hcount : (run.machine.cycles : Int) ≤ max limit 0 := by
    have hle : run.machine.cycles ≤ m.cycles + limit.toNat := Machine.cycles_runFrom_le _ _ _ _
    omega
  have hsummary : (ofSource source inputs limit).summary =
      Report.summaryText assembly.words.length limit run.machine run.ending :=
    congrArg summary (hreport limit)
  have hfailed : ∀ error, run.ending = .failed error →
      error.isReported = true ∧ error.IsWritable := by
    intro error herror
    rw [herror] at hrun
    obtain ⟨last, hfailure⟩ := hrun.exists_failure hqueue
    exact ⟨hfailure.isReported, hfailure.isWritable hlast.1⟩
  have hwords : Text.IsWritable assembly.words.length := by
    have hlength := length_le_of_assemble hcode
    simp only [memorySize] at hlength
    exact Text.isWritable_of_small (by omega)
  refine ⟨?_, m, hload, fun error herror => ⟨(hfailed error herror).1, ?_⟩⟩
  · rw [Attempt.ofSource, if_neg hblank, h, hreport]
    simp only [Except.mapError, hload]
    exact Attempt.ofRun_eq_ok hlimit hwords hcount hlast hfailed
  · refine (says_runtime_iff hsummary fun _ => unbroken_problem hqueue hrun).2 ?_
    exact congrArg (Report.problem limit) herror

/-- Making a report never fails, however the source and the numbers read and whatever the limit is,
as long as it can be written itself. The report on a blank source and on one that is not accepted,
be it for the source or for the numbers, has an error for its first text and three empty ones; what
is waited for there is all that can happen there. What is accepted can be loaded, the machine fails
with errors only that are waited for, and every number in the texts can be written: the report is
the one of the run, and its summary says with which error the run failed, if it failed. Only where
the message for a source counts lines may there be another reason in its place, and this only if
there are too many lines to count. -/
theorem attempt_ofSource (source inputs : String) {limit : Int} (hlimit : Text.IsWritable limit) :
    ∃ report, Attempt.ofSource source inputs limit = .ok report ∧
      (Text.IsWritable (Text.lines source.toList).length →
        report = ofSource source inputs limit) ∧
      (source.toList.all Text.isBlank → report = noProgram) ∧
      (¬source.toList.all Text.isBlank →
        (∀ error, accept source inputs = .error error →
          report = ⟨"Error: " ++ (Escape.ofError error).reason, "", "", ""⟩) ∧
        ∀ assembly input, accept source inputs = .ok (assembly, input) →
          report = ofSource source inputs limit ∧
          ∃ m, (Machine.fresh input true).loadProgram (assembly.words.map .word) =
              .ok (m, assembly.words.length) ∧
            ∀ error, (m.runUnobserved limit.toNat).ending = .failed error →
              error.isReported = true ∧ report.Says ("Runtime: " ++ error.message)) := by
  cases hblank : source.toList.all Text.isBlank with
  | true =>
    have hreport : ofSource source inputs limit = noProgram := if_pos hblank
    exact ⟨noProgram, if_pos hblank, fun _ => hreport.symm, fun _ => rfl,
      fun hnot => absurd rfl hnot⟩
  | false =>
    have hnot : ¬source.toList.all Text.isBlank := by simp [hblank]
    cases haccept : accept source inputs with
    | error error =>
      refine ⟨_, attempt_of_accept_error hnot haccept limit, fun hlines => ?_, by simp, fun _ =>
        ⟨?_, by simp⟩⟩
      · rw [Escape.ofError_of_isWritable (isWritable_of_accept hlines haccept)]
        exact (ofSource_of_accept_error hnot haccept limit).symm
      · rintro _ ⟨⟩
        rfl
    | ok accepted =>
      obtain ⟨hreport, hrun⟩ := attempt_of_accept_ok hnot haccept hlimit
      refine ⟨_, hreport, fun _ => rfl, by simp, fun _ => ⟨by simp, ?_⟩⟩
      rintro _ _ ⟨⟩
      exact ⟨rfl, hrun⟩

/-- A program that reads a number and is given none: the run fails, and the report says so. -/
theorem attempt_ofSource_of_failing_run :
    Text.IsWritable 5 ∧ ∃ report, Attempt.ofSource "INP" "" 5 = .ok report ∧
      report.Says "Runtime: Scripted input is exhausted" := by
  have hlimit : Text.IsWritable 5 := by decide
  have haccept : accept "INP" "" = .ok (⟨[.wrap 901], []⟩, .queue []) := by decide +kernel
  obtain ⟨report, hreport, -, -, hrest⟩ := attempt_ofSource "INP" "" hlimit
  obtain ⟨-, haccepted⟩ := hrest (by decide +kernel)
  obtain ⟨-, m, hload, hfailed⟩ := haccepted _ _ haccept
  let start := Machine.fresh (.queue []) true
  obtain rfl : start.after (.loadProgram [.word (.wrap 901)]) = m := by
    have hwords : start.loadProgram [.word (.wrap 901)] = .ok (m, 1) := hload
    rw [Machine.after, hwords]
  obtain ⟨-, hsays⟩ := hfailed .queueExhausted (by decide +kernel)
  exact ⟨hlimit, report, hreport, hsays⟩

/-- A limit of too many digits, at which a run is cut off at once, goes past the report. -/
theorem attempt_of_overlong {limit : Int} (hblank : ¬source.toList.all Text.isBlank)
    (h : accept source inputs = .ok (assembly, input)) (hlimit : ¬Text.IsWritable limit)
    (hcut : limit ≤ 0) :
    Attempt.ofSource source inputs limit = .error (.overlong limit) := by
  obtain ⟨hassembly, -⟩ := accept_eq_ok_iff.1 h
  have hcode : assemble source = .ok assembly.words :=
    Result.map_eq_ok_iff.2 ⟨assembly, hassembly, rfl⟩
  obtain ⟨m, hload, -⟩ :=
    (Machine.fresh input true).exists_loadProgram_words (length_le_of_assemble hcode)
  have hwrite : write toString limit = .error (.overlong limit) := if_neg hlimit
  rw [Attempt.ofSource, if_neg hblank, h, Int.toNat_of_nonpos hcut]
  simp only [Except.mapError, hload, bind, Except.bind, Attempt.ofRun, Attempt.summaryText,
    Machine.runUnobserved, Machine.run, Machine.runFrom, Attempt.problem, hwrite]

end Report

end DecimalMachine
