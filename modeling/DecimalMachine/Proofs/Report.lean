import DecimalMachine.Proofs.Assembly.Execution
import DecimalMachine.Proofs.Machine.Limit
import DecimalMachine.Proofs.Report.Shown

/-!
# Reports and runs

A report is made of the state in which a run up to a limit leaves the machine, and its summary says
how the run came to its end: that the machine halted, that the limit cut the run off, or which error
a cycle failed with.

## Main definitions

- `Report.Says` — a line of the summary of a report
-/

namespace DecimalMachine

namespace Machine.Failure

variable {m left : Machine} {error : Error}

/-- The texts that the messages of failures begin with. -/
def texts : List String :=
  ["Computer is halted", "Address out of range: ", "Unhandled opcode: ",
    "Opcode 4 is not allowed!", "Scripted input is exhausted"]

theorem exists_message (h : m.Failure error left) :
    ∃ text ∈ texts, ∃ rest, error.message = text ++ rest ∧ Text.Unbroken rest := by
  cases h with
  | halted => exact ⟨"Computer is halted", by decide, "", rfl, by decide⟩
  | noCell => exact ⟨"Address out of range: ", by decide, _, rfl, Text.unbroken_toString _⟩
  | refused => exact ⟨"Unhandled opcode: ", by decide, _, rfl, Text.unbroken_toString _⟩
  | reserved => exact ⟨"Opcode 4 is not allowed!", by decide, "", rfl, by decide⟩
  | exhausted => exact ⟨"Scripted input is exhausted", by decide, "", rfl, by decide⟩

theorem unbroken_message (h : m.Failure error left) : Text.Unbroken error.message := by
  obtain ⟨text, htext, rest, hmessage, hrest⟩ := h.exists_message
  have htexts : ∀ text ∈ texts, Text.Unbroken text := by decide
  rw [hmessage]
  exact Text.unbroken_append.2 ⟨htexts text htext, hrest⟩

/-- No failure reads like a run that was cut off. -/
theorem message_ne (h : m.Failure error left) (limit : Int) :
    error.message ≠ s!"Stopped after {limit} cycles" := by
  obtain ⟨text, htext, rest, hmessage, -⟩ := h.exists_message
  -- They differ in the first two characters.
  have htexts : ∀ text ∈ texts, text.toList.take 2 ≠ ['S', 't'] ∧ 2 ≤ text.toList.length := by
    decide
  obtain ⟨hne, hlength⟩ := htexts text htext
  have hstopped : (s!"Stopped after {limit} cycles").toList.take 2 = ['S', 't'] := by
    show ("Stopped after " ++ toString limit ++ " cycles").toList.take 2 = _
    simp
  intro heq
  rw [← heq, hmessage, String.toList_append, List.take_append_of_le_length hlength] at hstopped
  exact hne hstopped

end Machine.Failure

namespace Report

/-- The summary of a report has a line. -/
def Says (report : Report) (line : String) : Prop :=
  line.toList ∈ Text.lines report.summary.toList

instance (report : Report) (line : String) : Decidable (report.Says line) :=
  inferInstanceAs (Decidable (_ ∈ _))

theorem says_iff_mem_linesOf {report : Report} {line : String} :
    report.Says line ↔ line ∈ linesOf report.summary := by
  rw [Says, linesOf, List.mem_map]
  constructor
  · intro h
    exact ⟨line.toList, h, String.ofList_toList⟩
  · rintro ⟨row, hrow, rfl⟩
    rwa [String.toList_ofList]

/-- The lines with which every summary of a run begins. -/
def leadingLines (words : Nat) (m : Machine) : List String :=
  ["EXECUTION SUMMARY", rule 40 '=', "Words: " ++ toString words, "Cycles: " ++ toString m.cycles,
    "Halted: " ++ if m.halted then "Yes" else "No"]

/-- The lines that tell a problem, if there is one. -/
def problemLines : Option String → List String
  | none => []
  | some text => ["", "Runtime: " ++ text]

variable {report : Report} {words : Nat} {limit : Int} {m later : Machine} {ending : Ending}
  {text : String}

theorem summaryText_eq_stack :
    summaryText words limit m ending =
      stack (leadingLines words m ++ problemLines (problem limit ending)) := by
  rw [summaryText]
  cases problem limit ending with
  | none => rfl
  | some text =>
    have hruntime : "\nRuntime: " ++ text = stack ["", "Runtime: " ++ text] := by
      simp [← String.toList_inj, stack]
    simp only [Option.toList_some, List.map_singleton, hruntime]
    exact stack_concat_stack (List.cons_ne_nil _ _) (leadingLines words m)

theorem unbroken_of_mem_leadingLines {line : String} (h : line ∈ leadingLines words m) :
    Text.Unbroken line := by
  simp only [leadingLines, List.mem_cons, List.not_mem_nil, or_false] at h
  rcases h with rfl | rfl | rfl | rfl | rfl
  · decide
  · decide
  · simp +decide
  · simp +decide
  · cases m.halted <;> decide

theorem unbroken_of_mem_problemLines {problem : Option String} {line : String}
    (hproblem : ∀ text, problem = some text → Text.Unbroken text)
    (h : line ∈ problemLines problem) : Text.Unbroken line := by
  cases problem with
  | none => cases h
  | some text =>
    simp only [problemLines, List.mem_cons, List.not_mem_nil, or_false] at h
    rcases h with rfl | rfl
    · decide
    · exact Text.unbroken_append.2 ⟨by decide, hproblem text rfl⟩

theorem halted_mem_leadingLines_iff :
    "Halted: Yes" ∈ leadingLines words m ↔ m.halted = true := by
  cases hhalted : m.halted <;> simp [leadingLines, ← String.toList_inj, rule, hhalted]

theorem runtime_notMem_leadingLines : "Runtime: " ++ text ∉ leadingLines words m := by
  simp [leadingLines, ← String.toList_inj, rule]

theorem halted_notMem_problemLines (problem : Option String) :
    "Halted: Yes" ∉ problemLines problem := by
  cases problem <;> simp [problemLines, ← String.toList_inj]

theorem runtime_mem_problemLines_iff {problem : Option String} :
    "Runtime: " ++ text ∈ problemLines problem ↔ problem = some text := by
  cases problem with
  | none => simp [problemLines]
  | some other =>
    have hempty : "Runtime: " ++ text ≠ "" := by simp [← String.toList_inj]
    rw [problemLines, List.mem_cons, List.mem_singleton, String.append_right_inj, Option.some_inj,
      eq_comm (a := text)]
    exact or_iff_right hempty

section Summary

variable (hsummary : report.summary = summaryText words limit m ending)
  (hproblem : ∀ text, problem limit ending = some text → Text.Unbroken text)

include hsummary hproblem

/-- The report that has the summary of a run says what is in its lines. -/
theorem says_iff {line : String} :
    report.Says line ↔
      line ∈ leadingLines words m ∨ line ∈ problemLines (problem limit ending) := by
  have hlines : linesOf report.summary =
      leadingLines words m ++ problemLines (problem limit ending) := by
    rw [hsummary, summaryText_eq_stack]
    apply linesOf_stack
    · cases problem limit ending <;> cases m.halted <;>
        simp [leadingLines, problemLines, ← String.toList_inj]
    · intro row hrow
      rcases List.mem_append.1 hrow with hrow | hrow
      · exact unbroken_of_mem_leadingLines hrow
      · exact unbroken_of_mem_problemLines hproblem hrow
  rw [says_iff_mem_linesOf, hlines, List.mem_append]

theorem says_halted_iff : report.Says "Halted: Yes" ↔ m.halted = true := by
  rw [says_iff hsummary hproblem, halted_mem_leadingLines_iff]
  exact or_iff_left (halted_notMem_problemLines _)

theorem says_runtime_iff :
    report.Says ("Runtime: " ++ text) ↔ problem limit ending = some text := by
  rw [says_iff hsummary hproblem, runtime_mem_problemLines_iff]
  exact or_iff_right runtime_notMem_leadingLines

end Summary

/-! ## Problems -/

variable {queue : List Word}

theorem unbroken_problem (hinput : m.input = .queue queue) (hrun : m.RunsTo limit ending later)
    (htext : problem limit ending = some text) : Text.Unbroken text := by
  cases ending with
  | halted => cases htext
  | failed error =>
    cases htext
    obtain ⟨last, hfailure⟩ := hrun.exists_failure hinput
    exact hfailure.unbroken_message
  | cutOff =>
    cases htext
    show Text.Unbroken ("Stopped after " ++ toString limit ++ " cycles")
    simp +decide

theorem problem_eq_stopped_iff (hinput : m.input = .queue queue)
    (hrun : m.RunsTo limit ending later) :
    problem limit ending = some s!"Stopped after {limit} cycles" ↔ ending = .cutOff := by
  cases ending with
  | halted => simp [problem]
  | failed error =>
    obtain ⟨last, hfailure⟩ := hrun.exists_failure hinput
    simp only [problem, Option.some_inj, reduceCtorEq, iff_false]
    exact hfailure.message_ne limit
  | cutOff => simp only [problem]

/-- The limit shows only in the summary of a run that was cut off. -/
theorem ofRun_of_ne_cutOff {run : Run} (h : run.ending ≠ .cutOff) (limit limit' : Int) :
    ofRun words limit' run = ofRun words limit run := by
  have hproblem : problem limit' run.ending = problem limit run.ending := by
    cases hending : run.ending with
    | cutOff => exact absurd hending h
    | halted | failed => rfl
  simp only [ofRun, summaryText, hproblem]

/-! ## Sources -/

section Accepted

variable {source inputs : String} {code : List Word} {numbers : List Int} {input : Input}
  (hblank : ¬source.toList.all Text.isBlank) (hcode : assemble source = .ok code)
  (hnumbers : readInts inputs = .ok numbers)
  (hinput : Input.ofOperands (numbers.map .int) = .ok input)

include hblank hcode hnumbers hinput

theorem ofSource_eq_ofRun :
    ∃ m, (Machine.fresh input true).loadProgram (code.map .word) = .ok (m, code.length) ∧
      ∀ limit, ofSource source inputs limit =
        ofRun code.length limit (m.runUnobserved limit.toNat) := by
  obtain ⟨assembly, hassembly, rfl⟩ := Result.map_eq_ok_iff.1 hcode
  obtain ⟨m, hload, -⟩ :=
    (Machine.fresh input true).exists_loadProgram_words (length_le_of_assemble hcode)
  have hprepare : prepare source inputs = .ok (assembly, m) := by
    simp only [prepare, hassembly, hnumbers, hinput, hload, bind, Except.bind]
    rfl
  refine ⟨m, hload, fun limit => ?_⟩
  rw [ofSource, if_neg hblank, hprepare]

/-- A report tells what comes of running a program up to a limit, whatever the limit. It is made of
the state in which a run of the loaded program leaves the machine, which goes on until the machine
halts, a cycle fails or the cycle count reaches the limit. This state can be read from it: the
summary counts words and cycles, the trace has a line for each of the first hundred cycles, and all
registers and cells are there. The summary says that the machine halted exactly if it halts within
the limit, and that it was stopped exactly if every cycle below the limit goes on; else it has the
message of the error that the machine fails with. The report of a run that ends below the limit is
the same for every higher limit. -/
theorem ofSource_tells_run :
    ∃ m, (Machine.fresh input true).loadProgram (code.map .word) = .ok (m, code.length) ∧
      ∀ limit : Int,
        let report := ofSource source inputs limit
        (∃ ending later, (∀ ending' later', m.RunsTo limit ending' later' ↔
            ending' = ending ∧ later' = later) ∧
          report = ⟨summaryText code.length limit later ending, later.output.text,
            traceText later.trace, stateText later⟩ ∧
          (∀ line ∈ leadingLines code.length later, report.Says line) ∧
          ShowsTrace later.trace.toList (linesOf report.trace) ∧
          ShowsState later (linesOf report.state)) ∧
        (report.Says "Halted: Yes" ↔
          ∃ k : Nat, (k : Int) ≤ limit ∧ (m.runUnobserved k).ending = .halted) ∧
        (report.Says ("Runtime: " ++ s!"Stopped after {limit} cycles") ↔
          ∀ i : Nat, (i : Int) < limit → (m.cycled i).nextOutcome = .ok .continues) ∧
        (¬report.Says "Halted: Yes" →
          ¬report.Says ("Runtime: " ++ s!"Stopped after {limit} cycles") →
          ∃ (k : Nat) (error : Error), (k : Int) ≤ limit ∧
            (m.runUnobserved k).ending = .failed error ∧
            report.Says ("Runtime: " ++ error.message)) ∧
        ((∃ i : Nat, (i : Int) < limit ∧ (m.cycled i).nextOutcome ≠ .ok .continues) →
          ∀ limit', limit ≤ limit' → ofSource source inputs limit' = report) := by
  obtain ⟨m, hload, hreport⟩ := ofSource_eq_ofRun hblank hcode hnumbers hinput
  obtain ⟨queue, -, rfl⟩ := Result.map_eq_ok_iff.1 hinput
  obtain ⟨hqueue, hrunning, hcycles⟩ :
      m.input = .queue queue ∧ m.halted = false ∧ m.cycles = 0 := by
    obtain ⟨memory, -, rfl⟩ := Machine.loadProgram_eq_ok_iff.1 hload
    exact ⟨rfl, rfl, rfl⟩
  refine ⟨m, hload, fun limit => ?_⟩
  intro report
  let run := m.runUnobserved limit.toNat
  have hrun : m.RunsTo limit run.ending run.machine := (Machine.runsTo_iff hcycles).2 ⟨rfl, rfl⟩
  have hsummary : report.summary = summaryText code.length limit run.machine run.ending :=
    congrArg summary (hreport limit)
  have hproblem : ∀ text, problem limit run.ending = some text → Text.Unbroken text :=
    fun _ => unbroken_problem hqueue hrun
  have hhalted : report.Says "Halted: Yes" ↔ run.ending = .halted :=
    (says_halted_iff hsummary hproblem).trans (hrun.halted_iff hrunning)
  have hstopped : report.Says ("Runtime: " ++ s!"Stopped after {limit} cycles") ↔
      run.ending = .cutOff :=
    (says_runtime_iff hsummary hproblem).trans (problem_eq_stopped_iff hqueue hrun)
  have hcounted : run.machine.IsCounted :=
    Machine.runFrom_induction (fun _ => Machine.IsCounted.step) _ _
      (Machine.isCounted_of_loadProgram hload) _
  have htrace : report.trace = traceText run.machine.trace := congrArg trace (hreport limit)
  have hstate : report.state = stateText run.machine := congrArg state (hreport limit)
  refine ⟨⟨run.ending, run.machine, fun _ _ => Machine.runsTo_iff hcycles, hreport limit,
    fun line hline => (says_iff hsummary hproblem).2 (.inl hline), ?trace, ?state⟩,
    ?halted, ?stopped, ?failed, ?higher⟩
  case trace =>
    rw [htrace]
    exact showsTrace_traceText hcounted.2
  case state =>
    rw [hstate]
    exact showsState_stateText hcounted.1
  case halted =>
    rw [hhalted, Machine.exists_ending_iff (by simp)]
  case stopped =>
    rw [hstopped, Machine.cutOff_iff]
  case failed =>
    intro hnotHalted hnotStopped
    cases hending : run.ending with
    | halted => exact absurd (hhalted.2 hending) hnotHalted
    | cutOff => exact absurd (hstopped.2 hending) hnotStopped
    | failed error =>
      obtain ⟨k, hk, hfailed⟩ := (Machine.exists_ending_iff (by simp)).2 hending
      refine ⟨k, error, hk, hfailed, (says_runtime_iff hsummary hproblem).2 ?_⟩
      rw [hending]
      rfl
  case higher =>
    rintro ⟨i, hi, hends⟩ limit' hle
    have hne : run.ending ≠ .cutOff := fun hcut => hends (Machine.cutOff_iff.1 hcut i hi)
    have hsame : m.runUnobserved limit'.toNat = run :=
      Machine.runFrom_of_le _ _ hne (Int.toNat_le_toNat hle)
    show ofSource source inputs limit' = ofSource source inputs limit
    rw [hreport, hreport, hsame]
    exact ofRun_of_ne_cutOff hne limit limit'

end Accepted

/-- A program that reads a number, puts it out and stops, at the limit that it needs, at one below
and at every higher one. -/
theorem ofSource_tells_run_at_limits :
    let source := "INP\nOUT\nHLT"
    (ofSource source "7" 3).Says "Halted: Yes" ∧
      (ofSource source "7" 2).Says "Runtime: Stopped after 2 cycles" ∧
      (∃ later : Machine, later.registers.accumulator = .wrap 7 ∧ later.trace.size = 3 ∧
        ShowsTrace later.trace.toList (linesOf (ofSource source "7" 3).trace) ∧
        ShowsState later (linesOf (ofSource source "7" 3).state)) ∧
      ∀ limit, 3 ≤ limit → ofSource source "7" limit = ofSource source "7" 3 := by
  intro source
  let code := [901, 902, 0].map Word.wrap
  have hcode : assemble source = .ok code := by decide +kernel
  have hnumbers : readInts "7" = .ok [7] := by decide +kernel
  have hinput : Input.ofOperands ([7].map .int) = .ok (.queue [.wrap 7]) := by decide +kernel
  obtain ⟨m, hload, hreport⟩ := ofSource_tells_run (by decide +kernel) hcode hnumbers hinput
  let start := Machine.fresh (.queue [.wrap 7]) true
  obtain rfl : start.after (.loadProgram (code.map .word)) = m := by
    rw [Machine.after, hload]
  obtain ⟨⟨ending, later, hruns, -, -, htrace, hstate⟩, hhalted, -, -, hhigher⟩ := hreport 3
  obtain ⟨-, -, hstopped, -⟩ := hreport 2
  have hcycles : (start.after (.loadProgram (code.map .word))).cycles = 0 := by decide +kernel
  have hlater := ((Machine.runsTo_iff hcycles).1 ((hruns ending later).2 ⟨rfl, rfl⟩)).2
  refine ⟨hhalted.2 ⟨3, by decide, by decide +kernel⟩, hstopped.2 ?stopped,
    ⟨later, ?accumulator, ?trace, htrace, hstate⟩, hhigher ⟨2, by decide, by decide +kernel⟩⟩
  case accumulator | trace =>
    rw [hlater]
    decide +kernel
  case stopped =>
    have hgoesOn : ∀ i < 2, ((start.after (.loadProgram (code.map .word))).cycled i).nextOutcome =
        .ok .continues := by decide +kernel
    exact fun i hi => hgoesOn i (by omega)

end Report

end DecimalMachine
