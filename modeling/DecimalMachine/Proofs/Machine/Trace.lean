import DecimalMachine.Proofs.Machine.Loading
import DecimalMachine.Proofs.Machine.Record
import DecimalMachine.Proofs.Machine.StaleCells
import DecimalMachine.Proofs.Memory.Load

/-!
# Traces

The trace of a program that was loaded and run has an entry for each cycle, in the order of the
cycles, and each entry begins with the registers that the one before it ended with. Together with
the words of the program it tells every word that was fetched, even where the program changes
itself. Whether a trace is kept makes no difference to anything else.

## Main definitions

- `recalled` — what a cell holds after recorded cycles of a program
- `Machine.Starts` — a machine that is about to run words
- `Machine.unrecorded` — the machine as it is without a trace
-/

namespace DecimalMachine

/-- The word that a cell holds after the recorded cycles of a program: the accumulator that the last
store to the cell left, or else the word of the program there, which is zero beyond its end. -/
def recalled (words : List Word) (entries : List TraceEntry) (address : Int) : Word :=
  match entries.reverse.find? fun entry => entry.word.toInt = 300 + address with
  | some entry => entry.after.accumulator
  | none => (words[address.toNat]?).getD .zero

theorem recalled_concat (words : List Word) (entries : List TraceEntry) (entry : TraceEntry)
    (address : Int) :
    recalled words (entries ++ [entry]) address =
      if entry.word.toInt = 300 + address then entry.after.accumulator
      else recalled words entries address := by
  by_cases hstore : entry.word.toInt = 300 + address <;>
    simp [recalled, List.reverse_append, hstore]

namespace Machine

/-- A machine that is about to run words, which are alone in its memory. -/
structure Starts (words : List Word) (m : Machine) : Prop where
  registers : m.registers = .initial
  trace : m.trace = #[]
  halted : m.halted = false
  cycles : m.cycles = 0
  word : ∀ address : Int, 0 ≤ address ∧ address ≤ 99 →
    m.memory.get? address = some ((words[address.toNat]?).getD .zero)

/-- The machine as it is without a trace. -/
def unrecorded (m : Machine) : Machine := { m with recordTrace := false, trace := #[] }

variable {s m m' : Machine} {entry : TraceEntry} {program : List Operand} {words : List Word}
  {count i n : Nat} {address : Int}

/-- A program that is loaded is words, and the machine is about to run them. -/
theorem starts_of_loadProgram (h : s.loadProgram program = .ok (m, count)) :
    ∃ words, program.mapM Operand.toWord = .ok words ∧ m.Starts words ∧
      m.recordTrace = s.recordTrace := by
  obtain ⟨memory, hmemory, rfl⟩ := loadProgram_eq_ok_iff.1 h
  obtain ⟨words, hwords, -, -, hloaded⟩ := Memory.loadOperands_eq_ok_iff.1 hmemory
  refine ⟨words, hwords, ⟨rfl, rfl, rfl, rfl, fun address hrange => ?_⟩, rfl⟩
  obtain ⟨i, rfl⟩ := Int.eq_ofNat_of_zero_le hrange.1
  have hcell : i < memorySize := by
    simp only [memorySize]
    omega
  show memory.get? i = _
  rw [← hloaded, Int.toNat_zero, Memory.get?_overwrite_blank words hcell, Int.toNat_natCast]
  cases words[i]? <;> rfl

/-! ## The entries of a run -/

@[simp]
theorem recordTrace_cycled (m : Machine) (n : Nat) : (m.cycled n).recordTrace = m.recordTrace := by
  induction n with
  | zero => rfl
  | succ n ih => rw [cycled, recordTrace_step, ih]

theorem cycles_cycled (hrun : m.SucceedsFor n) : (m.cycled n).cycles = m.cycles + n := by
  induction n with
  | zero => rfl
  | succ n ih =>
    obtain ⟨entry, hok⟩ := hrun n (by omega)
    rw [cycled, (records_of_step hok).cycles, ih (hrun.mono (by omega)), Nat.add_assoc]

theorem trace_cycled_succ (hrecord : m.recordTrace = true)
    (hok : (m.cycled n).step.outcome = .ok entry) :
    (m.cycled (n + 1)).trace = (m.cycled n).trace.push entry := by
  rw [cycled, trace_step, hok, recordTrace_cycled]
  exact if_pos hrecord

/-- A cycle that stores keeps the accumulator. -/
theorem accumulator_step_of_stores (hok : m.step.outcome = .ok entry)
    (hrange : 0 ≤ address ∧ address ≤ 99) (hfetches : m.Fetches (300 + address)) :
    m.step.machine.registers.accumulator = m.registers.accumulator := by
  have hstore : Operation.ofNumber? (300 + address) = some (.store address) :=
    Operation.ofNumber?_eq_some_iff.2 ⟨rfl, hrange⟩
  rw [step_of_fetches hok hfetches hstore]
  simp only [Operation.run, memory_fetched, registers_fetched]
  cases m.memory.set? address m.registers.accumulator <;> rfl

section Run

variable (hstarts : m.Starts words) (hrecord : m.recordTrace = true)

include hstarts hrecord

theorem size_trace_cycled (hrun : m.SucceedsFor n) : (m.cycled n).trace.size = n := by
  induction n with
  | zero => rw [cycled, hstarts.trace, Array.size_empty]
  | succ n ih =>
    obtain ⟨entry, hok⟩ := hrun n (by omega)
    rw [trace_cycled_succ hrecord hok, Array.size_push, ih (hrun.mono (by omega))]

/-- The first entries of a trace are the trace of the first cycles. -/
theorem take_trace_cycled (hrun : m.SucceedsFor n) (hi : i ≤ n) :
    (m.cycled n).trace.toList.take i = (m.cycled i).trace.toList := by
  induction n, hi using Nat.le_induction with
  | base =>
    have hsize := size_trace_cycled hstarts hrecord hrun
    exact List.take_of_length_le (by simp [hsize])
  | succ n hi ih =>
    obtain ⟨entry, hok⟩ := hrun n (by omega)
    have hsize := size_trace_cycled hstarts hrecord (hrun.mono (Nat.le_succ n))
    rw [trace_cycled_succ hrecord hok, Array.toList_push,
      List.take_append_of_le_length (by simp [hsize, hi]), ih (hrun.mono (Nat.le_succ n))]

/-- An entry is the record of the cycle that has its index. -/
theorem records_of_getElem?_trace (hrun : m.SucceedsFor n)
    (hentry : (m.cycled n).trace[i]? = some entry) :
    i < n ∧ entry.Records (m.cycled i) (m.cycled (i + 1)) := by
  obtain ⟨hi, -⟩ := Array.getElem?_eq_some_iff.1 hentry
  rw [size_trace_cycled hstarts hrecord hrun] at hi
  obtain ⟨own, hok⟩ := hrun i hi
  have hsize := size_trace_cycled hstarts hrecord (hrun.mono (Nat.le_of_lt hi))
  have hlast : (m.cycled (i + 1)).trace[i]? = some own := by
    rw [trace_cycled_succ hrecord hok, Array.getElem?_push, if_pos hsize.symm]
  have hsame : (m.cycled n).trace[i]? = (m.cycled (i + 1)).trace[i]? := by
    rw [← Array.getElem?_toList, ← Array.getElem?_toList,
      ← take_trace_cycled hstarts hrecord hrun hi, List.getElem?_take_of_lt (Nat.lt_succ_self i)]
  obtain rfl : own = entry := Option.some.inj (hlast.symm.trans (hsame.symm.trans hentry))
  exact ⟨hi, records_of_step hok⟩

/-- Every cell holds what the words and the trace tell. -/
theorem get?_cycled_eq_recalled (hrun : m.SucceedsFor n) (hrange : 0 ≤ address ∧ address ≤ 99) :
    (m.cycled n).memory.get? address =
      some (recalled words (m.cycled n).trace.toList address) := by
  induction n with
  | zero =>
    rw [cycled, hstarts.word address hrange, hstarts.trace]
    rfl
  | succ n ih =>
    obtain ⟨entry, hok⟩ := hrun n (by omega)
    have hrecords := records_of_step hok
    have hfetches : (m.cycled n).Fetches (300 + address) ↔ entry.word.toInt = 300 + address := by
      rw [Fetches, hrecords.word, Option.map_some, Option.some_inj]
    rw [trace_cycled_succ hrecord hok, Array.toList_push, recalled_concat]
    by_cases hstore : entry.word.toInt = 300 + address
    · rw [if_pos hstore, cycled, get?_step_of_fetches hok hrange (hfetches.2 hstore),
        hrecords.after, accumulator_step_of_stores hok hrange (hfetches.2 hstore)]
    · rw [if_neg hstore, cycled, get?_step_of_not_fetches hok (mt hfetches.1 hstore)]
      exact ih (hrun.mono (by omega))

/-- The word of an entry is what the words and the entries before it tell for its address. -/
theorem word_of_getElem?_trace (hrun : m.SucceedsFor n)
    (hentry : (m.cycled n).trace[i]? = some entry) :
    entry.word = recalled words ((m.cycled n).trace.toList.take i) entry.address := by
  obtain ⟨hi, hrecords⟩ := records_of_getElem?_trace hstarts hrecord hrun hentry
  have hword : (m.cycled i).memory.get? entry.address = some entry.word := by
    rw [hrecords.address]
    exact hrecords.word
  have hrange : 0 ≤ entry.address ∧ entry.address ≤ 99 := by
    have hbounds := Memory.bounds_of_get? hword
    simp only [memorySize] at hbounds
    omega
  have hearlier := hrun.mono (Nat.le_of_lt hi)
  have htold := get?_cycled_eq_recalled hstarts hrecord hearlier hrange
  rw [take_trace_cycled hstarts hrecord hrun (Nat.le_of_lt hi)]
  exact Option.some.inj (hword.symm.trans htold)

end Run

/-! ## Runs without a trace -/

theorem AgreesOff.eq (h : m.AgreesOff ∅ m') :
    m' = { m with recordTrace := m'.recordTrace, trace := m'.trace } := by
  have hmemory : m'.memory = m.memory := Memory.ext fun i _ => h.memory i (Set.notMem_empty _)
  obtain ⟨⟨hregisters, hhalted, hcycles⟩, hinput, houtput, -, -⟩ := h
  cases m
  cases m'
  simp_all

section Unrecorded

variable (hrecord : m.recordTrace = true)

include hrecord

theorem agreesOff_unrecorded : m.AgreesOff ∅ m.unrecorded where
  registers := rfl
  halted := rfl
  cycles := rfl
  input := rfl
  output := rfl
  trace hsame := by
    rw [hrecord] at hsame
    cases hsame
  memory _ _ := rfl

/-- A cycle without a trace ends as it does with one, and leaves the same machine but for the
trace. -/
theorem step_unrecorded :
    m.unrecorded.step.outcome = m.step.outcome ∧
      m.unrecorded.step.machine = m.step.machine.unrecorded := by
  obtain ⟨houtcome, hagrees⟩ := (agreesOff_unrecorded hrecord).step fun _ hstale => hstale.elim
  have hrecords : m.unrecorded.step.machine.recordTrace = false := recordTrace_step m.unrecorded
  have htrace : m.unrecorded.step.machine.trace = #[] := by
    rw [trace_step]
    cases m.unrecorded.step.outcome <;> rfl
  rw [Set.empty_sdiff] at hagrees
  refine ⟨houtcome, hagrees.eq.trans ?_⟩
  rw [hrecords, htrace]
  rfl

theorem cycled_unrecorded (n : Nat) : m.unrecorded.cycled n = (m.cycled n).unrecorded := by
  induction n with
  | zero => rfl
  | succ n ih =>
    rw [cycled, ih, (step_unrecorded ((recordTrace_cycled m n).trans hrecord)).2]
    rfl

end Unrecorded

/-- A trace is an account of the run without gaps. After `n` successful cycles of a program that was
loaded it has `n` entries, which are numbered in order. The first begins with blank registers, every
other one with the registers that the entry before it ended with, and the last ends with the
registers of the machine; it alone may have stopped the machine, which it has exactly if the machine
is halted. The word of an entry is the one that the program and the entries before it tell for its
address. A failing cycle adds no entry. Without a trace all cycles end the same, and leave the same
machine but for the trace. -/
theorem trace_faithful (hrecord : s.recordTrace = true)
    (hload : s.loadProgram program = .ok (m, count)) (hrun : m.SucceedsFor n) :
    let last := m.cycled n
    (last.trace.size = n ∧ ∃ words, program.mapM Operand.toWord = .ok words ∧
      ∀ i entry, last.trace[i]? = some entry →
        entry.cycle = i ∧ entry.address = entry.before.programCounter ∧
        entry.listing = entry.word.listing ∧
        entry.word = recalled words (last.trace.toList.take i) entry.address) ∧
    ((∀ entry, last.trace[0]? = some entry → entry.before = .initial) ∧
      (∀ i entry next, last.trace[i]? = some entry → last.trace[i + 1]? = some next →
        next.before = entry.after ∧ entry.progress = .continues) ∧
      ∀ entry, last.trace.back? = some entry →
        entry.after = last.registers ∧ (entry.progress = .halted ↔ last.halted = true)) ∧
    (∀ k error, (m.cycled k).step.outcome = .error error →
      (m.cycled (k + 1)).trace = (m.cycled k).trace) ∧
    ({ s with recordTrace := false } : Machine).loadProgram program = .ok (m.unrecorded, count) ∧
      ∀ k, m.unrecorded.cycled k = (m.cycled k).unrecorded ∧
        (m.unrecorded.cycled k).step.outcome = (m.cycled k).step.outcome := by
  intro last
  obtain ⟨words, hwords, hstarts, hkept⟩ := starts_of_loadProgram hload
  rw [hrecord] at hkept
  have hsize : last.trace.size = n := size_trace_cycled hstarts hkept hrun
  have hrecords : ∀ i entry, last.trace[i]? = some entry →
      i < n ∧ entry.Records (m.cycled i) (m.cycled (i + 1)) :=
    fun _ _ => records_of_getElem?_trace hstarts hkept hrun
  refine ⟨⟨hsize, words, hwords, ?entries⟩, ⟨?first, ?chain, ?last⟩, ?failing, ?load, ?bare⟩
  case entries =>
    intro i entry hentry
    obtain ⟨hi, hrecord⟩ := hrecords i entry hentry
    refine ⟨?_, ?_, hrecord.listing, word_of_getElem?_trace hstarts hkept hrun hentry⟩
    · rw [hrecord.cycle, cycles_cycled (hrun.mono (Nat.le_of_lt hi)), hstarts.cycles, Nat.zero_add]
    · rw [hrecord.address, hrecord.before]
  case first =>
    intro entry hentry
    rw [(hrecords 0 entry hentry).2.before, cycled, hstarts.registers]
  case chain =>
    intro i entry next hentry hnext
    have hrecord := (hrecords i entry hentry).2
    have hrecordNext := (hrecords (i + 1) next hnext).2
    refine ⟨hrecordNext.before.trans hrecord.after.symm, ?_⟩
    -- The next cycle would have failed on a machine that this one had stopped.
    have hrunning := hrecord.halted.symm.trans hrecordNext.running
    cases hprogress : entry.progress with
    | continues => rfl
    | halted => simp [hprogress] at hrunning
  case last =>
    intro entry hentry
    rw [Array.back?_eq_getElem?, hsize] at hentry
    obtain ⟨hi, hrecord⟩ := hrecords (n - 1) entry hentry
    rw [Nat.sub_add_cancel (by omega)] at hrecord
    refine ⟨hrecord.after, ?_⟩
    rw [hrecord.halted, beq_iff_eq]
  case failing =>
    intro k error herror
    rw [cycled, trace_step, herror]
  case load =>
    obtain ⟨memory, hmemory, rfl⟩ := loadProgram_eq_ok_iff.1 hload
    exact loadProgram_eq_ok_iff.2 ⟨memory, hmemory, rfl⟩
  case bare =>
    intro k
    rw [cycled_unrecorded hkept]
    exact ⟨rfl, (step_unrecorded ((recordTrace_cycled m k).trans hkept)).1⟩

/-- A program that stores the word for a load over the word it comes to next, and stops: the trace
of five cycles tells that the third fetched a load, where the program has a zero. -/
theorem trace_faithful_of_self_modification :
    let s := fresh (.queue []) true
    let program : List Operand := [.int 503, .int 302, .int 0, .int 501]
    let m := s.after (.loadProgram program)
    s.loadProgram program = .ok (m, 4) ∧ m.SucceedsFor 5 ∧
      (m.cycled 5).trace.size = 5 ∧ (m.cycled 5).halted = true ∧
      ∃ entry, (m.cycled 5).trace[2]? = some entry ∧ entry.address = 2 ∧
        entry.word = .wrap 501 := by
  intro s program m
  have hload : s.loadProgram program = .ok (m, 4) := by rfl
  have hrun : m.SucceedsFor 5 := by decide +kernel
  obtain ⟨⟨hsize, words, hwords, hentries⟩, -⟩ := trace_faithful rfl hload hrun
  cases hwords.symm.trans (show program.mapM Operand.toWord =
    .ok ([503, 302, 0, 501].map Word.wrap) by rfl)
  have haddresses : (m.cycled 5).trace[2]?.map TraceEntry.address = some 2 := by decide +kernel
  obtain ⟨entry, hentry, haddress⟩ := Option.map_eq_some_iff.1 haddresses
  obtain ⟨-, -, -, hword⟩ := hentries 2 entry hentry
  refine ⟨hload, hrun, hsize, by decide +kernel, entry, hentry, haddress, ?_⟩
  rw [hword, haddress]
  decide +kernel

end Machine

end DecimalMachine
