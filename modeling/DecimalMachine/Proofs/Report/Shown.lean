import DecimalMachine.Proofs.Assembly.Listing
import DecimalMachine.Proofs.Display.Grid
import DecimalMachine.Proofs.Machine.Invariant
import DecimalMachine.Proofs.Machine.Loading
import DecimalMachine.Proofs.Machine.Record
import DecimalMachine.Report

/-!
# What the texts of a report show

The trace and the state of a report are texts for people. Here they are told line by line, by what
can be read from them: a numeral in a line stands for the number that it is read as, with whatever
spaces and zeros it is filled up. All numbers in the state are read back, and so are those of the
recorded cycles that are shown, because they are numbers of a hundred cells and cycles at most.

## Main definitions

- `Report.ShowsCycle`, `Report.ShowsTrace` — a line about a recorded cycle, the lines of a trace
- `Report.ShowsState` — the lines about the registers and the memory of a machine
- `Machine.IsCounted` — the entries of the trace are numbered, and their numbers are in range
-/

namespace DecimalMachine

/-! ## Numerals -/

section Numerals

variable {text : String} {n : Int}

theorem readInt_eq_ok_iff : readInt text = .ok n ↔ Text.readNumeral text.toList = .ok n :=
  Result.mapError_eq_ok_iff

theorem readInt_written {zeros : Nat} (hzeros : zeros ≤ 4) (h : -999 ≤ n ∧ n ≤ 999) :
    readInt (String.ofList (Text.written zeros n)) = .ok n := by
  have hdigits := Text.length_digits_le h
  rw [readInt_eq_ok_iff, String.toList_ofList]
  exact Text.readNumeral_written (by rw [Text.maxDigits]; omega)

theorem readInt_toString (h : -999 ≤ n ∧ n ≤ 999) : readInt (toString n) = .ok n := by
  rw [Text.toString_eq_decimal, Text.decimal_eq_written]
  exact readInt_written (by omega) h

theorem readInt_zeroPadded {width : Nat} (hwidth : width ≤ 4) (h : -999 ≤ n ∧ n ≤ 999) :
    readInt (Text.zeroPadded width n) = .ok n := by
  obtain ⟨zeros, hzeros, hpadded⟩ := Text.exists_zeroPadded_eq_written width n
  rw [hpadded]
  exact readInt_written (by omega) h

/-- Spaces in front of a numeral do not change what it is read as. -/
theorem readInt_rightAligned (width : Nat) (h : readInt text = .ok n) :
    readInt (Text.rightAligned width text) = .ok n := by
  have hspaces : ∀ c ∈ List.replicate (width - text.length) ' ', Text.isNumeralBlank c = true := by
    intro c hc
    rw [List.eq_of_mem_replicate hc]
    decide
  rw [readInt_eq_ok_iff] at h ⊢
  rw [Text.rightAligned, String.toList_append, String.toList_ofList, ← h, Text.readNumeral,
    List.dropWhile_append_of_pos hspaces]
  rfl

theorem Word.readInt_text (w : Word) : readInt w.text = .ok w.toInt := by
  rw [text, ← Text.toString_eq_decimal]
  exact readInt_toString ⟨w.lower, w.upper⟩

end Numerals

/-! ## Lines -/

namespace Text

/-- A text without line breaks. -/
def Unbroken (text : String) : Prop := ∀ c ∈ text.toList, isLineBreak c = false

instance (text : String) : Decidable (Unbroken text) :=
  List.decidableBAll _ _

@[simp]
theorem unbroken_append {first second : String} :
    Unbroken (first ++ second) ↔ Unbroken first ∧ Unbroken second := by
  rw [Unbroken, String.toList_append]
  exact List.forall_mem_append

@[simp]
theorem unbroken_spaces (count : Nat) : Unbroken (String.ofList (List.replicate count ' ')) := by
  rw [Unbroken, String.toList_ofList]
  intro c hc
  rw [List.eq_of_mem_replicate hc]
  rfl

theorem unbroken_written (zeros : Nat) (n : Int) : Unbroken (String.ofList (written zeros n)) := by
  rw [Unbroken, String.toList_ofList]
  exact (isToken_of_isLiteral (isLiteral_written zeros n)).not_isLineBreak

theorem unbroken_toString (n : Int) : Unbroken (toString n) := by
  rw [toString_eq_decimal, decimal_eq_written]
  exact unbroken_written 0 n

@[simp]
theorem unbroken_repr (n : Int) : Unbroken n.repr := unbroken_toString n

@[simp]
theorem unbroken_natRepr (n : Nat) : Unbroken n.repr := unbroken_toString n

@[simp]
theorem unbroken_zeroPadded (width : Nat) (n : Int) : Unbroken (zeroPadded width n) := by
  obtain ⟨zeros, -, hpadded⟩ := exists_zeroPadded_eq_written width n
  rw [hpadded]
  exact unbroken_written zeros n

@[simp]
theorem unbroken_text (w : Word) : Unbroken w.text := by
  rw [Word.text, decimal_eq_written]
  exact unbroken_written 0 w.toInt

@[simp]
theorem unbroken_listing (w : Word) : Unbroken w.listing := by
  obtain ⟨_, _, hlisted⟩ := w.exists_listedAs_listing
  exact hlisted.isLine.2

end Text

/-! ## Numbers of a run -/

/-- The entry with a number tells this number and lists its word, its address has a cell, and the
program counter is left at a cell or right behind the last one. -/
structure TraceEntry.IsCounted (number : Nat) (entry : TraceEntry) : Prop where
  cycle : entry.cycle = number
  listing : entry.listing = entry.word.listing
  address : 0 ≤ entry.address ∧ entry.address ≤ 99
  programCounter : 0 ≤ entry.after.programCounter ∧ entry.after.programCounter ≤ 100

/-- The entries of a trace are numbered in order. -/
def TraceEntry.AreCounted (entries : Array TraceEntry) : Prop :=
  ∀ (i : Nat) (entry : TraceEntry), entries[i]? = some entry → entry.IsCounted i

/-- One of the first entries has a number below their count. -/
theorem TraceEntry.AreCounted.exists_isCounted {entries : Array TraceEntry} {entry : TraceEntry}
    {count : Nat} (h : AreCounted entries) (hentry : entry ∈ entries.toList.take count) :
    ∃ number, number < count ∧ number < entries.size ∧ entry.IsCounted number := by
  obtain ⟨i, hi, rfl⟩ := List.mem_take_iff_getElem.1 hentry
  rw [Array.length_toList] at hi
  exact ⟨i, by omega, by omega, h i _ (by simp)⟩

namespace Machine

variable {m : Machine}

/-- The registers are in range, and so are the numbers of the recorded cycles. -/
def IsCounted (m : Machine) : Prop := m.Invariant true ∧ TraceEntry.AreCounted m.trace

theorem IsCounted.step (h : m.IsCounted) : m.step.machine.IsCounted := by
  obtain ⟨hinvariant, hentries⟩ := h
  have hnext := hinvariant.step
  refine ⟨hnext, ?_⟩
  rw [trace_step]
  cases houtcome : m.step.outcome with
  | error error => exact hentries
  | ok entry =>
    have hrecords := records_of_step houtcome
    have hcell := Memory.bounds_of_get? hrecords.word
    simp only [memorySize] at hcell
    have hsize : m.trace.size = m.cycles := hinvariant.size_trace
    have hown : entry.IsCounted m.trace.size :=
      ⟨by rw [hrecords.cycle, hsize], hrecords.listing, by rw [hrecords.address]; omega,
        hrecords.after ▸ hnext.programCounter⟩
    simp only [hinvariant.recordTrace_eq, if_true]
    intro i other hother
    rw [Array.getElem?_push] at hother
    split_ifs at hother with hlast
    · cases hother
      exact hlast ▸ hown
    · exact hentries i other hother

theorem isCounted_of_loadProgram {program : List Operand} {input : Input} {count : Nat}
    (h : (fresh input true).loadProgram program = .ok (m, count)) : m.IsCounted := by
  obtain ⟨memory, -, rfl⟩ := loadProgram_eq_ok_iff.1 h
  exact ⟨invariant_reset rfl, fun _ _ hentry => by cases hentry⟩

end Machine

namespace Report

/-- The lines of a text. -/
def linesOf (text : String) : List String := (Text.lines text.toList).map String.ofList

section Stack

variable {rows : List String}

/-- Lines that are stacked are the lines of the text, unless there is nothing in the last one. -/
theorem linesOf_stack (hlast : rows.getLast? ≠ some "") (h : ∀ row ∈ rows, Text.Unbroken row) :
    linesOf (stack rows) = rows := by
  have hends : (rows.map String.toList).getLast? ≠ some [] := by
    rw [List.getLast?_map, Ne, Option.map_eq_some_iff]
    rintro ⟨row, hrow, hnil⟩
    rw [String.toList_eq_nil_iff] at hnil
    exact hlast (hnil ▸ hrow)
  have hlines : Text.lines (stack rows).toList = rows.map String.toList := by
    rw [stack, String.toList_intercalate]
    refine Text.lines_intercalate_feed hends fun line hline => ?_
    obtain ⟨row, hrow, rfl⟩ := List.mem_map.1 hline
    exact h row hrow
  rw [linesOf, hlines, List.map_map]
  exact (List.map_congr_left fun row _ => String.ofList_toList).trans (List.map_id rows)

/-- Lines can be stacked before they are put under others. -/
theorem stack_concat_stack (hne : rows ≠ []) (before : List String) :
    stack (before ++ [stack rows]) = stack (before ++ rows) := by
  have hrows : rows.map String.toList ≠ [] := by simpa using hne
  rw [← String.toList_inj]
  simp only [stack, String.toList_intercalate, List.map_append, List.map_cons, List.map_nil]
  exact Text.intercalate_concat_intercalate hrows _

end Stack

/-! ## Traces -/

/-- What a line tells of the accumulator in a cycle: nothing, if it is the same after the cycle. -/
inductive ShowsChange (before after : Word) : String → Prop
  | same (h : before = after) : ShowsChange before after ""
  | changed {old new : String} (h : before ≠ after) (hold : readInt old = .ok before.toInt)
    (hnew : readInt new = .ok after.toInt) :
    ShowsChange before after ("  ACC " ++ old ++ " -> " ++ new)

/-- What a line tells of the program counter after a cycle: nothing, if it was counted up. -/
inductive ShowsJump (address counter : Int) : String → Prop
  | next (h : counter = address + 1) : ShowsJump address counter ""
  | jump {target : String} (h : counter ≠ address + 1) (htarget : readInt target = .ok counter) :
    ShowsJump address counter ("  PC -> " ++ target)

/-- The line about a recorded cycle: its number, the address, the word and its listing, and what the
cycle did to the accumulator and to the program counter. -/
inductive ShowsCycle (entry : TraceEntry) : String → Prop
  | line {cycle address word listing change jump : String}
    (hcycle : readInt cycle = .ok entry.cycle) (haddress : readInt address = .ok entry.address)
    (hword : readInt word = .ok entry.word.toInt)
    (hlisting : ∃ count, listing = entry.listing ++ String.ofList (List.replicate count ' '))
    (hchange : ShowsChange entry.before.accumulator entry.after.accumulator change)
    (hjump : ShowsJump entry.address entry.after.programCounter jump) :
    ShowsCycle entry
      ("[" ++ cycle ++ "] " ++ address ++ ": " ++ word ++ "  " ++ listing ++ change ++ jump)

/-- The lines of a trace: one for each of the first hundred cycles in their order, and if there are
more, one that tells how many. -/
inductive ShowsTrace (trace : List TraceEntry) : List String → Prop
  | whole {rows : List String} (h : trace.length ≤ 100)
    (hrows : List.Forall₂ ShowsCycle trace rows) :
    ShowsTrace trace (["EXECUTION TRACE", rule 60 '='] ++ rows)
  | cut {rows : List String} (h : 100 < trace.length)
    (hrows : List.Forall₂ ShowsCycle (trace.take 100) rows) :
    ShowsTrace trace (["EXECUTION TRACE", rule 60 '='] ++ rows ++
      ["", "... (" ++ toString (trace.length - 100) ++ " more entries)"])

/-- What a line has about the accumulator. -/
def changeText (before after : Word) : String :=
  if before = after then "" else "  ACC " ++ before.text ++ " -> " ++ after.text

/-- What a line has about the program counter. -/
def jumpText (address counter : Int) : String :=
  if counter = address + 1 then "" else "  PC -> " ++ Text.zeroPadded 2 counter

theorem showsChange_changeText (before after : Word) :
    ShowsChange before after (changeText before after) := by
  rw [changeText]
  split_ifs with hsame
  · exact .same hsame
  · exact .changed hsame before.readInt_text after.readInt_text

theorem showsJump_jumpText {address counter : Int} (h : 0 ≤ counter ∧ counter ≤ 100) :
    ShowsJump address counter (jumpText address counter) := by
  rw [jumpText]
  split_ifs with hnext
  · exact .next hnext
  · exact .jump hnext (readInt_zeroPadded (by omega) (by omega))

variable {entry : TraceEntry}

/-- The pieces of a line, the numerals in the forms in which they are written. -/
theorem traceLine_eq (entry : TraceEntry) :
    traceLine entry = "[" ++ Text.rightAligned 4 (toString entry.cycle) ++ "] " ++
      Text.zeroPadded 2 entry.address ++ ": " ++ Text.zeroPadded 4 entry.word.toInt ++ "  " ++
      Text.leftAligned 8 entry.listing ++
      changeText entry.before.accumulator entry.after.accumulator ++
      jumpText entry.address entry.after.programCounter := rfl

theorem showsCycle_traceLine {number : Nat} (h : entry.IsCounted number) (hnumber : number ≤ 100) :
    ShowsCycle entry (traceLine entry) := by
  have hcycle := h.cycle
  have haddress := h.address
  rw [traceLine_eq]
  apply ShowsCycle.line
  case hcycle =>
    have hnumeral : readInt (toString entry.cycle) = .ok entry.cycle :=
      readInt_toString (n := entry.cycle) (by omega)
    exact readInt_rightAligned 4 hnumeral
  case haddress => exact readInt_zeroPadded (by omega) (by omega)
  case hword => exact readInt_zeroPadded (by omega) ⟨entry.word.lower, entry.word.upper⟩
  case hlisting => exact ⟨_, rfl⟩
  case hchange => exact showsChange_changeText _ _
  case hjump => exact showsJump_jumpText h.programCounter

example :
    let after := { Registers.initial with programCounter := 5, accumulator := .wrap (-7) }
    traceLine ⟨12, 4, .wrap 205, "SUB 05", .initial, after, .continues⟩ =
      "[  12] 04: 0205  SUB 05    ACC 0 -> -7" := by
  decide +kernel

theorem unbroken_traceLine (h : entry.listing = entry.word.listing) :
    Text.Unbroken (traceLine entry) := by
  have hchange : Text.Unbroken (changeText entry.before.accumulator entry.after.accumulator) := by
    rw [changeText]
    split_ifs <;> simp +decide
  have hjump : Text.Unbroken (jumpText entry.address entry.after.programCounter) := by
    rw [jumpText]
    split_ifs <;> simp +decide
  rw [traceLine_eq]
  simp +decide [Text.rightAligned, Text.leftAligned, h, hchange, hjump]

/-- The line that tells how many cycles there are beyond those that are shown, under an empty
one. -/
def moreLines (more : Nat) : List String := ["", "... (" ++ toString more ++ " more entries)"]

variable {entries : Array TraceEntry}

/-- The lines that are stacked in the text of a trace. -/
def traceLines (entries : Array TraceEntry) : List String :=
  ["EXECUTION TRACE", rule 60 '='] ++ (entries.toList.take shownCycles).map traceLine ++
    if shownCycles < entries.size then moreLines (entries.size - shownCycles) else []

theorem traceText_eq_stack (entries : Array TraceEntry) :
    traceText entries = stack (traceLines entries) := by
  unfold traceText traceLines
  by_cases hlong : shownCycles < entries.size
  · have hmore : s!"\n... ({entries.size - shownCycles} more entries)" =
        stack (moreLines (entries.size - shownCycles)) := by
      show "\n... (" ++ toString (entries.size - shownCycles) ++ " more entries)" = _
      simp [← String.toList_inj, stack, moreLines]
    simp only [if_pos hlong, hmore]
    exact stack_concat_stack (List.cons_ne_nil _ _) _
  · simp only [if_neg hlong]

theorem traceLine_ne_empty (entry : TraceEntry) : traceLine entry ≠ "" := by
  rw [traceLine_eq]
  simp [← String.toList_inj]

theorem getLast?_traceLines_ne (entries : Array TraceEntry) :
    (traceLines entries).getLast? ≠ some "" := by
  rw [traceLines]
  split_ifs
  · rw [moreLines, List.getLast?_append_of_ne_nil _ (List.cons_ne_nil _ _)]
    simp [← String.toList_inj]
  · intro hlast
    rw [List.append_nil] at hlast
    rcases List.mem_append.1 (List.mem_of_getLast? hlast) with hheading | hline
    · exact absurd hheading (by decide)
    · obtain ⟨entry, -, hentry⟩ := List.mem_map.1 hline
      exact traceLine_ne_empty entry hentry

section Counted

variable (h : TraceEntry.AreCounted entries)

include h

theorem unbroken_of_mem_traceLines {row : String} (hrow : row ∈ traceLines entries) :
    Text.Unbroken row := by
  have hheadings : ∀ row ∈ ["EXECUTION TRACE", rule 60 '='], Text.Unbroken row := by decide
  rcases List.mem_append.1 hrow with hrow | hmore
  · rcases List.mem_append.1 hrow with hheading | hline
    · exact hheadings row hheading
    · obtain ⟨entry, hentry, rfl⟩ := List.mem_map.1 hline
      obtain ⟨_, -, -, hcounted⟩ := h.exists_isCounted hentry
      exact unbroken_traceLine hcounted.listing
  · split_ifs at hmore
    · simp only [moreLines, List.mem_cons, List.not_mem_nil, or_false] at hmore
      rcases hmore with rfl | rfl
      · decide
      · simp +decide
    · cases hmore

theorem linesOf_traceText : linesOf (traceText entries) = traceLines entries := by
  rw [traceText_eq_stack]
  exact linesOf_stack (getLast?_traceLines_ne entries) fun _ => unbroken_of_mem_traceLines h

/-- The text of a trace has a line for each of the entries that it shows. -/
theorem showsTrace_traceText : ShowsTrace entries.toList (linesOf (traceText entries)) := by
  have hrows : List.Forall₂ ShowsCycle (entries.toList.take shownCycles)
      ((entries.toList.take shownCycles).map traceLine) := by
    rw [List.forall₂_map_right_iff, List.forall₂_same]
    intro entry hentry
    obtain ⟨number, hshown, -, hcounted⟩ := h.exists_isCounted hentry
    exact showsCycle_traceLine hcounted (Nat.le_of_lt hshown)
  rw [linesOf_traceText h, traceLines]
  split_ifs with hlong
  · exact .cut hlong hrows
  · have hlength : entries.toList.length ≤ shownCycles := Nat.not_lt.1 hlong
    rw [List.take_of_length_le hlength] at hrows ⊢
    rw [List.append_nil]
    exact .whole hlength hrows

end Counted

/-! ## States -/

/-- The lines about the state of a machine: the registers, and the words of memory in rows of
ten. -/
inductive ShowsState (m : Machine) : List String → Prop
  | lines {counter instruction address accumulator : String} {rows : List String}
    (hcounter : readInt counter = .ok m.registers.programCounter)
    (hinstruction : readInt instruction = .ok m.registers.instructionRegister)
    (haddress : readInt address = .ok m.registers.addressRegister)
    (haccumulator : readInt accumulator = .ok m.registers.accumulator.toInt)
    (hwidth : ∀ row ∈ rows, (Text.words row.toList).length = 10)
    (hcells : (rows.flatMap fun row => Text.words row.toList).map Text.readNumeral =
      m.memory.toList.map fun w => .ok w.toInt) :
    ShowsState m (["FINAL REGISTERS", rule 30 '=', "  PC:  " ++ counter, "  IR:  " ++ instruction,
      "  AR:  " ++ address, "  ACC: " ++ accumulator, "", "MEMORY", rule 30 '-'] ++ rows)

/-- The rows in which memory is shown. -/
def memoryRows (m : Machine) : List String :=
  (Text.slices Memory.defaultColumns m.memory.toList).map fun row =>
    String.ofList (Memory.rowText Word.padded row)

theorem text_memory_eq_stack (m : Machine) : m.memory.text = stack (memoryRows m) := by
  rw [← String.toList_inj, Memory.text, Memory.toList_gridText (by decide), stack,
    String.toList_intercalate, memoryRows, List.map_map]
  congr 1
  exact List.map_congr_left fun row _ => String.toList_ofList.symm

section MemoryRows

variable {m : Machine} {row : String}

theorem length_words_of_mem_memoryRows (h : row ∈ memoryRows m) :
    (Text.words row.toList).length = 10 := by
  obtain ⟨cells, hcells, rfl⟩ := List.mem_map.1 h
  have hlength : m.memory.toList.length = 10 * 10 := Memory.length_toList m.memory
  rw [String.toList_ofList, Memory.words_rowText, List.length_map]
  exact Text.length_of_mem_slices_of_dvd (by decide) hlength hcells

theorem unbroken_of_mem_memoryRows (h : row ∈ memoryRows m) : Text.Unbroken row := by
  obtain ⟨cells, -, rfl⟩ := List.mem_map.1 h
  rw [Text.Unbroken, String.toList_ofList]
  intro c hc
  apply Bool.eq_false_iff.2
  intro hbreak
  refine absurd hc (Text.notMem_intercalate ?_ fun text htext hmem => ?_)
  · intro hspace
    rw [List.mem_singleton.1 hspace] at hbreak
    cases hbreak
  · obtain ⟨w, -, rfl⟩ := List.mem_map.1 htext
    cases hbreak.symm.trans (Text.unbroken_zeroPadded 3 w.toInt c hmem)

theorem map_readNumeral_memoryRows (m : Machine) :
    ((memoryRows m).flatMap fun row => Text.words row.toList).map Text.readNumeral =
      m.memory.toList.map fun w => .ok w.toInt := by
  rw [memoryRows, List.flatMap_map]
  simp only [String.toList_ofList, Memory.words_rowText]
  rw [← List.map_flatMap, List.flatMap_id', Text.flatten_slices (by decide),
    Memory.map_readNumeral_padded]

end MemoryRows

/-- The lines above memory in the text of a state. -/
def registerLines (registers : Registers) : List String :=
  ["FINAL REGISTERS", rule 30 '=', "  PC:  " ++ Text.zeroPadded 2 registers.programCounter,
    "  IR:  " ++ toString registers.instructionRegister,
    "  AR:  " ++ Text.zeroPadded 2 registers.addressRegister,
    "  ACC: " ++ registers.accumulator.text, "", "MEMORY", rule 30 '-']

theorem unbroken_of_mem_registerLines {registers : Registers} {row : String}
    (h : row ∈ registerLines registers) : Text.Unbroken row := by
  simp only [registerLines, List.mem_cons, List.not_mem_nil, or_false] at h
  rcases h with rfl | rfl | rfl | rfl | rfl | rfl | rfl | rfl | rfl <;> simp +decide

theorem linesOf_stateText (m : Machine) :
    linesOf (stateText m) = registerLines m.registers ++ memoryRows m := by
  have hcells : m.memory.toList ≠ [] := by
    rw [Ne, ← List.length_eq_zero_iff, Memory.length_toList]
    decide
  have hne : memoryRows m ≠ [] := by
    rw [memoryRows, Text.slices_eq_cons (by decide) hcells]
    exact List.cons_ne_nil _ _
  have hstack : stateText m = stack (registerLines m.registers ++ memoryRows m) := by
    rw [stateText, text_memory_eq_stack]
    exact stack_concat_stack hne (registerLines m.registers)
  rw [hstack]
  apply linesOf_stack
  · rw [List.getLast?_append_of_ne_nil _ hne]
    intro hlast
    have hwidth := length_words_of_mem_memoryRows (List.mem_of_getLast? hlast)
    cases hwidth
  · intro row hrow
    rcases List.mem_append.1 hrow with hrow | hrow
    · exact unbroken_of_mem_registerLines hrow
    · exact unbroken_of_mem_memoryRows hrow

/-- The text of a state has the registers and all of memory. -/
theorem showsState_stateText {m : Machine} {recordTrace : Bool} (h : m.Invariant recordTrace) :
    ShowsState m (linesOf (stateText m)) := by
  have hcounter := h.programCounter
  have hinstruction := h.instructionRegister
  have haddress := h.addressRegister
  rw [linesOf_stateText]
  apply ShowsState.lines
  case hcounter => exact readInt_zeroPadded (by omega) (by omega)
  case hinstruction => exact readInt_toString (by omega)
  case haddress => exact readInt_zeroPadded (by omega) (by omega)
  case haccumulator => exact m.registers.accumulator.readInt_text
  case hwidth => exact fun _ => length_words_of_mem_memoryRows
  case hcells => exact map_readNumeral_memoryRows m

end Report

end DecimalMachine
