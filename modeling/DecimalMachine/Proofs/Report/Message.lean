import DecimalMachine.Proofs.Assembly.Refusal
import DecimalMachine.Proofs.Machine.Invariant
import DecimalMachine.Proofs.Cycle.Failure
import DecimalMachine.Proofs.Escape
import DecimalMachine.Report

/-!
# Messages that can be written

A number of more digits than a numeral may have cannot be written, and neither can a message that it
is a part of. But the numbers in the messages of a source, of the numbers that it is run on and of a
run are of three kinds only: they were read, and what is read is short enough to be written; they
count lines; or they are digits, addresses and words.

## Main definitions

- `Report.accept` — what a run needs of a source and of a text with numbers
-/

namespace DecimalMachine

/-! ## Numbers -/

namespace Text

variable {n : Int}

theorem valueOfDigits_lt {digits : List Nat} (h : ∀ d ∈ digits, d < 10) :
    valueOfDigits digits < 10 ^ digits.length := by
  -- The digits that were read before are generalized.
  have hfrom (start : Nat) : digits.foldl (fun acc d => 10 * acc + d) start <
      (start + 1) * 10 ^ digits.length := by
    induction digits generalizing start with
    | nil => simp
    | cons d digits ih =>
      obtain ⟨hd, hdigits⟩ := List.forall_mem_cons.1 h
      have hrest := ih hdigits (10 * start + d)
      have hnext : (10 * start + d + 1) * 10 ^ digits.length ≤
          (start + 1) * 10 ^ (digits.length + 1) := by
        rw [Nat.pow_succ', ← Nat.mul_assoc]
        exact Nat.mul_le_mul_right _ (by omega)
      exact Nat.lt_of_lt_of_le hrest hnext
  simpa [valueOfDigits] using hfrom 0

/-- A number that is read has digits, as many as a numeral may have or fewer. -/
theorem exists_digits_of_readNumeral {text : List Char} (h : readNumeral text = .ok n) :
    ∃ digits, (∀ d ∈ digits, d < 10) ∧ digits.length ≤ maxDigits ∧
      n.natAbs = valueOfDigits digits := by
  have hten (body : List Char) : ∀ d ∈ body.filterMap digitValue?, d < 10 := by
    intro d hd
    obtain ⟨c, -, hc⟩ := List.mem_filterMap.1 hd
    exact digitValue?_lt hc
  simp only [readNumeral] at h
  split_ifs at h with hgrouped hlong hrest hsign
  · cases h
    exact ⟨_, hten _, Nat.not_lt.1 hlong, Int.natAbs_neg _⟩
  · cases h
    exact ⟨_, hten _, Nat.not_lt.1 hlong, rfl⟩

/-- What is read can be written. -/
theorem isWritable_of_readNumeral {text : List Char} (h : readNumeral text = .ok n) :
    IsWritable n := by
  obtain ⟨digits, hten, hlength, hvalue⟩ := exists_digits_of_readNumeral h
  rw [isWritable_iff, hvalue]
  exact Nat.lt_of_lt_of_le (valueOfDigits_lt hten) (Nat.pow_le_pow_right (by decide) hlength)

end Text

theorem isWritable_of_readInt {text : String} {n : Int} (h : readInt text = .ok n) :
    Text.IsWritable n := by
  rw [readInt] at h
  cases hread : Text.readNumeral text.toList with
  | error fault =>
    rw [hread] at h
    cases h
  | ok value =>
    rw [hread] at h
    cases h
    exact Text.isWritable_of_readNumeral hread

/-! ## Messages -/

namespace Error

theorem isWritable_of_readInt {text : String} {error : Error} (h : readInt text = .error error) :
    error.IsWritable := by
  obtain rfl | ⟨digits, rfl⟩ := error_of_readInt h <;> exact List.forall_mem_nil _

end Error

/-! ## Sources -/

section Source

variable {source : String} {line : Int} {error : Error}

theorem Target.isWritable_of_parse {token : String} (h : Target.parse token line = .error error)
    (hline : Text.IsWritable line) : error.IsWritable := by
  unfold Target.parse at h
  split_ifs at h
  rcases Result.bind_eq_error_iff.1 h with hread | ⟨value, hread, hrange⟩
  · exact Error.isWritable_of_readInt hread
  · split_ifs at hrange
    cases hrange
    simpa [Error.IsWritable, Error.numbers] using ⟨isWritable_of_readInt hread, hline⟩

theorem Line.isWritable_of_parse {text : List Char} (h : Line.parse text line = .error error)
    (hline : Text.IsWritable line) : error.IsWritable := by
  rcases exists_splits (tokens text) with
    hnone | ⟨token, hlacks⟩ | ⟨label, mnemonic, rest, hsplits⟩
  · rw [parse, hnone] at h
    cases h
  · cases (hlacks.ofTokens_eq line).symm.trans h
    simpa [Error.IsWritable, Error.numbers] using hline
  · rw [parse, hsplits.ofTokens_eq, Result.map_eq_error_iff] at h
    cases rest with
    | nil => cases h
    | cons token more => exact Target.isWritable_of_parse (Result.map_eq_error_iff.1 h) hline

theorem le_of_mem_numberedLines {text : List Char} {number : Nat}
    (h : (text, number) ∈ numberedLines source) :
    number ≤ (Text.lines source.toList).length := by
  have hlt := (List.mem_zipIdx h).2.1
  omega

/-- A source has no more statements than lines. -/
theorem length_le_of_ofSource {statements : List Statement}
    (h : Statement.ofSource source = .ok statements) :
    statements.length ≤ (Text.lines source.toList).length := by
  obtain ⟨lines, hparsed, rfl⟩ := Statement.ofSource_eq_ok_iff.1 h
  have hlength := (Result.mapM_eq_ok_iff.1 hparsed).length_eq
  rw [numberedLines, List.length_zipIdx] at hlength
  rw [hlength]
  exact List.length_filterMap_le _ _

variable (hlines : Text.IsWritable (Text.lines source.toList).length)

include hlines

theorem isWritable_of_mem_numberedLines {text : List Char} {number : Nat}
    (h : (text, number) ∈ numberedLines source) : Text.IsWritable number := by
  have hle := le_of_mem_numberedLines h
  exact hlines.of_natAbs_le (by omega)

/-- The message for a source that is refused can be written if its lines can be counted. -/
theorem Assembly.Refusal.isWritable (h : Assembly.Refusal source error) : error.IsWritable := by
  have hstatement {statements : List Statement} {s : Statement}
      (hsource : Statement.ofSource source = .ok statements) (hs : s ∈ statements) :
      Text.IsWritable s.line := by
    obtain ⟨text, number, hmem, hline, -⟩ := Statement.exists_line_of_ofSource hsource hs
    rw [hline]
    exact isWritable_of_mem_numberedLines hlines hmem
  cases h with
  | @line before rest text number _ hsplit _ herror =>
    have hmem : (text, number) ∈ numberedLines source := by simp [hsplit]
    exact Line.isWritable_of_parse herror (isWritable_of_mem_numberedLines hlines hmem)
  | @repeated before rest s t name hsource _ ht =>
    have hs : Text.IsWritable s.line := hstatement hsource (by simp)
    have ht : Text.IsWritable t.line := hstatement hsource (by simp [ht])
    simpa [Error.IsWritable, Error.numbers] using ⟨hs, ht⟩
  | @tooLarge statements hsource =>
    have hcount := length_le_of_ofSource hsource
    have hstatements : Text.IsWritable statements.length := hlines.of_natAbs_le (by omega)
    have hcapacity : Text.IsWritable 100 := by decide
    simpa [Error.IsWritable, Error.numbers] using ⟨hstatements, hcapacity⟩
  | @fault statements before rest s _ hsource _ _ hsplit _ herror =>
    have hs : s ∈ statements := by simp [hsplit]
    cases herror with
    | unknownLabel => simpa [Error.IsWritable, Error.numbers] using hstatement hsource hs
    | @noAddress value opcode htarget =>
      have hvalue := Statement.literal_bounds_of_ofSource hsource hs htarget
      have hdigit : Text.IsWritable opcode.digit := by cases opcode <;> decide
      simpa [Error.IsWritable, Error.numbers] using ⟨hdigit, Text.isWritable_of_small hvalue⟩

end Source

/-! ## Runs -/

/-- The numbers in the messages of failures are digits and addresses. -/
theorem Machine.Failure.isWritable {m left : Machine} {error : Error} {recordTrace : Bool}
    (h : m.Failure error left)
    (hleft : left.Invariant recordTrace) : error.IsWritable := by
  have hcounter := hleft.programCounter
  cases h with
  | halted | reserved | exhausted => exact List.forall_mem_nil _
  | noCell =>
    simp only [Machine.addressFault, Error.IsWritable, Error.numbers, List.mem_singleton, forall_eq]
    exact Text.isWritable_of_small (by omega)
  | @refused w =>
    have hsum := w.hundred_mul_leadingDigit_add
    have hdigits := w.lastTwoDigits_bounds
    have hlower := w.lower
    have hupper := w.upper
    simp only [Error.IsWritable, Error.numbers, List.mem_singleton, forall_eq]
    exact Text.isWritable_of_small (by omega)

/-! ## Reports -/

namespace Report

/-- What a run needs: the assembled program, and the device with the numbers. -/
def accept (source inputs : String) : Except Error (Assembly × Input) := do
  let assembly ← Assembly.ofSource source
  let input ← Input.ofOperands ((← readInts inputs).map .int)
  return (assembly, input)

variable {source inputs : String} {error : Error}

/-- A source is not accepted because it is refused, or for its numbers: one cannot be read, or it is
read and out of range. -/
theorem error_of_accept (h : accept source inputs = .error error) :
    assemble source = .error error ∨ (∃ token, readInt token = .error error) ∨
      ∃ token n, readInt token = .ok n ∧ error = .valueOutOfRange n := by
  rcases Result.bind_eq_error_iff.1 h with hassembly | ⟨assembly, -, h⟩
  · exact .inl (Result.map_eq_error_iff.2 hassembly)
  rcases Result.bind_eq_error_iff.1 h with hnumbers | ⟨numbers, hnumbers, h⟩
  · obtain ⟨_, token, _, -, -, hread⟩ := Result.mapM_eq_error_iff.1 hnumbers
    exact .inr (.inl ⟨_, hread⟩)
  rcases Result.bind_eq_error_iff.1 h with hinput | ⟨_, -, h⟩
  · obtain ⟨_, operand, _, hsplit, -, hword⟩ :=
      Result.mapM_eq_error_iff.1 (Result.map_eq_error_iff.1 hinput)
    have hmem : operand ∈ numbers.map Operand.int := by simp [hsplit]
    obtain ⟨n, hn, rfl⟩ := List.mem_map.1 hmem
    obtain ⟨token, -, hread⟩ := Result.exists_of_mem_mapM hnumbers hn
    obtain ⟨-, rfl⟩ := Word.ofInt_eq_error_iff.1 hword
    exact .inr (.inr ⟨_, n, hread, rfl⟩)
  · cases h

theorem isWritable_of_accept (hlines : Text.IsWritable (Text.lines source.toList).length)
    (h : accept source inputs = .error error) : error.IsWritable := by
  rcases error_of_accept h with hcode | ⟨token, hread⟩ | ⟨token, n, hread, rfl⟩
  · exact (assemble_eq_error_iff.1 hcode).isWritable hlines
  · exact Error.isWritable_of_readInt hread
  · simpa [Error.IsWritable, Error.numbers] using isWritable_of_readInt hread

end Report

end DecimalMachine
