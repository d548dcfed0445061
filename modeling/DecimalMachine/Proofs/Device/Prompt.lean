import DecimalMachine.Proofs.Machine.TypedInput
import Mathlib.Data.Nat.Find

/-!
# The prompt loop

A read of typed input is a loop that asks for a line, takes it, and goes on for as long as the line
is refused. Nothing in the loop bounds the number of turns; it ends because the lines do, and every
line after them is empty. `prompt_loop` tells for any number of reads in a row which lines each of
them takes, what shows for each line, and that the loop comes to its end at the turn for the last of
them.

## Main definitions

- `supply` — a line of an endless supply that begins with given lines
- `EndsRead` — a line that ends a read
- `refusedEvents` — what shows for a line that does not
- `promptLoop` — the loop, on an endless supply, for at most a number of turns
-/

namespace DecimalMachine

/-- The line at a position, if empty lines follow the given ones for ever. -/
def supply (lines : List String) (i : Nat) : String := lines.getD i ""

/-- The number that a typed line holds, without the blanks around it. -/
def numberOfLine? (line : String) : Option Int :=
  (Text.readNumeral (Text.trim line.toList)).toOption

/-- A line ends a read: the empty line, or a number in the range of words. -/
def EndsRead (line : String) : Prop :=
  line = "" ∨ ∃ n, numberOfLine? line = some n ∧ -999 ≤ n ∧ n ≤ 999

/-- What a line that ends a read comes to. -/
def readOutcome (line : String) : Except Error Word :=
  match (numberOfLine? line).bind Word.ofInt? with
  | some w => .ok w
  | none => .error .linesExhausted

/-- The complaint about a line that is refused: it holds a number, which is out of range then, or it
holds none. -/
def complaintAbout (line : String) : String :=
  if (numberOfLine? line).isSome then outOfRangeComplaint else notANumberComplaint

/-- What shows for a line that is refused. -/
def refusedEvents (prompt line : String) : List Event :=
  [.prompted prompt, .complained (complaintAbout line),
    .noticed (.rejectedLine (String.ofList (Text.trim line.toList)))]

/-- One turn of the loop: what shows for a line, and the outcome of the read unless it goes on. -/
def promptTurn (prompt line : String) : List Event × Option (Except Error Word) :=
  if line.isEmpty then ([.prompted prompt], some (.error .linesExhausted))
  else
    match answerLine line with
    | .ok w => ([.prompted prompt], some (.ok w))
    | .error complaint =>
      let rejected := String.ofList (Text.trim line.toList)
      ([.prompted prompt, .complained complaint, .noticed (.rejectedLine rejected)], none)

/-- The loop from a position in a supply of lines on, for at most a number of turns: where the next
read starts, what shows, and the outcome, if these turns are enough. -/
def promptLoop (prompt : String) (line : Nat → String) :
    Nat → Nat → Option (Nat × List Event × Except Error Word)
  | 0, _ => none
  | turns + 1, i =>
    match promptTurn prompt (line i) with
    | (events, some outcome) => some (i + 1, events, outcome)
    | (events, none) =>
      (promptLoop prompt line turns (i + 1)).map fun (next, later, outcome) =>
        (next, events ++ later, outcome)

/-- A device after a number of reads. -/
def Input.afterReads (input : Input) : Nat → Input
  | 0 => input
  | reads + 1 => (input.afterReads reads).read.input

variable {prompt line : String} {lines : List String}

/-! ## Lines -/

theorem supply_of_length_le {i : Nat} (h : lines.length ≤ i) : supply lines i = "" := by
  rw [supply, List.getD_eq_getElem?_getD, List.getElem?_eq_none h]
  rfl

theorem drop_eq_supply_cons {i : Nat} (h : i < lines.length) :
    lines.drop i = supply lines i :: lines.drop (i + 1) := by
  rw [List.drop_eq_getElem_cons h, supply, List.getD_eq_getElem?_getD, List.getElem?_eq_getElem h]
  rfl

theorem endsRead_empty : EndsRead "" := .inl rfl

theorem readTyped_cons (prompt line : String) (rest : List String) :
    readTyped prompt (line :: rest) =
      match promptTurn prompt line with
      | (events, some outcome) => ⟨.typed prompt rest, events, outcome⟩
      | (events, none) =>
        let later := readTyped prompt rest
        { later with events := events ++ later.events } := by
  rw [readTyped, promptTurn]
  split
  · rfl
  · cases answerLine line <;> rfl

theorem numberOfLine?_eq_some_iff {n : Int} :
    numberOfLine? line = some n ↔ Text.readNumeral (Text.trim line.toList) = .ok n := by
  rw [numberOfLine?]
  cases Text.readNumeral (Text.trim line.toList) <;> simp [Except.toOption]

theorem numberOfLine?_empty : numberOfLine? "" = none := by decide +kernel

theorem promptTurn_of_endsRead (prompt : String) (h : EndsRead line) :
    promptTurn prompt line = ([.prompted prompt], some (readOutcome line)) := by
  rcases h with rfl | ⟨n, hn, hrange⟩
  · rw [readOutcome, numberOfLine?_empty]
    rfl
  · have hfull : line.isEmpty = false := by
      rw [String.isEmpty_eq_false_iff]
      rintro rfl
      cases numberOfLine?_empty.symm.trans hn
    have hword : Word.ofInt? n = some ⟨n, hrange.1, hrange.2⟩ := dif_pos hrange
    simp [promptTurn, hfull, answerLine, numberOfLine?_eq_some_iff.1 hn, hword, readOutcome, hn]

theorem readOutcome_of_endsRead (h : EndsRead line) :
    (line = "" ∧ readOutcome line = .error .linesExhausted) ∨
      ∃ w, numberOfLine? line = some w.toInt ∧ readOutcome line = .ok w := by
  rcases h with rfl | ⟨n, hn, hrange⟩
  · exact .inl ⟨rfl, by rw [readOutcome, numberOfLine?_empty]; rfl⟩
  · have hword : Word.ofInt? n = some ⟨n, hrange.1, hrange.2⟩ := dif_pos hrange
    refine .inr ⟨⟨n, hrange.1, hrange.2⟩, hn, ?_⟩
    simp only [readOutcome, hn, Option.bind_some, hword]

/-- A line that does not end a read gets the complaint about it. -/
theorem promptTurn_of_not_endsRead (prompt : String) (h : ¬EndsRead line) :
    promptTurn prompt line = (refusedEvents prompt line, none) := by
  obtain ⟨hne, hnumber⟩ := not_or.1 h
  have hfull : line.isEmpty = false := by simpa using hne
  cases hread : Text.readNumeral (Text.trim line.toList) with
  | error fault =>
    have hn : numberOfLine? line = none := by
      rw [numberOfLine?, hread]
      rfl
    simp [promptTurn, hfull, answerLine, hread, refusedEvents, complaintAbout, hn]
  | ok n =>
    have hn : numberOfLine? line = some n := numberOfLine?_eq_some_iff.2 hread
    have hnone : Word.ofInt? n = none := by
      have hrange : ¬(-999 ≤ n ∧ n ≤ 999) := fun hrange => hnumber ⟨n, hn, hrange⟩
      exact dif_neg hrange
    simp [promptTurn, hfull, answerLine, hread, hnone, refusedEvents, complaintAbout, hn]

/-! ## One read -/

/-- The lines of a supply that a read takes which starts at a position, up to the last of them. -/
structure Takes (line : Nat → String) (start last : Nat) : Prop where
  le : start ≤ last
  refused : ∀ i, start ≤ i → i < last → ¬EndsRead (line i)
  ends : EndsRead (line last)

/-- What shows for the lines of a supply from one position up to another, all of them refused. -/
def eventsOfRefused (prompt : String) (line : Nat → String) (start stop : Nat) : List Event :=
  (List.range' start (stop - start)).flatMap fun i => refusedEvents prompt (line i)

theorem eventsOfRefused_of_lt (prompt : String) (line : Nat → String) {start stop : Nat}
    (h : start < stop) :
    eventsOfRefused prompt line start stop =
      refusedEvents prompt (line start) ++ eventsOfRefused prompt line (start + 1) stop := by
  have hcount : stop - start = (stop - (start + 1)) + 1 := by omega
  rw [eventsOfRefused, hcount, List.range'_succ, List.flatMap_cons, eventsOfRefused]

theorem promptsOf_eventsOfRefused (prompt : String) (line : Nat → String) (start stop : Nat) :
    promptsOf (eventsOfRefused prompt line start stop) = List.replicate (stop - start) prompt := by
  have hline (i : Nat) : (refusedEvents prompt (line i)).filterMap Event.prompt? = [prompt] := rfl
  simp only [promptsOf, eventsOfRefused, List.filterMap_flatMap, hline]
  rw [← List.map_eq_flatMap, List.map_const', List.length_range']

/-- Every read comes to its last line, at the end of the given lines at the latest. -/
theorem exists_takes (lines : List String) (start : Nat) :
    ∃ last, Takes (supply lines) start last ∧ last ≤ max lines.length start := by
  classical
  have hend : start ≤ max lines.length start ∧ EndsRead (supply lines (max lines.length start)) :=
    ⟨Nat.le_max_right _ _, .inl (supply_of_length_le (Nat.le_max_left _ _))⟩
  have hexists : ∃ i, start ≤ i ∧ EndsRead (supply lines i) := ⟨_, hend⟩
  obtain ⟨hle, hends⟩ := Nat.find_spec hexists
  exact ⟨Nat.find hexists,
    ⟨hle, fun i hi hlt hnext => Nat.find_min hexists hlt ⟨hi, hnext⟩, hends⟩,
    Nat.find_min' hexists hend⟩

theorem Takes.tail {line : Nat → String} {start last : Nat} (h : Takes line start last)
    (hlt : start < last) : Takes line (start + 1) last :=
  ⟨hlt, fun i hi => h.refused i (Nat.le_of_succ_le hi), h.ends⟩

/-- A read takes its lines, and leaves those behind the last of them. -/
theorem readTyped_of_takes (prompt : String) {start last : Nat}
    (h : Takes (supply lines) start last) :
    readTyped prompt (lines.drop start) = ⟨.typed prompt (lines.drop (last + 1)),
      eventsOfRefused prompt (supply lines) start last ++ [.prompted prompt],
      readOutcome (supply lines last)⟩ := by
  -- The induction is on the number of refused lines.
  induction hcount : last - start generalizing start with
  | zero =>
    obtain rfl : start = last := Nat.le_antisymm h.le (by omega)
    by_cases hgiven : start < lines.length
    · rw [drop_eq_supply_cons hgiven, readTyped_cons, promptTurn_of_endsRead prompt h.ends]
      simp [eventsOfRefused]
    · rw [supply_of_length_le (by omega), List.drop_eq_nil_of_le (by omega),
        List.drop_eq_nil_of_le (by omega), readOutcome, numberOfLine?_empty]
      simp [eventsOfRefused, readTyped]
  | succ count ih =>
    have hlt : start < last := by omega
    have hrefused := h.refused start (Nat.le_refl _) hlt
    have hgiven : start < lines.length := by
      apply Nat.lt_of_not_le
      intro hpast
      rw [supply_of_length_le hpast] at hrefused
      exact hrefused endsRead_empty
    rw [drop_eq_supply_cons hgiven, readTyped_cons, promptTurn_of_not_endsRead prompt hrefused,
      ih (h.tail hlt) (by omega), eventsOfRefused_of_lt prompt _ hlt, List.append_assoc]

/-- The loop ends at the turn for the last line, and not before. -/
theorem promptLoop_of_takes (prompt : String) {line : Nat → String} {start last : Nat}
    (h : Takes line start last) (turns : Nat) :
    promptLoop prompt line turns start =
      if last - start < turns then
        some (last + 1, eventsOfRefused prompt line start last ++ [.prompted prompt],
          readOutcome (line last))
      else none := by
  induction turns generalizing start with
  | zero => rfl
  | succ turns ih =>
    rw [promptLoop]
    obtain rfl | hlt := Nat.eq_or_lt_of_le h.le
    · rw [promptTurn_of_endsRead prompt h.ends, if_pos (by omega)]
      simp [eventsOfRefused]
    · have hrefused := h.refused start (Nat.le_refl _) hlt
      rw [promptTurn_of_not_endsRead prompt hrefused, ih (h.tail hlt),
        eventsOfRefused_of_lt prompt line hlt, List.append_assoc]
      by_cases henough : last - (start + 1) < turns
      · rw [if_pos henough, if_pos (by omega)]
        rfl
      · rw [if_neg henough, if_neg (by omega)]
        rfl

/-! ## Reads in a row -/

/-- Reads of typed input in a row, however many and whatever was typed. Each takes lines from where
the one before it stopped, up to the first line that ends a read, which is at the latest the first
behind all that was typed. What it gives is the number on that line, or the error that the lines are
exhausted if the line is empty. For each line before it there shows a prompt, the complaint about
the line and a notice of the line without the blanks around it; for the line itself there shows a
prompt. The loop does the same, and takes a turn for each line. -/
theorem prompt_loop (prompt : String) (lines : List String) :
    ∃ start : Nat → Nat, start 0 = 0 ∧ ∀ reads,
      let device := (Input.typed prompt lines).afterReads reads
      ∃ last, Takes (supply lines) (start reads) last ∧
        last ≤ max lines.length (start reads) ∧ start (reads + 1) = last + 1 ∧
        device = .typed prompt (lines.drop (start reads)) ∧
        ((supply lines last = "" ∧ device.read.outcome = .error .linesExhausted) ∨
          ∃ w, numberOfLine? (supply lines last) = some w.toInt ∧ device.read.outcome = .ok w) ∧
        device.read.events =
          eventsOfRefused prompt (supply lines) (start reads) last ++ [.prompted prompt] ∧
        promptsOf device.read.events = List.replicate (last + 1 - start reads) prompt ∧
        ∀ turns, promptLoop prompt (supply lines) turns (start reads) =
          if last - start reads < turns then
            some (start (reads + 1), device.read.events, device.read.outcome)
          else none := by
  choose last htakes hlast using exists_takes lines
  let start : Nat → Nat := Nat.rec 0 fun _ position => last position + 1
  have hnext (reads : Nat) : start (reads + 1) = last (start reads) + 1 := rfl
  have hdevice (reads : Nat) : (Input.typed prompt lines).afterReads reads =
      .typed prompt (lines.drop (start reads)) := by
    induction reads with
    | zero => rfl
    | succ reads ih =>
      rw [Input.afterReads, ih, Input.read, readTyped_of_takes prompt (htakes _), hnext]
  refine ⟨start, rfl, fun reads => ?_⟩
  intro device
  have hread : device.read = ⟨.typed prompt (lines.drop (last (start reads) + 1)),
      eventsOfRefused prompt (supply lines) (start reads) (last (start reads)) ++
        [.prompted prompt],
      readOutcome (supply lines (last (start reads)))⟩ := by
    rw [show device = _ from hdevice reads, Input.read, readTyped_of_takes prompt (htakes _)]
  have hle := (htakes (start reads)).le
  refine ⟨last (start reads), htakes _, hlast _, hnext reads, hdevice reads, ?_, ?_, ?_,
    fun turns => ?_⟩
  · rw [hread]
    exact readOutcome_of_endsRead (htakes _).ends
  · rw [hread]
  · have hcount : last (start reads) + 1 - start reads = last (start reads) - start reads + 1 := by
      omega
    rw [hread, hcount, List.replicate_succ']
    simp only [promptsOf, List.filterMap_append]
    exact congrArg (· ++ [prompt]) (promptsOf_eventsOfRefused prompt _ _ _)
  · rw [hread, hnext, promptLoop_of_takes prompt (htakes _)]

end DecimalMachine
