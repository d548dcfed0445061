import DecimalMachine.Proofs.Device.Emission
import DecimalMachine.Proofs.Device.Rows
import DecimalMachine.Proofs.Escape
import DecimalMachine.Proofs.Text.Numeral

/-!
# Requests to the output

Texts and operands are put out one after the other, and some of them are refused. Each of the others
adds a piece to the output: what was put out, after a line feed if it is a number and the one put
out before it was a number, too. The pieces together are the text. Numbers that are put out alone
can therefore be read back from between the line feeds.

## Main definitions

- `Output.served`, `Output.told` — the output after requests, and the pieces that they added
- `Output.Request.emission?` — what a request puts out
- `Emission.pieces` — the pieces for a sequence of emissions
-/

namespace DecimalMachine

/-- The text of an emission by itself. -/
def Emission.plain : Emission → String
  | number n => String.ofList (Text.decimal n)
  | character c => String.singleton c

/-- An emission as a piece of the output, given whether the emission before it was a number. -/
def Emission.piece (afterNumber : Bool) (emission : Emission) : String :=
  (if afterNumber && emission.isNumber then "\n" else "") ++ emission.plain

/-- The pieces for emissions: each of them looks at the one before it, the first at what was put out
before. -/
def Emission.pieces (afterNumber : Bool) (emissions : List Emission) : List String :=
  List.zipWith piece (afterNumber :: emissions.map isNumber) emissions

namespace Output

/-- What a request puts out, unless it is refused: a text of one character, or the number that an
operand holds, if it can be written. -/
def Request.emission? : Request → Option Emission
  | character text =>
    match text.toList with
    | [c] => some (.character c)
    | _ => none
  | number operand => (operand.toInt.toOption.filter fun n => Text.IsWritable n).map .number

/-- The output after requests, refused ones included. -/
def served (output : Output) (requests : List Request) : Output :=
  requests.foldl (fun now request => (now.attempt request).1) output

/-- The pieces that requests add, one after the other. -/
def told (output : Output) : List Request → List String
  | [] => []
  | request :: rest =>
    (output.attempt request).2.toOption.toList ++ (output.attempt request).1.told rest

variable {output : Output} {request : Request} {emission : Emission}

/-! ## One request -/

theorem characterOf_cases (text : String) :
    (∃ c, text.toList = [c] ∧ characterOf text = .ok c) ∨
      (Request.emission? (.character text) = none ∧
        characterOf text = .error (.notOneCharacter text)) := by
  simp only [characterOf, Request.emission?]
  cases htext : text.toList with
  | nil => exact .inr ⟨rfl, rfl⟩
  | cons c rest =>
    cases rest with
    | nil => exact .inl ⟨c, rfl, rfl⟩
    | cons d rest => exact .inr ⟨rfl, rfl⟩

theorem attempt_character (output : Output) (text : String) :
    output.attempt (.character text) = ((output.serve (.character text)).1,
      (output.serve (.character text)).2.mapError Escape.ofError) := rfl

theorem attempt_number {operand : Operand} {n : Int} (hnumber : operand.toInt = .ok n)
    (output : Output) :
    output.attempt (.number operand) =
      if Text.IsWritable n then (output.putNumber n, .ok (output.numberPiece n))
      else (output, .error (.overlong n)) := by
  by_cases hn : Text.IsWritable n <;>
    simp [attempt, Request.number?, serve, hnumber, hn, Except.toOption, Option.filter,
      Except.mapError]

/-- A request that puts nothing out is refused, and leaves the output as it was. -/
theorem attempt_of_emission?_eq_none (h : request.emission? = none) :
    ∃ escape, ∀ output : Output, output.attempt request = (output, .error escape) := by
  cases request with
  | character text =>
    rcases characterOf_cases text with ⟨c, htext, -⟩ | ⟨-, hrefused⟩
    · simp [Request.emission?, htext] at h
    · exact ⟨_, fun output => by rw [attempt_character, serve, hrefused]; rfl⟩
  | number operand =>
    cases hnumber : operand.toInt with
    | error error =>
      refine ⟨Escape.ofError error, fun output => ?_⟩
      simp [attempt, Request.number?, serve, hnumber, Except.toOption, Except.mapError]
    | ok n =>
      have hn : ¬Text.IsWritable n := by
        simpa [Request.emission?, hnumber, Except.toOption] using h
      exact ⟨.overlong n, fun output => by rw [attempt_number hnumber, if_neg hn]⟩

/-- A request that puts something out adds the piece for it. -/
theorem attempt_of_emission?_eq_some (h : request.emission? = some emission) (output : Output) :
    output.attempt request = (output.put emission, .ok (emission.piece output.endsInNumber)) := by
  cases request with
  | character text =>
    rcases characterOf_cases text with ⟨c, htext, hserved⟩ | ⟨hnone, -⟩
    · simp only [Request.emission?, htext, Option.some_inj] at h
      rw [attempt_character, serve, hserved, ← h]
      simp [put, Emission.piece, Emission.isNumber, Emission.plain, characterPiece,
        Except.mapError]
    · rw [hnone] at h
      cases h
  | number operand =>
    cases hnumber : operand.toInt with
    | error error => simp [Request.emission?, hnumber, Except.toOption] at h
    | ok n =>
      obtain ⟨hn, rfl⟩ : Text.IsWritable n ∧ .number n = emission := by
        simpa [Request.emission?, hnumber, Except.toOption, Option.filter] using h
      rw [attempt_number hnumber, if_pos hn]
      simp [put, numberPiece_eq, Emission.piece, Emission.isNumber, Emission.plain]

theorem endsInNumber_put (output : Output) (emission : Emission) :
    (output.put emission).endsInNumber = emission.isNumber := by
  cases emission <;> rfl

/-! ## Sequences of requests -/

theorem served_eq (output : Output) (requests : List Request) :
    output.served requests = (requests.filterMap Request.emission?).foldl put output := by
  induction requests generalizing output with
  | nil => rfl
  | cons request rest ih =>
    have hstep : output.served (request :: rest) = (output.attempt request).1.served rest := rfl
    rw [hstep, ih]
    cases hemission : request.emission? with
    | none =>
      obtain ⟨escape, hattempt⟩ := attempt_of_emission?_eq_none hemission
      rw [List.filterMap_cons_none hemission, hattempt]
    | some emission =>
      rw [List.filterMap_cons_some hemission, attempt_of_emission?_eq_some hemission,
        List.foldl_cons]

theorem told_eq_pieces (output : Output) (requests : List Request) :
    output.told requests =
      Emission.pieces output.endsInNumber (requests.filterMap Request.emission?) := by
  induction requests generalizing output with
  | nil => rfl
  | cons request rest ih =>
    rw [told, ih]
    cases hemission : request.emission? with
    | none =>
      obtain ⟨escape, hattempt⟩ := attempt_of_emission?_eq_none hemission
      rw [List.filterMap_cons_none hemission, hattempt]
      rfl
    | some emission =>
      rw [List.filterMap_cons_some hemission, attempt_of_emission?_eq_some hemission,
        endsInNumber_put]
      rfl

theorem join_pieces (afterNumber : Bool) (emissions : List Emission) :
    String.join (Emission.pieces afterNumber emissions) = Emission.text afterNumber emissions := by
  induction emissions generalizing afterNumber with
  | nil => rfl
  | cons emission rest ih =>
    have hstep : Emission.pieces afterNumber (emission :: rest) =
        emission.piece afterNumber :: Emission.pieces emission.isNumber rest := rfl
    rw [hstep, String.join_cons, ih]
    cases emission with
    | number n => simp [Emission.piece, Emission.isNumber, Emission.plain, Emission.text]
    | character c => simp [Emission.piece, Emission.isNumber, Emission.plain, Emission.text]

/-- The text of the output grows by the pieces. -/
theorem text_served (output : Output) (requests : List Request) :
    (output.served requests).text = output.text ++ String.join (output.told requests) := by
  rw [served_eq, text_foldl_put, told_eq_pieces, join_pieces]

/-! ## Numbers alone -/

/-- Numbers that are put out alone have line feeds between them. -/
theorem toList_text_numbers (numbers : List Int) :
    (Emission.text false (numbers.map .number)).toList =
      ['\n'].intercalate (numbers.map Text.decimal) := by
  induction numbers with
  | nil => rfl
  | cons n rest ih =>
    cases rest with
    | nil => simp [Emission.text, List.intercalate]
    | cons next rest =>
      have hsplit : Emission.text false ((n :: next :: rest).map .number) =
          String.ofList (Text.decimal n) ++
            ("\n" ++ Emission.text false ((next :: rest).map .number)) := by
        simp [Emission.text, String.append_assoc]
      rw [hsplit, String.toList_append, String.toList_append, String.toList_ofList, ih]
      show _ = ['\n'].intercalate (Text.decimal n :: Text.decimal next :: rest.map Text.decimal)
      rw [List.intercalate_cons_cons, List.append_assoc]
      rfl

theorem text_served_words (words : List Word) :
    (empty.served (words.map fun w => .number (.word w))).text.toList =
      ['\n'].intercalate (words.map fun w => Text.decimal w.toInt) := by
  have hemissions : (words.map fun w => Request.number (.word w)).filterMap Request.emission? =
      (words.map Word.toInt).map .number := by
    rw [List.filterMap_map, List.map_map, ← List.filterMap_eq_map]
    refine List.filterMap_congr fun w _ => ?_
    have hword : Text.IsWritable w.toInt := Text.isWritable_of_small ⟨w.lower, w.upper⟩
    simp [Request.emission?, Operand.toInt, Except.toOption, Option.filter, hword]
  rw [served_eq, hemissions, text_foldl_put, empty, String.empty_append, toList_text_numbers,
    List.map_map]
  rfl

theorem feed_notMem_decimal (n : Int) : '\n' ∉ Text.decimal n := by
  intro hfeed
  rw [Text.decimal_eq_written] at hfeed
  have hblank := Text.not_isBlank_of_isLiteral (Text.isLiteral_written 0 n) '\n' hfeed
  exact absurd hblank (by decide)

theorem length_decimal_le (w : Word) : (Text.decimal w.toInt).length ≤ 4 := by
  have hdigits := Text.length_digits_le ⟨w.lower, w.upper⟩
  simp only [Text.decimal]
  split
  · rw [List.length_cons]
    omega
  · omega

theorem readNumeral_decimal (w : Word) : Text.readNumeral (Text.decimal w.toInt) = .ok w.toInt := by
  have hdigits := Text.length_digits_le ⟨w.lower, w.upper⟩
  rw [Text.decimal_eq_written]
  refine Text.readNumeral_written ?_
  rw [Text.maxDigits]
  omega

/-- Between the line feeds of words that were put out alone stand their numbers. -/
theorem splitOn_served_words {words : List Word} (hne : words ≠ []) :
    (empty.served (words.map fun w => .number (.word w))).text.toList.splitOn '\n' =
      words.map fun w => Text.decimal w.toInt := by
  rw [text_served_words]
  apply List.splitOn_intercalate
  · intro digits hdigits
    obtain ⟨w, -, rfl⟩ := List.mem_map.1 hdigits
    exact feed_notMem_decimal w.toInt
  · rwa [Ne, List.map_eq_nil_iff]

/-- What requests make of the output. The text grows by the pieces that were told, and by nothing
else. There is one piece for each request that is not refused, and it is the character or the
number, after a line feed exactly if it is a number and the one put out before it was a number, too,
however many refused requests lie between; these leave the output as it was. So the numbers of words
that are put out alone can be read back from between the line feeds, and rows that have room for
four characters show one of them each. -/
theorem served_reads_back (output : Output) (requests : List Request) :
    let emissions := requests.filterMap Request.emission?
    ((output.served requests).text = output.text ++ String.join (output.told requests) ∧
      output.told requests = Emission.pieces output.endsInNumber emissions) ∧
    (∀ request : Request, request.emission? = none →
      ∃ escape, ∀ now : Output, now.attempt request = (now, .error escape)) ∧
    ∀ words : List Word, words ≠ [] →
      let numbers := empty.served (words.map fun w => .number (.word w))
      (numbers.text.toList.splitOn '\n').map Text.readNumeral =
          words.map (fun w => .ok w.toInt) ∧
        ∀ width : Nat, 4 ≤ width → numbers.rows width = .ok (words.map Word.text) := by
  intro emissions
  refine ⟨⟨text_served output requests, told_eq_pieces output requests⟩,
    fun _ => attempt_of_emission?_eq_none, ?_⟩
  intro words hne numbers
  have hsegments := splitOn_served_words hne
  constructor
  · rw [hsegments, List.map_map]
    exact List.map_congr_left fun w _ => readNumeral_decimal w
  · intro width hwidth
    have hrows : ∀ w : Word, segmentRows width (Text.decimal w.toInt) = [Text.decimal w.toInt] :=
      fun w => segmentRows_of_length_le (Nat.le_trans (length_decimal_le w) hwidth)
    rw [rows_eq _ (by omega), textRows, hsegments, List.flatMap_map]
    simp only [hrows]
    rw [← List.map_eq_flatMap, List.map_map]
    rfl

example : (empty.served [.number (.int 7), .character "no", .number (.bool true),
    .character "x", .number (.int (-3))]).text = "7\n1x-3" := by decide +kernel

end Output

end DecimalMachine
