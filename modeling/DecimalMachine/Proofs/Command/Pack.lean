import DecimalMachine.Command.Pack
import DecimalMachine.Proofs.Assembly.Dump
import DecimalMachine.Proofs.Assembly.Reading
import DecimalMachine.Proofs.Assembly.Token
import DecimalMachine.Proofs.Command.FileTree
import DecimalMachine.Proofs.Text.Numeral

/-!
# Packed lines

A line of numbers is packed into a dump, and the dump loads back: however the numbers are written
and whatever blanks are between them, a fresh memory ends up with as many of them as it has cells
for. A token of the line that is no word ends the command with status one and leaves the files as
they are; else the dump is written or the command ends with status two, whatever the file system is
like. `pack_loads_back` is the main statement.

## Main definitions

- `Text.IsNumeralOf` — a text that is a number in decimal
- `SpellsWords` — a line that is words in decimal with blanks around them
- `IsWordToken` — a token that is read as a number in the range of words
-/

namespace DecimalMachine

/-! ## Lines of numbers -/

/-- A text is a number in decimal: perhaps a sign, perhaps zeros, and its digits, no more of them
than a numeral may have. -/
def Text.IsNumeralOf (n : Int) (text : List Char) : Prop :=
  ∃ sign zeros, IsSignOf n sign ∧ zeros + (Nat.toDigits 10 n.natAbs).length ≤ maxDigits ∧
    text = numeral sign zeros n

/-- A line is words in decimal, with blanks between them and perhaps around them. -/
inductive SpellsWords : List Char → List Word → Prop
  | blanks {gap : List Char} (hgap : ∀ c ∈ gap, Text.isBlank c = true) : SpellsWords gap []
  | word {gap token rest : List Char} {w : Word} {words : List Word}
    (hgap : ∀ c ∈ gap, Text.isBlank c = true) (htoken : Text.IsNumeralOf w.toInt token)
    (hapart : ∀ c ∈ rest.head?, Text.isBlank c = true) (hrest : SpellsWords rest words) :
    SpellsWords (gap ++ (token ++ rest)) (w :: words)

/-- A token is read as a number in the range of words. -/
def IsWordToken (token : List Char) : Prop :=
  ∃ n, Text.readNumeral token = .ok n ∧ -999 ≤ n ∧ n ≤ 999

namespace Text.IsNumeralOf

variable {n : Int} {text : List Char}

theorem isLiteral (h : IsNumeralOf n text) : Text.isLiteral text = true := by
  obtain ⟨sign, zeros, hsign, -, rfl⟩ := h
  exact isLiteral_numeral hsign zeros

theorem readNumeral_eq (h : IsNumeralOf n text) : readNumeral text = .ok n := by
  have hliteral := h.isLiteral
  obtain ⟨sign, zeros, hsign, hlength, rfl⟩ := h
  rw [readNumeral_of_isLiteral hliteral, literalDigits_numeral hsign,
    if_neg (Nat.not_lt.2 hlength), literalValue_numeral hsign]

end Text.IsNumeralOf

theorem SpellsWords.cons_blank {c : Char} {line : List Char} {words : List Word}
    (hc : Text.isBlank c = true) (h : SpellsWords line words) : SpellsWords (c :: line) words := by
  cases h with
  | blanks hgap => exact .blanks (List.forall_mem_cons.2 ⟨hc, hgap⟩)
  | word hgap htoken hapart hrest =>
    exact .word (List.forall_mem_cons.2 ⟨hc, hgap⟩) htoken hapart hrest

/-- Every word can be written, and a blank after it sets it apart. -/
theorem exists_spellsWords (words : List Word) : ∃ line, SpellsWords line words := by
  induction words with
  | nil => exact ⟨[], .blanks (List.forall_mem_nil _)⟩
  | cons w words ih =>
    obtain ⟨line, hline⟩ := ih
    have hdigits := Text.length_digits_le ⟨w.lower, w.upper⟩
    have htoken : Text.IsNumeralOf w.toInt (Text.written 0 w.toInt) :=
      ⟨_, 0, Text.isSignOf_written _, by simp only [Text.maxDigits]; omega, rfl⟩
    have hspace : Text.isBlank ' ' = true := by decide
    have hapart : ∀ c ∈ (' ' :: line).head?, Text.isBlank c = true := by
      rintro _ ⟨⟩
      exact hspace
    exact ⟨_, .word (List.forall_mem_nil _) htoken hapart (hline.cons_blank hspace)⟩

variable {token : List Char} {w : Word} {line : String} {words : List Word} {error : Error}

/-! ## Tokens -/

theorem readWord_text_eq_ok_iff :
    (Operand.text (String.ofList token)).readWord = .ok w ↔
      Text.readNumeral token = .ok w.toInt := by
  have hint (n : Int) : (Operand.text (String.ofList token)).toInt = .ok n ↔
      Text.readNumeral token = .ok n := by
    rw [Operand.toInt, readInt, String.toList_ofList]
    cases Text.readNumeral token <;> simp [Except.mapError]
  constructor
  · intro h
    obtain ⟨n, hn, hw⟩ := Result.bind_eq_ok_iff.1 h
    rw [Word.ofInt_eq_ok_iff.1 hw]
    exact (hint n).1 hn
  · intro h
    exact Result.bind_eq_ok_iff.2 ⟨w.toInt, (hint _).2 h, Word.ofInt_eq_ok_iff.2 rfl⟩

theorem exists_readWord_text_iff :
    (∃ w, (Operand.text (String.ofList token)).readWord = .ok w) ↔ IsWordToken token := by
  simp only [readWord_text_eq_ok_iff]
  constructor
  · rintro ⟨w, h⟩
    exact ⟨w.toInt, h, w.lower, w.upper⟩
  · rintro ⟨n, h, hrange⟩
    exact ⟨⟨n, hrange.1, hrange.2⟩, h⟩

/-- Words are read back from a line that spells them. -/
theorem SpellsWords.wordsOfLine_eq {text : List Char} (h : SpellsWords text words) :
    wordsOfLine (String.ofList text) = .ok words := by
  rw [wordsOfLine, String.toList_ofList, Result.mapM_eq_ok_iff]
  simp only [readWord_text_eq_ok_iff]
  induction h with
  | blanks hgap =>
    have hnone := Text.words_blanks_append hgap []
    rw [List.append_nil] at hnone
    rw [hnone]
    exact .nil
  | word hgap htoken hapart _ ih =>
    have hword := isToken_of_isLiteral htoken.isLiteral
    rw [Text.words_blanks_append hgap,
      Text.words_append_of_head hword.ne_nil hword.not_isBlank hapart]
    exact .cons htoken.readNumeral_eq ih

theorem exists_wordsOfLine_iff :
    (∃ words, wordsOfLine line = .ok words) ↔
      ∀ token ∈ Text.words line.toList, IsWordToken token := by
  simp only [wordsOfLine, Result.exists_mapM_eq_ok_iff, exists_readWord_text_iff]

/-- A line with a token that is no word is reported, and the command ends with status one. -/
theorem concludeLine_of_error (h : wordsOfLine line = .error error) :
    (PackCommand.concludeLine error).2 = .completed 1 := by
  obtain ⟨_, token, _, -, -, hword⟩ := Result.mapM_eq_error_iff.1 h
  rcases Result.bind_eq_error_iff.1 hword with hread | ⟨n, -, hrange⟩
  · obtain rfl | ⟨digits, rfl⟩ := error_of_readInt hread <;> rfl
  · obtain ⟨-, rfl⟩ := Word.ofInt_eq_error_iff.1 hrange
    rfl

/-! ## Dumps of more words than there are cells -/

theorem Word.take_dump (words : List Word) (count : Nat) :
    (Word.dump words).take (count * Word.byteCount) = Word.dump (words.take count) := by
  induction words generalizing count with
  | nil => simp
  | cons w words ih =>
    cases count with
    | zero => simp
    | succ count =>
      have hbytes : w.toBytes.length = Word.byteCount := rfl
      rw [Word.dump_cons, Nat.succ_mul, Nat.add_comm, ← hbytes, List.take_length_add_append, hbytes,
        ih, List.take_succ_cons, Word.dump_cons]

/-- A fresh memory takes the dump of as many words as it has cells, and no more. -/
theorem Memory.loadDump_blank_take (size : Nat) (words : List Word) :
    ∃ m : Memory size, (blank size).loadDump (Word.dump words) = .ok (m, min words.length size) ∧
      m.toList = words.take size ++ List.replicate (size - words.length) .zero := by
  have hfits : (words.take size).length ≤ size := List.length_take_le _ _
  obtain ⟨m, hload, -, hcells⟩ := loadDump_blank hfits
  rw [List.length_take] at hload hcells
  have hsame : (blank size).loadDump (Word.dump words) =
      (blank size).loadDump (Word.dump (words.take size)) := by
    simp only [loadDump, Word.take_dump, List.take_take, Nat.min_self]
  refine ⟨m, by rw [hsame, hload, Nat.min_comm], ?_⟩
  rw [hcells]
  congr 2
  omega

/-! ## The command -/

namespace PackCommand

variable {write : Text.Pathname → List UInt8 → Except PathFault FileTree} {output : Text.Pathname}
  {files : FileTree}

/-- A line with a token that is no word ends the command with status one. -/
theorem perform_of_not_isWordToken (h : ∃ token ∈ Text.words line.toList, ¬IsWordToken token) :
    (perform write output files line).exit = .completed 1 ∧
      (perform write output files line).files = files := by
  cases hwords : wordsOfLine line with
  | ok words =>
    obtain ⟨token, hmem, hbad⟩ := h
    exact absurd (exists_wordsOfLine_iff.1 ⟨words, hwords⟩ token hmem) hbad
  | error error =>
    have hperform : perform write output files line =
        ⟨(concludeLine error).2, (concludeLine error).1, files⟩ := by rw [perform, hwords]
    rw [hperform]
    exact ⟨concludeLine_of_error hwords, rfl⟩

/-- A line of words ends the command with what is left after the dump was written, or with the fault
of writing it. -/
theorem perform_of_isWordToken (houtput : output.render.toList.contains '\x00' = false)
    (h : ∀ token ∈ Text.words line.toList, IsWordToken token) :
    ∃ words, wordsOfLine line = .ok words ∧
      (Word.dump words).length = 2 * (Text.words line.toList).length ∧
      ((∃ written, write output (Word.dump words) = .ok written ∧
          (perform write output files line).exit = .completed 0 ∧
          (perform write output files line).files = written) ∨
        ∃ fault, write output (Word.dump words) = .error fault ∧
          (perform write output files line).exit = .completed 2 ∧
          (perform write output files line).files = files) := by
  obtain ⟨words, hwords⟩ := exists_wordsOfLine_iff.2 h
  have hlength : (Word.dump words).length = 2 * (Text.words line.toList).length := by
    rw [Memory.length_dump, (Result.mapM_eq_ok_iff.1 hwords).length_eq]
  refine ⟨words, hwords, hlength, ?_⟩
  cases hwrite : write output (Word.dump words) with
  | ok written =>
    have hfile : onFile .writeOutput output (write output (Word.dump words)) = .ok written :=
      onFile_eq_ok_iff.2 ⟨houtput, hwrite⟩
    have hperform : perform write output files line = ⟨.completed 0,
        Notice.pieces .info (.wrote words.length output.render), written⟩ := by
      rw [perform, hwords]
      simp only [hfile]
    rw [hperform]
    exact .inl ⟨written, rfl, rfl, rfl⟩
  | error fault =>
    have hfile : onFile .writeOutput output (write output (Word.dump words)) =
        .error (.fileFailure .writeOutput output.render (.path fault)) :=
      onFile_eq_error_iff.2 (.inr ⟨houtput, fault, hwrite, rfl⟩)
    have hperform : perform write output files line =
        .failed (.fileFailure .writeOutput output.render (.path fault)) files := by
      rw [perform, hwords]
      simp only [hfile]
    rw [hperform]
    exact .inr ⟨fault, rfl, rfl, rfl⟩

theorem exit_perform_eq_completed_one_iff
    (houtput : output.render.toList.contains '\x00' = false) :
    (perform write output files line).exit = .completed 1 ↔
      ∃ token ∈ Text.words line.toList, ¬IsWordToken token := by
  constructor
  · intro hexit
    by_contra hnone
    have hwords : ∀ token ∈ Text.words line.toList, IsWordToken token := by
      simpa using hnone
    obtain ⟨_, -, -, ⟨_, -, hzero, -⟩ | ⟨_, -, htwo, -⟩⟩ :=
      @perform_of_isWordToken line write output files houtput hwords
    · cases hexit.symm.trans hzero
    · cases hexit.symm.trans htwo
  · exact fun h => (perform_of_not_isWordToken h).1

/-- What is packed loads back. Every list of words can be written in a line, and a line that spells
words, whatever blanks there are in it and however the numbers are written, is read as these words;
their dump fills a fresh memory with as many of them as there are cells, and zeros after. The
command ends with status one, and leaves the files as they were, exactly if a token of its line is
no number in the range of words. Else the dump, two bytes for each token, is written, whatever comes
of that: the command ends with status zero and leaves the files as they are then, from which the
dump is read if they are a file tree; or writing fails, the files stay as they were, and the status
is two. The path is one that an argument can hold: arguments end where the character NUL would
stand. -/
theorem pack_loads_back (write : Text.Pathname → List UInt8 → Except PathFault FileTree)
    {argv : List String} {files : FileTree} {lines : List String} {arguments : Arguments}
    (harguments : Arguments.parse grammar argv = .ok arguments)
    (hnull : (path arguments).render.toList.contains '\x00' = false) :
    let output := path arguments
    let tokens := Text.words (lines.headD "").toList
    let outcome := packCommandOn write argv files lines
    ((∀ words, ∃ text, SpellsWords text words) ∧
      ∀ text words, SpellsWords text words → wordsOfLine (String.ofList text) = .ok words ∧
        ∃ m : Memory memorySize,
          (Memory.blank memorySize).loadDump (Word.dump words) = .ok (m, min words.length 100) ∧
            m.toList = words.take 100 ++ List.replicate (100 - words.length) .zero) ∧
    (outcome.exit = .completed 1 ↔ ∃ token ∈ tokens, ¬IsWordToken token) ∧
    ((∃ token ∈ tokens, ¬IsWordToken token) → outcome.files = files) ∧
    ((∀ token ∈ tokens, IsWordToken token) →
      ∃ words, wordsOfLine (lines.headD "") = .ok words ∧
        (Word.dump words).length = 2 * tokens.length ∧
        ((∃ written, write output (Word.dump words) = .ok written ∧
            outcome.exit = .completed 0 ∧ outcome.files = written ∧
            (write = files.write →
              written.readFor .readDump output = .ok (Word.dump words))) ∨
          ∃ fault, write output (Word.dump words) = .error fault ∧
            outcome.exit = .completed 2 ∧ outcome.files = files)) := by
  intro output tokens outcome
  have houtcome : outcome =
      (perform write output files (lines.headD "")).after [.out invitation] := by
    simp only [outcome, output, packCommandOn, Grammar.start, harguments]
  rw [houtcome, Outcome.exit_after, Outcome.files_after]
  refine ⟨⟨exists_spellsWords, fun text words h => ⟨h.wordsOfLine_eq, ?_⟩⟩,
    exit_perform_eq_completed_one_iff hnull, fun h => (perform_of_not_isWordToken h).2,
    fun h => ?_⟩
  · exact Memory.loadDump_blank_take memorySize words
  · obtain ⟨words, hwords, hlength, hended⟩ := perform_of_isWordToken hnull h
    refine ⟨words, hwords, hlength, hended.imp_left ?_⟩
    rintro ⟨written, hwrite, hzero, hleft⟩
    refine ⟨written, hwrite, hzero, hleft, ?_⟩
    rintro rfl
    exact onFile_eq_ok_iff.2 ⟨hnull, FileTree.read_of_write hwrite⟩

/-- Two numbers, one of them with zeros after its sign, packed into a new file. -/
theorem pack_loads_back_of_two_numbers :
    let outcome := packCommand ["out.bin"] .empty [" 7\t-008\n"]
    Arguments.parse grammar ["out.bin"] = .ok ⟨some "out.bin", [], [], []⟩ ∧
      outcome.exit = .completed 0 ∧
      outcome.files.readFor .readDump (.ofString "out.bin") = .ok [0x00, 0x07, 0xff, 0xf8] := by
  intro outcome
  have hparse : Arguments.parse grammar ["out.bin"] = .ok ⟨some "out.bin", [], [], []⟩ := by
    decide +kernel
  have hline : wordsOfLine " 7\t-008\n" = .ok [.wrap 7, .wrap (-8)] := by decide +kernel
  have hexit : outcome.exit = .completed 0 := by decide +kernel
  obtain ⟨-, -, -, hpacked⟩ := @pack_loads_back FileTree.empty.write ["out.bin"] .empty
    [" 7\t-008\n"] _ hparse (by decide +kernel)
  obtain ⟨words, hwords, -, ⟨written, -, -, hfiles, hread⟩ | ⟨fault, -, htwo, -⟩⟩ :=
    hpacked (exists_wordsOfLine_iff.1 ⟨_, hline⟩)
  · cases hline.symm.trans hwords
    refine ⟨hparse, hexit, ?_⟩
    rw [show outcome.files = written from hfiles]
    exact hread rfl
  · cases hexit.symm.trans htwo

end PackCommand

end DecimalMachine
