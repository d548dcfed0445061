import DecimalMachine.Proofs.Assembly.Reading

/-!
# Refused sources

Which error a source is refused with, told without the stages of the assembler. A line that cannot
be read goes before a label that stands twice, this before a program that does not fit into memory,
and this before a statement that encodes nothing; among several of a kind it is the first one that
counts. `assemble_refusal` is the main statement.

## Main definitions

- `Statement.Fault` — why a statement encodes nothing
- `Assembly.Refusal` — the error of a source
-/

namespace DecimalMachine

/-- Only the operands of mnemonics that take an address and of data lines can be wrong. -/
theorem Mnemonic.encode_eq_error_iff {mnemonic : Mnemonic} {value line : Int} {error : Error} :
    mnemonic.encode value line = .error error ↔
      (mnemonic.takesAddress = true ∧ (value < 0 ∨ 99 < value) ∧
        ∃ opcode, mnemonic.opcode? = some opcode ∧
          error = .digitsOutOfRange opcode.digit value) ∨
      (mnemonic = .dat ∧ (value < -999 ∨ 999 < value) ∧ error = .dataOutOfRange value line) := by
  cases mnemonic with
  | hlt => simp [encode, opcode?, channel?, takesAddress]
  | inp | out | otc =>
    simp [encode, opcode?, channel?, takesAddress, Word.ofDigits_eq_error_iff, Opcode.digit,
      Channel.code]
  | dat =>
    simp only [encode, opcode?, takesAddress, Bool.false_eq_true, false_and, false_or, true_and,
      ← Word.ofInt?_eq_none_iff]
    cases Word.ofInt? value <;> simp [eq_comm]
  | _ =>
    have hrange : ¬((0 : Int) ≤ value ∧ value ≤ 99) ↔ value < 0 ∨ 99 < value := by omega
    simp [encode, opcode?, channel?, takesAddress, Word.ofDigits_eq_error_iff, Opcode.digit, hrange]

theorem Mnemonic.encode_ne_error_of_address {mnemonic : Mnemonic} {value line : Int} {error : Error}
    (h : 0 ≤ value ∧ value ≤ 99) : mnemonic.encode value line ≠ .error error := by
  rw [Ne, Mnemonic.encode_eq_error_iff]
  rintro (⟨-, hvalue, -⟩ | ⟨-, hvalue, -⟩) <;> omega

theorem Label.bounds_of_lookup {statements : List Statement} {name : String} {address : Int}
    (hsize : statements.length ≤ 100)
    (h : (Label.addresses (Label.listFrom 0 statements)).lookup name = some address) :
    0 ≤ address ∧ address ≤ 99 := by
  obtain ⟨label, hlabel, -, rfl⟩ := Label.exists_of_lookup_addresses h
  obtain ⟨i, s, hs, -, hposition, -⟩ := Label.mem_listFrom.1 hlabel
  have hi : i < statements.length := (List.getElem?_eq_some_iff.1 hs).1
  omega

namespace Statement

/-- Why a statement among others encodes nothing, whatever its mnemonic does with its operand: the
operand refers to a label that none of them carries, or it is a number where an address is due and
no address. -/
inductive Fault (statements : List Statement) (s : Statement) : Error → Prop
  | unknownLabel {name : String} (htarget : s.target = some (.reference name))
    (hname : ∀ t ∈ statements, t.label ≠ some name) :
    Fault statements s (.labelNotFound name s.line)
  | noAddress {value : Int} {opcode : Opcode} (htarget : s.target = some (.literal value))
    (haddress : s.mnemonic.takesAddress = true) (hopcode : s.mnemonic.opcode? = some opcode)
    (hvalue : value < 0 ∨ 99 < value) :
    Fault statements s (.digitsOutOfRange opcode.digit value)

/-- Among statements that fit into memory, a statement whose literal is in the range of words fails
to encode exactly for the two reasons. -/
theorem encode_eq_error_iff {statements : List Statement} {s : Statement} {error : Error}
    (hsize : statements.length ≤ 100)
    (hliteral : ∀ value, s.target = some (.literal value) → -999 ≤ value ∧ value ≤ 999) :
    s.encode (Label.addresses (Label.listFrom 0 statements)) = .error error ↔
      s.Fault statements error := by
  rw [encode, Result.bind_eq_error_iff, resolve]
  constructor
  · cases htarget : s.target with
    | none =>
      rintro (⟨⟨⟩⟩ | ⟨value, ⟨⟩, herror⟩)
      exact absurd herror (Mnemonic.encode_ne_error_of_address (by decide))
    | some target =>
      cases target with
      | literal number =>
        rintro (⟨⟨⟩⟩ | ⟨value, ⟨⟩, herror⟩)
        rcases Mnemonic.encode_eq_error_iff.1 herror with
          ⟨haddress, hvalue, opcode, hopcode, rfl⟩ | ⟨-, hvalue, -⟩
        · exact .noAddress htarget haddress hopcode hvalue
        · have hbounds := hliteral _ htarget
          omega
      | reference name =>
        cases hlookup : (Label.addresses (Label.listFrom 0 statements)).lookup name with
        | none =>
          simp only [hlookup]
          rintro (⟨⟨⟩⟩ | ⟨value, ⟨⟩, -⟩)
          exact .unknownLabel htarget (Label.lookup_addresses_eq_none_iff.1 hlookup)
        | some address =>
          simp only [hlookup]
          rintro (⟨⟨⟩⟩ | ⟨value, ⟨⟩, herror⟩)
          exact absurd herror
            (Mnemonic.encode_ne_error_of_address (Label.bounds_of_lookup hsize hlookup))
  · intro hfault
    cases hfault with
    | unknownLabel htarget hname =>
      refine .inl ?_
      simp only [htarget, Label.lookup_addresses_eq_none_iff.2 hname]
    | @noAddress value opcode htarget haddress hopcode hvalue =>
      simp only [htarget]
      exact .inr ⟨value, rfl,
        Mnemonic.encode_eq_error_iff.2 (.inl ⟨haddress, hvalue, opcode, hopcode, rfl⟩)⟩

theorem exists_encode_iff {statements : List Statement} {s : Statement}
    (hsize : statements.length ≤ 100)
    (hliteral : ∀ value, s.target = some (.literal value) → -999 ≤ value ∧ value ≤ 999) :
    (∃ w, s.encode (Label.addresses (Label.listFrom 0 statements)) = .ok w) ↔
      ∀ error, ¬s.Fault statements error := by
  have herror (error : Error) :
      s.encode (Label.addresses (Label.listFrom 0 statements)) = .error error ↔
        s.Fault statements error :=
    encode_eq_error_iff hsize hliteral
  cases hencode : s.encode (Label.addresses (Label.listFrom 0 statements)) with
  | error cause =>
    constructor
    · rintro ⟨w, ⟨⟩⟩
    · intro hnone
      exact absurd ((herror cause).1 hencode) (hnone cause)
  | ok w =>
    constructor
    · intro _ error hfault
      cases hencode.symm.trans ((herror error).2 hfault)
    · intro _
      exact ⟨w, rfl⟩

end Statement

/-- The error that a source is refused with. The constructors are in the order in which they count:
each presupposes that nothing is wrong in the sense of those before it. -/
inductive Assembly.Refusal (source : String) : Error → Prop
  /-- The first line that cannot be read. -/
  | line {before rest : List (List Char × Nat)} {text : List Char} {number : Nat} {error : Error}
    (hlines : numberedLines source = before ++ (text, number) :: rest)
    (hbefore : ∀ p ∈ before, ∃ parsed, Line.parse p.1 (p.2 : Int) = .ok parsed)
    (herror : Line.parse text number = .error error) : Assembly.Refusal source error
  /-- The first statement that carries the label of an earlier one. -/
  | repeated {before rest : List Statement} {s t : Statement} {name : String}
    (hsource : Statement.ofSource source = .ok (before ++ s :: rest))
    (hbefore : (before.filterMap Statement.label).Nodup) (ht : t ∈ before)
    (hs : s.label = some name) (hname : t.label = some name) :
    Assembly.Refusal source (.duplicateLabel name s.line t.line)
  /-- More statements than cells. -/
  | tooLarge {statements : List Statement} (hsource : Statement.ofSource source = .ok statements)
    (hlabels : (statements.filterMap Statement.label).Nodup) (hsize : 100 < statements.length) :
    Assembly.Refusal source (.programTooLarge statements.length 100)
  /-- The first statement that encodes nothing. -/
  | fault {statements before rest : List Statement} {s : Statement} {error : Error}
    (hsource : Statement.ofSource source = .ok statements)
    (hlabels : (statements.filterMap Statement.label).Nodup) (hsize : statements.length ≤ 100)
    (hsplit : statements = before ++ s :: rest)
    (hbefore : ∀ t ∈ before, ∀ e, ¬t.Fault statements e) (herror : s.Fault statements error) :
    Assembly.Refusal source error

theorem assemble_eq (source : String) :
    assemble source = (do
      let statements ← Statement.ofSource source
      let labels ← Label.collect statements
      encodeAll statements (Label.addresses labels)) := by
  simp only [assemble, Assembly.ofSource, Assembly.ofStatements, Statement.ofSource]
  cases Line.parseSource source with
  | error error => rfl
  | ok lines =>
    simp only [bind, Except.bind, Functor.map, Except.map]
    cases Label.collect (Line.statements lines) with
    | error error => rfl
    | ok labels =>
      cases hwords : encodeAll (Line.statements lines) (Label.addresses labels) <;>
        simp only [hwords, pure, Except.pure]

theorem Statement.literal_bounds_of_ofSource {source : String} {statements : List Statement}
    {s : Statement} (h : Statement.ofSource source = .ok statements) (hs : s ∈ statements)
    {value : Int} (hvalue : s.target = some (.literal value)) : -999 ≤ value ∧ value ≤ 999 := by
  obtain ⟨text, number, -, -, hparse⟩ := exists_line_of_ofSource h hs
  exact Line.literal_bounds hparse hvalue

/-- The statements of a source fail to encode if they are too many, or else for the first one among
them that is at fault. -/
theorem encodeAll_eq_error_iff {source : String} {statements : List Statement} {error : Error}
    (hsource : Statement.ofSource source = .ok statements) :
    encodeAll statements (Label.addresses (Label.listFrom 0 statements)) = .error error ↔
      (100 < statements.length ∧ error = .programTooLarge statements.length 100) ∨
      (statements.length ≤ 100 ∧ ∃ before s rest, statements = before ++ s :: rest ∧
        (∀ t ∈ before, ∀ e, ¬t.Fault statements e) ∧ s.Fault statements error) := by
  have hliteral {s : Statement} (hs : s ∈ statements) (value : Int)
      (hvalue : s.target = some (.literal value)) : -999 ≤ value ∧ value ≤ 999 :=
    Statement.literal_bounds_of_ofSource hsource hs hvalue
  rw [encodeAll, show memorySize = 100 from rfl]
  by_cases hsize : 100 < statements.length
  · rw [if_pos hsize]
    constructor
    · rintro ⟨⟩
      exact .inl ⟨hsize, rfl⟩
    · rintro (⟨-, rfl⟩ | ⟨hfits, -⟩)
      · rfl
      · omega
  · have hfits : statements.length ≤ 100 := by omega
    rw [if_neg hsize, Result.mapM_eq_error_iff]
    constructor
    · rintro ⟨before, s, rest, hsplit, hbefore, herror⟩
      have hs : s ∈ statements := by simp [hsplit]
      refine .inr ⟨hfits, before, s, rest, hsplit, ?_,
        (Statement.encode_eq_error_iff hfits (hliteral hs)).1 herror⟩
      intro t ht
      have htmem : t ∈ statements := by simp [hsplit, ht]
      exact (Statement.exists_encode_iff hfits (hliteral htmem)).1 (hbefore t ht)
    · rintro (⟨hlarge, -⟩ | ⟨-, before, s, rest, hsplit, hbefore, hfault⟩)
      · omega
      have hs : s ∈ statements := by simp [hsplit]
      refine ⟨before, s, rest, hsplit, ?_,
        (Statement.encode_eq_error_iff hfits (hliteral hs)).2 hfault⟩
      intro t ht
      have htmem : t ∈ statements := by simp [hsplit, ht]
      exact (Statement.exists_encode_iff hfits (hliteral htmem)).2 (hbefore t ht)

theorem assemble_eq_error_iff {source : String} {error : Error} :
    assemble source = .error error ↔ Assembly.Refusal source error := by
  rw [assemble_eq, Result.bind_eq_error_iff, Statement.ofSource_eq_error_iff,
    Line.parseSource_eq_error_iff]
  constructor
  · rintro (⟨before, text, number, rest, hlines, hbefore, herror⟩ | ⟨statements, hsource, hrest⟩)
    · exact .line hlines hbefore herror
    rcases Result.bind_eq_error_iff.1 hrest with hcollect | ⟨labels, hcollect, herror⟩
    · obtain ⟨before, s, rest, t, name, rfl, hbefore, ht, hs, hname, rfl⟩ :=
        Label.collect_eq_error_iff.1 hcollect
      exact .repeated hsource hbefore ht hs hname
    · obtain ⟨rfl, hnodup⟩ := Label.collect_eq_ok_iff.1 hcollect
      rw [Label.names_listFrom] at hnodup
      rcases (encodeAll_eq_error_iff hsource).1 herror with
        ⟨hsize, rfl⟩ | ⟨hsize, before, s, rest, hsplit, hbefore, hfault⟩
      · exact .tooLarge hsource hnodup hsize
      · exact .fault hsource hnodup hsize hsplit hbefore hfault
  · intro hrefusal
    cases hrefusal with
    | @line before rest text number _ hlines hbefore herror =>
      exact .inl ⟨before, text, number, rest, hlines, hbefore, herror⟩
    | @repeated before rest s t name hsource hbefore ht hs hname =>
      refine .inr ⟨_, hsource, Result.bind_eq_error_iff.2 (.inl ?_)⟩
      exact Label.collect_of_repeat hbefore ht hs hname
    | @tooLarge statements hsource hlabels hsize =>
      rw [← Label.names_listFrom 0] at hlabels
      refine .inr ⟨statements, hsource, Result.bind_eq_error_iff.2 (.inr
        ⟨_, Label.collect_of_nodup hlabels, ?_⟩)⟩
      exact (encodeAll_eq_error_iff hsource).2 (.inl ⟨hsize, rfl⟩)
    | @fault statements before rest s _ hsource hlabels hsize hsplit hbefore hfault =>
      rw [← Label.names_listFrom 0] at hlabels
      refine .inr ⟨statements, hsource, Result.bind_eq_error_iff.2 (.inr
        ⟨_, Label.collect_of_nodup hlabels, ?_⟩)⟩
      exact (encodeAll_eq_error_iff hsource).2
        (.inr ⟨hsize, before, s, rest, hsplit, hbefore, hfault⟩)

/-- No source is refused for a data line: the parser sees to literals, and addresses are words. -/
theorem not_refusal_dataOutOfRange {source : String} {value line : Int} :
    ¬Assembly.Refusal source (.dataOutOfRange value line) := by
  intro hrefusal
  cases hrefusal with
  | line hlines hbefore herror =>
    rcases Line.error_of_parse herror with ⟨_, ⟨⟩⟩ | ⟨_, ⟨⟩⟩ | ⟨token, hread⟩
    obtain hnumeral | ⟨_, hdigits⟩ := error_of_readInt hread
    · cases hnumeral
    · cases hdigits
  | fault hsource hlabels hsize hsplit hbefore hfault => cases hfault

/-- Which error a source is refused with, if any. It is refused with an error exactly if this is its
`Assembly.Refusal`, never with the one for data lines; otherwise it yields one word for each
statement. The statements that the refusal speaks of stand on the lines they name, in the order of
these, and a statement whose operand is a label of theirs never fails to encode. -/
theorem assemble_refusal (source : String) :
    (∀ error, assemble source = .error error ↔ Assembly.Refusal source error) ∧
    (∀ value line, ¬Assembly.Refusal source (.dataOutOfRange value line)) ∧
    ((∀ error, ¬Assembly.Refusal source error) →
      ∃ statements words, Statement.ofSource source = .ok statements ∧
        assemble source = .ok words ∧ words.length = statements.length) ∧
    ∀ statements, Statement.ofSource source = .ok statements →
      (statements.Pairwise fun s t => s.line < t.line) ∧
      (∀ s ∈ statements, ∃ text number, (text, number) ∈ numberedLines source ∧
        s.line = number ∧ Line.parse text number = .ok (.statement s)) ∧
      ∀ labels, Label.collect statements = .ok labels → statements.length ≤ 100 →
        ∀ s ∈ statements, ∀ label ∈ labels, s.target = some (.reference label.name) →
          ∃ w, s.encode (Label.addresses labels) = .ok w := by
  refine ⟨fun error => assemble_eq_error_iff, fun value line => not_refusal_dataOutOfRange, ?_, ?_⟩
  · intro hnone
    cases hassemble : assemble source with
    | error error => exact absurd (assemble_eq_error_iff.1 hassemble) (hnone error)
    | ok words =>
      obtain ⟨statements, hsource, -, -, hencodes⟩ := assemble_eq_ok_iff.1 hassemble
      exact ⟨statements, words, hsource, rfl, hencodes.length_eq.symm⟩
  · intro statements hsource
    refine ⟨Statement.pairwise_line_of_ofSource hsource,
      fun s hs => Statement.exists_line_of_ofSource hsource hs, ?_⟩
    intro labels hlabels hsize s hs label hlabel htarget
    obtain ⟨rfl, -⟩ := Label.collect_eq_ok_iff.1 hlabels
    apply (Statement.exists_encode_iff hsize fun value =>
      Statement.literal_bounds_of_ofSource hsource hs).2
    intro error hfault
    cases hfault with
    | unknownLabel hunknown hname =>
      cases htarget.symm.trans hunknown
      obtain ⟨t, ht, htname⟩ := Label.mem_names_listFrom.1 (List.mem_map_of_mem hlabel)
      exact hname t ht htname
    | noAddress hliteral => cases htarget.symm.trans hliteral

-- A label that stands twice counts before an unknown label and a bad address further up.
example : assemble "a HLT\n\nSTA 100\nb LDA nowhere\r\na ADD b" =
    .error (.duplicateLabel "a" 5 1) := by
  decide +kernel

end DecimalMachine
