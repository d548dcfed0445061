import DecimalMachine.Proofs.Assembly.Refusal
import Mathlib.Data.Set.Function

/-!
# Other lines and other names

The stages of the assembler see the line of a statement as a number to report and its labels as
names to compare. So statements that stand on other lines, and whose labels have other names, are
assembled to the same words, or refused with the same error on the other lines and with the other
names; the names have to stay apart. `assemble_recast` is the main statement.

## Main definitions

- `Statement.recast`, `Error.recast` — the same on other lines and under other names
- `Statement.Mentions` — a name that a statement carries or refers to
-/

namespace DecimalMachine

/-- The operand under other names of labels. -/
def Target.rename (name : String → String) : Target → Target
  | .literal value => .literal value
  | .reference label => .reference (name label)

/-- The statement on another line and under other names of labels. -/
def Statement.recast (number : Int → Int) (name : String → String) (s : Statement) : Statement :=
  ⟨number s.line, s.mnemonic, s.label.map name, s.target.map (Target.rename name)⟩

def Line.recast (number : Int → Int) (name : String → String) : Line → Line
  | .empty line => .empty (number line)
  | .statement s => .statement (s.recast number name)

def Label.recast (number : Int → Int) (name : String → String) (label : Label) : Label :=
  ⟨name label.name, label.address, number label.line⟩

/-- The error with other lines and other names of labels. -/
def Error.recast (number : Int → Int) (name : String → String) : Error → Error
  | .invalidOpcode token line => .invalidOpcode token (number line)
  | .operandOutOfRange value line => .operandOutOfRange value (number line)
  | .labelNotFound label line => .labelNotFound (name label) (number line)
  | .duplicateLabel label line firstLine =>
    .duplicateLabel (name label) (number line) (number firstLine)
  | .dataOutOfRange value line => .dataOutOfRange value (number line)
  | error => error

/-- A name that a statement carries or refers to. -/
def Statement.Mentions (s : Statement) (name : String) : Prop :=
  s.label = some name ∨ s.target = some (.reference name)

variable (number : Int → Int) {name : String → String}

@[simp]
theorem Target.rename_id (target : Target) : target.rename id = target := by
  cases target <;> rfl

@[simp]
theorem Target.map_rename_id (target : Option Target) : target.map (Target.rename id) = target := by
  cases target with
  | none => rfl
  | some target => exact congrArg some target.rename_id

theorem Line.statements_map_recast (lines : List Line) :
    Line.statements (lines.map (Line.recast number name)) =
      (Line.statements lines).map (Statement.recast number name) := by
  induction lines with
  | nil => rfl
  | cons line rest ih =>
    cases line with
    | empty => exact ih
    | statement s => exact congrArg (s.recast number name :: ·) ih

section Reading

/-- The errors of numerals name no line. -/
theorem Error.recast_of_readInt (name : String → String) {text : String} {error : Error}
    (h : readInt text = .error error) :
    error.recast number name = error := by
  obtain rfl | ⟨digits, rfl⟩ := error_of_readInt h <;> rfl

theorem Target.parse_number (name : String → String) (token : String) (line : Int) :
    Target.parse token (number line) =
      Result.bimap (Error.recast number name) id (Target.parse token line) := by
  unfold Target.parse
  split_ifs
  · cases hread : readInt token with
    | error error => exact congrArg Except.error (Error.recast_of_readInt number name hread).symm
    | ok value =>
      change (if _ then _ else _) = Result.bimap _ _ (if _ then _ else _)
      split_ifs <;> rfl
  · rfl

theorem Target.parseFirst_number (name : String → String) (rest : List String) (line : Int) :
    Target.parseFirst rest (number line) =
      Result.bimap (Error.recast number name) id (Target.parseFirst rest line) := by
  cases rest with
  | nil => rfl
  | cons token more =>
    rw [Target.parseFirst, Target.parse_number number name token line]
    exact Result.bimap_map fun _ => rfl

/-- On another line, the same tokens are the same line or are refused with the same error. -/
theorem Line.ofTokens_number (name : String → String) (line : Int) (words : List String) :
    Line.ofTokens (number line) words =
      Result.bimap (Error.recast number name) (Line.recast number id)
        (Line.ofTokens line words) := by
  rcases Line.exists_splits words with rfl | ⟨token, hlacks⟩ | ⟨label, mnemonic, rest, hsplits⟩
  · rfl
  · rw [hlacks.ofTokens_eq, hlacks.ofTokens_eq]
    rfl
  · rw [hsplits.ofTokens_eq, hsplits.ofTokens_eq, Target.parseFirst_number number name rest line]
    exact Result.bimap_map fun target => by simp [Line.recast, Statement.recast]

end Reading

namespace Label

/-- A label is found under its other name as it was under its own. -/
theorem find?_map_recast {known : List Label} {label : String}
    (hinj : Set.InjOn name {l | l ∈ names known ∨ l = label}) :
    ((known.map (recast number name)).find? fun other => other.name == name label) =
      (known.find? fun other => other.name == label).map (recast number name) := by
  induction known with
  | nil => rfl
  | cons first rest ih =>
    have hrest : Set.InjOn name {l | l ∈ names rest ∨ l = label} := by
      refine hinj.mono fun l hl => ?_
      exact hl.imp_left (List.mem_cons_of_mem _)
    rw [List.map_cons, List.find?_cons, List.find?_cons, ih hrest]
    by_cases heq : first.name = label
    · simp [recast, heq]
    · have hne : name first.name ≠ name label := fun h =>
        heq (hinj (.inl List.mem_cons_self) (.inr rfl) h)
      simp [recast, beq_false_of_ne heq, beq_false_of_ne hne]

theorem collectFrom_map_recast (address : Nat) {known : List Label} {statements : List Statement}
    (hinj : Set.InjOn name {l | l ∈ names known ∨ ∃ s ∈ statements, s.label = some l}) :
    collectFrom address (known.map (recast number name))
        (statements.map (Statement.recast number name)) =
      Result.bimap (Error.recast number name) (List.map (recast number name))
        (collectFrom address known statements) := by
  induction statements generalizing address known with
  | nil => rfl
  | cons s rest ih =>
    rw [List.map_cons, collectFrom, collectFrom]
    cases hlabel : s.label with
    | none =>
      simp only [Statement.recast, hlabel, Option.map_none]
      refine ih (address + 1) (hinj.mono fun l hl => ?_)
      rcases hl with hl | ⟨t, ht, htname⟩
      · exact .inl hl
      · exact .inr ⟨t, List.mem_cons_of_mem s ht, htname⟩
    | some label =>
      have hfind := find?_map_recast number (hinj.mono fun l hl =>
        hl.imp_right fun heq => ⟨s, List.mem_cons_self, heq ▸ hlabel⟩ :
        Set.InjOn name {l | l ∈ names known ∨ l = label})
      simp only [Statement.recast, hlabel, Option.map_some, hfind]
      cases known.find? fun other => other.name == label with
      | some earlier => rfl
      | none =>
        -- The label is now known, as it was among those of the statements before.
        have hnext : Set.InjOn name
            {l | l ∈ names (known ++ [⟨label, address, s.line⟩]) ∨
              ∃ t ∈ rest, t.label = some l} := by
          refine hinj.mono fun l hl => ?_
          rcases hl with hl | ⟨t, ht, htname⟩
          · rw [names, List.map_append, List.mem_append] at hl
            rcases hl with hl | hl
            · exact .inl hl
            · cases List.mem_singleton.1 hl
              exact .inr ⟨s, List.mem_cons_self, hlabel⟩
          · exact .inr ⟨t, List.mem_cons_of_mem s ht, htname⟩
        have hcollect := ih (address + 1) hnext
        rw [List.map_append] at hcollect
        exact hcollect

theorem lookup_addresses_map_recast {labels : List Label} {label : String}
    (hinj : Set.InjOn name {l | l ∈ names labels ∨ l = label}) :
    (addresses (labels.map (recast number name))).lookup (name label) =
      (addresses labels).lookup label := by
  rw [lookup_addresses, lookup_addresses, find?_map_recast number hinj, Option.map_map]
  rfl

end Label

theorem Mnemonic.encode_number (name : String → String) (mnemonic : Mnemonic) (value line : Int) :
    mnemonic.encode value (number line) =
      Result.bimap (Error.recast number name) id (mnemonic.encode value line) := by
  have hdigits (digit lastTwo : Int) : Word.ofDigits digit lastTwo =
      Result.bimap (Error.recast number name) id (Word.ofDigits digit lastTwo) := by
    unfold Word.ofDigits
    cases Word.ofDigits? digit lastTwo <;> rfl
  cases mnemonic with
  | hlt => rfl
  | dat =>
    simp only [encode, opcode?]
    cases Word.ofInt? value <;> rfl
  | inp | out | otc =>
    simp only [encode, opcode?, channel?]
    exact hdigits _ _
  | _ =>
    simp only [encode, opcode?, channel?, takesAddress, if_true]
    exact hdigits _ _

namespace Statement

variable {labels : List Label} {s : Statement} {statements : List Statement}

theorem encode_recast
    (hinj : Set.InjOn name {l | l ∈ Label.names labels ∨ s.target = some (.reference l)}) :
    (s.recast number name).encode (Label.addresses (labels.map (Label.recast number name))) =
      Result.bimap (Error.recast number name) id (s.encode (Label.addresses labels)) := by
  have hresolve : (s.recast number name).resolve
        (Label.addresses (labels.map (Label.recast number name))) =
      Result.bimap (Error.recast number name) id (s.resolve (Label.addresses labels)) := by
    unfold resolve recast
    cases htarget : s.target with
    | none => rfl
    | some target =>
      cases target with
      | literal value => rfl
      | reference label =>
        have hlookup := Label.lookup_addresses_map_recast number (hinj.mono fun l hl =>
          hl.imp_right fun heq => heq ▸ htarget :
          Set.InjOn name {l | l ∈ Label.names labels ∨ l = label})
        simp only [Option.map_some, Target.rename, hlookup]
        cases (Label.addresses labels).lookup label <;> rfl
  rw [encode, encode, hresolve]
  exact Result.bimap_bind fun value _ => Mnemonic.encode_number number name s.mnemonic value s.line

theorem encodeAll_recast (hinj : Set.InjOn name
      {l | l ∈ Label.names labels ∨ ∃ s ∈ statements, s.target = some (.reference l)}) :
    encodeAll (statements.map (recast number name))
        (Label.addresses (labels.map (Label.recast number name))) =
      Result.bimap (Error.recast number name) id
        (encodeAll statements (Label.addresses labels)) := by
  unfold encodeAll
  rw [List.length_map]
  split_ifs
  · rfl
  · have hencode : ∀ s ∈ statements,
        (s.recast number name).encode (Label.addresses (labels.map (Label.recast number name))) =
          Result.bimap (Error.recast number name) id (s.encode (Label.addresses labels)) := by
      intro s hs
      refine encode_recast number (hinj.mono fun l hl => ?_)
      exact hl.imp_right fun htarget => ⟨s, hs, htarget⟩
    rw [← List.map_id_fun]
    exact Result.bimap_mapM hencode

end Statement

/-- If the statements of one source are those of another on other lines and under other names, so
are the words or the error that it is assembled to. -/
theorem assemble_recast {source other : String}
    (hother : Statement.ofSource other =
      Result.bimap (Error.recast number name) (List.map (Statement.recast number name))
        (Statement.ofSource source))
    (hinj : ∀ statements, Statement.ofSource source = .ok statements →
      Set.InjOn name {l | ∃ s ∈ statements, s.Mentions l}) :
    assemble other = (assemble source).mapError (Error.recast number name) := by
  rw [← Result.bimap_id_right, assemble_eq, assemble_eq, hother]
  refine Result.bimap_bind fun statements hstatements => ?_
  have hmentions := hinj statements hstatements
  have hcollect : Label.collect (statements.map (Statement.recast number name)) =
      Result.bimap (Error.recast number name) (List.map (Label.recast number name))
        (Label.collect statements) := by
    have hnames : Set.InjOn name
        {l | l ∈ Label.names [] ∨ ∃ s ∈ statements, s.label = some l} := by
      refine hmentions.mono fun l hl => ?_
      rcases hl with hl | ⟨s, hs, hlabel⟩
      · cases hl
      · exact ⟨s, hs, .inl hlabel⟩
    exact Label.collectFrom_map_recast number 0 hnames
  rw [hcollect]
  refine Result.bimap_bind fun labels hlabels => ?_
  refine Statement.encodeAll_recast number (hmentions.mono fun l hl => ?_)
  rcases hl with hl | ⟨s, hs, htarget⟩
  · -- The names in the table are those that statements carry.
    obtain ⟨rfl, -⟩ := Label.collect_eq_ok_iff.1 hlabels
    obtain ⟨s, hs, hlabel⟩ := Label.mem_names_listFrom.1 hl
    exact ⟨s, hs, .inl hlabel⟩
  · exact ⟨s, hs, .inr htarget⟩

end DecimalMachine
