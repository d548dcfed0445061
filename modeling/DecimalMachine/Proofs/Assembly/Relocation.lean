import DecimalMachine.Proofs.Assembly.Join

/-!
# Relocation

A source that is assembled behind another one yields its own words again, except that addresses of
its labels grow by the number of words before them. This takes that no label stands in both sources
and that the words of both fit into memory.

## Main definitions

- `Label.moved` — a label whose statement stands behind others
- `Statement.holdsAddress` — whether the address of a label enters the word of a statement
-/

namespace DecimalMachine

namespace Label

/-- The label behind as many more statements and lines. -/
def moved (count : Nat) (distance : Int) (label : Label) : Label :=
  ⟨label.name, label.address + count, label.line + distance⟩

theorem names_append (first second : List Label) :
    names (first ++ second) = names first ++ names second :=
  List.map_append

@[simp]
theorem names_map_moved (count : Nat) (distance : Int) (labels : List Label) :
    names (labels.map (moved count distance)) = names labels := by
  rw [names, List.map_map]
  rfl

theorem listFrom_map_movedDown (address count : Nat) (distance : Int)
    (statements : List Statement) :
    listFrom (address + count) (statements.map (Statement.movedDown distance)) =
      (listFrom address statements).map (moved count distance) := by
  induction statements generalizing address with
  | nil => rfl
  | cons s rest ih =>
    have hnext : address + count + 1 = address + 1 + count := by omega
    rw [List.map_cons, listFrom, listFrom, List.map_append, hnext, ih]
    cases hlabel : s.label with
    | none => simp [Statement.movedDown, hlabel]
    | some name => simp [Statement.movedDown, hlabel, moved]

/-- No name stands twice in the labels of two lists of statements that share none. -/
theorem nodup_names_append {first second : List Statement} {address next : Nat}
    (hfirst : (names (listFrom address first)).Nodup)
    (hsecond : (names (listFrom next second)).Nodup)
    (hdisjoint : ∀ s ∈ first, ∀ t ∈ second, s.label ≠ none → s.label ≠ t.label) :
    (names (listFrom address first ++ listFrom next second)).Nodup := by
  rw [names_append, List.nodup_append]
  refine ⟨hfirst, hsecond, ?_⟩
  intro name hname other hother heq
  subst heq
  obtain ⟨label, hlabel, hlabelName⟩ := List.mem_map.1 hname
  obtain ⟨twin, htwin, htwinName⟩ := List.mem_map.1 hother
  obtain ⟨i, s, hs, hcarries, -⟩ := mem_listFrom.1 hlabel
  obtain ⟨j, t, ht, hcarriesToo, -⟩ := mem_listFrom.1 htwin
  rw [hlabelName] at hcarries
  rw [htwinName] at hcarriesToo
  refine hdisjoint s (List.mem_of_getElem? hs) t (List.mem_of_getElem? ht) ?_ ?_
  · rw [hcarries]
    exact Option.some_ne_none name
  · rw [hcarries, hcarriesToo]

end Label

theorem Target.Denotes.mono {labels more : List Label} {target : Option Target} {value : Int}
    (hsubset : labels ⊆ more) (h : Target.Denotes labels target value) :
    Target.Denotes more target value := by
  cases h with
  | missing => exact .missing
  | literal => exact .literal value
  | reference hmem => exact .reference (hsubset hmem)

namespace Statement

/-- Whether the address of a label enters the word of the statement: it refers to a label, and its
mnemonic makes something of the operand. -/
def holdsAddress (s : Statement) : Bool :=
  match s.target with
  | some (.reference _) => s.mnemonic.takesAddress || s.mnemonic == .dat
  | _ => false

theorem Encodes.mono {labels more : List Label} {s : Statement} {w : Word}
    (hsubset : labels ⊆ more) (h : s.Encodes labels w) : s.Encodes more w := by
  obtain ⟨value, hvalue, hw⟩ := h
  exact ⟨value, hvalue.mono hsubset, hw⟩

theorem Encodes.movedDown {labels : List Label} {s : Statement} {w : Word} (distance : Int)
    (h : s.Encodes labels w) : (s.movedDown distance).Encodes labels w := h

end Statement

/-- A mnemonic that makes something of its operand adds to the word what is added to the operand. -/
theorem Mnemonic.number_add (value count : Int) (mnemonic : Mnemonic) :
    mnemonic.number (value + count) =
      mnemonic.number value + if mnemonic.takesAddress || mnemonic == .dat then count else 0 := by
  cases mnemonic with
  | hlt | inp | out | otc => rfl
  | dat => rfl
  | _ =>
    simp only [number, takesAddress, Bool.true_or, if_true]
    omega

/-- Addresses make words. -/
theorem Mnemonic.exists_word {value : Int} (h : 0 ≤ value ∧ value ≤ 99) (mnemonic : Mnemonic) :
    ∃ w : Word, w.toInt = mnemonic.number value := by
  have hrange : -999 ≤ mnemonic.number value ∧ mnemonic.number value ≤ 999 := by
    cases mnemonic <;> simp only [number] <;> omega
  exact ⟨⟨_, hrange.1, hrange.2⟩, rfl⟩

namespace Statement

/-- Behind other statements, a statement encodes the word it did, grown by their number if it holds
the address of a label. -/
theorem Encodes.moved {labels : List Label} {s : Statement} {w : Word} {count : Nat}
    (distance : Int) (h : s.Encodes labels w)
    (hfits : ∀ label ∈ labels, label.address + count ≤ 99) :
    ∃ grown, s.Encodes (labels.map (Label.moved count distance)) grown ∧
      grown.toInt = w.toInt + if s.holdsAddress then (count : Int) else 0 := by
  obtain ⟨value, hvalue, hw, hrange⟩ := h
  unfold Encodes holdsAddress
  generalize s.target = target at *
  cases hvalue with
  | missing => exact ⟨w, ⟨0, .missing, hw, hrange⟩, (Int.add_zero _).symm⟩
  | literal => exact ⟨w, ⟨value, .literal value, hw, hrange⟩, (Int.add_zero _).symm⟩
  | @reference label hmem =>
    have haddress : (0 : Int) ≤ label.address + count ∧ (label.address : Int) + count ≤ 99 := by
      have hfit := hfits label hmem
      omega
    obtain ⟨grown, hgrown⟩ := s.mnemonic.exists_word haddress
    have hmoved : Target.Denotes (labels.map (Label.moved count distance))
        (some (.reference label.name)) (label.address + count) :=
      .reference (List.mem_map_of_mem hmem)
    refine ⟨grown, ⟨_, hmoved, hgrown, fun _ => haddress⟩, ?_⟩
    rw [hgrown, hw, Mnemonic.number_add]

theorem exists_encodes_moved {labels : List Label} {statements : List Statement}
    {words : List Word} {count : Nat} (distance : Int)
    (h : List.Forall₂ (Encodes labels) statements words)
    (hfits : ∀ label ∈ labels, label.address + count ≤ 99) :
    ∃ grown, List.Forall₂ (Encodes (labels.map (Label.moved count distance)))
        (statements.map (movedDown distance)) grown ∧
      ∀ (i : Nat) (s : Statement) (w : Word), statements[i]? = some s → words[i]? = some w →
        ∃ g : Word, grown[i]? = some g ∧
          g.toInt = w.toInt + if s.holdsAddress then (count : Int) else 0 := by
  induction h with
  | nil =>
    refine ⟨[], .nil, ?_⟩
    rintro i s w ⟨⟩
  | cons hs _ ih =>
    obtain ⟨grown, hgrown, hwords⟩ := ih
    obtain ⟨first, hfirst, hgrowth⟩ := hs.moved distance hfits
    refine ⟨first :: grown, .cons (hfirst.movedDown distance) hgrown, ?_⟩
    intro i s w hi hw
    cases i with
    | zero =>
      cases hi
      cases hw
      exact ⟨first, rfl, hgrowth⟩
    | succ i => exact hwords i s w hi hw

end Statement

/-- A source is relocated behind another one: the words of both with a line feed between them are
the words of the first and then those of the second, where a word that holds the address of a label
is grown by the number of words before. -/
theorem assemble_append_feed {a b : String} {first second : List Statement} {ws vs : List Word}
    (ha : assemble a = .ok ws) (hb : assemble b = .ok vs)
    (hfirst : Statement.ofSource a = .ok first) (hsecond : Statement.ofSource b = .ok second)
    (hdisjoint : ∀ s ∈ first, ∀ t ∈ second, s.label ≠ none → s.label ≠ t.label)
    (hfits : ws.length + vs.length ≤ 100) :
    ∃ grown, assemble (a ++ "\n" ++ b) = .ok (ws ++ grown) ∧ grown.length = vs.length ∧
      second.length = vs.length ∧
      ∀ (i : Nat) (s : Statement) (v : Word), second[i]? = some s → vs[i]? = some v →
        ∃ g : Word, grown[i]? = some g ∧
          g.toInt = v.toInt + if s.holdsAddress then (ws.length : Int) else 0 := by
  obtain ⟨_, hfirst', hnodupFirst, -, hwords⟩ := assemble_eq_ok_iff.1 ha
  obtain ⟨_, hsecond', hnodupSecond, -, hmore⟩ := assemble_eq_ok_iff.1 hb
  cases hfirst.symm.trans hfirst'
  cases hsecond.symm.trans hsecond'
  have hfirstLength : first.length = ws.length := hwords.length_eq
  have hsecondLength : second.length = vs.length := hmore.length_eq
  obtain ⟨distance, hsource⟩ := Statement.ofSource_append_feed hfirst hsecond
  -- The labels of the second source are those it had, behind the words of the first.
  have hlabels : Label.listFrom 0 (first ++ second.map (Statement.movedDown distance)) =
      Label.listFrom 0 first ++
        (Label.listFrom 0 second).map (Label.moved ws.length distance) := by
    rw [Label.listFrom_append, hfirstLength, Label.listFrom_map_movedDown]
  have haddress : ∀ label ∈ Label.listFrom 0 second, label.address + ws.length ≤ 99 := by
    intro label hlabel
    obtain ⟨i, s, hs, -, hposition, -⟩ := Label.mem_listFrom.1 hlabel
    have hi : i < second.length := (List.getElem?_eq_some_iff.1 hs).1
    omega
  obtain ⟨grown, hgrown, hgrowth⟩ := Statement.exists_encodes_moved distance hmore haddress
  have hgrownLength : second.length = grown.length := by
    simpa using hgrown.length_eq
  refine ⟨grown, assemble_eq_ok_iff.2 ⟨_, hsource, ?_, ?_, ?_⟩, by omega, hsecondLength, hgrowth⟩
  · rw [hlabels, Label.names_append, Label.names_map_moved, ← Label.names_append]
    exact Label.nodup_names_append hnodupFirst hnodupSecond hdisjoint
  · rw [List.length_append, List.length_map]
    have hsize : memorySize = 100 := rfl
    omega
  · rw [hlabels]
    exact List.rel_append (hwords.imp fun _ _ h => h.mono (List.subset_append_left _ _))
      (hgrown.imp fun _ _ h => h.mono (List.subset_append_right _ _))

/-- A second half with a label for an operand, one in a data line and one that goes unused, behind a
first half that ends with a carriage return. -/
theorem assemble_append_feed_of_halves :
    let a := "loop LDA cell\n BRA loop // again\r\n\ncell DAT 7\r"
    let b := "// second half\nnext OUT next\n\tADD one\n HLT next\none DAT one\n SUB 5"
    let ws := [502, 600, 7].map Word.wrap
    let vs := [902, 103, 0, 3, 205].map Word.wrap
    let second : List Statement :=
      [⟨2, .out, some "next", some (.reference "next")⟩, ⟨3, .add, none, some (.reference "one")⟩,
        ⟨4, .hlt, none, some (.reference "next")⟩, ⟨5, .dat, some "one", some (.reference "one")⟩,
        ⟨6, .sub, none, some (.literal 5)⟩]
    assemble a = .ok ws ∧ assemble b = .ok vs ∧
      (second.map Statement.holdsAddress = [false, true, false, true, false]) ∧
      ∃ grown, assemble (a ++ "\n" ++ b) = .ok (ws ++ grown) ∧ grown.length = vs.length ∧
        second.length = vs.length ∧
        ∀ (i : Nat) (s : Statement) (v : Word), second[i]? = some s → vs[i]? = some v →
          ∃ g : Word, grown[i]? = some g ∧
            g.toInt = v.toInt + if s.holdsAddress then (ws.length : Int) else 0 := by
  intro a b ws vs second
  have ha : assemble a = .ok ws := by decide +kernel
  have hb : assemble b = .ok vs := by decide +kernel
  have hfirst : Statement.ofSource a =
      .ok [⟨1, .lda, some "loop", some (.reference "cell")⟩,
        ⟨2, .bra, none, some (.reference "loop")⟩, ⟨4, .dat, some "cell", some (.literal 7)⟩] := by
    decide +kernel
  have hsecond : Statement.ofSource b = .ok second := by decide +kernel
  refine ⟨ha, hb, by decide +kernel, ?_⟩
  exact assemble_append_feed ha hb hfirst hsecond (by decide +kernel) (by decide +kernel)

end DecimalMachine
