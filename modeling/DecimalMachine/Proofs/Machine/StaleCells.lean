import DecimalMachine.Proofs.Cycle.Agreement
import DecimalMachine.Proofs.Machine.Footprint
import Mathlib.Order.BooleanAlgebra.Set

/-!
# Stale cells

What a program never looks at cannot influence it. Two machines are alike but for the words in a set
of stale cells. As long as no cycle of the first fetches from a stale cell or computes with one, the
second goes through the same cycles; and a cell that a cycle stores to holds the same word in both
from then on, so the set of stale cells only shrinks.

## Main definitions

- `Machine.AgreesOff` — two machines that differ in a set of cells at most
- `Machine.stored` — the cells that a number of cycles store to
- `Machine.Spares` — a number of cycles look at no cell of a set before they have stored to it
-/

namespace DecimalMachine.Machine

/-- Two machines that differ in the words of some cells at most. Whether they keep a trace may
differ, too; their traces are compared only if it does not. -/
structure AgreesOff (stale : Set Int) (m m' : Machine) : Prop extends m.Agrees m' where
  input : m'.input = m.input
  output : m'.output = m.output
  trace : m'.recordTrace = m.recordTrace → m'.trace = m.trace
  memory : ∀ address ∉ stale, m'.memory.get? address = m.memory.get? address

/-- The cells that the first `n` cycles store to. -/
def stored (m : Machine) (n : Nat) : Set Int :=
  {address | ∃ i < n, (m.cycled i).next? = some (.store address)}

/-- None of the first `n` cycles looks at a cell of a set that no earlier one has stored to. -/
def Spares (m : Machine) (n : Nat) (stale : Set Int) : Prop :=
  ∀ i < n, ∀ address ∈ stale, (m.cycled i).Reads address → address ∈ m.stored i

variable {m m' : Machine} {stale : Set Int}

theorem stored_succ (m : Machine) (n : Nat) :
    m.stored (n + 1) = m.stored n ∪ {address | (m.cycled n).next? = some (.store address)} := by
  ext address
  constructor
  · rintro ⟨i, hi, hstore⟩
    rcases Nat.lt_succ_iff_lt_or_eq.1 hi with hlt | rfl
    · exact .inl ⟨i, hlt, hstore⟩
    · exact .inr hstore
  · rintro (⟨i, hi, hstore⟩ | hstore)
    · exact ⟨i, by omega, hstore⟩
    · exact ⟨n, by omega, hstore⟩

/-- A cycle that reads no stale cell does the same on both machines, and the cell that it stores to
is stale no longer. -/
theorem AgreesOff.step (h : m.AgreesOff stale m')
    (hspares : ∀ address ∈ stale, ¬m.Reads address) :
    m'.step.outcome = m.step.outcome ∧
      m.step.machine.AgreesOff (stale \ {address | m.next? = some (.store address)})
        m'.step.machine := by
  have hcells : ∀ address, m.Reads address → m'.memory.get? address = m.memory.get? address :=
    fun address hreads => h.memory address fun hstale => hspares address hstale hreads
  have hnext : m'.next? = m.next? := h.toAgrees.next? hcells
  obtain ⟨houtcome, hagrees⟩ := h.toAgrees.step hcells fun _ => by rw [h.input]
  refine ⟨houtcome, hagrees, ?_, ?_, ?_, ?_⟩
  · rw [input_step, input_step, hnext, h.input]
  · rw [output_step, output_step, hnext, h.registers, h.output]
  · intro hrecord
    rw [recordTrace_step, recordTrace_step] at hrecord
    rw [trace_step, trace_step, houtcome, hrecord, h.trace hrecord]
  · intro address haddress
    rw [get?_step, get?_step, hnext, h.registers]
    by_cases hstore : m.next? = some (.store address)
    · rw [if_pos hstore, if_pos hstore]
    · rw [if_neg hstore, if_neg hstore]
      exact h.memory address fun hstale => haddress ⟨hstale, hstore⟩

/-- Stale cells do not influence a program that does not read them. Of two machines that differ in
stale cells at most, let the first look at none of them in `n` cycles before it has stored to it.
Then each of these cycles ends alike on both machines, with the same record or the same error, and
afterwards the machines differ at most in the stale cells that were not stored to. -/
theorem cycled_agreesOff {n : Nat} (h : m.AgreesOff stale m') (hspares : m.Spares n stale) :
    (∀ i < n, (m'.cycled i).step.outcome = (m.cycled i).step.outcome) ∧
      (m.cycled n).AgreesOff (stale \ m.stored n) (m'.cycled n) := by
  induction n with
  | zero =>
    refine ⟨fun i hi => absurd hi (Nat.not_lt_zero i), ?_⟩
    have hnone : m.stored 0 = ∅ := by
      ext address
      simp [stored]
    rw [hnone, Set.sdiff_empty]
    exact h
  | succ n ih =>
    obtain ⟨houtcomes, hlater⟩ := ih fun i hi => hspares i (by omega)
    obtain ⟨houtcome, hnext⟩ := hlater.step fun address haddress hreads =>
      haddress.2 (hspares n (by omega) address haddress.1 hreads)
    have hshrinks : stale \ m.stored (n + 1) =
        (stale \ m.stored n) \ {address | (m.cycled n).next? = some (.store address)} := by
      rw [stored_succ]
      exact sdiff_sdiff_left.symm
    rw [hshrinks]
    exact ⟨Nat.forall_lt_succ_right.2 ⟨houtcomes, houtcome⟩, hnext⟩

/-- A program that stores its input and loads it again does so as well where words of an earlier
program lie in this cell and behind it. -/
theorem cycled_agreesOff_after_dump :
    let words := [901, 305, 505, 902, 0].map Word.wrap
    let m := ({ fresh (.queue [.wrap 7]) true with
      memory := (Memory.blank memorySize).overwrite 0 words } : Machine)
    let m' := ({ m with
      memory := ((Memory.blank memorySize).overwrite 5 [.wrap 600, .wrap (-8)]).overwrite 0
        words } : Machine)
    m.AgreesOff {5, 6} m' ∧ m.Spares 5 {5, 6} ∧
      (∀ i < 5, (m'.cycled i).step.outcome = (m.cycled i).step.outcome) ∧
      (m'.cycled 5).output.text = "7" ∧ (m'.cycled 5).memory.get? 5 = some (.wrap 7) ∧
      (m'.cycled 5).memory.get? 6 = some (.wrap (-8)) := by
  intro words m m'
  have hagrees : m.AgreesOff {5, 6} m' := by
    refine ⟨⟨rfl, rfl, rfl⟩, rfl, rfl, fun _ => rfl, fun address haddress => ?_⟩
    obtain ⟨hfive, hsix⟩ : address ≠ 5 ∧ address ≠ 6 := by simpa using haddress
    by_cases hcell : 0 ≤ address ∧ address < memorySize
    · have hall : ∀ i : Fin memorySize, (i : Nat) ≠ 5 → (i : Nat) ≠ 6 →
          m'.memory.get? (i : Nat) = m.memory.get? (i : Nat) := by decide +kernel
      have hword := hall ⟨address.toNat, by omega⟩ (by simp; omega) (by simp; omega)
      simpa [Int.toNat_of_nonneg hcell.1] using hword
    · rw [Memory.get?_eq_none_iff.2 (by omega), Memory.get?_eq_none_iff.2 (by omega)]
  have hspares : m.Spares 5 {5, 6} := by
    intro i hi address haddress hreads
    -- Only the load in the third cycle looks at one of the two cells.
    have hloads : ∀ i < 5, ((m.cycled i).Reads 5 → i = 2) ∧ ¬(m.cycled i).Reads 6 := by
      decide +kernel
    rcases haddress with rfl | rfl
    · obtain rfl := (hloads i hi).1 hreads
      exact ⟨1, by decide, by decide +kernel⟩
    · exact absurd hreads (hloads i hi).2
  obtain ⟨houtcomes, hlater⟩ := cycled_agreesOff hagrees hspares
  have hstored : (5 : Int) ∈ m.stored 5 := ⟨1, by decide, by decide +kernel⟩
  refine ⟨hagrees, hspares, houtcomes, ?_, ?_, by decide +kernel⟩
  · rw [hlater.output]
    decide +kernel
  · rw [hlater.memory 5 fun hstale => hstale.2 hstored]
    decide +kernel

end DecimalMachine.Machine
