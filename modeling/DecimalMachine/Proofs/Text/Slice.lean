import Mathlib.Data.List.Basic

/-!
# Slices

A list cut into consecutive slices of one size, told by their places: slice `i` begins at place
`i * size` and is as long as the size, unless the list ends before. So only the last slice may be
shorter, none is empty, and put together they are the list.

## Main definitions

- `slices` — the slices of a list
-/

namespace DecimalMachine.Text

variable {α : Type} {size : Nat} {list slice : List α}

/-- The slices of a list, as many as it takes to come to its end. -/
def slices (size : Nat) (list : List α) : List (List α) :=
  (List.range ((list.length + size - 1) / size)).map fun i => (list.drop (i * size)).take size

theorem slices_nil (size : Nat) : slices size ([] : List α) = [] := by
  have hcount : (0 + size - 1) / size = 0 := by
    rw [Nat.div_eq_zero_iff]
    omega
  rw [slices, List.length_nil, hcount]
  rfl

/-- The first slice of a list that is not empty, and the slices of what is left. -/
theorem slices_eq_cons (hsize : 1 ≤ size) (hne : list ≠ []) :
    slices size list = list.take size :: slices size (list.drop size) := by
  have hlength : 1 ≤ list.length := List.length_pos_iff.2 hne
  have hcount : (list.length + size - 1) / size = (list.length - size + size - 1) / size + 1 := by
    rw [← Nat.add_div_right _ hsize]
    by_cases hlong : size ≤ list.length
    · congr 1
      omega
    · -- The list is its only slice, so the rounded quotient is one.
      rw [Nat.div_eq_of_lt_le (k := 1) (by omega) (by omega),
        Nat.div_eq_of_lt_le (k := 1) (by omega) (by omega)]
  rw [slices, hcount, List.range_succ_eq_map, List.map_cons, List.map_map, slices,
    List.length_drop]
  congr 1
  · simp
  · apply List.map_congr_left
    intro i _
    rw [Function.comp_apply, List.drop_drop, Nat.succ_mul, Nat.add_comm size]

/-- What holds of the empty list, and of every list if it holds of what is left after its first
slice, holds of all lists. -/
theorem slices_induction {P : List α → Prop} (hsize : 1 ≤ size) (nil : P [])
    (cons : ∀ list, list ≠ [] → P (list.drop size) → P list) (list : List α) : P list := by
  induction hlength : list.length using Nat.strongRecOn generalizing list with
  | ind length ih =>
    by_cases hne : list = []
    · rw [hne]
      exact nil
    · have hpos := List.length_pos_iff.2 hne
      exact cons list hne (ih _ (by rw [List.length_drop]; omega) _ rfl)

theorem slices_of_length_le (hne : list ≠ []) (h : list.length ≤ size) :
    slices size list = [list] := by
  have hlength := List.length_pos_iff.2 hne
  rw [slices_eq_cons (by omega) hne, List.take_of_length_le h, List.drop_of_length_le h, slices_nil]

theorem flatten_slices (hsize : 1 ≤ size) (list : List α) : (slices size list).flatten = list := by
  induction list using slices_induction hsize with
  | nil => rw [slices_nil, List.flatten_nil]
  | cons list hne ih => rw [slices_eq_cons hsize hne, List.flatten_cons, ih, List.take_append_drop]

theorem length_le_of_mem_slices (h : slice ∈ slices size list) : slice.length ≤ size := by
  obtain ⟨i, -, rfl⟩ := List.mem_map.1 h
  exact List.length_take_le _ _

theorem mem_of_mem_slices {a : α} (h : slice ∈ slices size list) (ha : a ∈ slice) : a ∈ list := by
  obtain ⟨i, -, rfl⟩ := List.mem_map.1 h
  exact List.mem_of_mem_drop (List.mem_of_mem_take ha)

theorem nil_notMem_slices (hsize : 1 ≤ size) (list : List α) : [] ∉ slices size list := by
  induction list using slices_induction hsize with
  | nil => simp [slices_nil]
  | cons list hne ih =>
    have hfirst : list.take size ≠ [] := by
      rw [Ne, List.take_eq_nil_iff]
      rintro (hzero | hnil)
      · omega
      · exact hne hnil
    rw [slices_eq_cons hsize hne]
    exact List.not_mem_cons_of_ne_of_not_mem hfirst.symm ih

/-- Every slice but the last is full. -/
theorem length_of_mem_dropLast_slices (hsize : 1 ≤ size) (h : slice ∈ (slices size list).dropLast) :
    slice.length = size := by
  induction list using slices_induction hsize with
  | nil => simp [slices_nil] at h
  | cons list hne ih =>
    rw [slices_eq_cons hsize hne] at h
    by_cases hleft : list.drop size = []
    · rw [hleft, slices_nil] at h
      cases h
    · rw [List.dropLast_cons_of_ne_nil (by rw [slices_eq_cons hsize hleft]; simp)] at h
      rcases List.mem_cons.1 h with rfl | h
      · have hlong := mt List.drop_eq_nil_iff.2 hleft
        rw [List.length_take]
        omega
      · exact ih h

section Full

variable {count : Nat} (hsize : 1 ≤ size) (h : list.length = count * size)

include hsize h

/-- A list as long as a number of full slices is cut into that many. -/
theorem slices_eq_map_range :
    slices size list = (List.range count).map fun i => (list.drop (i * size)).take size := by
  have hcount : (count * size + size - 1) / size = count := by
    rw [Nat.add_sub_assoc hsize, Nat.mul_comm, Nat.mul_add_div hsize,
      Nat.div_eq_of_lt (by omega), Nat.add_zero]
  rw [slices, h, hcount]

theorem length_slices_of_dvd : (slices size list).length = count := by
  rw [slices_eq_map_range hsize h, List.length_map, List.length_range]

theorem length_of_mem_slices_of_dvd (hslice : slice ∈ slices size list) : slice.length = size := by
  rw [slices_eq_map_range hsize h] at hslice
  obtain ⟨i, hi, rfl⟩ := List.mem_map.1 hslice
  have hnext : (i + 1) * size ≤ count * size := Nat.mul_le_mul_right size (List.mem_range.1 hi)
  rw [List.length_take, List.length_drop, h]
  rw [Nat.succ_mul] at hnext
  omega

end Full

end DecimalMachine.Text
