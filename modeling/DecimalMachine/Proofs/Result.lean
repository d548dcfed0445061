import Mathlib.Data.List.Forall2

/-!
# Results

A chain of computations that may fail succeeds if all of its links do, and fails with the error of
the first link that does not.
-/

namespace DecimalMachine.Result

variable {ε α β : Type}

theorem bind_eq_ok_iff {x : Except ε α} {f : α → Except ε β} {y : β} :
    x >>= f = .ok y ↔ ∃ a, x = .ok a ∧ f a = .ok y := by
  cases x with
  | error error =>
    constructor
    · rintro ⟨⟩
    · rintro ⟨a, ⟨⟩, _⟩
  | ok a =>
    constructor
    · intro h
      exact ⟨a, rfl, h⟩
    · rintro ⟨_, ⟨⟩, h⟩
      exact h

theorem bind_eq_error_iff {x : Except ε α} {f : α → Except ε β} {e : ε} :
    x >>= f = .error e ↔ x = .error e ∨ ∃ a, x = .ok a ∧ f a = .error e := by
  cases x with
  | error error =>
    constructor
    · rintro ⟨⟩
      exact .inl rfl
    · rintro (⟨⟨⟩⟩ | ⟨a, ⟨⟩, _⟩)
      rfl
  | ok a =>
    constructor
    · intro h
      exact .inr ⟨a, rfl, h⟩
    · rintro (⟨⟨⟩⟩ | ⟨_, ⟨⟩, h⟩)
      exact h

theorem map_eq_ok_iff {x : Except ε α} {f : α → β} {y : β} :
    f <$> x = .ok y ↔ ∃ a, x = .ok a ∧ f a = y := by
  cases x with
  | error error =>
    constructor
    · rintro ⟨⟩
    · rintro ⟨a, ⟨⟩, _⟩
  | ok a =>
    constructor
    · rintro ⟨⟩
      exact ⟨a, rfl, rfl⟩
    · rintro ⟨_, ⟨⟩, rfl⟩
      rfl

theorem map_eq_error_iff {x : Except ε α} {f : α → β} {e : ε} :
    f <$> x = .error e ↔ x = .error e := by
  cases x with
  | error error =>
    constructor
    · rintro ⟨⟩
      rfl
    · rintro ⟨⟩
      rfl
  | ok a =>
    constructor
    · rintro ⟨⟩
    · rintro ⟨⟩

theorem mapError_eq_ok_iff {ε' : Type} {x : Except ε α} {f : ε → ε'} {y : α} :
    x.mapError f = .ok y ↔ x = .ok y := by
  cases x <;> simp [Except.mapError]

theorem mapError_eq_error_iff {ε' : Type} {x : Except ε α} {f : ε → ε'} {e : ε'} :
    x.mapError f = .error e ↔ ∃ error, x = .error error ∧ f error = e := by
  cases x <;> simp [Except.mapError]

/-- A function that may fail succeeds on a list if it does on every element. -/
theorem mapM_eq_ok_iff {f : α → Except ε β} {xs : List α} {ys : List β} :
    xs.mapM f = .ok ys ↔ List.Forall₂ (fun x y => f x = .ok y) xs ys := by
  induction xs generalizing ys with
  | nil =>
    rw [List.mapM_nil, List.forall₂_nil_left_iff]
    constructor
    · rintro ⟨⟩
      rfl
    · rintro rfl
      rfl
  | cons x xs ih =>
    rw [List.mapM_cons, bind_eq_ok_iff]
    constructor
    · rintro ⟨y, hy, hrest⟩
      obtain ⟨rest, hvalues, hys⟩ := bind_eq_ok_iff.1 hrest
      cases hys
      exact .cons hy (ih.1 hvalues)
    · rintro (_ | ⟨hy, hrest⟩)
      exact ⟨_, hy, bind_eq_ok_iff.2 ⟨_, ih.2 hrest, rfl⟩⟩

theorem mapM_eq_ok_map {f : α → Except ε β} {g : α → β} {xs : List α}
    (h : ∀ x ∈ xs, f x = .ok (g x)) : xs.mapM f = .ok (xs.map g) := by
  rw [mapM_eq_ok_iff, List.forall₂_map_right_iff]
  exact List.forall₂_same.2 h

theorem exists_of_mem_mapM {f : α → Except ε β} {xs : List α} {ys : List β} {y : β}
    (h : xs.mapM f = .ok ys) (hy : y ∈ ys) : ∃ x ∈ xs, f x = .ok y := by
  have hvalues := mapM_eq_ok_iff.1 h
  clear h
  induction hvalues with
  | nil => cases hy
  | @cons x z xs zs hx _ ih =>
    rcases List.mem_cons.1 hy with rfl | hy
    · exact ⟨x, List.mem_cons_self, hx⟩
    · obtain ⟨x', hmem, hx'⟩ := ih hy
      exact ⟨x', List.mem_cons_of_mem x hmem, hx'⟩

theorem exists_mapM_eq_ok_iff {f : α → Except ε β} {xs : List α} :
    (∃ ys, xs.mapM f = .ok ys) ↔ ∀ x ∈ xs, ∃ y, f x = .ok y := by
  simp only [mapM_eq_ok_iff]
  induction xs with
  | nil => simp
  | cons x xs ih =>
    rw [List.forall_mem_cons, ← ih]
    constructor
    · rintro ⟨ys, h⟩
      cases h with
      | cons hx hrest => exact ⟨⟨_, hx⟩, _, hrest⟩
    · rintro ⟨⟨y, hx⟩, ys, hrest⟩
      exact ⟨y :: ys, .cons hx hrest⟩

/-- A function that may fail does so on a list with the error of the first element on which it
fails. -/
theorem mapM_eq_error_iff {f : α → Except ε β} {xs : List α} {e : ε} :
    xs.mapM f = .error e ↔
      ∃ before x rest, xs = before ++ x :: rest ∧ (∀ y ∈ before, ∃ b, f y = .ok b) ∧
        f x = .error e := by
  induction xs with
  | nil =>
    rw [List.mapM_nil]
    constructor
    · rintro ⟨⟩
    · rintro ⟨before, x, rest, hsplit, -, -⟩
      cases before <;> cases hsplit
  | cons x xs ih =>
    rw [List.mapM_cons, bind_eq_error_iff]
    constructor
    · rintro (hx | ⟨b, hb, hrest⟩)
      · exact ⟨[], x, xs, rfl, by simp, hx⟩
      · rcases bind_eq_error_iff.1 hrest with hrest | ⟨bs, -, ⟨⟩⟩
        obtain ⟨before, y, rest, rfl, hbefore, hy⟩ := ih.1 hrest
        exact ⟨x :: before, y, rest, rfl, List.forall_mem_cons.2 ⟨⟨b, hb⟩, hbefore⟩, hy⟩
    · rintro ⟨before, y, rest, hsplit, hbefore, hy⟩
      cases before with
      | nil =>
        cases hsplit
        exact .inl hy
      | cons z before =>
        cases hsplit
        obtain ⟨⟨b, hb⟩, hothers⟩ := List.forall_mem_cons.1 hbefore
        exact .inr ⟨b, hb, bind_eq_error_iff.2 (.inl (ih.2 ⟨before, y, rest, rfl, hothers, hy⟩))⟩

/-- The result with another error or another value. -/
def bimap {δ γ : Type} (f : ε → δ) (g : α → γ) : Except ε α → Except δ γ
  | .error error => .error (f error)
  | .ok value => .ok (g value)

section bimap

variable {δ γ η : Type} {f : ε → δ} {g : α → γ} {h : β → η}

theorem bimap_id_right (x : Except ε α) : bimap f id x = x.mapError f := by
  cases x <;> rfl

/-- Computations that correspond after every value that comes first correspond as a whole. -/
theorem bimap_bind {x : Except ε α} {k : α → Except ε β} {m : γ → Except δ η}
    (hk : ∀ a, x = .ok a → m (g a) = bimap f h (k a)) :
    bimap f g x >>= m = bimap f h (x >>= k) := by
  cases x with
  | error error => rfl
  | ok a => exact hk a rfl

theorem bimap_map {x : Except ε α} {k : α → β} {m : γ → η} (hk : ∀ a, m (g a) = h (k a)) :
    m <$> bimap f g x = bimap f h (k <$> x) := by
  cases x with
  | error error => rfl
  | ok a => exact congrArg Except.ok (hk a)

theorem bimap_mapM {xs : List α} {k : α → Except ε β} {m : γ → Except δ η}
    (hk : ∀ a ∈ xs, m (g a) = bimap f h (k a)) :
    (xs.map g).mapM m = bimap f (List.map h) (xs.mapM k) := by
  induction xs with
  | nil => rfl
  | cons a xs ih =>
    obtain ⟨ha, hxs⟩ := List.forall_mem_cons.1 hk
    rw [List.map_cons, List.mapM_cons, List.mapM_cons, ha, ih hxs]
    exact bimap_bind fun b _ => bimap_bind fun bs _ => rfl

end bimap

end DecimalMachine.Result
