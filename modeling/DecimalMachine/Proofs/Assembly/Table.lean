import DecimalMachine.Assembly.Label
import Mathlib.Data.List.Induction
import Mathlib.Data.List.Nodup

/-!
# Label tables

The table of a list of statements without the search for duplicates: `Label.listFrom` pairs every
label with its address. Collecting labels succeeds exactly if no name stands twice in this list,
and yields the list; looking a name up then finds its one entry. If a name stands twice, collecting
fails at the first statement that repeats one.
-/

namespace DecimalMachine.Label

/-- The labels that statements carry; the first statement has the given address. -/
def listFrom (address : Nat) : List Statement → List Label
  | [] => []
  | s :: rest =>
    (s.label.map fun name => ⟨name, address, s.line⟩).toList ++ listFrom (address + 1) rest

/-- The names of labels. -/
def names (labels : List Label) : List String := labels.map Label.name

theorem listFrom_append (address : Nat) (first second : List Statement) :
    listFrom address (first ++ second) =
      listFrom address first ++ listFrom (address + first.length) second := by
  induction first generalizing address with
  | nil => rfl
  | cons s rest ih =>
    have haddress : address + (s :: rest).length = address + 1 + rest.length := by
      simp only [List.length_cons]
      omega
    rw [List.cons_append, listFrom, listFrom, ih, haddress, List.append_assoc]

/-- A label is listed with the position of the statement that carries it. -/
theorem mem_listFrom {label : Label} {address : Nat} {statements : List Statement} :
    label ∈ listFrom address statements ↔
      ∃ i s, statements[i]? = some s ∧ s.label = some label.name ∧
        label.address = address + i ∧ label.line = s.line := by
  induction statements generalizing address with
  | nil => simp [listFrom]
  | cons s rest ih =>
    rw [listFrom, List.mem_append, ih]
    constructor
    · rintro (hhere | ⟨i, t, ht, hname, haddress, hline⟩)
      · obtain ⟨name, hname, rfl⟩ := Option.map_eq_some_iff.1 (Option.mem_toList.1 hhere)
        exact ⟨0, s, rfl, hname, rfl, rfl⟩
      · exact ⟨i + 1, t, ht, hname, by omega, hline⟩
    · rintro ⟨i, t, ht, hname, haddress, hline⟩
      cases i with
      | zero =>
        cases ht
        refine .inl (Option.mem_toList.2 (Option.map_eq_some_iff.2 ⟨label.name, hname, ?_⟩))
        obtain ⟨name, labelAddress, line⟩ := label
        simp_all
      | succ i => exact .inr ⟨i, t, ht, hname, by omega, hline⟩

theorem names_listFrom (address : Nat) (statements : List Statement) :
    names (listFrom address statements) = statements.filterMap Statement.label := by
  induction statements generalizing address with
  | nil => rfl
  | cons s rest ih =>
    have hnames : names (listFrom address (s :: rest)) =
        s.label.toList ++ names (listFrom (address + 1) rest) := by
      rw [names, listFrom, List.map_append]
      cases s.label <;> rfl
    rw [hnames, ih]
    cases hlabel : s.label with
    | none => simp [hlabel]
    | some name => simp [hlabel]

theorem mem_names_listFrom {address : Nat} {statements : List Statement} {name : String} :
    name ∈ names (listFrom address statements) ↔ ∃ s ∈ statements, s.label = some name := by
  rw [names_listFrom, List.mem_filterMap]

theorem find?_eq_none_iff {known : List Label} {name : String} :
    (known.find? fun label => label.name == name) = none ↔ name ∉ names known := by
  simp [names, List.find?_eq_none]

/-- If names are not repeated, a label is what is found under its name. -/
theorem find?_of_mem {known : List Label} {label : Label} (hnodup : (names known).Nodup)
    (hmem : label ∈ known) : (known.find? fun other => other.name == label.name) = some label := by
  cases hfind : known.find? fun other => other.name == label.name with
  | none => exact absurd (List.mem_map_of_mem hmem) (find?_eq_none_iff.1 hfind)
  | some found =>
    have hname : found.name = label.name := by
      simpa using List.find?_some hfind
    rw [List.inj_on_of_nodup_map hnodup (List.mem_of_find?_eq_some hfind) hmem hname]

theorem collectFrom_append {address : Nat} {known : List Label} {before rest : List Statement}
    (h : (names (known ++ listFrom address before)).Nodup) :
    collectFrom address known (before ++ rest) =
      collectFrom (address + before.length) (known ++ listFrom address before) rest := by
  induction before generalizing address known with
  | nil => simp [listFrom]
  | cons s before ih =>
    have hnext : address + (s :: before).length = address + 1 + before.length := by
      simp only [List.length_cons]
      omega
    rw [List.cons_append, hnext, collectFrom]
    cases hlabel : s.label with
    | none =>
      have hlist : listFrom address (s :: before) = listFrom (address + 1) before := by
        simp [listFrom, hlabel]
      rw [hlist] at h ⊢
      exact ih h
    | some name =>
      have hlist : known ++ listFrom address (s :: before) =
          (known ++ [⟨name, address, s.line⟩]) ++ listFrom (address + 1) before := by
        simp [listFrom, hlabel]
      have hfresh : name ∉ names known := by
        intro hmem
        rw [hlist, List.append_assoc, names, List.map_append, List.nodup_append] at h
        exact h.2.2 name hmem name (by simp) rfl
      rw [hlist] at h ⊢
      simp only [find?_eq_none_iff.2 hfresh]
      exact ih h

theorem collect_of_nodup {statements : List Statement}
    (h : (names (listFrom 0 statements)).Nodup) :
    collect statements = .ok (listFrom 0 statements) := by
  have hcollect : collectFrom 0 [] (statements ++ []) =
      collectFrom (0 + statements.length) (listFrom 0 statements) [] :=
    collectFrom_append h
  rw [List.append_nil] at hcollect
  exact hcollect

/-- If a name stands twice, there is a first statement that repeats the name of an earlier one. -/
theorem exists_first_repeat {statements : List Statement}
    (h : ¬(statements.filterMap Statement.label).Nodup) :
    ∃ before s rest t name, statements = before ++ s :: rest ∧
      (before.filterMap Statement.label).Nodup ∧ t ∈ before ∧ s.label = some name ∧
      t.label = some name := by
  -- The statements are gone through from the end: the last one either is the first to repeat a
  -- name, or comes after it.
  induction statements using List.reverseRecOn with
  | nil => exact absurd List.nodup_nil h
  | append_singleton statements s ih =>
    by_cases hbefore : (statements.filterMap Statement.label).Nodup
    · cases hlabel : s.label with
      | none =>
        rw [List.filterMap_append] at h
        simp [hlabel, hbefore] at h
      | some name =>
        rw [List.filterMap_append, List.filterMap_cons_some hlabel, List.filterMap_nil] at h
        have hmem : name ∈ statements.filterMap Statement.label := by
          by_contra hfresh
          exact h (List.nodup_append.2 ⟨hbefore, List.nodup_singleton name, by
            rintro _ hother _ hname rfl
            exact hfresh (List.mem_singleton.1 hname ▸ hother)⟩)
        obtain ⟨t, ht, htname⟩ := List.mem_filterMap.1 hmem
        exact ⟨statements, s, [], t, name, rfl, hbefore, ht, hlabel, htname⟩
    · obtain ⟨before, u, rest, t, name, rfl, hrest⟩ := ih hbefore
      exact ⟨before, u, rest ++ [s], t, name, by simp, hrest⟩

/-- Collecting labels stops at a statement that repeats the name of an earlier one, if no name is
repeated before, and reports the lines of both. -/
theorem collect_of_repeat {before rest : List Statement} {s t : Statement} {name : String}
    (hbefore : (before.filterMap Statement.label).Nodup) (ht : t ∈ before)
    (hs : s.label = some name) (htname : t.label = some name) :
    collect (before ++ s :: rest) = .error (.duplicateLabel name s.line t.line) := by
  have hnodup : (names (listFrom 0 before)).Nodup := by
    rw [names_listFrom]
    exact hbefore
  rw [collect, collectFrom_append hnodup, List.nil_append, collectFrom, hs]
  obtain ⟨i, hi⟩ := List.mem_iff_getElem?.1 ht
  have hlabel : (⟨name, 0 + i, t.line⟩ : Label) ∈ listFrom 0 before :=
    mem_listFrom.2 ⟨i, t, hi, htname, rfl, rfl⟩
  simp only [find?_of_mem hnodup hlabel]

/-- The table of statements is the list of their labels, if no name stands twice in it. -/
theorem collect_eq_ok_iff {statements : List Statement} {labels : List Label} :
    collect statements = .ok labels ↔
      labels = listFrom 0 statements ∧ (names (listFrom 0 statements)).Nodup := by
  constructor
  · intro h
    have hnodup : (names (listFrom 0 statements)).Nodup := by
      rw [names_listFrom]
      by_contra hrepeat
      obtain ⟨before, s, rest, t, name, rfl, hbefore, ht, hs, htname⟩ :=
        exists_first_repeat hrepeat
      cases h.symm.trans (collect_of_repeat hbefore ht hs htname)
    cases h.symm.trans (collect_of_nodup hnodup)
    exact ⟨rfl, hnodup⟩
  · rintro ⟨rfl, hnodup⟩
    exact collect_of_nodup hnodup

theorem collect_eq_error_iff {statements : List Statement} {error : Error} :
    collect statements = .error error ↔
      ∃ before s rest t name, statements = before ++ s :: rest ∧
        (before.filterMap Statement.label).Nodup ∧ t ∈ before ∧ s.label = some name ∧
        t.label = some name ∧ error = .duplicateLabel name s.line t.line := by
  constructor
  · intro h
    have hrepeat : ¬(statements.filterMap Statement.label).Nodup := by
      rw [← names_listFrom 0]
      intro hnodup
      cases h.symm.trans (collect_of_nodup hnodup)
    obtain ⟨before, s, rest, t, name, rfl, hbefore, ht, hs, htname⟩ := exists_first_repeat hrepeat
    cases h.symm.trans (collect_of_repeat hbefore ht hs htname)
    exact ⟨before, s, rest, t, name, rfl, hbefore, ht, hs, htname, rfl⟩
  · rintro ⟨before, s, rest, t, name, rfl, hbefore, ht, hs, htname, rfl⟩
    exact collect_of_repeat hbefore ht hs htname

/-- A name is looked up in the table to the address of the label that is found under it. -/
theorem lookup_addresses (labels : List Label) (label : String) :
    (addresses labels).lookup label =
      (labels.find? fun other => other.name == label).map fun other => (other.address : Int) := by
  induction labels with
  | nil => rfl
  | cons first rest ih =>
    rw [addresses, List.map_cons, List.lookup_cons, List.find?_cons, ← addresses, ih]
    by_cases heq : label = first.name
    · simp [heq]
    · simp [beq_false_of_ne heq, beq_false_of_ne (Ne.symm heq)]

theorem lookup_addresses_of_mem {labels : List Label} {label : Label}
    (hnodup : (names labels).Nodup) (hmem : label ∈ labels) :
    (addresses labels).lookup label.name = some (label.address : Int) := by
  rw [lookup_addresses, find?_of_mem hnodup hmem, Option.map_some]

/-- A name that can be looked up in the table is that of a label. -/
theorem exists_of_lookup_addresses {labels : List Label} {name : String} {address : Int}
    (h : (addresses labels).lookup name = some address) :
    ∃ label ∈ labels, label.name = name ∧ (label.address : Int) = address := by
  rw [lookup_addresses, Option.map_eq_some_iff] at h
  obtain ⟨label, hfind, haddress⟩ := h
  have hname : label.name = name := by
    simpa using List.find?_some hfind
  exact ⟨label, List.mem_of_find?_eq_some hfind, hname, haddress⟩

theorem lookup_addresses_eq_none_iff {statements : List Statement} {name : String} :
    (addresses (listFrom 0 statements)).lookup name = none ↔
      ∀ s ∈ statements, s.label ≠ some name := by
  rw [lookup_addresses, Option.map_eq_none_iff, find?_eq_none_iff, mem_names_listFrom]
  simp only [not_exists, not_and, ne_eq]

end DecimalMachine.Label
