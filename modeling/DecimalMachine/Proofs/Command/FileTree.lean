import DecimalMachine.Command.FileTree
import DecimalMachine.Proofs.Result

/-!
# Reading what was written

A path leads to the same place in every tree that keeps the directories of another one. So a file
is read as before after a directory was made, and what was written to a path is read from it.

## Main definitions

- `FileTree.KeepsDirectories` — a tree has all the directories of another one
-/

namespace DecimalMachine

namespace FileTree

variable {tree later : FileTree} {path : Text.Pathname} {content : List UInt8}

/-- A tree has all the directories of another one. -/
def KeepsDirectories (tree later : FileTree) : Prop :=
  ∀ place, tree.find? place = some .directory → later.find? place = some .directory

theorem KeepsDirectories.enter_eq {place next : Place} {name : String}
    (hkeeps : tree.KeepsDirectories later) (h : tree.enter place name = .ok next) :
    later.enter place name = .ok next := by
  unfold enter at h ⊢
  cases hfound : tree.find? place with
  | none =>
    rw [hfound] at h
    cases h
  | some entry =>
    rw [hfound] at h
    cases entry with
    | file content => cases h
    | directory =>
      rw [hkeeps place hfound]
      exact h

/-- A path leads on to the same place. -/
theorem KeepsDirectories.follow_eq {place : Place} (hkeeps : tree.KeepsDirectories later)
    (h : tree.follow path = .ok place) : later.follow path = .ok place := by
  unfold follow at h ⊢
  split at h
  · cases h
  · next hlength =>
    rw [if_neg hlength]
    generalize Place.startOf path = start at h ⊢
    generalize path.names = names at h
    induction names generalizing start with
    | nil => exact h
    | cons name names ih =>
      obtain ⟨next, hnext, hrest⟩ := Result.bind_eq_ok_iff.1 h
      exact Result.bind_eq_ok_iff.2 ⟨next, hkeeps.enter_eq hnext, ih next hrest⟩

theorem read_eq_ok_iff :
    tree.read path = .ok content ↔
      ∃ place, tree.follow path = .ok place ∧ tree.find? place = some (.file content) := by
  unfold read
  rw [Result.bind_eq_ok_iff]
  constructor
  · rintro ⟨place, hplace, hread⟩
    refine ⟨place, hplace, ?_⟩
    cases hfound : tree.find? place with
    | none =>
      rw [hfound] at hread
      cases hread
    | some entry =>
      rw [hfound] at hread
      cases entry <;> cases hread
      rfl
  · rintro ⟨place, hplace, hfound⟩
    exact ⟨place, hplace, by rw [hfound]⟩

theorem write_eq_ok_iff :
    tree.write path content = .ok later ↔
      ∃ place, tree.follow path = .ok place ∧ tree.find? place ≠ some .directory ∧
        tree.put place (.file content) = later := by
  unfold write
  rw [Result.bind_eq_ok_iff]
  constructor
  · rintro ⟨place, hplace, hwrite⟩
    refine ⟨place, hplace, ?_⟩
    split at hwrite
    · cases hwrite
    · next hfound =>
      cases hwrite
      exact ⟨hfound, rfl⟩
  · rintro ⟨place, hplace, hfound, rfl⟩
    refine ⟨place, hplace, ?_⟩
    split
    · next hdirectory => exact absurd hdirectory hfound
    · rfl

/-- What was written to a path is read from it. -/
theorem read_of_write (h : tree.write path content = .ok later) :
    later.read path = .ok content := by
  obtain ⟨place, hplace, hfound, rfl⟩ := write_eq_ok_iff.1 h
  have hkeeps : tree.KeepsDirectories (tree.put place (.file content)) := by
    intro other hother
    -- No directory is overwritten, so the entry is put elsewhere.
    have hne : other ≠ place := by
      rintro rfl
      exact hfound hother
    rw [find?_put_of_ne tree _ hne, hother]
  have hnames : place.names ≠ [] := by
    intro hnone
    simp [find?, hnone] at hfound
  exact read_eq_ok_iff.2 ⟨place, hkeeps.follow_eq hplace, find?_put_self tree _ hnames⟩

/-- Making a directory leaves what there is. -/
theorem find?_makeDirectory {place other : Place} {entry : FileEntry}
    (h : tree.find? other = some entry) : (tree.makeDirectory place).find? other = some entry := by
  unfold makeDirectory
  split
  · exact h
  · next hfree =>
    have hne : other ≠ place := by
      rintro rfl
      rw [h] at hfree
      exact hfree rfl
    rw [find?_put_of_ne tree _ hne, h]

theorem read_makeDirectory (place : Place) (h : tree.read path = .ok content) :
    (tree.makeDirectory place).read path = .ok content := by
  obtain ⟨found, hfollow, hfound⟩ := read_eq_ok_iff.1 h
  have hkeeps : tree.KeepsDirectories (tree.makeDirectory place) := fun _ => find?_makeDirectory
  exact read_eq_ok_iff.2 ⟨found, hkeeps.follow_eq hfollow, find?_makeDirectory hfound⟩

end FileTree

/-! ## Attempts that a command reports on -/

theorem onFile_eq_ok_iff {α : Type} {action : FileAction} {path : Text.Pathname}
    {attempt : Except PathFault α} {value : α} :
    onFile action path attempt = .ok value ↔
      path.render.toList.contains '\x00' = false ∧ attempt = .ok value := by
  unfold onFile
  cases path.render.toList.contains '\x00' <;> cases attempt <;> simp [Except.mapError]

/-- An attempt fails for its path, which is not even tried, or for what comes of it. -/
theorem onFile_eq_error_iff {α : Type} {action : FileAction} {path : Text.Pathname}
    {attempt : Except PathFault α} {error : Error} :
    onFile action path attempt = .error error ↔
      path.render.toList.contains '\x00' = true ∧ error = .nullInPath ∨
      path.render.toList.contains '\x00' = false ∧ ∃ fault, attempt = .error fault ∧
        error = .fileFailure action path.render (.path fault) := by
  unfold onFile
  cases path.render.toList.contains '\x00' <;> cases attempt <;>
    simp [Except.mapError, eq_comm]

namespace FileTree

variable {tree later : FileTree} {path : Text.Pathname} {content : List UInt8}

theorem readFor_of_writeOutput (action : FileAction)
    (h : tree.writeOutput path content = .ok later) : later.readFor action path = .ok content := by
  obtain ⟨hpath, hwrite⟩ := onFile_eq_ok_iff.1 h
  exact onFile_eq_ok_iff.2 ⟨hpath, read_of_write hwrite⟩

theorem readFor_makeDirectory {action : FileAction} (place : Place)
    (h : tree.readFor action path = .ok content) :
    (tree.makeDirectory place).readFor action path = .ok content := by
  obtain ⟨hpath, hread⟩ := onFile_eq_ok_iff.1 h
  exact onFile_eq_ok_iff.2 ⟨hpath, read_makeDirectory place hread⟩

end FileTree

end DecimalMachine
