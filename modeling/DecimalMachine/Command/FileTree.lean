import DecimalMachine.Error
import DecimalMachine.Text.Pathname

/-! # File trees

The files that commands work on, each found by the names on the way to it, which starts at the
working directory, at a directory above it or at the root. Paths are followed name by name, two dots
lead one directory up, and every name on the way but the last has to be that of a directory. The
starts themselves are directories; how the working directory itself is called is not known.

`read` and `write` fail with the fault of the path, `readFor` and `writeOutput` with the error that
a command reports for it.
-/

namespace DecimalMachine

/-- What a name in a directory stands for. -/
inductive FileEntry where
  | directory
  | file (content : List UInt8)
  deriving DecidableEq

/-- Where the way to a place starts. -/
inductive Start where
  /-- As many directories above the working directory, which is none above itself. -/
  | above (levels : Nat)
  | root
  deriving DecidableEq

/-- A place among the files: a start and the names on the way from it. -/
structure Place where
  start : Start
  names : List String
  deriving DecidableEq

namespace Place

def working : Place := ⟨.above 0, []⟩

/-- The directory that holds a place; the root holds itself. -/
def parent (place : Place) : Place :=
  match place.names, place.start with
  | [], .above levels => ⟨.above (levels + 1), []⟩
  | [], .root => place
  | names, start => ⟨start, names.dropLast⟩

/-- The place of a name in the directory at a place. -/
def child (place : Place) (name : String) : Place := ⟨place.start, place.names ++ [name]⟩

/-- Whether a place is another one or below it. -/
def isWithin (place outer : Place) : Bool :=
  place.start = outer.start && outer.names.isPrefixOf place.names

/-- Where a path starts. -/
def startOf (path : Text.Pathname) : Place :=
  if path.root.isEmpty then working else ⟨.root, []⟩

/-- The place that a path without two dots names. -/
def ofPathname (path : Text.Pathname) : Place := ⟨(startOf path).start, path.names⟩

end Place

/-- The files: what there is, by its place. -/
structure FileTree where
  entries : List (Place × FileEntry)
  deriving DecidableEq

def maxNameBytes : Nat := 255

def maxPathBytes : Nat := 4095

namespace FileTree

def empty : FileTree := ⟨[]⟩

def find? (tree : FileTree) (place : Place) : Option FileEntry :=
  if place.names.isEmpty then some .directory else tree.entries.lookup place

/-- The tree with an entry at a place, whatever was there. -/
def put (tree : FileTree) (place : Place) (entry : FileEntry) : FileTree :=
  ⟨(place, entry) :: tree.entries.filter fun other => other.1 != place⟩

/-- Entries at other places are found as if the entries at a place were not there. -/
private theorem lookup_filter_ne {place other : Place} (h : other ≠ place)
    (entries : List (Place × FileEntry)) :
    (entries.filter fun entry => entry.1 != place).lookup other = entries.lookup other := by
  induction entries with
  | nil => rfl
  | cons entry rest ih =>
    obtain ⟨found, _⟩ := entry
    by_cases hfound : found = place
    · subst hfound
      simp [List.lookup_cons, beq_false_of_ne h, ih]
    · simp [List.lookup_cons, hfound, ih]

/-- What was put at a place is found there. -/
@[simp] theorem find?_put_self (tree : FileTree) {place : Place} (entry : FileEntry)
    (h : place.names ≠ []) : (tree.put place entry).find? place = some entry := by
  simp [find?, put, h]

/-- What is found at other places stays the same when an entry is put. -/
theorem find?_put_of_ne (tree : FileTree) {place other : Place} (entry : FileEntry)
    (h : other ≠ place) : (tree.put place entry).find? other = tree.find? other := by
  simp [find?, put, List.lookup_cons, beq_false_of_ne h, lookup_filter_ne h]

/-- The tree with a directory at a place unless there is an entry already. -/
def makeDirectory (tree : FileTree) (place : Place) : FileTree :=
  if (tree.find? place).isSome then tree else tree.put place .directory

/-- The tree with an entry at a place, and with directories on the way to it. -/
def add (tree : FileTree) (place : Place) (entry : FileEntry) : FileTree :=
  let onTheWay := (List.range place.names.length).map fun count =>
    (⟨place.start, place.names.take count⟩ : Place)
  (onTheWay.foldl makeDirectory tree).put place entry

/-- The tree without the entries at a place and below it. -/
def remove (tree : FileTree) (place : Place) : FileTree :=
  ⟨tree.entries.filter fun entry => !entry.1.isWithin place⟩

/-- The place that a name in a place leads to; there need not be an entry yet. -/
def enter (tree : FileTree) (place : Place) (name : String) : Except PathFault Place :=
  match tree.find? place with
  | none => .error .notFound
  | some (.file _) => .error .notADirectory
  | some .directory =>
    if name = ".." then .ok place.parent
    else if maxNameBytes < name.utf8ByteSize then .error .nameTooLong
    else .ok (place.child name)

/-- The place that a path leads to. -/
def follow (tree : FileTree) (path : Text.Pathname) : Except PathFault Place :=
  if maxPathBytes < path.render.utf8ByteSize then .error .nameTooLong
  else path.names.foldlM tree.enter (Place.startOf path)

def read (tree : FileTree) (path : Text.Pathname) : Except PathFault (List UInt8) := do
  match tree.find? (← tree.follow path) with
  | none => .error .notFound
  | some .directory => .error .isADirectory
  | some (.file content) => .ok content

/-- The tree with a content in the file at a path, which is made if it is not there. -/
def write (tree : FileTree) (path : Text.Pathname) (content : List UInt8) :
    Except PathFault FileTree := do
  let place ← tree.follow path
  match tree.find? place with
  | some .directory => .error .isADirectory
  | _ => .ok (tree.put place (.file content))

end FileTree

/-- An attempt on the file at a path, with the error that a command reports for its fault. -/
def onFile {α : Type} (action : FileAction) (path : Text.Pathname)
    (attempt : Except PathFault α) : Except Error α :=
  if path.render.toList.contains '\x00' then .error .nullInPath
  else attempt.mapError fun fault => .fileFailure action path.render (.path fault)

namespace FileTree

/-- The content of the file at a path, or the error of the action it was read for. -/
def readFor (tree : FileTree) (action : FileAction) (path : Text.Pathname) :
    Except Error (List UInt8) :=
  onFile action path (tree.read path)

/-- The tree with a content in the file at a path, or the error of a command that writes it. -/
def writeOutput (tree : FileTree) (path : Text.Pathname) (content : List UInt8) :
    Except Error FileTree :=
  onFile .writeOutput path (tree.write path content)

end FileTree

end DecimalMachine
