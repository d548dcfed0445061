import DecimalMachine.Assembly.Line

/-! # Labels

A label stands for the address of the statement that carries it: the number of statements before
it, lines without one left out. No two statements may carry the same label.
-/

namespace DecimalMachine

/-- A label with its address and the line of the statement that carries it. -/
structure Label where
  name : String
  address : Nat
  line : Int
  deriving DecidableEq, Repr

/-- The addresses of labels by name. -/
abbrev Addresses := List (String × Int)

namespace Label

/-- The labels that statements carry, after the labels before them; the first statement has the
given address. -/
def collectFrom (address : Nat) (known : List Label) : List Statement → Except Error (List Label)
  | [] => .ok known
  | s :: rest =>
    match s.label with
    | none => collectFrom (address + 1) known rest
    | some name =>
      match known.find? fun label => label.name == name with
      | some earlier => .error (.duplicateLabel name s.line earlier.line)
      | none => collectFrom (address + 1) (known ++ [⟨name, address, s.line⟩]) rest

/-- The labels that statements carry, in the order of their definition. -/
def collect (statements : List Statement) : Except Error (List Label) :=
  collectFrom 0 [] statements

def addresses (labels : List Label) : Addresses :=
  labels.map fun label => (label.name, (label.address : Int))

end Label

end DecimalMachine
