import DecimalMachine.Error

/-! # Handler tables

A table gives each opcode at most one handler. While it is open, handlers can be added for opcodes
that have none; once it is frozen it stays as it is.
-/

namespace DecimalMachine

/-- Handlers by opcode. -/
structure HandlerTable (α : Type) where
  handlers : List (Opcode × α)
  frozen : Bool

namespace HandlerTable

variable {α : Type}

/-- The open table in which every opcode has its handler. -/
def full (handler : Opcode → α) : HandlerTable α :=
  ⟨Opcode.all.map fun op => (op, handler op), false⟩

/-- The table closed to new handlers. -/
def freeze (table : HandlerTable α) : HandlerTable α :=
  { table with frozen := true }

def find? (table : HandlerTable α) (op : Opcode) : Option α :=
  table.handlers.lookup op

/-- The opcodes that have a handler. -/
def opcodes (table : HandlerTable α) : List Opcode :=
  table.handlers.map (·.1)

/-- The table with a handler for another opcode. -/
def register (table : HandlerTable α) (op : Opcode) (handler : α) :
    Except Error (HandlerTable α) :=
  if table.frozen then .error .tableFrozen
  else if table.opcodes.contains op then .error (.handlerExists op)
  else .ok { table with handlers := table.handlers ++ [(op, handler)] }

/-- The table with a handler for the opcode of another digit. -/
def registerDigit (table : HandlerTable α) (digit : Int) (handler : Opcode → α) :
    Except Error (HandlerTable α) :=
  match Opcode.ofDigit? digit with
  | some op => table.register op (handler op)
  | none => .error (.noSuchOpcode digit)

/-- Every opcode has its handler in the full table. -/
@[simp]
theorem find?_full (handler : Opcode → α) (op : Opcode) :
    (full handler).find? op = some (handler op) := by
  cases op <;> rfl

@[simp]
theorem find?_freeze (table : HandlerTable α) (op : Opcode) :
    table.freeze.find? op = table.find? op := rfl

end HandlerTable

end DecimalMachine
