/-! # Kinds of operands and signs of operations

What may be offered where a word is wanted comes in eight kinds, and there are eight operations on
pairs of operands. Their texts appear in the messages that refuse them.
-/

namespace DecimalMachine

/-- The kind of an operand. -/
inductive Kind where
  | word
  | int
  | float
  | bool
  | null
  | text
  | list
  | record
  deriving DecidableEq, Repr

/-- What a kind is called in messages. -/
def Kind.name : Kind → String
  | .word => "Value"
  | .int => "int"
  | .float => "float"
  | .bool => "bool"
  | .null => "NoneType"
  | .text => "str"
  | .list => "list"
  | .record => "dict"

/-- An operation on two operands. -/
inductive Sign where
  | plus
  | minus
  | equal
  | unequal
  | less
  | atMost
  | greater
  | atLeast
  deriving DecidableEq, Repr

def Sign.symbol : Sign → String
  | .plus => "+"
  | .minus => "-"
  | .equal => "=="
  | .unequal => "!="
  | .less => "<"
  | .atMost => "<="
  | .greater => ">"
  | .atLeast => ">="

end DecimalMachine
