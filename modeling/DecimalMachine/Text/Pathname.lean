/-! # Path names

A path name is a root, which may be absent, and the names between its slashes. Empty names and
single dots say nothing and are dropped; two dots are kept. A path that starts with exactly two
slashes keeps both, and one that starts with more keeps one. The path with no root and no name is
written as a single dot.
-/

namespace DecimalMachine.Text

/-- A path name in its normal form. -/
structure Pathname where
  /-- The slashes that the path starts with: none, one or two. -/
  root : String
  /-- The names on the way, without empty names and single dots. -/
  names : List String
  deriving DecidableEq, Repr

namespace Pathname

/-- The slashes that remain of those a path starts with. -/
def rootOf (text : List Char) : String :=
  match (text.takeWhile (· == '/')).length with
  | 0 => ""
  | 2 => "//"
  | _ => "/"

/-- The path that a text names. -/
def ofString (text : String) : Pathname where
  root := rootOf text.toList
  names :=
    ((text.toList.splitOn '/').map String.ofList).filter fun name => name != "" && name != "."

def render (path : Pathname) : String :=
  let text := path.root ++ String.intercalate "/" path.names
  if text == "" then "." else text

end Pathname

end DecimalMachine.Text
