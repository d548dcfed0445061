import DecimalMachine.Command.Assemble
import DecimalMachine.Command.Run

/-! # Launching

The command that runs a dump, or assembles a source first if it is given one: the source is
assembled into a dump in a scratch directory, the dump is run with the remaining arguments, and the
scratch directory is removed at the end. The directory that the scratch directory is made in has to
be there.
-/

namespace DecimalMachine

/-- What the arguments ask to be launched. -/
inductive Launch where
  /-- A dump is run with the arguments as they are. -/
  | dump
  /-- A source is assembled and run with the remaining arguments. -/
  | source (path : String) (rest : List String)
  /-- A source is announced but not named. -/
  | unnamed
  deriving DecidableEq, Repr

namespace Launch

/-- The option that announces a source. -/
def option : String := "--asm"

def ofArguments (argv : List String) : Launch :=
  match argv.dropWhile (· != option) with
  | [] => dump
  | [_] => unnamed
  | _ :: path :: rest => source path (argv.takeWhile (· != option) ++ rest)

/-- What is written if a source is announced but not named. -/
def complaint : String := "Error: --asm requires a program path\n"

def dumpPath (scratch : String) : String := scratch ++ "/program.bin"

end Launch

/-- The command that runs a dump or a source, followed for at most a number of cycles. -/
def launchCommand (scratch : String) (argv : List String) (files : FileTree)
    (lines : List String) (limit : Nat) : Outcome :=
  match Launch.ofArguments argv with
  | .dump => runCommand argv files lines limit
  | .unnamed => ⟨.completed 2, [.out Launch.complaint], files⟩
  | .source path rest =>
    let directory := Place.ofPathname (.ofString scratch)
    let dump := Launch.dumpPath scratch
    let prepared := files.makeDirectory directory
    let assembled := assembleCommand [path, "--output", dump] prepared
    let outcome :=
      if assembled.exit = .completed 0 then
        (runCommand ("--ram" :: dump :: rest) assembled.files lines limit).after assembled.pieces
      else assembled
    { outcome with files := outcome.files.remove directory }

end DecimalMachine
