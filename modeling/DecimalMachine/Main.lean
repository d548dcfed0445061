import DecimalMachine.Command.Launch
import DecimalMachine.Command.Pack

/-! # The program

The commands on real files and a real terminal. A first argument `assemble` or `pack` selects one of
the two commands that write dumps; all else is launched. What the commands do is decided by the
definitions they share with `launchCommand`, `assembleCommand` and `packCommand`; here files are
read and written, pieces are printed, and lines are read when the machine asks for them.
-/

namespace DecimalMachine

/-- Prints a piece on its stream. -/
def Piece.print : Piece → IO Unit
  | out text => do
    let stream ← IO.getStdout
    stream.putStr text
    stream.flush
  | err text => do (← IO.getStderr).putStr text

def printPieces (pieces : List Piece) : IO Unit :=
  pieces.forM Piece.print

/-- Prints what a command writes at its end. -/
def finish (closing : List Piece × Exit) : IO Exit := do
  printPieces closing.1
  return closing.2

/-- The status of the program for the end of a command. -/
def Exit.report : Exit → IO UInt32
  | completed status | dismissed status => return UInt32.ofNat status
  | crashed error => do
    printPieces [.err (error.message ++ "\n")]
    return 1
  | unfinished => return 1

/-- The number of an error of the file system, which some actions give with the opposite sign. -/
def faultNumber (code : UInt32) : Nat :=
  if code < 0x80000000 then code.toNat else (-code).toNat

/-- The fault of a path in an error of the file system. -/
def PathFault.ofError : IO.Error → PathFault
  | .noFileOrDirectory .. => .notFound
  | .inappropriateType _ code text | .permissionDenied _ code text
  | .resourceExhausted _ code text | .invalidArgument _ code text | .otherError code text =>
    .ofNumber (faultNumber code) text
  | unknown => .other 5 (toString unknown)

/-- An action of the file system on a path, with the error that a command reports. -/
def attemptOn {α : Type} (action : FileAction) (path : Text.Pathname) (act : IO α) :
    IO (Except Error α) := do
  try
    return onFile action path (.ok (← act))
  catch error => return onFile action path (.error (.ofError error))

def readBytes (action : FileAction) (path : Text.Pathname) : IO (Except Error (List UInt8)) :=
  attemptOn action path do return (← IO.FS.readBinFile path.render).toList

def writeBytes (path : Text.Pathname) (bytes : List UInt8) : IO (Except Error Unit) :=
  attemptOn .writeOutput path (IO.FS.writeBinFile path.render (ByteArray.mk bytes.toArray))

/-- Runs cycle after cycle. A cycle that lacks typed lines is started over with one more; the given
number of its first events has been shown before. -/
partial def runCycles (settings : Settings) (m : Machine) (shown : Nat) : IO Exit := do
  let effect := m.step
  printPieces ((effect.events.drop shown).flatMap settings.pieces)
  match effect.outcome with
  | .ok entry =>
    match entry.progress with
    | .halted => finish (RunCommand.conclude settings effect.machine .halted)
    | .continues =>
      printPieces ((settings.observe effect.machine).flatMap settings.pieces)
      runCycles settings effect.machine 0
  | .error error =>
    let line ← if error = .linesExhausted then (← IO.getStdin).getLine else pure ""
    if line.isEmpty then finish (RunCommand.conclude settings effect.machine (.failed error))
    else
      let input := m.input.typeLines (Text.typedLines line)
      runCycles settings { m with input := input } effect.events.length

def runDump (argv : List String) : IO Exit :=
  match Arguments.parse RunCommand.grammar argv with
  | .error refusal => finish (refusal.conclude RunCommand.grammar)
  | .ok arguments => do
    let asked := RunCommand.request arguments
    printPieces (asked.notices.flatMap (Notice.pieces asked.leastLevel))
    match asked.settings with
    | .error error => finish error.conclude
    | .ok settings =>
      let content ← settings.dump.mapM (readBytes .readDump)
      let loaded := RunCommand.load (RunCommand.machine []) content
      printPieces (loaded.events.flatMap settings.pieces)
      match loaded.outcome with
      | .error error => finish (RunCommand.conclude settings loaded.machine (.failed error))
      | .ok () =>
        printPieces ((settings.observe loaded.machine).flatMap settings.pieces)
        runCycles settings loaded.machine 0

def assembleFile (argv : List String) : IO Exit :=
  match Arguments.parse AssembleCommand.grammar argv with
  | .error refusal => finish (refusal.conclude AssembleCommand.grammar)
  | .ok arguments => do
    let source := AssembleCommand.source arguments
    let content ← readBytes .readSource source
    let assembled : Except Error (Assembly × Text.Pathname) := do
      let assembly ← AssembleCommand.assembleContent source (← content)
      return (assembly, ← (AssembleCommand.output arguments).path)
    match assembled with
    | .error error => finish error.conclude
    | .ok (assembly, output) =>
      match ← writeBytes output assembly.dump with
      | .error error => finish error.conclude
      | .ok () =>
        let notice : Notice := .wrote assembly.words.length output.render
        finish (notice.pieces .info, .completed 0)

def packLine (argv : List String) : IO Exit :=
  match Arguments.parse PackCommand.grammar argv with
  | .error refusal => finish (refusal.conclude PackCommand.grammar)
  | .ok arguments => do
    printPieces [.out PackCommand.invitation]
    let line ← (← IO.getStdin).getLine
    match wordsOfLine ((Text.typedLines line).headD "") with
    | .error error => finish (PackCommand.concludeLine error)
    | .ok words =>
      let output := PackCommand.path arguments
      match ← writeBytes output (Word.dump words) with
      | .error error => finish error.conclude
      | .ok () =>
        let notice : Notice := .wrote words.length output.render
        finish (notice.pieces .info, .completed 0)

def launch (argv : List String) : IO Exit :=
  match Launch.ofArguments argv with
  | .dump => runDump argv
  | .unnamed => finish ([.out Launch.complaint], .completed 2)
  | .source path rest =>
    IO.FS.withTempDir fun scratch => do
      let dump := Launch.dumpPath scratch.toString
      let assembled ← assembleFile [path, "--output", dump]
      if assembled = .completed 0 then runDump ("--ram" :: dump :: rest) else return assembled

end DecimalMachine

open DecimalMachine in
/-- Runs the command that the first argument selects. -/
def main (argv : List String) : IO UInt32 := do
  let exit ←
    match argv with
    | "assemble" :: rest => assembleFile rest
    | "pack" :: rest => packLine rest
    | _ => launch argv
  exit.report
