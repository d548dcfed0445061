import DecimalMachine.Command.Outcome
import DecimalMachine.Display.State
import DecimalMachine.Machine.Run
import DecimalMachine.Settings

/-! # Running a dump

The command that loads a dump and runs it, with input typed on the terminal. It either shows the
state of the machine before every cycle and the whole output at the end, or only what the machine
puts out, as it comes.
-/

namespace DecimalMachine

namespace RunCommand

def grammar : Grammar where
  program := "littleman"
  usage := "usage: littleman [-h] [--ram RAM] [--output-only] [--version]"
  positional := "ram_legacy"
  positionalRequired := false
  options :=
    [⟨["-h", "--help"], .help, false⟩, ⟨["--ram"], .value, false⟩,
      ⟨["--output-only"], .flag, false⟩, ⟨["--version"], .version, false⟩]

def request (arguments : Arguments) : RunRequest :=
  ⟨arguments.values.lookup "--ram", arguments.positional, arguments.flags.contains "--output-only"⟩

def prompt : String := "INP: Number input: "

/-- The machine before the dump is loaded. -/
def machine (lines : List String) : Machine := .fresh (.typed prompt lines) false

end RunCommand

namespace Settings

/-- The least level of the notices that are shown. -/
def leastLevel (settings : Settings) : Level := .leastShown settings.showsOutput

def pieces (settings : Settings) (event : Event) : List Piece :=
  event.pieces settings.leastLevel settings.showsOutput

/-- What is displayed before a cycle. -/
def observe (settings : Settings) (m : Machine) : List Event :=
  if settings.showsState then [.displayed m.stateText] else []

end Settings

namespace RunCommand

/-- Loads the dump, if there is one and it could be read. -/
def load (m : Machine) : Option (Except Error (List UInt8)) → Effect Unit
  | none => ⟨m, [.noticed .emptyMemory], .ok ()⟩
  | some (.error error) => ⟨m, [], .error error⟩
  | some (.ok bytes) =>
    match m.loadDump bytes with
    | .ok (loaded, cells) => ⟨loaded, [.noticed (.loaded cells)], .ok ()⟩
    | .error error => ⟨m, [], .error error⟩

/-- Loads the dump and runs it for at most a number of cycles. -/
def play (settings : Settings) (content : Option (Except Error (List UInt8)))
    (lines : List String) (limit : Nat) : DecimalMachine.Run :=
  let loaded := load (machine lines) content
  match loaded.outcome with
  | .ok () => loaded.machine.runFrom settings.observe limit loaded.events.toArray
  | .error error => ⟨loaded.machine, loaded.events.toArray, .failed error⟩

/-- What is written at the end of a run, and how the command ends. -/
def conclude (settings : Settings) (m : Machine) : Ending → List Piece × Exit
  | .cutOff => ([], .unfinished)
  | .failed error =>
    let (pieces, exit) := error.conclude
    (if settings.showsOutput && error.isReported then .out "\n" :: pieces else pieces, exit)
  | .halted =>
    let output := if settings.showsState then [.out s!"Output:\n{m.output.text}\n"] else []
    (.out ("\n" ++ Style.bold.apply "Halted!" ++ "\n") :: output, .completed 0)

/-- The outcome of a request, given what comes of reading a path. -/
def perform (read : Text.Pathname → Except PathFault (List UInt8)) (asked : RunRequest)
    (files : FileTree) (lines : List String) (limit : Nat) : Outcome :=
  let outcome : Outcome :=
    match asked.settings with
    | .error error => .failed error files
    | .ok settings =>
      let content := settings.dump.map fun path => onFile .readDump path (read path)
      let run := play settings content lines limit
      let (closing, exit) := conclude settings run.machine run.ending
      ⟨exit, run.events.toList.flatMap settings.pieces ++ closing, files⟩
  outcome.after (asked.notices.flatMap (Notice.pieces asked.leastLevel))

end RunCommand

/-- The command that runs a dump, followed for at most a number of cycles, given what comes of
reading a path. -/
def runCommandOn (read : Text.Pathname → Except PathFault (List UInt8)) (argv : List String)
    (files : FileTree) (lines : List String) (limit : Nat) : Outcome :=
  RunCommand.grammar.start argv files fun arguments =>
    RunCommand.perform read (RunCommand.request arguments) files lines limit

/-- The command that runs a dump from a file tree. -/
def runCommand (argv : List String) (files : FileTree) (lines : List String) (limit : Nat) :
    Outcome :=
  runCommandOn files.read argv files lines limit

end DecimalMachine
