import DecimalMachine.Assembly.Assemble
import DecimalMachine.Command.Outcome
import DecimalMachine.Settings
import DecimalMachine.Text.LineBreak

/-! # Assembling a file

The command that assembles a source file into a dump. A source is UTF-8 text in which carriage
returns count as line feeds; the dump is written only if all of the source is assembled.
-/

namespace DecimalMachine

namespace AssembleCommand

def grammar : Grammar where
  program := "littleman-asm"
  usage := "usage: littleman-asm [-h] --output OUTPUT [--version] program"
  positional := "program"
  positionalRequired := true
  options :=
    [⟨["-h", "--help"], .help, false⟩, ⟨["--output", "-o"], .value, true⟩,
      ⟨["--version"], .version, false⟩]

def source (arguments : Arguments) : Text.Pathname := .ofString (arguments.positional.getD "")

/-- What the arguments give for the path of the dump. -/
def output (arguments : Arguments) : OptionValue :=
  (arguments.values.lookup "--output").getD .nothing

def sourceText (path : Text.Pathname) (content : List UInt8) : Except Error String :=
  match Text.decodeUtf8 content with
  | .ok text => .ok (String.ofList (Text.unifyBreaks text))
  | .error fault => .error (.fileFailure .readSource path.render (.encoding fault))

def assembleContent (path : Text.Pathname) (content : List UInt8) : Except Error Assembly := do
  Assembly.ofSource (← sourceText path content)

/-- Assembles the file at a path into a dump at another, which is not looked at before the source
is assembled, given what comes of reading a path and of writing to one. -/
def assembleFile (read : Text.Pathname → Except PathFault (List UInt8))
    (write : Text.Pathname → List UInt8 → Except PathFault FileTree) (source : Text.Pathname)
    (output : OptionValue) : Except Error (FileTree × List Notice) := do
  let content ← onFile .readSource source (read source)
  let assembly ← assembleContent source content
  let path ← output.path
  let written ← onFile .writeOutput path (write path assembly.dump)
  return (written, [assembly.notice, .wrote assembly.words.length path.render])

end AssembleCommand

/-- The command that assembles a file, given what comes of reading a path and of writing to one. -/
def assembleCommandOn (read : Text.Pathname → Except PathFault (List UInt8))
    (write : Text.Pathname → List UInt8 → Except PathFault FileTree) (argv : List String)
    (files : FileTree) : Outcome :=
  AssembleCommand.grammar.start argv files fun arguments =>
    let (source, output) := (AssembleCommand.source arguments, AssembleCommand.output arguments)
    match AssembleCommand.assembleFile read write source output with
    | .ok (written, notices) => ⟨.completed 0, notices.flatMap (Notice.pieces .info), written⟩
    | .error error => .failed error files

/-- The command that assembles a file in a file tree. -/
def assembleCommand (argv : List String) (files : FileTree) : Outcome :=
  assembleCommandOn files.read files.write argv files

end DecimalMachine
