import DecimalMachine.Command.Grammar
import DecimalMachine.Console.Notice
import DecimalMachine.Error
import DecimalMachine.Text.Pathname

/-! # Settings

How a dump is run: which file it comes from, and what is shown. The file may be named by option or
by position; the option wins, even if it was given nothing, and the position is discouraged.
-/

namespace DecimalMachine

/-- What was asked for: a dump by option, a dump by position, and whether only output is wanted. -/
structure RunRequest where
  byOption : Option OptionValue
  byPosition : Option String
  outputOnly : Bool
  deriving DecidableEq, Repr

/-- How a dump is run. -/
structure Settings where
  /-- The file of the dump; memory stays empty without one. -/
  dump : Option Text.Pathname
  /-- Whether the state of the machine is shown before every cycle. -/
  showsState : Bool
  /-- Whether output is shown as soon as it is produced. -/
  showsOutput : Bool
  deriving DecidableEq, Repr

/-- The least level of the notices that are shown, beside a state or beside output only. -/
def Level.leastShown (outputOnly : Bool) : Level := if outputOnly then .warning else .debug

/-- The path that an option is given. -/
def OptionValue.path : OptionValue → Except Error Text.Pathname
  | text value => .ok (.ofString value)
  | nothing => .error .noPath

namespace RunRequest

/-- The file of the dump that is asked for, if one is. -/
def dump (request : RunRequest) : Except Error (Option Text.Pathname) :=
  match request.byOption with
  | some value => some <$> value.path
  | none => .ok (request.byPosition.map .ofString)

/-- The settings for a request. -/
def settings (request : RunRequest) : Except Error Settings := do
  return ⟨← request.dump, !request.outputOnly, request.outputOnly⟩

/-- The least level of the notices that are shown. -/
def leastLevel (request : RunRequest) : Level := .leastShown request.outputOnly

/-- What is noticed about a request. -/
def notices (request : RunRequest) : List Notice :=
  match request.byOption, request.byPosition with
  | some _, some _ => [.positionIgnored, .positionDiscouraged]
  | none, some _ => [.optionRecommended]
  | _, none => []

end RunRequest

end DecimalMachine
