import DecimalMachine.Machine.Cycle

/-! # Runs

A run is a sequence of cycles up to the one that stops the machine or fails, or up to a limit on
their number. Before each cycle an observer may add events of its own.
-/

namespace DecimalMachine

/-- How a run ends. -/
inductive Ending where
  /-- The last cycle stopped the machine. -/
  | halted
  /-- The last cycle failed. -/
  | failed (error : Error)
  /-- As many cycles were run as were allowed. -/
  | cutOff
  deriving DecidableEq

/-- What a run did: the machine it left, what showed, and how it ended. -/
structure Run where
  machine : Machine
  events : Array Event
  ending : Ending

namespace Machine

/-- Runs at most a number of cycles, after events that showed before. -/
def runFrom (observe : Machine → List Event) : Nat → Machine → Array Event → Run
  | 0, m, shown => ⟨m, shown, .cutOff⟩
  | limit + 1, m, shown =>
    let observed := shown ++ observe m
    let effect := m.step
    let shown := observed ++ effect.events
    match effect.outcome with
    | .error error => ⟨effect.machine, shown, .failed error⟩
    | .ok entry =>
      match entry.progress with
      | .halted => ⟨effect.machine, shown, .halted⟩
      | .continues => runFrom observe limit effect.machine shown

/-- Runs at most a number of cycles. -/
def run (m : Machine) (observe : Machine → List Event) (limit : Nat) : Run :=
  runFrom observe limit m #[]

/-- Runs at most a number of cycles unobserved. -/
def runUnobserved (m : Machine) (limit : Nat) : Run :=
  m.run (fun _ => []) limit

end Machine

end DecimalMachine
