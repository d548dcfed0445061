import DecimalMachine.Proofs.Command.Arguments
import DecimalMachine.Proofs.Machine.Observation
import DecimalMachine.Proofs.Memory.Dump

/-!
# Outcomes of runs

The command that runs a dump shows the state before every cycle and the whole output at the end, or
it shows the output alone as it comes. Either way the dump is loaded and run the same, so that the
outcome tells of the run without any states.

## Main definitions

- `Ending.exit` — how the command ends whose run ends so
- `RunCommand.outcome` — what a run comes to under settings
- `RunCommand.Tells` — what an outcome tells of a run
-/

namespace DecimalMachine

/-- How a command ends whose run ends so. -/
def Ending.exit : Ending → Exit
  | halted => .completed 0
  | failed error => error.conclude.2
  | cutOff => .unfinished

/-- The text of an event on the stream for output, if emissions are shown. -/
def Event.streamed? : Event → Option String
  | prompted text | emitted text => some text
  | displayed text => some (text ++ "\n")
  | _ => none

theorem Outcome.after_nil (outcome : Outcome) : outcome.after [] = outcome := rfl

namespace RunCommand

/-- The settings for a dump at a path. -/
def settingsFor (path : Text.Pathname) (outputOnly : Bool) : Settings :=
  ⟨some path, !outputOnly, outputOnly⟩

/-- What a run comes to under settings. -/
def outcome (settings : Settings) (files : FileTree) (run : Run) : Outcome :=
  ⟨run.ending.exit, run.events.toList.flatMap settings.pieces ++
    (conclude settings run.machine run.ending).1, files⟩

/-- What is written at the end on the stream for output, if output was shown as it came. -/
def closing : Ending → String
  | .halted => "\n" ++ Style.bold.apply "Halted!" ++ "\n"
  | .failed error => if error.isReported then "\n" else ""
  | .cutOff => ""

/-- An outcome tells of a run: it ends as the run does, and all that was put out is on the stream
for output, as it came if only output is asked for, and else at the end if the machine halts. -/
structure Tells (outputOnly : Bool) (outcome : Outcome) (run : Run) : Prop where
  exit_eq : outcome.exit = run.ending.exit
  text_eq : String.join (emissionsOf run.events.toList) = run.machine.output.text
  stdout_eq : outputOnly = true → outcome.stdout =
    String.join (run.events.toList.filterMap Event.streamed?) ++ closing run.ending
  stdout_of_halted : outputOnly = false → run.ending = .halted →
    ∃ before, outcome.stdout = before ++ ("Output:\n" ++ run.machine.output.text ++ "\n")

section Outcome

variable {path : Text.Pathname} {outputOnly : Bool} {files : FileTree} {run told : Run}

theorem conclude_snd (settings : Settings) (m : Machine) (ending : Ending) :
    (conclude settings m ending).2 = ending.exit := by
  cases ending <;> rfl

@[simp]
theorem exit_outcome (settings : Settings) (files : FileTree) (run : Run) :
    (outcome settings files run).exit = run.ending.exit := rfl

/-- Notices show on the stream for messages. -/
theorem out?_notices (least : Level) (notices : List Notice) :
    (notices.flatMap (Notice.pieces least)).filterMap Piece.out? = [] := by
  induction notices with
  | nil => rfl
  | cons notice notices ih =>
    rw [List.flatMap_cons, List.filterMap_append, ih, Notice.pieces]
    split <;> rfl

theorem out?_pieces (least : Level) (event : Event) :
    (event.pieces least true).filterMap Piece.out? = event.streamed?.toList := by
  cases event with
  | noticed notice =>
    have hnone := out?_notices least [notice]
    rwa [List.flatMap_singleton] at hnone
  | _ => rfl

theorem stdout_outcome_of_outputOnly (path : Text.Pathname) (files : FileTree) (run : Run) :
    (outcome (settingsFor path true) files run).stdout =
      String.join (run.events.toList.filterMap Event.streamed?) ++ closing run.ending := by
  have hevents : (run.events.toList.flatMap (settingsFor path true).pieces).filterMap Piece.out? =
      run.events.toList.filterMap Event.streamed? := by
    rw [List.filterMap_flatMap, List.filterMap_eq_flatMap_toList]
    exact List.flatMap_congr fun event _ => out?_pieces _ event
  have hclosing : String.join ((conclude (settingsFor path true) run.machine
      run.ending).1.filterMap Piece.out?) = closing run.ending := by
    cases run.ending with
    | halted | cutOff => rfl
    | failed error =>
      simp only [conclude, closing, Error.conclude, settingsFor, Bool.true_and]
      split <;> rfl
  simp only [Outcome.stdout, outcome, List.filterMap_append, String.join_append, hevents, hclosing]

theorem exists_stdout_outcome_of_halted (hending : run.ending = .halted) :
    ∃ before, (outcome (settingsFor path false) files run).stdout =
      before ++ ("Output:\n" ++ run.machine.output.text ++ "\n") := by
  refine ⟨String.join ((run.events.toList.flatMap (settingsFor path false).pieces).filterMap
    Piece.out?) ++ ("\n" ++ Style.bold.apply "Halted!" ++ "\n"), ?_⟩
  simp only [Outcome.stdout, outcome, hending, conclude, settingsFor, List.filterMap_append,
    String.join_append, Bool.not_false, if_true]
  simp [Piece.out?, String.append_assoc, toString]

/-- The outcome of a run tells of every run that leaves the same machine and ends the same, and in
which the same is streamed if only output is asked for. -/
theorem tells_outcome (hmachine : run.machine = told.machine) (hending : run.ending = told.ending)
    (htext : String.join (emissionsOf told.events.toList) = told.machine.output.text)
    (hevents : outputOnly = true → run.events.toList.filterMap Event.streamed? =
      told.events.toList.filterMap Event.streamed?) :
    Tells outputOnly (outcome (settingsFor path outputOnly) files run) told where
  exit_eq := congrArg Ending.exit hending
  text_eq := htext
  stdout_eq := by
    rintro rfl
    rw [stdout_outcome_of_outputOnly, hevents rfl, hending]
  stdout_of_halted := by
    rintro rfl hhalted
    rw [← hmachine]
    exact exists_stdout_outcome_of_halted (hending.trans hhalted)

/-- An outcome tells what another one tells that ends the same and has the same on the stream for
output. -/
theorem Tells.congr {outcome outcome' : Outcome} (h : Tells outputOnly outcome run)
    (hexit : outcome'.exit = outcome.exit) (hstdout : outcome'.stdout = outcome.stdout) :
    Tells outputOnly outcome' run where
  exit_eq := hexit.trans h.exit_eq
  text_eq := h.text_eq
  stdout_eq := hstdout ▸ h.stdout_eq
  stdout_of_halted := hstdout ▸ h.stdout_of_halted

theorem stdout_after (outcome : Outcome) {pieces : List Piece}
    (hpieces : pieces.filterMap Piece.out? = []) :
    (outcome.after pieces).stdout = outcome.stdout := by
  rw [Outcome.stdout, Outcome.stdout, Outcome.after, List.filterMap_append, hpieces,
    List.nil_append]

/-- An outcome tells the same after notices. -/
theorem Tells.after {outcome : Outcome} (h : Tells outputOnly outcome run) {pieces : List Piece}
    (hpieces : pieces.filterMap Piece.out? = []) : Tells outputOnly (outcome.after pieces) run :=
  h.congr rfl (stdout_after outcome hpieces)

end Outcome

section Play

variable {settings : Settings} {bytes : List UInt8} {lines : List String} {m : Machine}
  {cells : Nat}

theorem play_of_loadDump_error {error : Error}
    (h : (machine lines).loadDump bytes = .error error) (limit : Nat) :
    play settings (some (.ok bytes)) lines limit = ⟨machine lines, #[], .failed error⟩ := by
  simp only [play, load, h]

theorem play_of_loadDump (h : (machine lines).loadDump bytes = .ok (m, cells)) (limit : Nat) :
    play settings (some (.ok bytes)) lines limit =
      m.runFrom settings.observe limit #[.noticed (.loaded cells)] := by
  simp only [play, load, h]

theorem output_of_loadDump (h : (machine lines).loadDump bytes = .ok (m, cells)) :
    m.output = .empty := by
  obtain ⟨memory, -, ⟨⟩⟩ := Result.bind_eq_ok_iff.1 h
  rfl

theorem emissionsOf_observe (settings : Settings) (m : Machine) :
    emissionsOf (settings.observe m) = [] := by
  unfold Settings.observe
  split <;> rfl

/-- What shows is of no account for the run. -/
theorem play_congr (settings settings' : Settings) (content : Except Error (List UInt8))
    (lines : List String) (limit : Nat) :
    (play settings (some content) lines limit).ending =
        (play settings' (some content) lines limit).ending ∧
      (play settings (some content) lines limit).machine =
        (play settings' (some content) lines limit).machine := by
  cases content with
  | error error => exact ⟨rfl, rfl⟩
  | ok bytes =>
    cases hload : (machine lines).loadDump bytes with
    | error error =>
      rw [play_of_loadDump_error hload, play_of_loadDump_error hload]
      exact ⟨rfl, rfl⟩
    | ok loaded =>
      rw [play_of_loadDump hload, play_of_loadDump hload]
      exact Machine.runFrom_congr _ _ _ _ _ _

/-- The emissions that show make up the output. -/
theorem text_play (settings : Settings) (content : Except Error (List UInt8))
    (lines : List String) (limit : Nat) :
    String.join (emissionsOf (play settings (some content) lines limit).events.toList) =
      (play settings (some content) lines limit).machine.output.text := by
  cases content with
  | error error => rfl
  | ok bytes =>
    cases hload : (machine lines).loadDump bytes with
    | error error =>
      rw [play_of_loadDump_error hload]
      rfl
    | ok loaded =>
      have hempty := output_of_loadDump hload
      rw [play_of_loadDump hload]
      refine Machine.text_runFrom (emissionsOf_observe settings) ?_ limit
      rw [hempty]
      rfl

/-- The outcome of a dump that was loaded tells of the run of the machine, whatever shows of it. -/
theorem tells_play_of_loadDump (h : (machine lines).loadDump bytes = .ok (m, cells))
    (path : Text.Pathname) (outputOnly : Bool) (files : FileTree) (limit : Nat) :
    let settings := settingsFor path outputOnly
    Tells outputOnly (outcome settings files (play settings (some (.ok bytes)) lines limit))
      (m.runUnobserved limit) := by
  intro settings
  have hempty : String.join (emissionsOf (#[] : Array Event).toList) = m.output.text := by
    rw [output_of_loadDump h]
    rfl
  obtain ⟨hending, hmachine⟩ := Machine.runFrom_congr settings.observe (fun _ => [])
    #[.noticed (.loaded cells)] #[] m limit
  rw [play_of_loadDump h]
  refine tells_outcome hmachine hending (Machine.text_runFrom (fun _ => rfl) hempty limit) ?_
  intro honly
  have hunseen : settings.observe = fun _ => [] := by
    subst honly
    rfl
  rw [hunseen, Machine.events_runFrom, List.filterMap_append]
  rfl

end Play

section Modes

variable {read : Text.Pathname → Except PathFault (List UInt8)} {path : String}
  {files : FileTree} {lines : List String} {limit : Nat}

theorem perform_eq (position : Option String) (outputOnly : Bool) :
    perform read ⟨some (.text path), position, outputOnly⟩ files lines limit =
      (outcome (settingsFor (.ofString path) outputOnly) files
        (play (settingsFor (.ofString path) outputOnly)
          (some (onFile .readDump (.ofString path) (read (.ofString path)))) lines limit)).after
        ((RunRequest.notices ⟨some (.text path), position, outputOnly⟩).flatMap
          (Notice.pieces (.leastShown outputOnly))) := by
  have hsettings : RunRequest.settings ⟨some (.text path), position, outputOnly⟩ =
      .ok (settingsFor (.ofString path) outputOnly) := rfl
  have hdump : (settingsFor (.ofString path) outputOnly).dump = some (.ofString path) := rfl
  simp only [perform, hsettings, hdump, Option.map_some, outcome, conclude_snd,
    RunRequest.leastLevel]

/-- The command under arguments that ask for a dump by option, and for no other. -/
theorem runCommandOn_of_parse {argv : List String} {arguments : Arguments} {outputOnly : Bool}
    (hparse : Arguments.parse grammar argv = .ok arguments)
    (hrequest : request arguments = ⟨some (.text path), none, outputOnly⟩) :
    runCommandOn read argv files lines limit =
      outcome (settingsFor (.ofString path) outputOnly) files
        (play (settingsFor (.ofString path) outputOnly)
          (some (onFile .readDump (.ofString path) (read (.ofString path)))) lines limit) := by
  rw [runCommandOn, Grammar.start, hparse, ← Outcome.after_nil (outcome _ _ _)]
  simp only [hrequest]
  exact perform_eq none outputOnly

theorem runCommandOn_ram (hpath : grammar.IsPlain path) :
    runCommandOn read ["--ram", path] files lines limit =
      outcome (settingsFor (.ofString path) false) files
        (play (settingsFor (.ofString path) false)
          (some (onFile .readDump (.ofString path) (read (.ofString path)))) lines limit) := by
  have hnone : Arguments.parse grammar [] = .ok .none := by decide +kernel
  have hparse : Arguments.parse grammar ["--ram", path] =
      .ok ⟨none, [("--ram", .text path)], [], []⟩ := parse_ram hpath hnone
  exact runCommandOn_of_parse hparse rfl

theorem runCommandOn_ram_outputOnly (hpath : grammar.IsPlain path) :
    runCommandOn read ["--ram", path, "--output-only"] files lines limit =
      outcome (settingsFor (.ofString path) true) files
        (play (settingsFor (.ofString path) true)
          (some (onFile .readDump (.ofString path) (read (.ofString path)))) lines limit) := by
  have hflag : Arguments.parse grammar ["--output-only"] =
      .ok ⟨none, [], ["--output-only"], []⟩ := by decide +kernel
  have hparse : Arguments.parse grammar ["--ram", path, "--output-only"] =
      .ok ⟨none, [("--ram", .text path)], ["--output-only"], []⟩ := parse_ram hpath hflag
  exact runCommandOn_of_parse hparse rfl

/-- Either way to show a run, what the command writes tells of the run without the states. -/
theorem tells_runCommandOn (hpath : grammar.IsPlain path)
    (read : Text.Pathname → Except PathFault (List UInt8)) (files : FileTree)
    (lines : List String) (limit : Nat) :
    let run := play (settingsFor (.ofString path) true)
      (some (onFile .readDump (.ofString path) (read (.ofString path)))) lines limit
    Tells false (runCommandOn read ["--ram", path] files lines limit) run ∧
      Tells true (runCommandOn read ["--ram", path, "--output-only"] files lines limit) run := by
  rw [runCommandOn_ram hpath, runCommandOn_ram_outputOnly hpath]
  generalize onFile .readDump (.ofString path) (read (.ofString path)) = content
  obtain ⟨hending, hmachine⟩ := play_congr (settingsFor (.ofString path) false)
    (settingsFor (.ofString path) true) content lines limit
  have htext := text_play (settingsFor (.ofString path) true) content lines limit
  exact ⟨tells_outcome hmachine hending htext nofun, tells_outcome rfl rfl htext fun _ => rfl⟩

end Modes

end RunCommand

end DecimalMachine
