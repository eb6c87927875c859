import TapeMachine.Command.Host
import TapeMachine.Command.Source
import TapeMachine.Command.Task
import TapeMachine.Command.Usage

/-!
# TapeMachine.Command.Serve

What the command does for an invocation.

* `settle`   — the settings of a run, by flags, environment and settings file.
* `Plan`     — what is left to be done when no text has been evaluated yet. `plan` makes one.
* `carryOut` — the evaluations that are left, and what follows from how they end. `none` means that
  the fuel ran out, which bounds the steps of every evaluation.
* `serve`    — the whole command.
-/

namespace TapeMachine.Command

/-- Ends because there is no text, with the usage where the arguments are at fault. -/
def withoutSource (h : Host) (usage : String) (cause : NoSource) : Outcome :=
  let sentence := h.program ++ ": " ++ cause.message ++ "\n"
  match cause with
  | .missing => explained h 2 usage
  | .conflict => explained h 2 (sentence ++ usage)
  | .unreadable _ _ => explained h 1 sentence

/-! ## Settings -/

def settingsFileName : String := "bf.toml"

/-- A name put behind the path of a directory. -/
def inDirectory (directory name : String) : String :=
  if directory = "" ∨ directory.endsWith "/" then directory ++ name else directory ++ "/" ++ name

def settingsPath? (h : Host) (o : Options) : Option String :=
  o.config <|> h.configHome.map (inDirectory · settingsFileName)

/-- The layer of the settings file; without such a file it gives nothing. -/
def fileLayer (h : Host) (o : Options) : Layer × List Log.Event :=
  match settingsPath? h o with
  | none => (.empty, [])
  | some path =>
    match readText h.read path with
    | .error error => (.empty, [.noSettingsFile path error])
    | .ok text =>
      let (layer, warnings) := Settings.File.read text
      (layer, .settingsFile path :: warnings.map .ignored)

def flagLayer (o : Options) : Layer := ⟨o.policy, o.capacity, o.timeoutMs, o.maxSteps⟩

def settle (h : Host) (o : Options) : Settings × List Log.Event :=
  let (file, events) := fileLayer h o
  let settings := Settings.resolve (flagLayer o) (Layer.ofVariables h.lookup) file
  (settings, events ++ [.resolved settings])

/-! ## Plans -/

/-- A text to be run, with what is known of the run so far. -/
structure Trial where
  settings : Settings
  events : List Log.Event
  /-- Whether the run is given up because the time is up, if it comes to the limit on its steps. -/
  timed : Bool
  interpreter : Interpreter
  mode : Mode
  source : String

inductive Plan where
  | settled (outcome : Outcome)
  | text (trial : Trial)
  | demos (interpreter : Interpreter) (demos : List Demo)

/-- Ends because the handler of interrupts cannot be installed. -/
def withoutHandler (h : Host) (error : String) (events : List Log.Event) : Outcome :=
  .exited 1
    ⟨h.input, h.output, h.program ++ ": failed to set ctrl+c handler: " ++ error ++ "\n", events⟩

/-- Whether the time is up before the step limit is reached. -/
def timeFirst : Option Nat → Option Nat → Bool
  | none, _ => false
  | some _, none => true
  | some time, some steps => time ≤ steps

def Options.mode (o : Options) : Mode := if o.debug then .table else .live

/-- Prepares a text to be run. The run is limited to the steps that it makes before the time is up,
where that comes before the limit of the settings. -/
def prepare (h : Host) (o : Options) (source : String) : Plan :=
  let (s, events) := settle h o
  match h.handler with
  | some error => .settled (withoutHandler h error events)
  | none =>
    match Tape.allocate? s.capacity s.policy with
    | none => .settled (.abandoned .tapeTooLarge h.output)
    | some tape =>
      let time := s.timeoutMs.bind h.clock
      let timed := timeFirst time s.maxSteps
      let it := (Interpreter.ofTape tape).setControl ⟨if timed then time else s.maxSteps, false⟩
      .text ⟨s, events, timed, it, o.mode, source⟩

def planRun (h : Host) (o : Options) (code : List String) : Plan :=
  if o.help then .settled (explained h 0 (Usage.run h.program))
  else match loadSource h.read o.file code with
    | .error cause => .settled (withoutSource h (Usage.run h.program) cause)
    | .ok source => prepare h o source

def approval (s : Summary) : String := s!"ok: {s.instructions} instructions, {s.loops} loops"

def checkSource (h : Host) (source : String) : Outcome :=
  let (summary, _, notes) := (Interpreter.new Tape.defaultCapacity .wrap).check source
  let log := notes.toList.map .noted
  match summary with
  | .error cause =>
    let errors := (Failure.rejected cause).report (some h.program) source h.errorLabel
    .exited 1 ⟨h.input, h.output, errors, log⟩
  | .ok summary =>
    match h.output.writeLine (approval summary) with
    | (output, none) => .exited 0 ⟨h.input, output, "", log⟩
    | (output, some text) => .abandoned (.printing text) output

def check (h : Host) (o : Options) (code : List String) : Outcome :=
  if o.help then explained h 0 (Usage.check h.program)
  else match loadSource h.read o.file code with
    | .error cause => withoutSource h (Usage.check h.program) cause
    | .ok source => checkSource h source

def planDemo (h : Host) (o : Options) (demo : Option Demo) : Plan :=
  if o.help then .settled (explained h 0 (Usage.demo h.program))
  else match h.handler with
    | some error => .settled (withoutHandler h error [])
    | none =>
      let demos := match demo with
        | some demo => [demo]
        | none => Demo.all
      .demos (Interpreter.new Tape.defaultCapacity (o.policy.getD .wrap)) demos

def planTask (h : Host) : Task → Plan
  | .run o code => planRun h o code
  | .check o code => .settled (check h o code)
  | .demo o demo => planDemo h o demo

def plan (h : Host) (i : Invocation) : Plan :=
  match i.task with
  | none => .settled (explained h (if i.help then 0 else 2) (Usage.general h.program))
  | some task =>
    if i.help then .settled (explained h 0 (Usage.general h.program)) else planTask h task

/-! ## Evaluations -/

def timeoutMessage (s : Settings) : String :=
  s!"Execution aborted: wall-clock timeout exceeded ({s.timeoutMs.getD 0} ms)\n"

namespace Trial

/-- What there is to read. A table is written without reading anything. -/
def supply (t : Trial) (input : Input) : Input :=
  match t.mode with
  | .live => input
  | .table => []

/-- What is left to read of the standard input. -/
def unread (t : Trial) (h : Host) (e : Evaluation) : Input :=
  match t.mode with
  | .live => e.input
  | .table => h.input

def expired (t : Trial) : Ending → Bool
  | .failed (.stepLimit _) => t.timed
  | _ => false

/-- The status and the message for an evaluation that has come to its end. -/
def verdict (t : Trial) (h : Host) : Ending → Nat × String
  | .finished => (0, "")
  | .failed .canceled => (1, timeoutMessage t.settings)
  | .failed cause => (1, cause.report (some h.program) t.source h.errorLabel)
  | .broken _ => (1, "")

/-- What comes of a run. One that is given up because the time is up logs no end. -/
def conclude (t : Trial) (h : Host) (e : Evaluation) : Outcome :=
  if t.expired e.ending then
    .exited 1 ⟨t.unread h e, e.output, timeoutMessage t.settings,
      t.events ++ e.notes.toList.dropLast.map .noted⟩
  else
    let (status, errors) := t.verdict h e.ending
    .exited status ⟨t.unread h e, e.output, errors, t.events ++ e.notes.toList.map .noted⟩

end Trial

/-- Runs demos one after the other on the same interpreter, until one fails. -/
def runDemos (h : Host) (traced : Bool) (fuel : Nat) :
    List Demo → Interpreter → Input → Output → List Log.Event → Option Outcome
  | [], _, input, output, log => some (.exited 0 ⟨input, output, "", log⟩)
  | demo :: rest, it, input, output, log =>
    match it.evaluate traced fuel demo.source input output with
    | none => none
    | some e =>
      let log := log ++ e.notes.toList.map .noted
      match e.ending with
      | .finished => runDemos h traced fuel rest e.interpreter e.input e.output log
      | .failed cause =>
        let errors := cause.report (some h.program) demo.source h.errorLabel
        some (.exited 1 ⟨e.input, e.output, errors, log⟩)
      | .broken fault => some (.abandoned fault e.output)

def Plan.carryOut (h : Host) (traced : Bool) (fuel : Nat) : Plan → Option Outcome
  | settled outcome => some outcome
  | text t =>
    (t.interpreter.execute t.mode traced fuel t.source (t.supply h.input) h.output).map
      (t.conclude h)
  | demos it chosen => runDemos h traced fuel chosen it h.input h.output []

/-- Runs a text, given which events are logged. -/
def run (h : Host) (s : Log.Selection) (fuel : Nat) (o : Options) (code : List String) :
    Option Outcome :=
  (planRun h o code).carryOut h s.admitsSteps fuel

/-- The whole command. The log is set up before anything else is done. -/
def serve (h : Host) (fuel : Nat) (i : Invocation) : Option Outcome :=
  match h.log.selection i.verbose with
  | .error text => some (.abandoned (.logging text) h.output)
  | .ok s => ((plan h i).carryOut h s.admitsSteps fuel).map (·.filtered s)

end TapeMachine.Command
