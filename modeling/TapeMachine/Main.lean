import TapeMachine.Command.Perform
import TapeMachine.Files

/-!
# TapeMachine.Main

The command line program. Files are read before the command is planned; what has to be evaluated
then is evaluated here, step by step: a byte is read when a `,` comes to it, and what a step writes
is passed on before the next one is made.
-/

namespace TapeMachine.Console

open Command

def variableNames : List String :=
  ["BF_POLICY", "BF_CAPACITY", "BF_TIMEOUT_MS", "BF_MAX_STEPS", "XDG_CONFIG_HOME", "HOME",
   filterVariable]

/-- The word by which the process was started. -/
def programName : IO String := do
  try
    let line ← IO.FS.readBinFile "/proc/self/cmdline"
    let word := line.toList.takeWhile (· ≠ 0)
    return (String.fromUTF8? ⟨word.toArray⟩).getD "bf"
  catch _ => return "bf"

def fetch (path : String) : IO (Except String ByteArray) := do
  try
    return .ok (← IO.FS.readBinFile path)
  catch
    | .noFileOrDirectory .. => return .error Files.notFound
    | e => return .error (toString e)

/-- The surroundings without the files. No step is made before the plan, so no time passes. -/
def survey : IO Host := do
  let environment ← variableNames.filterMapM fun name => do
    return (← IO.getEnv name).map (name, ·)
  let program ← programName
  let terminal ← (← IO.getStderr).isTty
  let lookup := fun name => environment.lookup name
  let read := fun _ => .error Files.notFound
  let w : World := { lookup, read, input := [], output := {}, pace := 0, program, terminal }
  return { w.host with clock := fun _ => none }

/-- The files that an invocation may read. -/
def pathsOf (h : Host) (i : Invocation) : List String :=
  match i.task with
  | some (.run o _) => o.file.toList ++ (settingsPath? h o).toList
  | some (.check o _) => o.file.toList
  | _ => []

def withFiles (h : Host) (i : Invocation) : IO Host := do
  let files ← (pathsOf h i).mapM fun path => return (path, ← fetch path)
  return { h with read := fun path => (files.lookup path).getD (.error Files.notFound) }

def emit (s : Log.Selection) (e : Log.Event) : IO Unit := do
  if s.admits e then IO.eprintln e.shown

/-- Passes bytes on. Gives the text of the error if they are refused. -/
def pass (bytes : Array UInt8) : IO (Option String) := do
  if bytes.isEmpty then return none
  try
    let stdout ← IO.getStdout
    stdout.write ⟨bytes⟩
    stdout.flush
    return none
  catch e => return some (toString e)

def fetchEvent : IO Input.Event := do
  try
    match (← (← IO.getStdin).read 1).toList with
    | byte :: _ => return .byte byte
    | [] => return .finished
  catch e => return .failed (toString e)

def refusing (text : String) : Output := { limit := some 0, refusal := text }

/-- Makes a step whose output is passed on. If it is refused, the step is made again with an output
that refuses it. -/
def step (job : Job) (i : Instruction) (m : Machine) : IO Step := do
  let m ← if i = .read ∧ job.mode = .live then pure { m with input := [← fetchEvent] } else pure m
  match m.step job i with
  | .stop ending m => return .stop ending m
  | .next m' =>
    match ← pass m'.output.taken with
    | none => return .next { m' with output := {} }
    | some text => return { m with output := refusing text }.step job i

def begin (job : Job) (m : Machine) : IO (Machine × Option Trouble) := do
  match m.begin job with
  | (m', none) =>
    match ← pass m'.output.taken with
    | none => return ({ m' with output := {} }, none)
    | some text => return { m with output := refusing text }.begin job
  | failed => return failed

def isOver (deadline : Option Nat) : IO Bool := do
  match deadline with
  | none => return false
  | some time => return time ≤ (← IO.monoMsNow)

/-- Makes the steps of a machine. There is no ending if the time is up before. -/
partial def proceed (s : Log.Selection) (deadline : Option Nat) (job : Job) (m : Machine) :
    IO (Option Ending × Machine) := do
  if ← isOver deadline then return (none, m)
  match m.pending job with
  | .error ending => return (some ending, m)
  | .ok i =>
    emit s (.noted (.stepping (m.view i)))
    match ← step job i m with
    | .next m => proceed s deadline job m
    | .stop ending m => return (some ending, m)

/-- Evaluates a text. Gives how that has ended, unless the time is up, and the interpreter. -/
def evaluate (s : Log.Selection) (deadline : Option Nat) (mode : Mode) (source : String)
    (it : Interpreter) : IO (Option Ending × Interpreter) := do
  let it := it.reset
  emit s (.noted .reset)
  match Interpreter.read source with
  | .error cause =>
    emit s (.noted (.rejected cause))
    return (some (.failed (.rejected cause)), it)
  | .ok (program, jumps) =>
    emit s (.noted (.loaded (Interpreter.summary program jumps)))
    emit s (.noted (.started it.tape.policy it.tape.capacity))
    let job : Job := ⟨program, jumps, mode⟩
    let (ending, m) ← match ← begin job ⟨it.tape, it.pc, 0, [], {}, it.control⟩ with
      | (m, none) => proceed s deadline job m
      | (m, some trouble) => pure (some (.failed (trouble.failure (job.site m.pc))), m)
    if let some ending := ending then
      for note in Interpreter.lastNote m.steps ending do
        emit s (.noted note)
    return (ending, ⟨m.tape, program, jumps, m.pc, m.control⟩)

/-- Abandons the process. -/
def abandon (fault : Fault) : IO UInt32 := do
  IO.eprintln fault.message
  return 101

def settled (s : Log.Selection) : Outcome → IO UInt32
  | .abandoned fault _ => abandon fault
  | .exited status t => do
    for e in t.log do
      emit s e
    match ← pass t.output.taken with
    | some text => abandon (.printing text)
    | none =>
      IO.eprint t.errors
      return status.toUInt32

def runText (h : Host) (s : Log.Selection) (t : Trial) : IO UInt32 := do
  for e in t.events do
    emit s e
  let now ← IO.monoMsNow
  let deadline := t.settings.timeoutMs.map (now + ·)
  match ← evaluate s deadline t.mode t.source t.interpreter with
  | (none, _) =>
    IO.eprint (timeoutMessage t.settings)
    return 1
  | (some ending, _) =>
    let (status, errors) := t.verdict h ending
    IO.eprint errors
    return status.toUInt32

def runDemos (h : Host) (s : Log.Selection) : List Demo → Interpreter → IO UInt32
  | [], _ => return 0
  | demo :: rest, it => do
    match ← evaluate s none .live demo.source it with
    | (some (.failed cause), _) =>
      IO.eprint (cause.report (some h.program) demo.source h.errorLabel)
      return 1
    | (some (.broken fault), _) => abandon fault
    | (_, it) => runDemos h s rest it

def carryOut (h : Host) (s : Log.Selection) : Plan → IO UInt32
  | .settled outcome => settled s outcome
  | .text t => runText h s t
  | .demos it demos => runDemos h s demos it

def serve (args : List String) : IO UInt32 := do
  match Invocation.ofWords args with
  | .error refusal =>
    IO.eprintln refusal.message
    return 2
  | .ok i =>
    let h ← survey
    match h.log.selection i.verbose with
    | .error text => abandon (.logging text)
    | .ok s =>
      let h ← withFiles h i
      carryOut h s (plan h i)

end TapeMachine.Console

def main (args : List String) : IO UInt32 := TapeMachine.Console.serve args
