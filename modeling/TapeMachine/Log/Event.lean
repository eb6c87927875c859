import TapeMachine.Interpreter
import TapeMachine.Settings.File

/-!
# TapeMachine.Log.Event

The events that are logged, and the lines that they are logged as.

* `Event.level`, `target`, `message`, `fields` — the parts of a log line.
* `Event.line` — the line with all values as they are.
-/

namespace TapeMachine.Log

inductive Level where
  | error
  | warn
  | info
  | debug
  | trace
  deriving DecidableEq

namespace Level

def name : Level → String
  | error => "ERROR"
  | warn => "WARN"
  | info => "INFO"
  | debug => "DEBUG"
  | trace => "TRACE"

/-- The place of a level among the levels; the more detail, the higher. -/
def detail : Level → Nat
  | error => 1
  | warn => 2
  | info => 3
  | debug => 4
  | trace => 5

end Level

inductive Event where
  | noted (note : Note)
  | ignored (warning : Settings.File.Warning)
  | settingsFile (path : String)
  | noSettingsFile (path error : String)
  | resolved (settings : Settings)

inductive Value where
  | plain (text : String)
  /-- A text that is shown in quotes where quoting is asked for. -/
  | quoted (text : String)

def Value.text : Value → String
  | plain text => text
  | quoted text => text

def showOption : Option Nat → String
  | none => "None"
  | some n => s!"Some({n})"

def showPolicy : Policy → String
  | .wrap => "Wrap"
  | .strict => "Strict"

def showSettings (s : Settings) : String :=
  "Settings \x7b policy: " ++ showPolicy s.policy ++ ", capacity: " ++ toString s.capacity ++
    ", timeout_ms: " ++ showOption s.timeoutMs ++ ", max_steps: " ++ showOption s.maxSteps ++ " \x7d"

namespace Event

def level : Event → Level
  | noted (.stepping _) => .trace
  | noted _ => .debug
  | ignored _ => .warn
  | settingsFile _ => .debug
  | noSettingsFile _ _ => .debug
  | resolved _ => .debug

def target : Event → String
  | noted (.stepping _) => "bf_tape::engine"
  | noted _ => "bf_tape::interpreter"
  | ignored _ => "bf_tape::config"
  | settingsFile _ => "bf_tape::config"
  | noSettingsFile _ _ => "bf_tape::config"
  | resolved _ => "bf_tape::commands::run"

def message : Event → String
  | noted .reset => "interpreter reset"
  | noted (.loaded _) => "program indexed"
  | noted (.rejected _) => "program rejected"
  | noted (.started _ _) => "evaluation started"
  | noted (.stepping _) => "step"
  | noted (.finished _) => "evaluation finished"
  | noted (.failed _ _) => "evaluation failed"
  | ignored (.unknownKey _) => "ignoring unknown config key"
  | ignored (.unknownPolicy word) => "ignoring config value: " ++ Policy.unknownMessage word
  | ignored (.notANumber _ _) => "ignoring config value: not a number"
  | settingsFile _ => "loaded config file"
  | noSettingsFile _ _ => "no config file"
  | resolved _ => "resolved settings"

def fields : Event → List (String × Value)
  | noted .reset => []
  | noted (.loaded s) =>
    [("instructions", .plain (toString s.instructions)), ("loops", .plain (toString s.loops))]
  | noted (.rejected cause) => [("error", .plain cause.message)]
  | noted (.started policy capacity) =>
    [("policy", .plain policy.name), ("capacity", .plain (toString capacity))]
  | noted (.stepping view) =>
    [("ip", .plain (toString view.ip)), ("ptr", .plain (toString view.pointer)),
     ("cell", .plain (toString view.cell)), ("op", .plain view.instruction.symbol.toString)]
  | noted (.finished steps) => [("steps", .plain (toString steps))]
  | noted (.failed steps cause) =>
    [("steps", .plain (toString steps)), ("error", .plain cause.message)]
  | ignored (.unknownKey key) => [("key", .plain key)]
  | ignored (.unknownPolicy _) => [("key", .plain "policy")]
  | ignored (.notANumber key value) => [("key", .quoted key), ("value", .quoted value)]
  | settingsFile path => [("path", .plain path)]
  | noSettingsFile path error => [("path", .plain path), ("error", .plain error)]
  | resolved settings => [("settings", .plain (showSettings settings))]

/-- The line of an event, given how messages and values are shown. -/
def lineBy (showMessage : String → String) (showValue : Value → String) (e : Event) : String :=
  String.intercalate " "
    (e.level.name :: showMessage e.message ::
      e.fields.map fun (name, value) => name ++ "=" ++ showValue value)

def line (e : Event) : String := e.lineBy id Value.text

end Event

end TapeMachine.Log
