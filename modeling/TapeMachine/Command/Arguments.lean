import TapeMachine.Command.Task
import TapeMachine.Text.Numeral
import TapeMachine.Text.Plain

/-!
# TapeMachine.Command.Arguments

The words of a command line and what they ask for: a grammar of the kind that libraries for command
lines offer, spelled out.

* `Parameter`, `Switch` — the options: a parameter has a value, a switch has none.
* `Grammar`             — which options a command knows, and what its plain words are.
* `Reading`             — the reading of a command line in progress. A value that stands in a word
  of its own is judged only when the reading comes to the next known option or plain word, or to
  the end; a value that is attached to its option is judged at once.
* `Invocation.ofWords`  — what a whole command line asks for, or why it is refused.
-/

namespace TapeMachine.Command

/-! ## Options -/

inductive Parameter where
  | policy
  | capacity
  | timeout
  | maxSteps
  | config
  | file
  deriving DecidableEq

inductive Switch where
  | debug
  | help
  | verbose
  deriving DecidableEq

namespace Parameter

def name : Parameter → String
  | policy => "policy"
  | capacity => "capacity"
  | timeout => "timeout"
  | maxSteps => "max-steps"
  | config => "config"
  | file => "file"

def letter? : Parameter → Option Char
  | file => some 'f'
  | _ => none

def placeholder : Parameter → String
  | policy => "POLICY"
  | capacity => "CELLS"
  | timeout => "MS"
  | maxSteps => "N"
  | config => "PATH"
  | file => "PATH"

def shown (p : Parameter) : String := "--" ++ p.name ++ " <" ++ p.placeholder ++ ">"

end Parameter

namespace Switch

def name : Switch → String
  | debug => "debug"
  | help => "help"
  | verbose => "verbose"

def letter : Switch → Char
  | debug => 'd'
  | help => 'h'
  | verbose => 'v'

def shown (s : Switch) : String := "--" ++ s.name

end Switch

inductive Refusal where
  | unexpected (word : String)
  | unknownCommand (word : String)
  | invalidValue (parameter : Parameter) (value reason : String)
  | invalidDemo (word : String)
  | missingValue (parameter : Parameter)
  | missingDemo
  | repeatedParameter (parameter : Parameter)
  | repeatedSwitch (switch : Switch)
  | needlessValue (switch : Switch) (value : String)
  deriving DecidableEq

/-- The message about a refused command line. What it quotes from there has no effect on a
terminal. -/
def Refusal.message : Refusal → String
  | unexpected word => s!"error: unexpected argument '{Text.plain word}' found"
  | unknownCommand word => s!"error: unrecognized subcommand '{Text.plain word}'"
  | invalidValue p value reason =>
    s!"error: invalid value '{Text.plain value}' for '{p.shown}': {Text.plain reason}"
  | invalidDemo word => s!"error: invalid value '{Text.plain word}' for '[NAME]'"
  | missingValue p => s!"error: a value is required for '{p.shown}' but none was supplied"
  | missingDemo => "error: a value is required for '[NAME]' but none was supplied"
  | repeatedParameter p => s!"error: the argument '{p.shown}' cannot be used multiple times"
  | repeatedSwitch s => s!"error: the argument '{s.shown}' cannot be used multiple times"
  | needlessValue s value =>
    s!"error: unexpected value '{Text.plain value}' for '{s.shown}' found; " ++
      "no more were expected"

namespace Options

def has (o : Options) : Parameter → Bool
  | .policy => o.policy.isSome
  | .capacity => o.capacity.isSome
  | .timeout => o.timeoutMs.isSome
  | .maxSteps => o.maxSteps.isSome
  | .config => o.config.isSome
  | .file => o.file.isSome

def hasSwitch (o : Options) : Switch → Bool
  | .debug => o.debug
  | .help => o.help
  | .verbose => o.verbose

/-- The number that a value denotes, without regard to white space. -/
def number (p : Parameter) (value : String) : Except Refusal Nat :=
  match Text.Numeral.read value.toList with
  | .ok n => .ok n
  | .error fault => .error (.invalidValue p value fault.message)

/-- The path that a value denotes, which has to have a character. -/
def path (p : Parameter) (value : String) : Except Refusal String :=
  if value = "" then .error (.missingValue p) else .ok value

/-- Takes in the value of a parameter that has not been given before. -/
def assign (o : Options) (value : String) : Parameter → Except Refusal Options
  | .policy =>
    match Policy.ofText value with
    | .ok policy => .ok { o with policy := some policy }
    | .error reason => .error (.invalidValue .policy value reason)
  | .capacity => (number .capacity value).map fun n => { o with capacity := some n }
  | .timeout => (number .timeout value).map fun n => { o with timeoutMs := some n }
  | .maxSteps => (number .maxSteps value).map fun n => { o with maxSteps := some n }
  | .config => (path .config value).map fun path => { o with config := some path }
  | .file => (path .file value).map fun path => { o with file := some path }

def give (o : Options) (p : Parameter) (value : String) : Except Refusal Options :=
  if o.has p then .error (.repeatedParameter p) else o.assign value p

def turnOn (o : Options) (s : Switch) : Except Refusal Options :=
  if o.hasSwitch s then .error (.repeatedSwitch s)
  else match s with
    | .debug => .ok { o with debug := true }
    | .help => .ok { o with help := true }
    | .verbose => .ok { o with verbose := true }

end Options

/-! ## Grammars -/

inductive Words where
  | command
  | code
  | demo
  deriving DecidableEq

structure Grammar where
  parameters : List Parameter
  switches : List Switch
  words : Words

namespace Grammar

def general : Grammar := ⟨[], [.help, .verbose], .command⟩

def run : Grammar :=
  ⟨[.policy, .capacity, .timeout, .maxSteps, .config, .file], [.debug, .help, .verbose], .code⟩

def check : Grammar := ⟨[.file], [.help, .verbose], .code⟩

def demo : Grammar := ⟨[.policy], [.help, .verbose], .demo⟩

end Grammar

def commandNames : List String := ["run", "check", "demo"]

/-! ## Reading -/

inductive Pending where
  | nothing
  | parameter (p : Parameter) (value : Option String)
  | demo (word : String)

structure Reading where
  options : Options := {}
  pending : Pending := .nothing
  /-- After `--` no word is an option. -/
  literal : Bool := false
  /-- Whether a demo has been named, even if its name is not judged yet. -/
  named : Bool := false
  demo : Option Demo := none

namespace Reading

def settle (r : Reading) : Except Refusal Reading :=
  match r.pending with
  | .nothing => .ok r
  | .parameter p none => .error (.missingValue p)
  | .parameter p (some value) =>
    (r.options.give p value).map fun options => { r with options := options, pending := .nothing }
  | .demo word =>
    match Demo.ofName? word with
    | some demo => .ok { r with demo := some demo, pending := .nothing }
    | none => .error (if word = "" then .missingDemo else .invalidDemo word)

def turnOn (r : Reading) (s : Switch) : Except Refusal Reading :=
  match r.settle with
  | .error refusal => .error refusal
  | .ok r => (r.options.turnOn s).map fun options => { r with options := options }

def parameter (r : Reading) (p : Parameter) (value : Option String) : Except Refusal Reading :=
  match r.settle with
  | .error refusal => .error refusal
  | .ok r =>
    match value with
    | none => .ok { r with pending := .parameter p none }
    | some value => (r.options.give p value).map fun options => { r with options := options }

/-- Takes in an option by its word, which may have a value attached after `=`. -/
def long (g : Grammar) (r : Reading) (name : String) (value : Option String) :
    Except Refusal Reading :=
  match g.switches.find? (·.name = name), g.parameters.find? (·.name = name) with
  | some s, _ =>
    match value with
    | some value => .error (.needlessValue s value)
    | none => r.turnOn s
  | none, some p => r.parameter p value
  | none, none => .error (.unexpected ("--" ++ name))

/-- Takes in options by their letters. What follows the letter of a parameter is its value, with
or without `=`. -/
def short (g : Grammar) (r : Reading) : List Char → Except Refusal Reading
  | [] => .ok r
  | c :: rest =>
    match g.switches.find? (·.letter = c), g.parameters.find? (·.letter? = some c) with
    | some s, _ =>
      match r.turnOn s with
      | .error refusal => .error refusal
      | .ok r => short g r rest
    | none, some p =>
      match rest with
      | [] => r.parameter p none
      | '=' :: value => r.parameter p (some (String.ofList value))
      | value => r.parameter p (some (String.ofList value))
    | none, none => .error (.unexpected (String.ofList ['-', c]))

inductive Shape where
  | plain
  | separator
  | long (name : String) (value : Option String)
  | short (letters : List Char)

/-- The look of a word. A lone `-` is a plain word. -/
def shape (word : String) : Shape :=
  match word.toList with
  | ['-', '-'] => .separator
  | '-' :: '-' :: text =>
    let name := String.ofList (text.takeWhile (· ≠ '='))
    match text.dropWhile (· ≠ '=') with
    | [] => .long name none
    | _ :: value => .long name (some (String.ofList value))
  | ['-'] => .plain
  | '-' :: letters => .short letters
  | _ => .plain

/-- Reads words. Gives what is left of them: the command and what belongs to it, or the code. -/
def words (g : Grammar) : Reading → List String → Except Refusal (Reading × List String)
  | r, [] => r.settle.map (·, [])
  | r, word :: rest =>
    match if r.literal then .plain else shape word with
    | .separator => words g { r with literal := true } rest
    | .long name value =>
      match r.long g name value with
      | .error refusal => .error refusal
      | .ok r => words g r rest
    | .short letters =>
      match r.short g letters with
      | .error refusal => .error refusal
      | .ok r => words g r rest
    | .plain =>
      match r.pending, r.literal, g.words with
      | .parameter p none, false, _ =>
        words g { r with pending := .parameter p (some word) } rest
      | _, literal, .command =>
        if word ∈ commandNames then
          if literal then .error (.unexpected word) else r.settle.map (·, word :: rest)
        else .error (.unknownCommand word)
      | _, _, .code => r.settle.map (·, word :: rest)
      | _, _, .demo =>
        if r.named then .error (.unexpected word)
        else match r.settle with
          | .error refusal => .error refusal
          | .ok r => words g { r with named := true, pending := .demo word } rest

end Reading

/-! ## Invocations -/

namespace Invocation

def readTask (name : String) (rest : List String) : Except Refusal (Options × Task) :=
  match name with
  | "run" => (Reading.words .run {} rest).map fun (r, code) => (r.options, .run r.options code)
  | "check" =>
    (Reading.words .check {} rest).map fun (r, code) => (r.options, .check r.options code)
  | _ => (Reading.words .demo {} rest).map fun (r, _) => (r.options, .demo r.options r.demo)

def ofWords (line : List String) : Except Refusal Invocation :=
  match Reading.words .general {} line with
  | .error refusal => .error refusal
  | .ok (r, []) => .ok ⟨r.options.help, r.options.verbose, none⟩
  | .ok (r, name :: rest) =>
    (readTask name rest).map fun (options, task) =>
      ⟨r.options.help, r.options.verbose || options.verbose, some task⟩

end Invocation

end TapeMachine.Command
