import TapeMachine.Settings.Basic

/-!
# TapeMachine.Settings.File

The settings file, read line by line. White space around a line does not count, blank lines and
lines that begin with `#` say nothing. A line in square brackets opens a section; in the section
`interpreter` a line with `=` assigns a value to a key, and one pair of double quotes around the
value is taken off. All other lines say nothing.

* `File.Line`        — what one line says.
* `File.assignments` — the assignments of a text, in order.
* `File.finals`      — the last assignment to every key.
* `File.read`        — the layer of a text, with a warning for every key that is not known and
  every value that cannot be understood.
-/

namespace TapeMachine.Settings.File

inductive Line where
  | nothing
  | opens (name : List Char)
  | assigns (key value : List Char)
  deriving DecidableEq

structure Assignment where
  key : String
  value : String
  deriving DecidableEq

inductive Warning where
  | unknownKey (key : String)
  | unknownPolicy (word : String)
  | notANumber (key value : String)
  deriving DecidableEq

def lines : List Char → List (List Char)
  | [] => [[]]
  | '\n' :: rest => [] :: lines rest
  | c :: rest =>
    match lines rest with
    | [] => [[c]]
    | line :: later => (c :: line) :: later

/-- A value without the pair of double quotes around it, if there is one. -/
def unquote : List Char → List Char
  | '"' :: rest => if rest.getLast? = some '"' then rest.dropLast else '"' :: rest
  | value => value

def splitAssign : List Char → Option (List Char × List Char)
  | [] => none
  | '=' :: rest => some ([], rest)
  | c :: rest => (splitAssign rest).map fun (key, value) => (c :: key, value)

def readAssign (text : List Char) : Line :=
  match splitAssign text with
  | none => .nothing
  | some (key, value) => .assigns (Text.trim key) (unquote (Text.trim value))

def readLine (line : List Char) : Line :=
  match Text.trim line with
  | [] => .nothing
  | '#' :: _ => .nothing
  | '[' :: rest =>
    if rest.getLast? = some ']' then .opens (Text.trim rest.dropLast) else readAssign ('[' :: rest)
  | text => readAssign text

def sectionName : List Char := "interpreter".toList

/-- The assignments of the section, in order; `inside` says whether the first line is in it. -/
def collect : Bool → List Line → List Assignment
  | _, [] => []
  | inside, .nothing :: rest => collect inside rest
  | _, .opens name :: rest => collect (name = sectionName) rest
  | true, .assigns key value :: rest =>
    ⟨String.ofList key, String.ofList value⟩ :: collect true rest
  | false, .assigns _ _ :: rest => collect false rest

def assignments (text : String) : List Assignment :=
  collect false ((lines text.toList).map readLine)

/-- The last assignment to every key, in order. -/
def finals : List Assignment → List Assignment
  | [] => []
  | a :: rest => if rest.any (·.key = a.key) then finals rest else a :: finals rest

/-- The number that a value denotes; underscores between the digits do not count. -/
def number? (value : String) : Option Nat :=
  Text.Numeral.value? (value.toList.filter (· ≠ '_'))

def readNumber (a : Assignment) : Option Nat × List Warning :=
  match number? a.value with
  | some n => (some n, [])
  | none => (none, [.notANumber a.key a.value])

/-- Adds to a layer what an assignment says, and a warning if it says nothing. -/
def apply (layer : Layer) (a : Assignment) : Layer × List Warning :=
  match a.key with
  | "policy" =>
    match Policy.ofText a.value with
    | .ok policy => ({ layer with policy := some policy }, [])
    | .error _ => (layer, [.unknownPolicy (Policy.normalize a.value)])
  | "capacity" =>
    let (n, warnings) := readNumber a
    ({ layer with capacity := n }, warnings)
  | "timeout_ms" =>
    let (n, warnings) := readNumber a
    ({ layer with timeoutMs := n }, warnings)
  | "max_steps" =>
    let (n, warnings) := readNumber a
    ({ layer with maxSteps := n }, warnings)
  | key => (layer, [.unknownKey key])

def applyAll : Layer → List Assignment → Layer × List Warning
  | layer, [] => (layer, [])
  | layer, a :: rest =>
    let (layer, warnings) := apply layer a
    let (layer, later) := applyAll layer rest
    (layer, warnings ++ later)

def read (text : String) : Layer × List Warning := applyAll .empty (finals (assignments text))

end TapeMachine.Settings.File
