import TapeMachine.Log.Directive
import TapeMachine.Log.Library

/-!
# TapeMachine.Log.Filter

Which events are logged. A filter is written as directives with commas between them.

* `Filter.ofText` — a filter; one bad directive spoils it.
* `Filter.admits` — whether an event is logged. Of the directives that apply to it the most
  specific one decides: the one with the longest target, and then the one that asks for a field.
* `Library.ofVariable` — a library that writes the log by filters of this kind.
-/

namespace TapeMachine.Log

structure Filter where
  directives : List Directive

namespace Filter

def parts : List Char → List (List Char)
  | [] => [[]]
  | ',' :: rest => [] :: parts rest
  | c :: rest =>
    match parts rest with
    | [] => [[c]]
    | part :: later => (c :: part) :: later

/-- The filter that a text is. Without any directive only errors are logged. -/
def ofText (text : String) : Except Flaw Filter :=
  match ((parts text.toList).filter (· ≠ [])).mapM Directive.ofText with
  | .error flaw => .error flaw
  | .ok [] => .ok ⟨[{ detail := Level.error.detail }]⟩
  | .ok directives => .ok ⟨directives⟩

/-- The more specific of two directives; of two like ones the later. -/
def stronger (best : Option Directive) (d : Directive) : Option Directive :=
  match best with
  | none => some d
  | some b => if b.yieldsTo d then some d else some b

def decisive? (f : Filter) (target : String) (fields : List String) : Option Directive :=
  (f.directives.filter fun d => d.isStatic && d.appliesTo target fields).foldl stronger none

/-- Whether an event is logged. The message counts as a field. -/
def admits (f : Filter) (e : Event) : Bool :=
  match f.decisive? e.target ("message" :: e.fields.map (·.1)) with
  | none => false
  | some d => e.level.detail ≤ d.detail

def selection (f : Filter) : Selection := ⟨f.admits⟩

/-- The filter that a text is when what makes no sense in it is passed over. -/
def lenient (text : String) : Filter :=
  ⟨((parts text.toList).filter (· ≠ [])).filterMap fun part => (Directive.ofText part).toOption⟩

end Filter

def Library.complaint : Flaw → Complaint
  | .senseless => .useless
  | .misaligned cut => .fatal cut.message

/-- The library that reads filters of this kind from a variable. -/
def Library.ofVariable (value : Option String) : Library where
  ofEnvironment :=
    match value with
    | none => .error .useless
    | some text => ((Filter.ofText text).map Filter.selection).mapError Library.complaint
  ofFilter text := (Filter.lenient text).selection

def Value.shown : Value → String
  | .plain text => text
  | .quoted text => Text.quote text

def Event.shown (e : Event) : String := e.lineBy Text.disarm Value.shown

end TapeMachine.Log
