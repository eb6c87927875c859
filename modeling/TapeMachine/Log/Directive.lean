import TapeMachine.Log.Event
import TapeMachine.Pattern.Group
import TapeMachine.Text.Decimal
import TapeMachine.Text.Slice

/-!
# TapeMachine.Log.Directive

Rules about which events are logged, as they are written. A directive names a level, or the
beginning of a target, or both as `target=level`; in square brackets it may also ask for a span, or
for a field in braces. The value that it asks of a field is a number or a pattern.

* `Directive`         — a rule.
* `Flaw`              — why a text is no rule.
* `Directive.ofText`  — the rule that a text is. Its parts are cut out at positions that are
  counted without the white space at the beginning of the text, but from its beginning, so that
  white space there moves them; a part may then begin or end inside of a character.
-/

namespace TapeMachine.Log

structure Directive where
  /-- The highest level of detail that is logged; 0 is nothing. -/
  detail : Nat := Level.trace.detail
  target : Option String := none
  span : Option String := none
  /-- The field that the event has to have, and whether a value is asked for as well. -/
  field : Option (String × Bool) := none

inductive Flaw where
  | senseless
  | misaligned (cut : Text.Misaligned)

namespace Directive

def wordDetail? (word : String) : Option Nat :=
  match word.toLower with
  | "off" => some 0
  | "" => some Level.error.detail
  | "error" => some Level.error.detail
  | "warn" => some Level.warn.detail
  | "info" => some Level.info.detail
  | "debug" => some Level.debug.detail
  | "trace" => some Level.trace.detail
  | _ => none

def detail? (text : String) : Option Nat :=
  match Text.Numeral.value? text.toList with
  | some n => if n ≤ Level.trace.detail then some n else none
  | none => wordDetail? text

/-- Where the reading of a directive is, with the position at which the part begins that is
read. -/
inductive Place where
  | start
  | levelOrTarget (first : Nat)
  | span (first : Nat)
  | field (first : Nat)
  | afterField
  | afterSpan
  | level (first : Nat)

def isInitial (c : Char) : Bool := c ∈ ['-', ':', '_'] || Text.isAlphanumeric c

def cut (text : List Char) (first last : Nat) : Except Flaw String :=
  (Text.slice text first last).mapError .misaligned

def isValue (text : List Char) : Bool := Text.isDecimal text || Pattern.isPattern text

/-- The field that a text asks for. The value stands between the first two equality signs. -/
def fieldOfText (text : String) : Except Flaw (String × Bool) :=
  let name := String.ofList (text.toList.takeWhile (· ≠ '='))
  match text.toList.dropWhile (· ≠ '=') with
  | [] => if text = "" then .error .senseless else .ok (name, false)
  | _ :: rest => if isValue (rest.takeWhile (· ≠ '=')) then .ok (name, true) else .error .senseless

def advance (text : List Char) (d : Directive) (position : Nat) (c : Char) :
    Place → Except Flaw (Directive × Place)
  | .start =>
    if c = '[' then .ok (d, .span (position + 1))
    else if isInitial c then .ok (d, .levelOrTarget position)
    else .error .senseless
  | .levelOrTarget first =>
    if c = '=' then
      (cut text first position).map fun name =>
        ({ d with target := some name }, .level (position + 1))
    else if c = '[' then
      (cut text first position).map fun name =>
        ({ d with target := some name }, .span (position + 1))
    else .ok (d, .levelOrTarget first)
  | .span first =>
    if c = ']' then
      (cut text first position).map fun name => ({ d with span := some name }, .afterSpan)
    else if c = '{' then
      (cut text first position).map fun name =>
        ({ d with span := if name = "" then none else some name }, .field (position + 1))
    else .ok (d, .span first)
  | .field first =>
    if c = '}' then
      ((cut text first position).bind fieldOfText).map fun f =>
        ({ d with field := some f }, .afterField)
    else .ok (d, .field first)
  | .afterField => if c = ']' then .ok (d, .afterSpan) else .error .senseless
  | .afterSpan => if c = '=' then .ok (d, .level (position + 1)) else .error .senseless
  | .level first => .ok (d, .level first)

def advanceAll (text : List Char) :
    Nat → List Char → Directive × Place → Except Flaw (Directive × Place)
  | _, [], state => .ok state
  | position, c :: rest, (d, place) =>
    match advance text d position c place with
    | .error flaw => .error flaw
    | .ok state => advanceAll text (position + c.utf8Size) rest state

def withLevel (d : Directive) (text : String) : Except Flaw Directive :=
  if text = "" then .ok d
  else match detail? text with
    | some detail => .ok { d with detail := detail }
    | none => .error .senseless

/-- The directive with the level that a text names, or else with the text as its target. -/
def withLevelOrTarget (d : Directive) (text : String) : Directive :=
  match detail? text with
  | some detail => { d with detail := detail }
  | none => { d with target := some text }

def finish (text : List Char) : Directive × Place → Except Flaw Directive
  | (d, .levelOrTarget first) => (cut text first (Text.byteLength text)).map d.withLevelOrTarget
  | (d, .level first) => (cut text first (Text.byteLength text)).bind d.withLevel
  | (d, .afterSpan) => .ok d
  | (_, _) => .error .senseless

def ofText (text : List Char) : Except Flaw Directive :=
  (advanceAll text 0 (Text.trim text) ({}, .start)).bind (finish text)

/-- Whether events can be judged by the directive alone, without spans and values. -/
def isStatic (d : Directive) : Bool :=
  d.span.isNone && match d.field with
    | some (_, valued) => !valued
    | none => true

def appliesTo (target : String) (fields : List String) (d : Directive) : Bool :=
  (match d.target with
    | some start => start.toList.isPrefixOf target.toList
    | none => true) &&
  (match d.field with
    | some (name, _) => fields.contains name
    | none => true)

def targetWeight (d : Directive) : Nat :=
  match d.target with
  | some start => start.utf8ByteSize + 1
  | none => 0

def fieldName? (d : Directive) : Option String := d.field.map (·.1)

/-- Whether the second directive comes before the first where both apply to an event: by the
length of its target, by asking for a field, and by the order of the names of the fields, the last
of them first. Of two that ask for the same the second comes before the first. -/
def yieldsTo (a b : Directive) : Bool :=
  if a.targetWeight ≠ b.targetWeight then a.targetWeight < b.targetWeight
  else match a.fieldName?, b.fieldName? with
    | none, _ => true
    | some _, none => false
    | some x, some y => x ≤ y

end Directive

end TapeMachine.Log
