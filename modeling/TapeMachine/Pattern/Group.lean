import TapeMachine.Pattern.Set
import TapeMachine.Text.Alphanumeric

/-!
# TapeMachine.Pattern.Group

Patterns as a whole: alternatives, each of which is a row of parts, the repetition of parts, and
groups in parentheses. A group may have a name, and a group without a number may change the mode
within it; `(?x)` and the like change the mode up to the end of the group that they stand in.

* `Group`       — a group the end of which has not been reached.
* `Reading`     — a reading in progress.
* `isPattern`   — whether a text is a pattern.
-/

namespace TapeMachine.Pattern

/-! ## Flags -/

def flagLetters : List Char := ['i', 'm', 's', 'U', 'u', 'R', 'x', '-']

/-- Reads flags up to a colon or a closing parenthesis, which is left, with those before. None is
given twice, and a hyphen is not the last. -/
def flags : List Char → List Char → Option (List Char × List Char)
  | _, [] => none
  | given, c :: rest =>
    if c = ':' ∨ c = ')' then
      if given.getLast? = some '-' then none else some (given, c :: rest)
    else if c ∈ flagLetters ∧ c ∉ given then flags (given ++ [c]) rest
    else none

/-- What flags make of a property of the mode that belongs to one of them. -/
def setting (given : List Char) (flag : Char) (before : Bool) : Bool :=
  if flag ∈ given.takeWhile (· ≠ '-') then true
  else if flag ∈ given then false
  else before

def Mode.change (m : Mode) (given : List Char) : Mode where
  spaced := setting given 'x' m.spaced
  unicode := setting given 'u' m.unicode
  folded := setting given 'i' m.folded

/-! ## Names -/

def isName : List Char → Bool
  | [] => false
  | c :: rest =>
    (c = '_' || Text.isAlphabetic c) &&
      rest.all fun c => c ∈ ['_', '.', '[', ']'] || Text.isAlphanumeric c

def name (text : List Char) : Option (List Char × List Char) :=
  match text.dropWhile (· ≠ '>') with
  | [] => none
  | _ :: rest =>
    let name := text.takeWhile (· ≠ '>')
    if isName name then some (name, rest) else none

/-! ## Groups -/

structure Group where
  outside : Mode
  /-- The nesting of the parts of the alternative that is being read, the last one first; for a
  change of the mode, which cannot be repeated, there is nothing. -/
  parts : List (Option Nat) := []
  alternatives : List Nat := []

namespace Group

def add (g : Group) (part : Option Nat) : Group := { g with parts := part :: g.parts }

def alternative (g : Group) : Nat := nesting (g.parts.map (·.getD 0))

def divide (g : Group) : Group :=
  { g with parts := [], alternatives := g.alternative :: g.alternatives }

def content (g : Group) : Nat := nesting (g.alternative :: g.alternatives)

def repeatLast (g : Group) : Option Group :=
  match g.parts with
  | some part :: parts => some { g with parts := some (1 + part) :: parts }
  | _ => none

end Group

/-! ## Reading -/

structure Reading where
  mode : Mode := {}
  names : List (List Char) := []
  group : Group := { outside := {} }
  outer : List Group := []

namespace Reading

def add (r : Reading) (part : Nat) : Reading := { r with group := r.group.add (some part) }

def openGroup (r : Reading) (mode : Mode) : Reading :=
  { r with mode := mode, group := { outside := r.mode }, outer := r.group :: r.outer }

def openNamed (r : Reading) (text : List Char) : Progress Reading Nat :=
  match name text with
  | none => .refused
  | some (name, rest) =>
    if name ∈ r.names then .refused
    else .more { r.openGroup r.mode with names := name :: r.names } rest

def openFlagged (r : Reading) (text : List Char) : Progress Reading Nat :=
  match flags [] text with
  | some (given, ':' :: rest) => .more (r.openGroup (r.mode.change given)) rest
  | some ([], _) => .refused
  | some (given, _ :: rest) =>
    .more { r with mode := r.mode.change given, group := r.group.add none } rest
  | _ => .refused

/-- Reads on after an opening parenthesis. To look ahead or back is not possible. -/
def parenthesis (r : Reading) (text : List Char) : Progress Reading Nat :=
  match r.mode.skip text with
  | '?' :: '=' :: _ => .refused
  | '?' :: '!' :: _ => .refused
  | '?' :: '<' :: '=' :: _ => .refused
  | '?' :: '<' :: '!' :: _ => .refused
  | '?' :: 'P' :: '<' :: rest => r.openNamed rest
  | '?' :: '<' :: rest => r.openNamed rest
  | '?' :: rest => r.openFlagged rest
  | rest => .more (r.openGroup r.mode) rest

def close (r : Reading) (rest : List Char) : Progress Reading Nat :=
  match r.outer with
  | [] => .refused
  | parent :: outer =>
    .more { r with
      mode := r.group.outside
      group := parent.add (some (1 + r.group.content))
      outer := outer } rest

/-- Repeats the last part. A question mark after the mark of repetition belongs to it. -/
def repetition (r : Reading) (rest : List Char) : Progress Reading Nat :=
  match r.group.repeatLast, rest with
  | none, _ => .refused
  | some group, '?' :: rest => .more { r with group := group } rest
  | some group, rest => .more { r with group := group } rest

/-- Takes in a smallest part: a character only if it is known what is the same as it. -/
def addAtom (r : Reading) (atom : Atom) (rest : List Char) : Progress Reading Nat :=
  match atom with
  | .literal _ => if r.mode.compares then .more (r.add 0) rest else .refused
  | _ => .more (r.add 0) rest

/-- Reads on by a part of the pattern. Among bytes there is nothing that stands for all. -/
def step (r : Reading) (text : List Char) : Progress Reading Nat :=
  match r.mode.skip text with
  | [] => if r.outer.isEmpty then .done r.group.content else .refused
  | c :: rest =>
    match c with
    | '(' => r.parenthesis rest
    | ')' => r.close rest
    | '|' => .more { r with group := r.group.divide } rest
    | '[' =>
      match set r.mode rest with
      | none => .refused
      | some (depth, rest) => .more (r.add depth) rest
    | '?' | '*' | '+' => r.repetition rest
    | '{' => .refused
    | '\\' =>
      match escape r.mode rest with
      | none => .refused
      | some (atom, rest) => r.addAtom atom rest
    | '.' => if r.mode.unicode then r.addAtom .kind rest else .refused
    | '^' | '$' => r.addAtom .place rest
    | _ => r.addAtom (.literal c) rest

end Reading

def levels : Nat := 250

def isPattern (text : List Char) : Bool :=
  match Progress.run Reading.step {} text with
  | none => false
  | some depth => depth ≤ levels

example : isPattern "a|(b+?)[^x-z&&\\n]".toList = true := by cbv

example : isPattern "a|(b".toList = false := by cbv

example : isPattern "(?i)a".toList = false ∧ isPattern "(?i-u)a".toList = true := by cbv

end TapeMachine.Pattern
