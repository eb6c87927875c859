import TapeMachine.Pattern.Atom

/-!
# TapeMachine.Pattern.Set

Sets of characters in square brackets. The members of a set are characters, ranges, kinds and other
sets, and between its members there may stand `&&`, `--` and `~~`, which work from left to right.

* `Unfinished` — a set the end of which has not been reached.
* `set`        — reads a set, with its nesting.
-/

namespace TapeMachine.Pattern

structure Unfinished where
  members : List Nat := []
  left : Option Nat := none
  /-- There has been nothing yet but hyphens, which stand for themselves. -/
  fresh : Bool := true

namespace Unfinished

def add (s : Unfinished) (member : Nat) : Unfinished :=
  { s with members := member :: s.members, fresh := false }

def addHyphen (s : Unfinished) : Unfinished := { s with members := 0 :: s.members }

def content (s : Unfinished) : Nat :=
  match s.left with
  | none => nesting s.members
  | some left => 1 + max left (nesting s.members)

def operate (s : Unfinished) : Unfinished :=
  { members := [], left := some s.content, fresh := false }

end Unfinished

def kindNames : List String :=
  ["alnum", "alpha", "ascii", "blank", "cntrl", "digit", "graph", "lower", "print", "punct",
   "space", "upper", "word", "xdigit"]

/-- Reads the name of a kind, after the bracket that stands before its colon. Also tells whether
the kind is turned into its contrary. -/
def namedKind? : List Char → Option (Bool × List Char)
  | ':' :: text =>
    let (contrary, text) := match text with
      | '^' :: rest => (true, rest)
      | _ => (false, text)
    match text.dropWhile (· ≠ ':') with
    | ':' :: ']' :: rest =>
      if String.ofList (text.takeWhile (· ≠ ':')) ∈ kindNames then some (contrary, rest) else none
    | _ => none
  | _ => none

/-- Reads what follows the bracket that opens a set. Among bytes a set has no contrary. -/
def openSet (m : Mode) (text : List Char) : Option (Unfinished × List Char) :=
  match m.skip text with
  | '^' :: rest => if m.unicode then some ({}, rest) else none
  | rest => some ({}, rest)

def item (m : Mode) : List Char → Option (Atom × List Char)
  | [] => none
  | '\\' :: rest => escape m rest
  | c :: rest => some (.literal c, rest)

def isMember (m : Mode) : Atom → Bool
  | .literal c => m.tells c
  | .kind => true
  | .place => false

def isRange (m : Mode) : Atom → Atom → Bool
  | .literal first, .literal last => m.tells first && m.tells last && first ≤ last
  | _, _ => false

/-- Reads a member that is no set, which may be a range. A hyphen does not make a range if the set
ends after it, or if it begins an operator. -/
def member (m : Mode) (text : List Char) : Option (List Char) :=
  match item m text with
  | none => none
  | some (first, rest) =>
    match m.skip rest with
    | '-' :: more =>
      if m.next? more = some ']' ∨ m.next? more = some '-' then
        if isMember m first then some ('-' :: more) else none
      else match item m (m.skip more) with
        | none => none
        | some (last, rest) => if isRange m first last then some rest else none
    | rest => if isMember m first then some rest else none

structure OpenSets where
  innermost : Unfinished
  outer : List Unfinished := []

namespace OpenSets

def within (s : OpenSets) (change : Unfinished → Unfinished) : OpenSets :=
  { s with innermost := change s.innermost }

/-- Goes on after a member that is no set, if it is known what is the same as it. -/
def goOn (m : Mode) (s : OpenSets) (rest : List Char) : Progress OpenSets (Nat × List Char) :=
  if m.compares then .more s rest else .refused

def readMember (m : Mode) (s : OpenSets) (text : List Char) :
    Progress OpenSets (Nat × List Char) :=
  match member m text with
  | none => .refused
  | some rest => (s.within (·.add 0)).goOn m rest

def readBracket (m : Mode) (s : OpenSets) (text : List Char) :
    Progress OpenSets (Nat × List Char) :=
  match namedKind? text with
  | some (contrary, rest) =>
    if contrary ∧ ¬m.unicode then .refused else (s.within (·.add 0)).goOn m rest
  | none =>
    match openSet m text with
    | none => .refused
    | some (inner, rest) => .more ⟨inner, s.innermost :: s.outer⟩ rest

def close (s : OpenSets) (rest : List Char) : Progress OpenSets (Nat × List Char) :=
  let depth := 1 + s.innermost.content
  match s.outer with
  | [] => .done (depth, rest)
  | parent :: outer => .more ⟨parent.add depth, outer⟩ rest

/-- Reads on by a member, an operator or a bracket. A closing bracket that comes first is a
member. -/
def step (m : Mode) (s : OpenSets) (text : List Char) : Progress OpenSets (Nat × List Char) :=
  match m.skip text with
  | [] => .refused
  | '-' :: rest =>
    if s.innermost.fresh then (s.within (·.addHyphen)).goOn m rest
    else match rest with
      | '-' :: rest => .more (s.within (·.operate)) rest
      | _ => s.readMember m ('-' :: rest)
  | ']' :: rest =>
    if s.innermost.fresh ∧ s.innermost.members = [] then (s.within (·.add 0)).goOn m rest
    else s.close rest
  | '&' :: '&' :: rest => .more (s.within (·.operate)) rest
  | '~' :: '~' :: rest => .more (s.within (·.operate)) rest
  | '[' :: rest => s.readBracket m rest
  | text => s.readMember m text

end OpenSets

def set (m : Mode) (text : List Char) : Option (Nat × List Char) :=
  match openSet m text with
  | none => none
  | some (s, rest) => Progress.run (OpenSets.step m) ⟨s, []⟩ rest

end TapeMachine.Pattern
