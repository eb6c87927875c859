import TapeMachine.Text.Blank

/-!
# TapeMachine.Pattern.Basic

What the readers of patterns share. A pattern is a regular expression; no text is ever matched
against one here, so that what is kept of a pattern is only how deeply its parts are nested. Of
what Unicode says about characters, their kinds and their cases, patterns know nothing.

* `Mode`     — how a pattern is read at some place, with the white space that it passes over.
* `nesting`  — how deeply parts are nested that stand side by side.
* `Progress` — what a step of a reader comes to, and `Progress.run`, the steps one after the other.
-/

namespace TapeMachine.Pattern

structure Mode where
  spaced : Bool := false
  /-- The pattern is about characters; otherwise it is about bytes, and only about those that are
  characters by themselves. -/
  unicode : Bool := true
  folded : Bool := false

/-- Passes over white space and comments, beginning inside of a comment or not. A comment goes
from `#` to the end of the line. -/
def skipSpaces : Bool → List Char → List Char
  | _, [] => []
  | true, c :: rest => skipSpaces (c ≠ '\n') rest
  | false, c :: rest =>
    if Text.isBlank c then skipSpaces false rest
    else if c = '#' then skipSpaces true rest
    else c :: rest

namespace Mode

def skip (m : Mode) (text : List Char) : List Char :=
  if m.spaced then skipSpaces false text else text

/-- The character that comes next, white space apart. Of a comment only the mark is passed over. -/
def next? (m : Mode) (text : List Char) : Option Char :=
  if m.spaced then
    match text.dropWhile Text.isBlank with
    | '#' :: rest => (rest.dropWhile Text.isBlank).head?
    | rest => rest.head?
  else text.head?

/-- Whether a character can be told from others where the pattern is about bytes. -/
def tells (m : Mode) (c : Char) : Bool := m.unicode || c.toNat < 0x80

/-- Whether it is known which characters are the same. The cases of bytes are known. -/
def compares (m : Mode) : Bool := !(m.folded && m.unicode)

end Mode

/-- The nesting of parts that stand side by side: several of them make up a level. -/
def nesting : List Nat → Nat
  | [] => 0
  | [part] => part
  | parts => 1 + parts.foldl max 0

inductive Progress (σ ρ : Type) where
  | refused
  | done (result : ρ)
  | more (state : σ) (rest : List Char)

/-- Goes on step by step, as long as the steps make the text shorter. -/
def Progress.run {σ ρ : Type} (step : σ → List Char → Progress σ ρ) (state : σ)
    (text : List Char) : Option ρ :=
  match step state text with
  | .refused => none
  | .done result => some result
  | .more state rest => if _ : rest.length < text.length then run step state rest else none
termination_by text.length
decreasing_by assumption

end TapeMachine.Pattern
