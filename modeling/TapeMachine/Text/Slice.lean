import TapeMachine.Text.Quoted

/-!
# TapeMachine.Text.Slice

Pieces of texts between positions that are counted in bytes, as the texts are encoded in UTF-8. A
position inside of a character cuts nothing out: `slice` tells which character is in the way.
-/

namespace TapeMachine.Text

/-- A position inside of a character, at which a piece was to begin or to end. -/
structure Misaligned where
  atEnd : Bool
  position : Nat
  character : Char
  first : Nat
  deriving DecidableEq

def Misaligned.message (m : Misaligned) : String :=
  let border := if m.atEnd then "end" else "start"
  let last := m.first + m.character.utf8Size
  s!"{border} byte index {m.position} is not a char boundary; " ++
    s!"it is inside '{escape m.character}' (bytes {m.first}..{last} of string)"

/-- The character that a position is inside of, and where it begins. The text starts at the first
of the given positions. -/
def straddling? : Nat → List Char → Nat → Option (Char × Nat)
  | _, [], _ => none
  | first, c :: rest, position =>
    if position ≤ first then none
    else if position < first + c.utf8Size then some (c, first)
    else straddling? (first + c.utf8Size) rest position

/-- The characters that begin between two positions, in a text that starts at the first of the
given positions. -/
def between : Nat → List Char → Nat → Nat → List Char
  | _, [], _, _ => []
  | position, c :: rest, first, last =>
    let later := between (position + c.utf8Size) rest first last
    if first ≤ position ∧ position < last then c :: later else later

def slice (text : List Char) (first last : Nat) : Except Misaligned String :=
  match straddling? 0 text first, straddling? 0 text last with
  | some (c, place), _ => .error ⟨false, first, c, place⟩
  | none, some (c, place) => .error ⟨true, last, c, place⟩
  | none, none => .ok (String.ofList (between 0 text first last))

def byteLength (text : List Char) : Nat := text.foldl (fun n c => n + c.utf8Size) 0

example : slice " éa".toList 1 3 = .ok "é" := by rfl

end TapeMachine.Text
