import TapeMachine.Text.Blank

/-!
# TapeMachine.Policy

What happens at the ends of the tape, and how users write it.
-/

namespace TapeMachine

inductive Policy where
  /-- The pointer comes back in at the other end. -/
  | wrap
  | strict
  deriving DecidableEq, Inhabited

namespace Policy

def name : Policy → String
  | wrap => "wrap"
  | strict => "strict"

/-- A text as policies are compared: without surrounding white space, ASCII letters small. -/
def normalize (text : String) : String :=
  String.ofList ((Text.trim text.toList).map Char.toLower)

def unknownMessage (word : String) : String :=
  s!"unknown boundary policy '{word}' (expected 'wrap' or 'strict')"

/-- The policy that a text names, or else the message about it. -/
def ofText (text : String) : Except String Policy :=
  let word := normalize text
  if word = wrap.name then .ok wrap
  else if word = strict.name then .ok strict
  else .error (unknownMessage word)

end Policy

end TapeMachine
